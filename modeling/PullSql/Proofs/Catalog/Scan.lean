import PullSql.Proofs.Catalog.Changes
import PullSql.Plan.State
import PullSql.Cursor

/-!
# Scans of a catalog that changes

A scan lists the names that the catalog had when it was opened or last reset, while relations come
and go.

1. A fetch passes over the names that are not listed any more, up to the first one that still is
   (`Passes`); an open scan does nothing else (`passes_nextName`).
2. So the fetches between two snapshots go through the names of the first one from its front
   (`scan_goes_through_snapshot`).
-/

namespace PullSql.Catalog

open Plan (nextName)

/-- What may happen while a scan is open. -/
inductive Event where
  | change (k : Change)
  | fetch
  | reset
  deriving DecidableEq, Repr

/-- A catalog and a cursor over it. -/
structure Scanning where
  catalog : Catalog
  cursor : Cursor

namespace Scanning

/-- A new scan of a catalog. -/
def opened (c : Catalog) : Scanning := ⟨c, .ofPlan c .scan⟩

/-- What is left behind an event. -/
def step (s : Scanning) : Event → Scanning
  | .change k => { s with catalog := s.catalog.after k }
  | .fetch => { s with cursor := (s.cursor.fetch s.catalog).2 }
  | .reset => { s with cursor := s.cursor.reset s.catalog }

/-- What is left behind a list of events. -/
def run (s : Scanning) (es : List Event) : Scanning := es.foldl step s

/-- The fetches among events, each with the catalog that it met and its answer. -/
def fetches : Scanning → List Event → List (Catalog × Option Row)
  | _, [] => []
  | s, .fetch :: es => (s.catalog, (s.cursor.fetch s.catalog).1) :: fetches (s.step .fetch) es
  | s, e :: es => fetches (s.step e) es

/-- The moments at which an open scan has just looked at its catalog: it was opened, or it was reset
behind whatever events. -/
inductive AtSnapshot (ownName : String) : Scanning → Prop
  | opened (ks : List Change) : AtSnapshot ownName (opened ((called ownName).changed ks))
  | reset {s : Scanning} (hs : AtSnapshot ownName s) (es : List Event) :
      AtSnapshot ownName ((s.run es).step .reset)

end Scanning

/-! ## Passing over names -/

/-- What a fetch over a catalog makes of the names to come: it passes over those that the catalog does
not list and answers the first one that it does, or nothing at the end. -/
inductive Passes (c : Catalog) : List String → Option Row → List String → Prop
  | found {name : String} (skipped rest : List String)
      (hs : ∀ x ∈ skipped, x ∉ c.scanNames) (hn : name ∈ c.scanNames) :
      Passes c (skipped ++ name :: rest) (some (Row.ofName name)) rest
  | ended {skipped : List String} (hs : ∀ x ∈ skipped, x ∉ c.scanNames) : Passes c skipped none []

/-- Fetches go through names from the front, up to the names that are left. -/
inductive GoesThrough : List String → List (Catalog × Option Row) → List String → Prop
  | nil (names : List String) : GoesThrough names [] names
  | cons {c : Catalog} {answer : Option Row} {names rest last : List String}
      {log : List (Catalog × Option Row)} (hp : Passes c names answer rest)
      (hl : GoesThrough rest log last) : GoesThrough names ((c, answer) :: log) last

variable {c : Catalog} {names rest : List String} {log : List (Catalog × Option Row)}

theorem Passes.cons {name : String} {answer : Option Row} (hn : name ∉ c.scanNames)
    (h : Passes c names answer rest) : Passes c (name :: names) answer rest := by
  cases h with
  | found skipped rest hs hm =>
    exact .found (name :: skipped) rest (List.forall_mem_cons.mpr ⟨hn, hs⟩) hm
  | ended hs => exact .ended (List.forall_mem_cons.mpr ⟨hn, hs⟩)

/-- A name that means the catalog is its own name exactly, so it is live while it is listed. -/
theorem isLive_iff_mem_scanNames {name : String} (h : c.isOwnName name → name = c.ownName) :
    c.isLive name = true ↔ name ∈ c.scanNames := by
  have ho : c.isOwnName name = true ↔ name = c.ownName := ⟨h, fun e => e ▸ Name.same_refl _⟩
  rw [isLive, Bool.or_eq_true, contains_iff, ho, scanNames, List.mem_cons]

theorem passes_nextName (h : ∀ name ∈ names, c.isOwnName name → name = c.ownName) :
    Passes c names (nextName c names).1 (nextName c names).2 := by
  induction names with
  | nil => exact .ended (by simp)
  | cons name names ih =>
    obtain ⟨hn, hs⟩ := List.forall_mem_cons.mp h
    have hl := isLive_iff_mem_scanNames hn
    by_cases hm : name ∈ c.scanNames
    · rw [nextName, if_pos (hl.mpr hm)]
      exact .found [] names (by simp) hm
    · rw [nextName, if_neg (mt hl.mp hm)]
      exact (ih hs).cons hm

theorem Passes.subset {answer : Option Row} (h : Passes c names answer rest) : rest ⊆ names := by
  cases h with
  | found _ rest _ _ => exact fun x hx => List.mem_append_right _ (List.mem_cons_of_mem _ hx)
  | ended _ => exact List.nil_subset _

namespace GoesThrough

theorem exists_listed (h : GoesThrough names log rest) :
    ∃ listed : List String, log.filterMap (·.2) = listed.map Row.ofName ∧ listed.Sublist names := by
  induction h with
  | nil names => exact ⟨[], rfl, List.nil_sublist names⟩
  | cons hp _ ih =>
    obtain ⟨listed, hl, hs⟩ := ih
    cases hp with
    | @found name skipped _ _ _ =>
      refine ⟨name :: listed, congrArg (Row.ofName name :: ·) hl, ?_⟩
      exact (hs.cons_cons name).trans (List.sublist_append_right skipped _)
    | ended _ => exact ⟨listed, hl, hs.trans (List.nil_sublist _)⟩

/-- A name at the front that every catalog lists is answered first. -/
theorem exists_listed_of_head {name : String} (h : GoesThrough (name :: names) log rest)
    (hn : ∀ p ∈ log, name ∈ p.1.scanNames) :
    ∃ listed : List String, log.filterMap (·.2) = listed.map Row.ofName ∧
      listed.Sublist (name :: names) ∧ ∀ x ∈ listed.head?, x = name := by
  generalize hall : name :: names = all at h
  cases h with
  | nil all => exact ⟨[], rfl, List.nil_sublist _, by simp⟩
  | @cons c _ _ _ _ log hp hl =>
    have hc : name ∈ c.scanNames := hn _ List.mem_cons_self
    obtain ⟨listed, hf, hs⟩ := hl.exists_listed
    cases hp with
    | @found first skipped rest hk _ =>
      cases skipped with
      | nil =>
        obtain ⟨rfl, rfl⟩ := List.cons.inj hall
        exact ⟨name :: listed, congrArg (Row.ofName name :: ·) hf, hs.cons_cons name, by simp⟩
      | cons x skipped =>
        obtain ⟨rfl, -⟩ := List.cons.inj hall
        exact absurd hc (hk name List.mem_cons_self)
    | ended hk => exact absurd hc (hk name (hall ▸ List.mem_cons_self))

theorem eq_nil_of_eq_nil (h : GoesThrough names log rest) (hn : names = []) : rest = [] := by
  induction h with
  | nil _ => exact hn
  | cons hp _ ih => exact ih (List.eq_nil_of_subset_nil (hn ▸ hp.subset))

/-- Behind a fetch that finds nothing no name is left. -/
theorem eq_nil_of_none_mem (h : GoesThrough names log rest) (hn : (c, none) ∈ log) : rest = [] := by
  induction h with
  | nil _ => cases hn
  | cons hp hl ih =>
    rcases List.mem_cons.mp hn with he | hn
    · cases he
      cases hp
      exact hl.eq_nil_of_eq_nil rfl
    · exact ih hn

end GoesThrough

/-! ## Open scans -/

section Holds

variable {done : List Change}

/-- Of the names that a catalog lists, only its own one means the catalog. -/
theorem Holds.eq_ownName_of_same (h : Holds c done) {name : String} (hn : name ∈ c.scanNames)
    (hs : Name.same c.ownName name) : name = c.ownName := by
  rcases List.mem_cons.mp hn with rfl | hn
  · rfl
  · exact absurd hs (h.reserved name hn)

theorem Holds.nodup_scanNames (h : Holds c done) : c.scanNames.Nodup :=
  List.nodup_cons.mpr ⟨fun hm => h.reserved _ hm (Name.same_refl c.ownName), h.nodup⟩

end Holds

namespace Scanning

/-- The scan is open and has these names to come, and its catalog came about by changes. -/
structure Lists (ownName : String) (s : Scanning) (names : List String) : Prop where
  cursor : s.cursor = ⟨.scan, .scan names false⟩
  own : s.catalog.ownName = ownName
  holds : ∃ done, Holds s.catalog done
  reserved : ∀ name ∈ names, Name.same ownName name → name = ownName

variable {ownName : String} {s : Scanning}

theorem lists_opened (ownName : String) (ks : List Change) :
    Lists ownName (opened ((called ownName).changed ks))
      ((called ownName).changed ks).scanNames := by
  obtain ⟨ho, hd⟩ := holds_changed (holds_called ownName) ks
  refine ⟨rfl, ho, ⟨_, hd⟩, fun name hn hs => ?_⟩
  exact (hd.eq_ownName_of_same hn (ho ▸ hs)).trans ho

theorem Lists.change (h : Lists ownName s names) (k : Change) :
    Lists ownName (s.step (.change k)) names := by
  obtain ⟨done, hd⟩ := h.holds
  obtain ⟨ho, hd'⟩ := holds_changed hd [k]
  exact ⟨h.cursor, ho.trans h.own, ⟨_, hd'⟩, h.reserved⟩

/-- A fetch passes over names to the front of those that are left. -/
theorem Lists.fetch (h : Lists ownName s names) :
    ∃ rest, Passes s.catalog names (s.cursor.fetch s.catalog).1 rest ∧
      Lists ownName (s.step .fetch) rest := by
  have hr : ∀ name ∈ names, s.catalog.isOwnName name → name = s.catalog.ownName := by
    rw [h.own]
    intro name hn hs
    rw [isOwnName, h.own] at hs
    exact h.reserved name hn hs
  have hp := passes_nextName hr
  have hf : s.cursor.fetch s.catalog = ((nextName s.catalog names).1,
      ⟨.scan, .scan (nextName s.catalog names).2 false⟩) := by
    rw [h.cursor]
    rfl
  refine ⟨(nextName s.catalog names).2, by rwa [hf], ?_⟩
  exact ⟨congrArg Prod.snd hf, h.own, h.holds, fun x hx => h.reserved x (hp.subset hx)⟩

theorem Lists.reset (h : Lists ownName s names) :
    Lists ownName (s.step .reset) s.catalog.scanNames := by
  obtain ⟨done, hd⟩ := h.holds
  refine ⟨?_, h.own, h.holds, fun name hn hs => ?_⟩
  · rw [step, h.cursor]
    rfl
  · exact (hd.eq_ownName_of_same hn (h.own ▸ hs)).trans h.own

theorem Lists.step (h : Lists ownName s names) (e : Event) :
    ∃ names, Lists ownName (s.step e) names := by
  cases e with
  | change k => exact ⟨_, h.change k⟩
  | fetch =>
    obtain ⟨rest, -, hr⟩ := h.fetch
    exact ⟨rest, hr⟩
  | reset => exact ⟨_, h.reset⟩

theorem Lists.run (h : Lists ownName s names) (es : List Event) :
    ∃ names, Lists ownName (s.run es) names := by
  induction es generalizing s names with
  | nil => exact ⟨names, h⟩
  | cons e es ih =>
    obtain ⟨_, hs⟩ := h.step e
    exact ih hs

theorem AtSnapshot.lists (h : AtSnapshot ownName s) :
    Lists ownName s (ownName :: s.catalog.relationNames) := by
  have hl : Lists ownName s s.catalog.scanNames := by
    induction h with
    | opened ks => exact lists_opened ownName ks
    | reset _ es ih =>
      obtain ⟨_, hs⟩ := ih.run es
      exact hs.reset
  rwa [scanNames, hl.own] at hl

/-- Until the next reset the fetches go through the names to come, and all over catalogs of one name. -/
theorem Lists.goesThrough (h : Lists ownName s names) {es : List Event} (he : .reset ∉ es) :
    (∃ rest, GoesThrough names (s.fetches es) rest) ∧
      ∀ p ∈ s.fetches es, p.1.ownName = ownName := by
  induction es generalizing s names with
  | nil => exact ⟨⟨names, .nil names⟩, by simp [fetches]⟩
  | cons e es ih =>
    obtain ⟨hne, hes⟩ := not_or.mp (mt List.mem_cons.mpr he)
    cases e with
    | change k => exact ih (h.change k) hes
    | fetch =>
      obtain ⟨rest, hp, hr⟩ := h.fetch
      obtain ⟨⟨last, hl⟩, ho⟩ := ih hr hes
      exact ⟨⟨last, .cons hp hl⟩, List.forall_mem_cons.mpr ⟨h.own, ho⟩⟩
    | reset => exact absurd rfl hne

/-- **A scan keeps to its snapshot while the catalog changes.** Take an open scan that has just looked
at its catalog, and any events up to the next reset. The fetches among them go through the names of
that moment from the front: each passes over names that are not listed when it is made, and answers the
next one, which is. So the answers are some of these names in their order, each once, the catalog's own
name first; and once a fetch has found nothing, no name is left. -/
theorem scan_goes_through_snapshot (hs : s.AtSnapshot ownName) {es : List Event}
    (he : .reset ∉ es) :
    let snapshot := ownName :: s.catalog.relationNames
    let log := s.fetches es
    (∃ rest, GoesThrough snapshot log rest ∧ ∀ c, (c, none) ∈ log → rest = []) ∧
    (∀ p ∈ log, p.1.ownName = ownName) ∧
    ∃ listed : List String, log.filterMap (·.2) = listed.map Row.ofName ∧
      listed.Sublist snapshot ∧ listed.Nodup ∧ ∀ name ∈ listed.head?, name = ownName := by
  intro snapshot log
  have hl := hs.lists
  obtain ⟨⟨rest, hg⟩, ho⟩ := hl.goesThrough he
  have hown : ∀ p ∈ log, ownName ∈ p.1.scanNames := fun p hp => ho p hp ▸ List.mem_cons_self
  obtain ⟨listed, hf, hsub, hhead⟩ := hg.exists_listed_of_head hown
  obtain ⟨done, hd⟩ := hl.holds
  have hn : snapshot.Nodup := by
    have hn := hd.nodup_scanNames
    rwa [scanNames, hl.own] at hn
  exact ⟨⟨rest, hg, fun c hc => hg.eq_nil_of_none_mem hc⟩, ho, listed, hf, hsub, hn.sublist hsub, hhead⟩

/-- A scan that was reset after two relations were created, and from then on met a drop in front of
it, a relation that was dropped and created again, and one that its snapshot does not have. -/
theorem scan_goes_through_snapshot_of_changes :
    let create := fun name => Event.change (.create name [])
    let s := ((opened ((called "TABLES").changed [.create "a" []])).run
      [.fetch, create "b", create "c"]).step .reset
    let es := [.fetch, .change (.drop "a"), create "d", .fetch, .change (.drop "c"), create "c", .fetch,
      .fetch]
    s.AtSnapshot "TABLES" ∧ .reset ∉ es ∧
      (∃ rest, GoesThrough ["TABLES", "a", "b", "c"] (s.fetches es) rest ∧ rest = []) ∧
      ∃ listed : List String, listed.map Row.ofName = ["TABLES", "b", "c"].map Row.ofName ∧
        listed.Nodup := by
  intro create s es
  have hs : s.AtSnapshot "TABLES" := .reset (.opened [.create "a" []]) _
  have he : .reset ∉ es := by decide
  obtain ⟨⟨rest, hg, hr⟩, -, listed, hf, -, hn, -⟩ := scan_goes_through_snapshot hs he
  have hnames : s.catalog.relationNames = ["a", "b", "c"] := by decide
  rw [hnames] at hg
  exact ⟨hs, he, ⟨rest, hg, hr (s.run es).catalog (by decide)⟩, listed,
    hf.symm.trans (by decide), hn⟩

end Scanning

end PullSql.Catalog
