import Mathlib.Data.List.Nodup
import PullSql.Catalog

/-!
# Changes of a catalog

Relations are created and dropped one change at a time, and a change that is refused leaves the
catalog as it is.

1. `create_eq_error_iff` and `drop_eq_error_iff` say when a change is refused, and with what.
2. A granted change takes the relation of its name out and puts what it brings behind the others
   (`relations_of_apply_eq_ok`).
3. So the relations are what the last granted changes of their names brought, in the order of these
   changes, and none of them has the catalog's own name (`holds_changed`).
-/

namespace PullSql.Catalog

/-- A change that a catalog is asked for. -/
inductive Change where
  | create (name : String) (schema : Schema)
  | drop (name : String)
  deriving DecidableEq, Repr

namespace Change

/-- The name of the relation that is created or dropped. -/
def name : Change → String
  | create name _ => name
  | drop name => name

/-- The relation that a change brings. -/
def relation? : Change → Option Relation
  | create name schema => some ⟨name, schema⟩
  | drop _ => none

/-- The changes behind which there is no other change of their name. -/
def lasts : List Change → List Change
  | [] => []
  | k :: later => if k.name ∈ later.map name then lasts later else k :: lasts later

end Change

/-- The catalog of a name without relations. -/
def called (ownName : String) : Catalog := ⟨ownName, []⟩

/-- The catalog that a change makes, or why it is refused. -/
def apply (c : Catalog) : Change → Except Error Catalog
  | .create name schema => c.create name schema
  | .drop name => c.drop name

/-- The catalog behind a change; one that is refused leaves it as it is. -/
def after (c : Catalog) (k : Change) : Catalog :=
  match c.apply k with
  | .ok d => d
  | .error _ => c

/-- The catalog behind a list of changes. -/
def changed (c : Catalog) (ks : List Change) : Catalog := ks.foldl after c

/-- The changes of a list that are not refused. -/
def granted : Catalog → List Change → List Change
  | _, [] => []
  | c, k :: ks => if (c.apply k).isOk then k :: granted (c.after k) ks else granted (c.after k) ks

/-! ## Last changes -/

namespace Change

theorem name_of_relation? {k : Change} {r : Relation} (h : k.relation? = some r) : k.name = r.name := by
  cases k with
  | create name schema =>
    cases h
    rfl
  | drop name => cases h

theorem mem_of_mem_lasts {k : Change} {ks : List Change} (h : k ∈ lasts ks) : k ∈ ks := by
  induction ks with
  | nil => exact h
  | cons j ks ih =>
    rw [lasts] at h
    split at h
    · exact List.mem_cons_of_mem j (ih h)
    · rcases List.mem_cons.mp h with rfl | h
      · exact List.mem_cons_self
      · exact List.mem_cons_of_mem j (ih h)

theorem pairwise_name_ne_lasts (ks : List Change) :
    (lasts ks).Pairwise fun j k => j.name ≠ k.name := by
  induction ks with
  | nil => exact .nil
  | cons k ks ih =>
    rw [lasts]
    split
    · exact ih
    · rename_i hk
      refine .cons (fun j hj hn => hk ?_) ih
      exact hn ▸ List.mem_map_of_mem (mem_of_mem_lasts hj)

/-- A new change takes the place of the last one of its name. -/
theorem lasts_append_singleton (ks : List Change) (k : Change) :
    lasts (ks ++ [k]) = (lasts ks).filter (fun j => j.name ≠ k.name) ++ [k] := by
  induction ks with
  | nil => simp [lasts]
  | cons j ks ih =>
    have hm : j.name ∈ (ks ++ [k]).map name ↔ j.name ∈ ks.map name ∨ j.name = k.name := by simp
    rw [List.cons_append, lasts, lasts, ih]
    by_cases hj : j.name ∈ ks.map name
    · rw [if_pos (hm.mpr (.inl hj)), if_pos hj]
    · rw [if_neg hj]
      by_cases hk : j.name = k.name
      · rw [if_pos (hm.mpr (.inr hk)), List.filter_cons_of_neg (by simp [hk])]
      · rw [if_neg (fun h => (hm.mp h).elim hj hk), List.filter_cons_of_pos (by simp [hk]),
          List.cons_append]

/-- The relations that the last of some changes bring, after one more change. -/
theorem relations_lasts_append_singleton (ks : List Change) (k : Change) :
    (lasts (ks ++ [k])).filterMap relation? =
      ((lasts ks).filterMap relation?).filter (fun r => r.name ≠ k.name) ++ k.relation?.toList := by
  rw [lasts_append_singleton, List.filterMap_append, List.filterMap_filter, List.filter_filterMap]
  congr 1
  · refine List.filterMap_congr fun j _ => ?_
    rcases hj : j.relation? with _ | r
    · simp
    · rw [name_of_relation? hj]
      by_cases hr : r.name = k.name <;> simp [Option.filter, hr]

end Change

/-! ## When a change is granted -/

variable {c d : Catalog} {name : String} {schema : Schema} {e : Error} {k : Change}

theorem contains_iff : c.contains name = true ↔ name ∈ c.relationNames := by
  simp [contains, relationNames]

theorem ite_error_eq_error_iff {α ε : Type} {p : Prop} [Decidable p] {x y : ε} {a : α} :
    (if p then .error x else .ok a : Except ε α) = .error y ↔ p ∧ y = x := by
  by_cases h : p <;> simp [h, eq_comm]

theorem ite_error_eq_ok_iff {α ε : Type} {p : Prop} [Decidable p] {x : ε} {a b : α} :
    (if p then .error x else .ok a : Except ε α) = .ok b ↔ ¬ p ∧ b = a := by
  by_cases h : p <;> simp [h, eq_comm]

theorem create_eq_error_iff : c.create name schema = .error e ↔
    (c.isOwnName name ∨ name ∈ c.relationNames) ∧ e = .relationAlreadyExists name := by
  rw [create, ite_error_eq_error_iff, Bool.or_eq_true, contains_iff]

theorem create_eq_ok_iff : c.create name schema = .ok d ↔
    ¬ (c.isOwnName name ∨ name ∈ c.relationNames) ∧
      d = { c with relations := c.relations ++ [⟨name, schema⟩] } := by
  rw [create, ite_error_eq_ok_iff, Bool.or_eq_true, contains_iff]

theorem drop_eq_error_iff : c.drop name = .error e ↔
    name ∉ c.relationNames ∧ e = .relationNotFound name := by
  rw [drop, ← ite_not, ite_error_eq_error_iff, contains_iff]

theorem drop_eq_ok_iff : c.drop name = .ok d ↔
    name ∈ c.relationNames ∧
      d = { c with relations := c.relations.eraseP (·.name == name) } := by
  rw [drop, ← ite_not, ite_error_eq_ok_iff, contains_iff, not_not]

/-! ## What a granted change does -/

theorem eraseP_eq_filter {rs : List Relation} (h : (rs.map (·.name)).Nodup) (name : String) :
    rs.eraseP (·.name == name) = rs.filter (fun r => r.name ≠ name) := by
  induction rs with
  | nil => rfl
  | cons r rs ih =>
    obtain ⟨hr, hrs⟩ := List.nodup_cons.mp h
    by_cases hn : r.name = name
    · have hf : ∀ s ∈ rs, s.name ≠ name := fun s hs hs' =>
        hr (List.mem_map.mpr ⟨s, hs, hs'.trans hn.symm⟩)
      rw [List.eraseP_cons_of_pos (by simpa using hn), List.filter_cons_of_neg (by simpa using hn),
        List.filter_eq_self.mpr (by simpa using hf)]
    · rw [List.eraseP_cons_of_neg (by simpa using hn), List.filter_cons_of_pos (by simpa using hn),
        ih hrs]

/-- A granted change takes the relation of its name out and puts what it brings behind the others. -/
theorem relations_of_apply_eq_ok (hc : c.relationNames.Nodup) (h : c.apply k = .ok d) :
    d.ownName = c.ownName ∧
      d.relations = c.relations.filter (fun r => r.name ≠ k.name) ++ k.relation?.toList := by
  cases k with
  | create name schema =>
    obtain ⟨hn, rfl⟩ := create_eq_ok_iff.mp h
    have hf : ∀ r ∈ c.relations, r.name ≠ name := by
      rintro r hr rfl
      exact hn (.inr (List.mem_map_of_mem hr))
    refine ⟨rfl, ?_⟩
    rw [Change.name, List.filter_eq_self.mpr (by simpa using hf)]
    rfl
  | drop name =>
    obtain ⟨-, rfl⟩ := drop_eq_ok_iff.mp h
    refine ⟨rfl, ?_⟩
    simp only [eraseP_eq_filter hc]
    exact (List.append_nil _).symm

theorem after_of_apply_eq_ok (h : c.apply k = .ok d) : c.after k = d := by
  simp only [after, h]

theorem after_of_apply_eq_error (h : c.apply k = .error e) : c.after k = c := by
  simp only [after, h]

/-! ## Runs -/

/-- The relations of a catalog are what granted changes leave, and its own name is not among theirs. -/
structure Holds (c : Catalog) (done : List Change) : Prop where
  relations : c.relations = (Change.lasts done).filterMap Change.relation?
  reserved : ∀ name ∈ c.relationNames, ¬ c.isOwnName name

theorem holds_called (ownName : String) : Holds (called ownName) [] :=
  ⟨rfl, by simp [called, relationNames]⟩

theorem Holds.nodup {done : List Change} (h : Holds c done) : c.relationNames.Nodup := by
  rw [relationNames, h.relations, List.Nodup, List.pairwise_map, List.pairwise_filterMap]
  refine (Change.pairwise_name_ne_lasts done).imp fun hn r hr s hs => ?_
  rwa [Change.name_of_relation? hr, Change.name_of_relation? hs] at hn

theorem Holds.append {done : List Change} (h : Holds c done) (hk : c.apply k = .ok d) :
    d.ownName = c.ownName ∧ Holds d (done ++ [k]) := by
  obtain ⟨ho, hr⟩ := relations_of_apply_eq_ok h.nodup hk
  refine ⟨ho, ?_, fun name hn => ?_⟩
  · rw [hr, h.relations, Change.relations_lasts_append_singleton]
  obtain ⟨r, hm, rfl⟩ := List.mem_map.mp hn
  rw [isOwnName, ho]
  rw [hr, List.mem_append] at hm
  rcases hm with hm | hm
  · exact h.reserved r.name (List.mem_map_of_mem (List.mem_of_mem_filter hm))
  · cases k with
    | create name schema =>
      obtain rfl := List.mem_singleton.mp hm
      exact fun hs => (create_eq_ok_iff.mp hk).1 (.inl hs)
    | drop name => cases hm

/-- Refused changes do not count. -/
theorem holds_changed {done : List Change} (h : Holds c done) (ks : List Change) :
    (c.changed ks).ownName = c.ownName ∧ Holds (c.changed ks) (done ++ granted c ks) := by
  induction ks generalizing c done with
  | nil => exact ⟨rfl, by rwa [granted, List.append_nil]⟩
  | cons k ks ih =>
    have hc : c.changed (k :: ks) = (c.after k).changed ks := rfl
    rw [hc, granted]
    rcases hk : c.apply k with e | d
    · rw [after_of_apply_eq_error hk]
      exact ih h
    · obtain ⟨ho, hd⟩ := h.append hk
      rw [after_of_apply_eq_ok hk]
      obtain ⟨h1, h2⟩ := ih hd
      rw [List.append_assoc] at h2
      exact ⟨h1.trans ho, h2⟩

end PullSql.Catalog
