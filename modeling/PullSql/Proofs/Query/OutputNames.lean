import Mathlib.Data.List.Perm.Subperm
import PullSql.Proofs.Query.Rows

/-!
# Output names of a query

The name of an item is its alias, else the field name that it consists of, else one that is generated
from the stem of the settings and the position of the item. Generated names are distinct among
themselves, whatever the stem, but nothing keeps an alias from being one of them: a row has one field
for the name then, and the value that is written last.

1. The output names are the given names and the generated ones (`perm_outputNames`).
2. With distinct given names a row holds every item under its own name exactly if no given name is
   generated for another item (`fetched_row_keeps_items`).
-/

namespace PullSql

/-- Repetitions are what makes a list shorter without them. -/
theorem length_eraseDups_eq_iff {α : Type} [BEq α] [LawfulBEq α] {l : List α} :
    l.eraseDups.length = l.length ↔ l.Nodup := by
  constructor
  · intro h
    have hs : l.eraseDups.Subperm l :=
      List.Nodup.subperm (nodup_eraseDups l) fun a ha => List.mem_eraseDups.mp ha
    exact (hs.perm_of_length_le (Nat.le_of_eq h.symm)).nodup_iff.mp (nodup_eraseDups l)
  · exact fun h => congrArg List.length (eraseDups_of_nodup h)

namespace Query

open Sql (Expr Select Source)

/-! ## Names of items -/

/-- The query for expressions, each with an alias or without. -/
def expressions (items : List (Expr × Option String)) (sources? : Option (List Source)) : Select :=
  ⟨items.map fun item => .expr item.1 item.2, sources?⟩

/-- The name that an item was given: its alias, else the field name that it consists of. -/
def givenName? : Expr × Option String → Option String
  | (_, some name) => some name
  | (.field name, none) => some name
  | _ => none

/-- The name of an item at a position. -/
def outputName (stem : String) (index : Nat) (item : Expr × Option String) : String :=
  (givenName? item).getD (stem ++ toString index)

/-- The given names of a select list. -/
def givenNames (items : List (Expr × Option String)) : List String := items.filterMap givenName?

/-- The positions of the items without a given name. -/
def unnamedPositions (items : List (Expr × Option String)) : List Nat :=
  (items.zipIdx.filter fun entry => (givenName? entry.1).isNone).map (·.2)

/-- The generated names of a select list. -/
def generatedNames (stem : String) (items : List (Expr × Option String)) : List String :=
  (unnamedPositions items).map fun index => stem ++ toString index

/-- The names of all items, in order. -/
def outputNames (stem : String) (items : List (Expr × Option String)) : List String :=
  items.zipIdx.map fun entry => outputName stem entry.2 entry.1

variable (stem : String) (items : List (Expr × Option String))

/-- The position can be read back from behind the stem, even if the stem ends in digits. -/
theorem position_of_generated :
    Function.LeftInverse
      (fun name : String => Nat.ofDigitChars 10 (name.toList.drop stem.length) 0)
      fun index : Nat => stem ++ toString index := by
  intro index
  show Nat.ofDigitChars 10 ((stem ++ toString index).toList.drop stem.length) 0 = index
  rw [String.toList_append, ← String.length_toList, List.drop_left, Nat.toString_eq_repr,
    Nat.toList_repr, Nat.ofDigitChars_ten_toDigits]

theorem nodup_generatedNames : (generatedNames stem items).Nodup := by
  have hs : (unnamedPositions items).Sublist (List.range' 0 items.length) := by
    rw [← List.zipIdx_map_snd]
    exact List.filter_sublist.map _
  exact (hs.nodup List.nodup_range').map (position_of_generated stem).injective

/-- The induction is on the items, `n` being the position of the first one. -/
theorem perm_map_outputName (n : Nat) :
    ((items.zipIdx n).map fun entry => outputName stem entry.2 entry.1).Perm
      (givenNames items ++ ((items.zipIdx n).filter fun entry => (givenName? entry.1).isNone).map
        fun entry => stem ++ toString entry.2) := by
  induction items generalizing n with
  | nil => exact .nil
  | cons item items ih =>
    rw [List.zipIdx_cons, List.map_cons]
    rcases hg : givenName? item with _ | name
    · have hgiven : givenNames (item :: items) = givenNames items := List.filterMap_cons_none hg
      rw [hgiven, List.filter_cons_of_pos (by simp [hg]), List.map_cons, outputName, hg]
      exact ((ih (n + 1)).cons _).trans List.perm_middle.symm
    · have hgiven : givenNames (item :: items) = name :: givenNames items :=
        List.filterMap_cons_some hg
      rw [hgiven, List.filter_cons_of_neg (by simp [hg]), outputName, hg]
      exact (ih (n + 1)).cons name

theorem perm_outputNames :
    (outputNames stem items).Perm (givenNames items ++ generatedNames stem items) := by
  rw [generatedNames, unnamedPositions, List.map_map]
  exact perm_map_outputName stem items 0

theorem nodup_outputNames_iff :
    (outputNames stem items).Nodup ↔
      (givenNames items).Nodup ∧ (givenNames items).Disjoint (generatedNames stem items) := by
  rw [(perm_outputNames stem items).nodup_iff, List.nodup_append']
  exact and_congr_right fun _ => and_iff_right (nodup_generatedNames stem items)

/-! ## Targets -/

theorem itemTargets_expr (refs : List String) (item : Expr × Option String) (index : Nat) :
    itemTargets stem refs (.expr item.1 item.2, index) = [(outputName stem index item, item.1)] := by
  rcases item with ⟨e, _ | name⟩
  · cases e <;> rfl
  · rfl

theorem targets_expressions (refs : List String) (sources? : Option (List Source)) :
    targets stem refs (expressions items sources?).items =
      items.zipIdx.map fun entry => (outputName stem entry.2 entry.1, entry.1.1) := by
  rw [targets, expressions, List.zipIdx_map, List.flatMap_map, List.map_eq_flatMap]
  exact List.flatMap_congr fun entry _ => itemTargets_expr stem refs entry.1 entry.2

theorem map_fst_targets_expressions (refs : List String) (sources? : Option (List Source)) :
    (targets stem refs (expressions items sources?).items).map (·.1) = outputNames stem items := by
  rw [targets_expressions, List.map_map]
  rfl

/-! ## Rows -/

section Rows

variable {db : Database} {items} {sources? : Option (List Source)} {cursor : Cursor}

/-- **Every item in the row.** Let all items be expressions, and their aliases and bare field names
distinct. A row that is fetched after any calls has as many fields as there are items exactly if none of
these names is generated for another item; in that case it holds under the name of each item the
value of that item, where the sources stand in the row that is fetched from them. -/
theorem fetched_row_keeps_items
    (h : db.execute (.select (expressions items sources?)) = .ok cursor)
    (hd : (givenNames items).Nodup) (ks : List (Catalog × Call)) {catalog : Catalog} {row : Row}
    (hr : ((cursor.calls ks).fetch catalog).1 = some row) :
    let stem := db.settings.columnStem
    let refs := (sources?.getD []).map (·.reference)
    (row.fields.length = items.length ↔
      (givenNames items).Disjoint (generatedNames stem items)) ∧
    ((givenNames items).Disjoint (generatedNames stem items) →
      ∃ names, names.length = refs.length ∧
        (∃ d ∈ (cursor.calls ks).inputs, (d.fetch catalog).1 = some (joinedRow refs names)) ∧
        ∀ (i : Nat) item, items[i]? = some item → row.get? (outputName stem i item) =
          some (item.1.value fun x => (lookup? refs names x).getD .null)) := by
  intro stem refs
  obtain ⟨names, hlength, hrow, hinput⟩ := exists_answerRow_of_fetch h ks hr
  have hfst := map_fst_targets_expressions stem items refs sources?
  have hnodup := nodup_outputNames_iff stem items
  rw [and_iff_right hd] at hnodup
  refine ⟨?_, fun hapart => ⟨names, hlength, hinput, fun i item hi => ?_⟩⟩
  · have hnames : row.names = (outputNames stem items).eraseDups := by
      rw [hrow, names_answerRow]
      exact congrArg _ hfst
    have hitems : (outputNames stem items).length = items.length := by simp [outputNames]
    rw [← hnodup, ← length_eraseDups_eq_iff, hitems, ← hnames, Row.names, List.length_map]
  · have htarget : (outputName stem i item, item.1) ∈
        targets stem refs (expressions items sources?).items := by
      rw [targets_expressions]
      exact List.mem_map.mpr ⟨(item, i), List.mk_mem_zipIdx_iff_getElem?.mpr hi, rfl⟩
    rw [hrow]
    exact get?_answerRow_of_mem refs names (hfst ▸ hnodup.mpr hapart) htarget

end Rows

/-- An alias that is the generated name of its own item only, beside a generated name and a field. -/
theorem fetched_row_keeps_items_of_alias :
    let db : Database := { settings := { columnStem := "c" } }
    let items : List (Expr × Option String) :=
      [(.text "x", none), (.text "y", some "c1"), (.field "identifier", none)]
    let sources? : Option (List Source) := some [⟨"tables", none⟩]
    let cursor := Cursor.ofPlan {} (.project
      [⟨"c0", .string, .constant (.text "x")⟩, ⟨"c1", .string, .constant (.text "y")⟩,
        ⟨"identifier", .text, .field "IDENTIFIER"⟩] (joined ["tables"]))
    let row := Row.ofList [("c0", .text "x"), ("c1", .text "y"), ("identifier", .text "TABLES")]
    db.execute (.select (expressions items sources?)) = .ok cursor ∧ (givenNames items).Nodup ∧
      (givenNames items).Disjoint (generatedNames "c" items) ∧ (cursor.fetch {}).1 = some row ∧
      row.fields.length = 3 ∧ row.get? (outputName "c" 0 (.text "x", none)) = some (.text "x") := by
  intro db items sources? cursor row
  have h : db.execute (.select (expressions items sources?)) = .ok cursor := by
    refine bind_eq_ok_iff.mpr ⟨cursor.plan, ?_, rfl⟩
    subst db items sources? cursor
    rfl
  have hd : (givenNames items).Nodup := by decide
  have hapart : (givenNames items).Disjoint (generatedNames "c" items) :=
    List.disjoint_iff_ne.mpr (by decide)
  have hr : (cursor.fetch {}).1 = some row := by decide
  obtain ⟨hlength, hvalues⟩ := fetched_row_keeps_items h hd [] hr
  obtain ⟨names, -, -, hvalue⟩ := hvalues hapart
  exact ⟨h, hd, hapart, hr, hlength.mpr hapart, hvalue 0 _ rfl⟩

/-- An alias that is generated for another item: the row has one field for both, with the value that
is written last. -/
theorem alias_hides_generated_name :
    let items : List (Expr × Option String) := [(.text "a", none), (.text "b", some "col0")]
    let cursor := Cursor.ofPlan {} (.project
      [⟨"col0", .string, .constant (.text "a")⟩, ⟨"col0", .string, .constant (.text "b")⟩] (joined []))
    ({} : Database).execute (.select (expressions items none)) = .ok cursor ∧
      (givenNames items).Nodup ∧
      ∃ row, (cursor.fetch {}).1 = some row ∧ row.fields.length ≠ items.length ∧
        row.get? (outputName "col" 0 (.text "a", none)) ≠ some (.text "a") := by
  intro items cursor
  refine ⟨bind_eq_ok_iff.mpr ⟨cursor.plan, ?_, rfl⟩, by decide,
    Row.ofList [("col0", .text "b")], by decide, by decide, by decide⟩
  subst items cursor
  rfl

end Query

end PullSql
