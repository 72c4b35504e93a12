import PullSql.Proofs.Cursor.Origins
import PullSql.Proofs.Query.Answer
import PullSql.Proofs.Query.Failures

/-!
# Wildcards under a reference

For `SELECT r.* FROM …` two places look for `r`: the planner among the references of the sources, and
the compiler among the fields of the joined schema, where it looks for `r.IDENTIFIER`. Both ignore
letter case. The upper case of a text is that of its characters one by one, so a reference matches in
the one place exactly when it matches in the other (`Name.same_qualified_iff`).

Main statement: `wildcard_under_reference`.
-/

namespace PullSql

theorem Name.same_qualified_iff {a b name : String} :
    same (qualified a name) (qualified b name) ↔ same a b := by
  simp only [same_iff, qualified, Text.upper_append, String.append_left_inj]

namespace Query

open Catalog (identifierField)
open Sql (Select Source Statement)

/-- The query for all fields under a reference. -/
def wildcard (reference : String) (sources : List Source) : Select :=
  ⟨[.allOf reference], some sources⟩

/-! ## The field -/

theorem not_same_valueField (reference : String) :
    ¬ Name.same Plan.valueField (Name.qualified reference identifierField) := by
  rw [Name.same_iff, Name.qualified, String.append_assoc, Text.upper_append]
  intro h
  have hlength := congrArg String.length h
  have hvalue : (Text.upper Plan.valueField).length = 5 := rfl
  have hfield : (Text.upper ("." ++ identifierField)).length = 11 := rfl
  rw [String.length_append, hvalue, hfield] at hlength
  omega

/-- The compiler finds a field under the first reference that matches. -/
theorem resolve?_joined_qualified (refs : List String) (reference : String) :
    (joined refs).schema.resolve? (Name.qualified reference identifierField) =
      (refs.find? (Name.same · reference)).map fun r => ⟨Name.qualified r identifierField, .text⟩ := by
  have hsame : (fun r => Name.same (Name.qualified r identifierField)
      (Name.qualified reference identifierField)) = (Name.same · reference) := by
    funext r
    rw [Bool.eq_iff_iff, Name.same_qualified_iff]
  cases refs with
  | nil =>
    have hvalue := not_same_valueField reference
    simp [joined, Plan.schema, Schema.resolve?, hvalue]
  | cons first rest =>
    rw [schema_joined_cons, resolve?_flatMap_sourceFields (not_same_qualified _ _), hsame]

theorem any_fieldNames_qualified (refs : List String) (reference : String) :
    (fieldNames refs).any (Name.same · (Name.qualified reference identifierField)) =
      refs.any (Name.same · reference) := by
  rw [← names_schema_joined, Column.any_names_eq_isSome_resolve?, resolve?_joined_qualified,
    Option.isSome_map, List.isSome_find?]

/-! ## Planning -/

/-- Where no reference matches, the planner takes the wildcard for that of a relation, and the compiler
finds no field for it. -/
theorem selectFailure?_wildcard {ownName : String} {sources : List Source}
    (hs : ∀ s ∈ sources, Name.same ownName s.relation) (stem reference : String) :
    selectFailure? ownName stem (wildcard reference sources) =
      if (sources.map (·.reference)).any (Name.same · reference) then none
      else if Name.same ownName reference then
        some (.unresolvedIdentifier (Name.qualified reference identifierField))
      else some (.relationNotFound reference) := by
  have hsources : sources.findSome? (sourceFailure? ownName) = none := by
    refine List.findSome?_eq_none_iff.mpr fun s h => ?_
    rw [sourceFailure?, if_pos (hs s h)]
  have htargets : ∀ refs, targets stem refs [.allOf reference] =
      [Target.ofField (Name.qualified reference identifierField)] := fun _ => rfl
  rw [selectFailure?, wildcard, Select.sources, Option.getD_some, hsources, Option.none_or, htargets,
    List.findSome?_singleton, List.findSome?_singleton, itemFailure?, Target.ofField, Sql.Expr.failure?,
    any_fieldNames_qualified]
  cases (sources.map (·.reference)).any (Name.same · reference) with
  | true => simp
  | false => cases Name.same ownName reference <;> simp

/-- The only column reads the field under the first reference that matches. -/
theorem columns_of_compileAll {refs : List String} {reference : String} {columns : List Column}
    (h : Column.compileAll (joined refs).schema
      [Target.ofField (Name.qualified reference identifierField)] = .ok columns) :
    ∃ r, refs.find? (Name.same · reference) = some r ∧
      columns = [⟨Name.qualified reference identifierField, .text,
        .field (Name.qualified r identifierField)⟩] := by
  cases mapM_eq_ok_iff.mp h with
  | @cons _ column _ _ hc hrest =>
    cases hrest
    obtain ⟨hname, he⟩ := Column.compile_eq_ok.mp hc
    obtain ⟨f, hf, hcolumn⟩ := Column.compileExpr_field.mp he
    rw [resolve?_joined_qualified] at hf
    obtain ⟨r, hr, rfl⟩ := Option.map_eq_some_iff.mp hf
    obtain ⟨name, type, evaluator⟩ := column
    cases hcolumn
    exact ⟨r, hr, by rw [← hname]⟩

/-! ## Rows -/

section Rows

variable {row : Row}

theorem exists_name_of_makes {reference : String} (h : (scanAs reference).Makes row) :
    ∃ name, row = sourceRow reference name := by
  cases h with
  | rename _ h =>
    cases h with
    | scan name => exact ⟨name, rfl⟩

/-- The induction is on the sources still to be joined; `p` is what the join has so far. -/
theorem exists_names_of_makes_foldl (refs : List String) {p : Plan}
    (h : ((refs.map scanAs).foldl .join p).Makes row) :
    ∃ a names, p.Makes a ∧ names.length = refs.length ∧
      row = (List.zipWith sourceRow refs names).foldl Row.merge a := by
  induction refs generalizing p with
  | nil => exact ⟨row, [], h, rfl, rfl⟩
  | cons reference refs ih =>
    obtain ⟨_, names, hjoin, hlength, rfl⟩ := ih h
    cases hjoin with
    | @join _ _ a b ha hb =>
      obtain ⟨name, rfl⟩ := exists_name_of_makes hb
      exact ⟨a, name :: names, ha, congrArg (· + 1) hlength, rfl⟩

/-- In every row each source stands at some name. -/
theorem exists_names_of_makes {refs : List String} (h : (joined refs).Makes row) :
    ∃ names, names.length = refs.length ∧ row = joinedRow refs names := by
  cases refs with
  | nil =>
    cases h with
    | single => exact ⟨[], rfl, rfl⟩
  | cons first rest =>
    obtain ⟨a, names, ha, hlength, rfl⟩ := exists_names_of_makes_foldl rest h
    obtain ⟨name, rfl⟩ := exists_name_of_makes ha
    exact ⟨name :: names, congrArg (· + 1) hlength, rfl⟩

/-- Entries that agree under a key are looked up in any order. -/
theorem lookup_eq_some_of_mem {α : Type} {entries : List (String × α)} {key : String} {a : α}
    (h : (key, a) ∈ entries) (hu : ∀ b, (key, b) ∈ entries → b = a) :
    entries.lookup key = some a := by
  induction entries with
  | nil => cases h
  | cons e entries ih =>
    rw [lookup_cons_eq_ite]
    by_cases hkey : key = e.1
    · have he : (key, e.2) ∈ e :: entries := by simp [hkey]
      rw [if_pos hkey, hu e.2 he]
    · have hmem : (key, a) ∈ entries := by
        refine (List.mem_cons.mp h).resolve_left ?_
        rintro rfl
        exact hkey rfl
      rw [if_neg hkey, ih hmem fun b hb => hu b (List.mem_cons_of_mem e hb)]

/-- The field under a reference that only one source has holds the name where this source stands. -/
theorem get?_joinedRow_of_unique {refs names : List String} {r name : String} {i : Nat}
    (hr : refs[i]? = some r) (hname : names[i]? = some name)
    (hu : ∀ j : Nat, refs[j]? = some r → j = i) :
    (joinedRow refs names).get? (Name.qualified r identifierField) = some (.text name) := by
  have hmem : ∀ {b}, (r, b) ∈ (refs.zip names).reverse ↔
      ∃ j : Nat, refs[j]? = some r ∧ names[j]? = some b := by
    intro b
    rw [List.mem_reverse, List.mem_iff_getElem?]
    simp only [List.getElem?_zip_eq_some]
  have hlookup : (refs.zip names).reverse.lookup r = some name := by
    refine lookup_eq_some_of_mem (hmem.mpr ⟨i, hr, hname⟩) fun b hb => ?_
    obtain ⟨j, hj, hb⟩ := hmem.mp hb
    obtain rfl := hu j hj
    exact Option.some.inj (hb.symm.trans hname)
  cases refs with
  | nil => cases hr
  | cons first rest =>
    cases names with
    | nil => cases hname
    | cons name' names => rw [get?_joinedRow_cons, findSome?_qualified, hlookup, Option.map_some]

end Rows

/-! ## The query -/

section Query

variable {db : Database} {sources : List Source} {reference : String}

theorem error?_execute_wildcard (hs : ∀ s ∈ sources, db.catalog.isOwnName s.relation)
    (reference : String) :
    error? (db.execute (.select (wildcard reference sources))) =
      if (sources.map (·.reference)).any (Name.same · reference) then none
      else if db.catalog.isOwnName reference then
        some (.unresolvedIdentifier (Name.qualified reference identifierField))
      else some (.relationNotFound reference) := by
  refine Eq.trans ?_ (selectFailure?_wildcard hs db.settings.columnStem reference)
  rw [← error?_planSelect]
  exact error?_bind_of_ok fun _ => rfl

/-- The cursor of a wildcard computes its only column from the rows of the sources. -/
theorem cursor_of_execute_wildcard {cursor : Cursor}
    (h : db.execute (.select (wildcard reference sources)) = .ok cursor) :
    ∃ r, (sources.map (·.reference)).find? (Name.same · reference) = some r ∧
      cursor = .ofPlan db.catalog (.project [⟨Name.qualified reference identifierField, .text,
        .field (Name.qualified r identifierField)⟩] (joined (sources.map (·.reference)))) := by
  obtain ⟨columns, rfl, hcolumns⟩ := execute_select_eq_ok h
  obtain ⟨r, hr, rfl⟩ := columns_of_compileAll hcolumns
  exact ⟨r, hr, rfl⟩

/-- The column in a row of the sources, if only one source has its reference. -/
theorem project_joinedRow_of_unique {refs names : List String} {r name column : String} {i : Nat}
    (hr : refs[i]? = some r) (hname : names[i]? = some name)
    (hu : ∀ j : Nat, refs[j]? = some r → j = i) :
    (joinedRow refs names).project [⟨column, .text, .field (Name.qualified r identifierField)⟩] =
      Row.ofList [(column, .text name)] := by
  have hvalue : (Evaluator.field (Name.qualified r identifierField)).evaluate (joinedRow refs names) =
      .text name := by
    rw [Evaluator.evaluate, get?_joinedRow_of_unique hr hname hu, Option.getD_some]
  rw [Row.project, List.map_singleton, hvalue, Column.name]

/-- **Wildcards under a reference.** Let all sources be the catalog. A query for all fields under a
reference plans exactly when the reference of a source matches; it has one column, under the reference as
it is written. If only one source matches, then the column holds, in every row that is fetched after
any calls, the name at which this source stands in the row of the sources. If none matches, there is no
such field for a reference that names the catalog, and no such relation for any other. -/
theorem wildcard_under_reference (hs : ∀ s ∈ sources, db.catalog.isOwnName s.relation)
    (reference : String) :
    let refs := sources.map (·.reference)
    let column := Name.qualified reference identifierField
    let query := Statement.select (wildcard reference sources)
    ((∃ cursor, db.execute query = .ok cursor) ↔ ∃ r ∈ refs, Name.same r reference) ∧
    (∀ cursor, db.execute query = .ok cursor →
      cursor.schema = [⟨column, .text⟩] ∧
      ∀ i : Nat, (∀ (j : Nat) r, refs[j]? = some r → (Name.same r reference ↔ j = i)) →
        ∀ ks catalog row, ((cursor.calls ks).fetch catalog).1 = some row →
          ∃ names name, names.length = refs.length ∧ names[i]? = some name ∧
            row = Row.ofList [(column, .text name)] ∧
            ∃ d ∈ (cursor.calls ks).inputs, (d.fetch catalog).1 = some (joinedRow refs names)) ∧
    ((∀ r ∈ refs, ¬ Name.same r reference) →
      db.execute query = .error (if db.catalog.isOwnName reference then .unresolvedIdentifier column
        else .relationNotFound reference)) := by
  intro refs column query
  have herror := error?_execute_wildcard hs reference
  have hany : refs.any (Name.same · reference) = true ↔ ∃ r ∈ refs, Name.same r reference :=
    List.any_eq_true
  refine ⟨?_, fun cursor h => ?_, fun hnone => ?_⟩
  · rw [← hany, ← error?_eq_none_iff, herror]
    by_cases hr : refs.any (Name.same · reference) = true
    · exact iff_of_true (if_pos hr) hr
    · refine iff_of_false ?_ hr
      rw [if_neg hr]
      split <;> simp
  · obtain ⟨r, hr, rfl⟩ := cursor_of_execute_wildcard h
    refine ⟨rfl, fun i hi ks catalog row hrow => ?_⟩
    have hsame := List.find?_some (p := (Name.same · reference)) hr
    obtain ⟨j, hj⟩ := List.mem_iff_getElem?.mp (List.mem_of_find?_eq_some hr)
    obtain rfl := (hi j r hj).mp hsame
    obtain ⟨d, hd, input, hinput, hmakes, rfl⟩ := Cursor.exists_input_of_fetch
      ((Cursor.isMade_ofPlan _ _).calls ks) (Cursor.plan_calls _ ks) hrow
    obtain ⟨names, hlength, rfl⟩ := exists_names_of_makes hmakes
    obtain ⟨name, hname⟩ : ∃ name, names[j]? = some name := by
      have hlt : j < refs.length := (List.getElem?_eq_some_iff.mp hj).1
      exact ⟨_, List.getElem?_eq_getElem (hlength ▸ hlt)⟩
    exact ⟨names, name, hlength, hname,
      project_joinedRow_of_unique hj hname fun k hk => (hi k r hk).mp hsame, d, hd, hinput⟩
  · have hr : ¬ refs.any (Name.same · reference) = true := fun h => by
      obtain ⟨r, hr, hsame⟩ := hany.mp h
      exact hnone r hr hsame
    rw [if_neg hr] at herror
    rw [← error?_eq_some_iff, herror]
    split <;> rfl

/-- A dotted reference with a letter of two capitals; the other source has the reference of the
catalog. -/
theorem wildcard_under_reference_of_two_sources :
    let db : Database := { catalog := { relations := [⟨"a", []⟩] } }
    let sources : List Source := [⟨"tables", none⟩, ⟨"TABLES", some "ß.x"⟩]
    let query := Statement.select (wildcard "SS.X" sources)
    ∃ cursor, db.execute query = .ok cursor ∧ cursor.schema = [⟨"SS.X.IDENTIFIER", .text⟩] ∧
      ∀ ks catalog row, ((cursor.calls ks).fetch catalog).1 = some row →
        ∃ names name, names.length = 2 ∧ names[1]? = some name ∧
          row = Row.ofList [("SS.X.IDENTIFIER", .text name)] ∧
          ∃ d ∈ (cursor.calls ks).inputs,
            (d.fetch catalog).1 = some (joinedRow ["tables", "ß.x"] names) := by
  intro db sources query
  have hs : ∀ s ∈ sources, db.catalog.isOwnName s.relation := by decide
  have hmatches : ∀ (j : Nat) r, ["tables", "ß.x"][j]? = some r → (Name.same r "SS.X" ↔ j = 1) := by
    intro j r h
    match j with
    | 0 =>
      cases h
      exact iff_of_false (by decide) Nat.zero_ne_one
    | 1 =>
      cases h
      exact iff_of_true (by decide) rfl
    | j + 2 => cases h
  obtain ⟨hplans, hrows, -⟩ := wildcard_under_reference hs "SS.X"
  obtain ⟨cursor, hcursor⟩ := hplans.mpr ⟨"ß.x", by decide, by decide⟩
  obtain ⟨hschema, hfetched⟩ := hrows cursor hcursor
  exact ⟨cursor, hcursor, hschema, hfetched 1 hmatches⟩

end Query

end Query

end PullSql
