import PullSql.Proofs.Column.Failures
import PullSql.Proofs.Query.Answer

/-!
# Statements without a plan

Why a statement has no plan is said here from its names alone, without plans and schemas: a query
looks at its sources first, then at the references of its wildcards, then at the expressions of its
columns, each time from the first one on (`selectFailure?`). Planning fails for exactly these reasons
(`plan_eq_error_iff_failure`).
-/

namespace PullSql.Query

open Catalog (identifierField)
open Sql (Expr Select SelectItem Source Statement)

/-! ## Reasons to fail -/

/-- A source that is not the catalog does not exist. -/
def sourceFailure? (ownName : String) (s : Source) : Option Error :=
  if Name.same ownName s.relation then none else some (.relationNotFound s.relation)

/-- A reference in `reference.*` is that of a source or else the catalog's own name. -/
def itemFailure? (ownName : String) (refs : List String) : SelectItem → Option Error
  | .allOf reference =>
    if refs.any (Name.same · reference) || Name.same ownName reference then none
    else some (.relationNotFound reference)
  | _ => none

/-- The names of the fields of sources with these references. -/
def fieldNames (refs : List String) : List String :=
  if refs = [] then [Plan.valueField]
  else refs.flatMap fun r => [identifierField, Name.qualified r identifierField]

/-- Why a query has no plan, if it has none. -/
def selectFailure? (ownName stem : String) (query : Select) : Option Error :=
  let refs := query.sources.map (·.reference)
  ((query.sources.findSome? (sourceFailure? ownName)).or
    (query.items.findSome? (itemFailure? ownName refs))).or
    ((targets stem refs query.items).findSome? fun t => t.2.failure? (fieldNames refs))

/-- Why a statement has no plan, if it has none. -/
def failure? (ownName stem : String) : Statement → Option Error
  | .select query => selectFailure? ownName stem query
  | .showTables => none
  | .createTable _ => some (.unsupportedQuery .createTable)
  | .insert _ => some (.unsupportedQuery .insert)

/-! ## Planning fails for these reasons -/

variable (catalog : Catalog) (settings : Settings)

theorem names_schema_joined (refs : List String) : (joined refs).schema.names = fieldNames refs := by
  cases refs with
  | nil => rfl
  | cons first rest =>
    rw [schema_joined_cons, fieldNames, if_neg (List.cons_ne_nil _ _), Schema.names,
      List.map_flatMap]
    rfl

theorem error?_planSources (sources : List Source) :
    error? (catalog.planSources sources) = sources.findSome? (sourceFailure? catalog.ownName) := by
  have hs : ∀ s, error? (catalog.planSource s) = sourceFailure? catalog.ownName s := by
    intro s
    rw [Catalog.planSource, sourceFailure?, Catalog.isOwnName]
    split <;> rfl
  unfold Catalog.planSources
  rw [error?_bind_of_ok, error?_mapM]
  · simp only [hs]
  · intro plans
    cases plans <;> rfl

section Wildcards

variable {catalog : Catalog} {sources : List Source} {reference : String}

theorem relationOf_of_no_source (h : (sources.map (·.reference)).any (Name.same · reference) = false) :
    relationOf sources reference = reference := by
  rw [List.any_map] at h
  have hf : sources.find? (fun s => Name.same s.reference reference) = none :=
    List.find?_eq_none.mpr (List.any_eq_false.mp h)
  rw [relationOf, hf]

/-- Sources that all exist stand for the catalog, under whatever reference. -/
theorem isOwnName_relationOf_of_source
    (hs : sources.findSome? (sourceFailure? catalog.ownName) = none)
    (h : (sources.map (·.reference)).any (Name.same · reference) = true) :
    catalog.isOwnName (relationOf sources reference) = true := by
  rw [List.any_map] at h
  obtain ⟨s, hf⟩ : ∃ s, sources.find? (fun s => Name.same s.reference reference) = some s :=
    Option.isSome_iff_exists.mp (List.find?_isSome.mpr (List.any_eq_true.mp h))
  have hn := List.findSome?_eq_none_iff.mp hs s (List.mem_of_find?_eq_some hf)
  have hr : relationOf sources reference = s.relation := by rw [relationOf, hf]
  by_contra ho
  rw [hr, Catalog.isOwnName] at ho
  rw [sourceFailure?, if_neg ho] at hn
  cases hn

theorem error?_targets (hs : sources.findSome? (sourceFailure? catalog.ownName) = none)
    (settings : Settings) (schema : Schema) (item : SelectItem) (index : Nat) :
    error? (catalog.targets settings sources schema item index) =
      itemFailure? catalog.ownName (sources.map (·.reference)) item := by
  rcases item with _ | reference | ⟨e, name?⟩
  · rfl
  · rw [itemFailure?, Catalog.targets]
    rcases ha : (sources.map (·.reference)).any (Name.same · reference) with _ | _
    · rw [ha, relationOf_of_no_source ha, Bool.false_or, Catalog.isOwnName]
      split <;> rfl
    · rw [ha, isOwnName_relationOf_of_source hs ha, Bool.true_or]
      rfl
  · rfl

theorem error?_mapM_targets (hs : sources.findSome? (sourceFailure? catalog.ownName) = none)
    (settings : Settings) (schema : Schema) (items : List SelectItem) :
    (error? (items.zipIdx.mapM fun (item, index) =>
      catalog.targets settings sources schema item index)) =
      items.findSome? (itemFailure? catalog.ownName (sources.map (·.reference))) := by
  rw [error?_mapM]
  simp only [error?_targets hs]
  conv_rhs => rw [← List.zipIdx_map_fst 0 items, List.findSome?_map]
  rfl

end Wildcards

theorem error?_selectTargets (query : Select) :
    error? (catalog.selectTargets settings query) =
      (query.sources.findSome? (sourceFailure? catalog.ownName)).or
        (query.items.findSome?
          (itemFailure? catalog.ownName (query.sources.map (·.reference)))) := by
  rw [← error?_planSources]
  refine error?_bind fun source hs => ?_
  have hn : query.sources.findSome? (sourceFailure? catalog.ownName) = none := by
    rw [← error?_planSources, hs]
    rfl
  rw [← error?_mapM_targets hn settings source.schema]
  exact error?_bind_of_ok fun _ => rfl

theorem error?_planSelect (query : Select) :
    error? (catalog.planSelect settings query) =
      selectFailure? catalog.ownName settings.columnStem query := by
  rw [selectFailure?, ← error?_selectTargets]
  refine error?_bind fun ⟨source, ts⟩ ht => ?_
  obtain ⟨rfl, rfl⟩ := selectTargets_eq_ok ht
  rw [← names_schema_joined, ← Column.error?_compileAll]
  exact error?_bind_of_ok fun _ => rfl

/-! ## The catalog itself -/

theorem not_same_qualified (qualifier name : String) :
    ¬ Name.same name (Name.qualified qualifier name) := by
  rw [Name.same_iff, Name.qualified, Text.upper_append, Text.upper_append]
  intro h
  have hd : (Text.upper ".").length = 1 := rfl
  have hl := congrArg String.length h
  rw [String.length_append, String.length_append, hd] at hl
  omega

theorem selectFailure?_everything (ownName stem : String) :
    selectFailure? ownName stem (Select.everything ownName) = none := by
  simp [selectFailure?, Select.everything, Select.sources, Source.reference, sourceFailure?,
    itemFailure?, targets, itemTargets, Target.ofField, Expr.failure?, fieldNames, Name.same_refl]

/-- SHOW TABLES has a plan whatever the catalog calls itself: the field under this name is another
one than the field without it. -/
theorem plan_showTables :
    let name := Name.qualified catalog.ownName identifierField
    catalog.plan settings .showTables =
      .ok (.project [⟨name, .text, .field name⟩] (scanAs catalog.ownName)) := by
  intro name
  have hr : Schema.resolve? (sourceFields catalog.ownName) name = some ⟨name, .text⟩ := by
    simp [Schema.resolve?, sourceFields, name, Name.same_refl, not_same_qualified]
  have hn : error? (catalog.planSelect settings (Select.everything catalog.ownName)) = none := by
    rw [error?_planSelect, selectFailure?_everything]
  obtain ⟨p, hp⟩ := error?_eq_none_iff.mp hn
  obtain ⟨columns, rfl, hc⟩ := planSelect_eq_ok hp
  have hs : Column.compileAll (sourceFields catalog.ownName) [(name, .field name)] =
      .ok [⟨name, .text, .field name⟩] :=
    mapM_eq_ok_iff.mpr (.cons (Column.compile_eq_ok.mpr
      ⟨rfl, Column.compileExpr_field.mpr ⟨_, hr, rfl⟩⟩) .nil)
  obtain rfl := Except.ok.inj (hc.symm.trans hs)
  exact hp

/-- **When planning fails, and with what.** A statement has no plan exactly when there is a reason
among those of `failure?`, and this is then the error; else it has one. -/
theorem plan_eq_error_iff_failure (s : Statement) :
    (∀ e, catalog.plan settings s = .error e ↔
      failure? catalog.ownName settings.columnStem s = some e) ∧
    ((∃ p, catalog.plan settings s = .ok p) ↔
      failure? catalog.ownName settings.columnStem s = none) := by
  have h : error? (catalog.plan settings s) = failure? catalog.ownName settings.columnStem s := by
    cases s with
    | select query => exact error?_planSelect catalog settings query
    | showTables =>
      rw [plan_showTables]
      rfl
    | createTable definition => rfl
    | insert insertion => rfl
  rw [← h]
  exact ⟨fun e => error?_eq_some_iff.symm, error?_eq_none_iff.symm⟩

end PullSql.Query
