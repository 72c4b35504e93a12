import PullSql.Proofs.Column.Compile
import PullSql.Proofs.Row.Values
import PullSql.Query

/-!
# Sources of a query

The sources of a query are scans of the catalog, each under its own reference, joined from left to
right. What this says about their rows is carried through the left-deep join for lists of any length:

1. there is one row for every choice of names, the name of the last source changing fastest
   (`rows_joined`);
2. the field that a name resolves to holds, in the row of a choice, what `lookup?` says without rows
   and schemas (`bind_resolve?_eq_lookup?`).
-/

namespace PullSql.Query

open Catalog (identifierField)
open Sql (Source)

/-! ## Plans of sources -/

/-- A scan of the catalog under a reference. -/
def scanAs (reference : String) : Plan := .rename reference .scan

/-- The plan of sources with these references. -/
def joined : List String → Plan
  | [] => .single (.integer 1) .integer
  | first :: rest => (rest.map scanAs).foldl .join (scanAs first)

theorem planSource_eq_ok {catalog : Catalog} {s : Source} {p : Plan}
    (h : catalog.planSource s = .ok p) : p = scanAs s.reference := by
  unfold Catalog.planSource at h
  split at h
  · exact (Except.ok.inj h).symm
  · cases h

theorem planSources_eq_ok {catalog : Catalog} {sources : List Source} {p : Plan}
    (h : catalog.planSources sources = .ok p) : p = joined (sources.map (·.reference)) := by
  unfold Catalog.planSources at h
  rcases hs : sources.mapM catalog.planSource with e | plans
  · rw [hs] at h
    cases h
  rw [hs] at h
  obtain rfl := eq_map_of_mapM_eq_ok (fun _ _ => planSource_eq_ok) hs
  cases sources with
  | nil =>
    cases h
    rfl
  | cons s sources =>
    cases h
    rw [List.map_cons, joined, List.map_map]
    rfl

/-! ## Rows of sources -/

/-- The lists of `k` items in lexicographic order, the last item changing fastest. -/
def tuples {α : Type} (items : List α) : Nat → List (List α)
  | 0 => [[]]
  | k + 1 => items.flatMap fun a => (tuples items k).map (a :: ·)

theorem length_of_mem_tuples {α : Type} {items t : List α} {k : Nat} (h : t ∈ tuples items k) :
    t.length = k := by
  induction k generalizing t with
  | zero => exact congrArg List.length (List.mem_singleton.mp h)
  | succ k ih =>
    obtain ⟨a, -, ht⟩ := List.mem_flatMap.mp h
    obtain ⟨u, hu, rfl⟩ := List.mem_map.mp ht
    rw [List.length_cons, ih hu]

/-- The row of a source that stands at a name. -/
def sourceRow (reference name : String) : Row := (Row.ofName name).rename reference

/-- The row of all sources, each standing at its name. -/
def joinedRow : List String → List String → Row
  | first :: rest, name :: names => (List.zipWith sourceRow rest names).foldl Row.merge
      (sourceRow first name)
  | _, _ => Row.single (.integer 1)

theorem rows_scanAs (catalog : Catalog) (reference : String) :
    (scanAs reference).rows catalog = catalog.scanNames.map (sourceRow reference) := by
  rw [scanAs, Plan.rows, Plan.rows, List.map_map]
  rfl

/-- The induction is on the sources still to be joined; `p` is what the join has so far. -/
theorem rows_foldl_join (catalog : Catalog) (refs : List String) (p : Plan) :
    ((refs.map scanAs).foldl .join p).rows catalog =
      (p.rows catalog).flatMap fun a => (tuples catalog.scanNames refs.length).map fun names =>
        (List.zipWith sourceRow refs names).foldl Row.merge a := by
  induction refs generalizing p with
  | nil => simp [tuples]
  | cons reference refs ih =>
    rw [List.map_cons, List.foldl_cons, ih, Plan.rows, rows_scanAs, List.flatMap_assoc]
    refine List.flatMap_congr fun a _ => ?_
    rw [List.length_cons, tuples, List.map_flatMap, List.map_map, List.flatMap_map]
    refine List.flatMap_congr fun name _ => ?_
    rw [List.map_map]
    rfl

/-- One row for every choice of a name for each source. -/
theorem rows_joined (catalog : Catalog) (refs : List String) :
    (joined refs).rows catalog =
      (tuples catalog.scanNames refs.length).map (joinedRow refs) := by
  cases refs with
  | nil => rfl
  | cons first rest =>
    rw [joined, rows_foldl_join, rows_scanAs, List.flatMap_map, List.length_cons, tuples,
      List.map_flatMap]
    refine List.flatMap_congr fun name _ => ?_
    rw [List.map_map]
    rfl

/-! ## Fields of sources -/

/-- What a name means where sources with these references stand at these names of the catalog. The
field that they share is that of the last source. A field under a reference is found at the first
reference that makes the name, but read from the last source with exactly this reference. -/
def lookup? (refs names : List String) (x : String) : Option Value :=
  if refs = [] then
    if Name.same Plan.valueField x then some (.integer 1) else none
  else if Name.same identifierField x then names.getLast?.map .text
  else
    (refs.find? fun r => Name.same (Name.qualified r identifierField) x).bind fun reference =>
      ((refs.zip names).reverse.lookup reference).map .text

theorem qualified_ne_identifierField (reference : String) :
    Name.qualified reference identifierField ≠ identifierField := by
  intro h
  have hl := congrArg String.length h
  simp [Name.qualified] at hl

/-- The fields of a source. -/
def sourceFields (reference : String) : Schema :=
  [⟨identifierField, .text⟩, ⟨Name.qualified reference identifierField, .text⟩]

theorem schema_scanAs (reference : String) :
    (scanAs reference).schema = sourceFields reference := rfl

theorem schema_foldl_join (refs : List String) (p : Plan) :
    ((refs.map scanAs).foldl .join p).schema = p.schema ++ refs.flatMap sourceFields := by
  induction refs generalizing p with
  | nil => simp
  | cons reference refs ih =>
    rw [List.map_cons, List.foldl_cons, ih, Plan.schema, schema_scanAs, List.flatMap_cons,
      List.append_assoc]

theorem schema_joined_cons (first : String) (rest : List String) :
    (joined (first :: rest)).schema = (first :: rest).flatMap sourceFields := by
  rw [joined, schema_foldl_join, schema_scanAs, List.flatMap_cons]

/-- Behind the first field only the references tell the fields of sources apart. -/
theorem resolve?_flatMap_sourceFields {x : String} (hx : ¬ Name.same identifierField x)
    (refs : List String) :
    Schema.resolve? (refs.flatMap sourceFields) x =
      (refs.find? fun r => Name.same (Name.qualified r identifierField) x).map fun r =>
        ⟨Name.qualified r identifierField, .text⟩ := by
  induction refs with
  | nil => rfl
  | cons reference refs ih =>
    rw [Schema.resolve?] at ih ⊢
    by_cases hr : Name.same (Name.qualified reference identifierField) x
    · simp [sourceFields, hx, hr]
    · simpa [sourceFields, hx, hr] using ih

/-! ## Values of sources -/

/-- The sources are looked at from the last one on. -/
theorem get?_joinedRow_cons (first name : String) (rest names : List String) (x : String) :
    (joinedRow (first :: rest) (name :: names)).get? x =
      ((first :: rest).zip (name :: names)).reverse.findSome? fun e =>
        (sourceRow e.1 e.2).get? x := by
  rw [joinedRow, Row.get?_foldl_merge, List.zip_cons_cons, List.reverse_cons,
    List.findSome?_append, List.findSome?_singleton, ← List.map_uncurry_zip_eq_zipWith,
    ← List.map_reverse, List.findSome?_map]
  rfl

/-- The field that the sources share has a value in each of them. -/
theorem findSome?_identifierField (entries : List (String × String)) :
    (entries.findSome? fun e => (sourceRow e.1 e.2).get? identifierField) =
      (entries.map (·.2)).head?.map .text := by
  cases entries with
  | nil => rfl
  | cons e entries =>
    have he : (sourceRow e.1 e.2).get? identifierField = some (.text e.2) := by
      rw [sourceRow, Row.get?_rename_ofName, if_pos (Or.inl rfl)]
    rw [List.findSome?_cons, he]
    rfl

/-- A field under a reference has a value in the sources of exactly this reference. -/
theorem findSome?_qualified (entries : List (String × String)) (reference : String) :
    (entries.findSome? fun e =>
      (sourceRow e.1 e.2).get? (Name.qualified reference identifierField)) =
      (entries.lookup reference).map .text := by
  induction entries with
  | nil => rfl
  | cons e entries ih =>
    have he : (sourceRow e.1 e.2).get? (Name.qualified reference identifierField) =
        if reference = e.1 then some (.text e.2) else none := by
      have hq : Name.qualified reference identifierField = Name.qualified e.1 identifierField ↔
          reference = e.1 := by
        simp [Name.qualified, String.append_left_inj]
      simp [sourceRow, Row.get?_rename_ofName, qualified_ne_identifierField, hq]
    rw [List.findSome?_cons, he, lookup_cons_eq_ite, ih]
    split <;> simp_all

/-- The field that a name resolves to, in the row of a choice, holds what the name means there. -/
theorem bind_resolve?_eq_lookup? {refs names : List String} (h : names.length = refs.length)
    (x : String) :
    (((joined refs).schema.resolve? x).bind fun f => (joinedRow refs names).get? f.name) =
      lookup? refs names x := by
  rcases refs with _ | ⟨first, rest⟩
  · by_cases hx : Name.same Plan.valueField x
    · simp [lookup?, joined, Plan.schema, Schema.resolve?, hx, joinedRow, Row.single,
        Row.get?_insert]
    · simp [lookup?, joined, Plan.schema, Schema.resolve?, hx]
  rcases names with _ | ⟨name, names⟩
  · cases h
  have hlen : (name :: names).length ≤ (first :: rest).length := Nat.le_of_eq h
  rw [schema_joined_cons, lookup?, if_neg (List.cons_ne_nil _ _)]
  by_cases hx : Name.same identifierField x
  · have hr : Schema.resolve? ((first :: rest).flatMap sourceFields) x =
        some ⟨identifierField, .text⟩ := by
      simp [sourceFields, Schema.resolve?, hx]
    rw [if_pos hx, hr, Option.bind_some, get?_joinedRow_cons, findSome?_identifierField,
      List.map_reverse, List.map_snd_zip hlen, List.head?_reverse]
  · rw [if_neg hx, resolve?_flatMap_sourceFields hx, Option.bind_map]
    refine Option.bind_congr fun reference _ => ?_
    rw [Function.comp_apply, get?_joinedRow_cons, findSome?_qualified]

theorem readField_joinedRow {refs names : List String} (h : names.length = refs.length) :
    Column.readField (joined refs).schema (joinedRow refs names) =
      fun x => (lookup? refs names x).getD .null := by
  funext x
  rw [Column.readField, bind_resolve?_eq_lookup? h]

/-- A name that resolves has a meaning wherever the sources stand. -/
theorem isSome_lookup? {refs names : List String} (h : names.length = refs.length) {x : String}
    (hx : ((joined refs).schema.resolve? x).isSome) : (lookup? refs names x).isSome := by
  rcases refs with _ | ⟨first, rest⟩
  · have hv : Name.same Plan.valueField x := by
      simpa [joined, Plan.schema, Schema.resolve?] using hx
    simp [lookup?, hv]
  rw [lookup?, if_neg (List.cons_ne_nil _ _)]
  by_cases hi : Name.same identifierField x
  · rw [if_pos hi, Option.isSome_map, List.getLast?_isSome]
    rintro rfl
    cases h
  · rw [schema_joined_cons, resolve?_flatMap_sourceFields hi, Option.isSome_map] at hx
    obtain ⟨reference, hr⟩ := Option.isSome_iff_exists.mp hx
    have hm : reference ∈ ((first :: rest).zip names).map (·.1) := by
      rw [List.map_fst_zip (Nat.le_of_eq h.symm)]
      exact List.mem_of_find?_eq_some hr
    obtain ⟨e, he, rfl⟩ := List.mem_map.mp hm
    rw [if_neg hi, hr, Option.bind_some, Option.isSome_map, List.lookup_isSome_iff]
    exact ⟨e, List.mem_reverse.mpr he, beq_self_eq_true e.1⟩

end PullSql.Query
