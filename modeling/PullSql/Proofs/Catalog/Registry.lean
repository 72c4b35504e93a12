import PullSql.Proofs.Catalog.Changes
import PullSql.Proofs.Query.Failures

/-!
# The catalog as a registry

Whatever changes a catalog was asked for, it lists what the last granted changes of their names
brought, in their order, and SHOW TABLES answers its own name and this list (`registry_of_changes`).
-/

namespace PullSql

open Catalog (Change identifierField)
open Query (scanAs)

namespace Catalog

variable {c : Catalog}

theorem get_eq_ok_iff (hc : c.relationNames.Nodup) {name : String} {r : Relation} :
    c.get name = .ok r ↔ r ∈ c.relations ∧ r.name = name := by
  have hf : c.get name = .ok r ↔ c.relations.find? (·.name == name) = some r := by
    rcases hs : c.relations.find? (·.name == name) with _ | s <;> simp [get, hs]
  rw [hf]
  constructor
  · intro h
    exact ⟨List.mem_of_find?_eq_some h, by simpa using List.find?_some h⟩
  · rintro ⟨hr, rfl⟩
    obtain ⟨s, hs⟩ : ∃ s, c.relations.find? (·.name == r.name) = some s :=
      Option.isSome_iff_exists.mp (List.find?_isSome.mpr ⟨r, hr, by simp⟩)
    have hn : s.name = r.name := by simpa using List.find?_some hs
    rw [hs, List.inj_on_of_nodup_map hc (List.mem_of_find?_eq_some hs) hr hn]

theorem rows_project_scanAs (c : Catalog) (reference : String) :
    let name := Name.qualified reference identifierField
    (Plan.project [⟨name, .text, .field name⟩] (scanAs reference)).rows c =
      c.scanNames.map fun n => Row.ofList [(name, .text n)] := by
  intro name
  rw [Plan.rows, Query.rows_scanAs, List.map_map]
  refine List.map_congr_left fun n _ => ?_
  have hv : (Query.sourceRow reference n).get? name = some (.text n) := by
    rw [Query.sourceRow, Row.get?_rename_ofName, if_pos (.inr rfl)]
  simp [Row.project, Evaluator.evaluate, hv]

/-- What SHOW TABLES answers: one column, the catalog's own name and the relations below it. -/
theorem collect_showTables (db : Database) :
    let name := Name.qualified db.catalog.ownName identifierField
    db.collect "SHOW TABLES" = .ok ⟨[⟨name, .text⟩],
      (db.catalog.ownName :: db.catalog.relationNames).map fun n => Row.ofList [(name, .text n)]⟩ := by
  intro name
  have ht : Sql.Statement.ofText "SHOW TABLES" = .ok .showTables := by rfl
  have hq : db.query "SHOW TABLES" =
      .ok (.ofPlan db.catalog (.project [⟨name, .text, .field name⟩] (scanAs db.catalog.ownName))) := by
    rw [Database.query, ht]
    show db.execute .showTables = _
    rw [Database.execute, Query.plan_showTables]
    rfl
  rw [Database.collect, hq]
  show Except.ok (Result.mk _ (Cursor.drain _ _).1) = _
  rw [Cursor.drain_ofPlan, rows_project_scanAs]
  rfl

/-! ## Histories -/

/-- **The catalog is a registry.** Whatever changes an empty catalog was asked for, its relations are
what the last granted changes of their names brought, in the order of these changes. Names are
distinct and never mean the catalog itself; a relation is found under its name with the schema of its
creation. Creating fails for a name that means the catalog or is listed, dropping for one that is not,
and then nothing changes. SHOW TABLES answers one column, the catalog's own name and the names listed. -/
theorem registry_of_changes (ownName : String) (ks : List Change) :
    let c := (called ownName).changed ks
    c.ownName = ownName ∧
    c.relations = (Change.lasts (granted (called ownName) ks)).filterMap Change.relation? ∧
    c.relationNames.Nodup ∧ (∀ name ∈ c.relationNames, ¬ Name.same ownName name) ∧
    (∀ name r, c.get name = .ok r ↔ r ∈ c.relations ∧ r.name = name) ∧
    (∀ name schema e, c.create name schema = .error e ↔
      (Name.same ownName name ∨ name ∈ c.relationNames) ∧ e = .relationAlreadyExists name) ∧
    (∀ name e, c.drop name = .error e ↔ name ∉ c.relationNames ∧ e = .relationNotFound name) ∧
    (∀ k e, c.apply k = .error e → c.after k = c) ∧
    ∀ settings,
      let name := Name.qualified ownName identifierField
      Database.collect ⟨c, settings⟩ "SHOW TABLES" = .ok ⟨[⟨name, .text⟩],
        (ownName :: c.relationNames).map fun n => Row.ofList [(name, .text n)]⟩ := by
  intro c
  obtain ⟨ho, h⟩ := holds_changed (holds_called ownName) ks
  have hown : ∀ name, c.isOwnName name = Name.same ownName name := fun name => by
    rw [isOwnName, ho]
    rfl
  refine ⟨ho, h.relations, h.nodup, fun name hn => hown name ▸ h.reserved name hn,
    fun name r => get_eq_ok_iff h.nodup, fun name schema e => hown name ▸ create_eq_error_iff,
    fun name e => drop_eq_error_iff, fun k e => after_of_apply_eq_error, fun settings => ?_⟩
  have hs := collect_showTables ⟨c, settings⟩
  rwa [ho] at hs

/-- Relations are told apart by letter case, the catalog itself is not; a relation that is created
again stands behind the others. -/
example :
    let ks : List Change := [.create "a" [], .create "A" [⟨"n", .integer⟩], .create "Tables" [],
      .create "a" [], .drop "b", .drop "a", .create "a" [⟨"x", .text⟩]]
    ((called "TABLES").changed ks).relations = [⟨"A", [⟨"n", .integer⟩]⟩, ⟨"a", [⟨"x", .text⟩]⟩] := by
  decide

end Catalog

end PullSql
