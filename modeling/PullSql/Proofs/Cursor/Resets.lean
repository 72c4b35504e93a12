import PullSql.Proofs.Cursor.Lifecycle
import PullSql.Proofs.Plan.Resets

/-!
# Resets below a join

A join of two lists of `m` and `n` rows starts its right list over for every left row, which is all the
work it repeats. A run of fetches goes through one pass (`calls_fetches`), so whoever fetches it to its
end finds that the left list was reset once more than before and the right list `rightResets m n` times
more (`join_resets_inputs`), however the catalogs differ and however many fetches come behind the end.
-/

namespace PullSql.Cursor

/-- The tags of the list sources of a cursor, each with the number of its resets. -/
def resetCounts (c : Cursor) : List (Nat × Nat) := c.tallies.map fun t => (t.tag, t.resets)

/-- Fetches, each over a catalog of its own. -/
def fetches (catalogs : List Catalog) : List (Catalog × Call) := catalogs.map (·, .fetch)

/-- One of the fetches finds nothing. -/
def Drains (c : Cursor) : List Catalog → Prop
  | [] => False
  | catalog :: catalogs => (c.fetch catalog).1 = none ∨ Drains (c.fetch catalog).2 catalogs

/-- A cursor answers `n` fetches with a row and the next one with none. From then on its list sources
have the given numbers of resets. -/
def DrainsTo (c : Cursor) (n : Nat) (counts : List (Nat × Nat)) : Prop :=
  ∀ catalogs, (c.Drains catalogs ↔ n < catalogs.length) ∧
    (c.Drains catalogs → (c.calls (fetches catalogs)).resetCounts = counts)

section Join

variable {leftTag rightTag : Nat} {leftSchema rightSchema : Schema} {leftRows rightRows : List Row}
  {l r k : Nat}

/-- The induction is on the fetches, each of which makes the pass shorter and keeps the counts that it
began with. -/
theorem calls_fetches
    {s : Plan.State (.join (.list leftTag leftSchema leftRows) (.list rightTag rightSchema rightRows))}
    (h : Plan.Pass l r k s) (catalogs : List Catalog) :
    (Drains ⟨_, s⟩ catalogs ↔ 0 < catalogs.length ∧ k ≤ catalogs.length) ∧
      ∃ t : Plan.State (.join (.list leftTag leftSchema leftRows)
          (.list rightTag rightSchema rightRows)),
        calls ⟨_, s⟩ (fetches catalogs) = ⟨_, t⟩ ∧ Plan.Pass l r (k - catalogs.length) t := by
  induction catalogs generalizing s k with
  | nil => exact ⟨by simp [Drains], s, rfl, h⟩
  | cons catalog catalogs ih =>
    obtain ⟨hnone, hpass⟩ := h.fetch catalog
    obtain ⟨hdrains, t, ht, hpass⟩ := ih hpass
    refine ⟨(or_congr hnone hdrains).trans ?_, t, ht, ?_⟩
    · rw [List.length_cons]
      omega
    · rwa [List.length_cons, Nat.add_comm, ← Nat.sub_sub]

/-- The fetches of a whole pass. -/
theorem drainsTo_of_pass
    {s : Plan.State (.join (.list leftTag leftSchema leftRows) (.list rightTag rightSchema rightRows))}
    (h : Plan.Pass l r (Plan.passLength leftRows.length rightRows.length) s) :
    DrainsTo ⟨_, s⟩ (leftRows.length * rightRows.length)
      [(leftTag, l + 1), (rightTag, r + Plan.rightResets leftRows.length rightRows.length)] := by
  intro catalogs
  obtain ⟨hdrains, t, ht, hpass⟩ := calls_fetches h catalogs
  refine ⟨hdrains.trans (Plan.lt_iff_passLength_le _ _ _).symm, fun hd => ?_⟩
  rw [Nat.sub_eq_zero_of_le (hdrains.mp hd).2] at hpass
  rw [ht, resetCounts, tallies, hpass.tallies]
  rfl

theorem drainsTo_reset {c : Cursor}
    (hp : c.plan = .join (.list leftTag leftSchema leftRows) (.list rightTag rightSchema rightRows))
    (h : c.IsOpen) :
    ∃ l r, c.resetCounts = [(leftTag, l), (rightTag, r)] ∧
      ∀ catalog, (c.reset catalog).DrainsTo (leftRows.length * rightRows.length)
        [(leftTag, l + 1),
          (rightTag, r + Plan.rightResets leftRows.length rightRows.length)] := by
  obtain ⟨p, s⟩ := c
  obtain rfl : p = _ := hp
  cases s with
  | join outer inner held closed =>
    cases outer with
    | list i l closes =>
      cases inner with
      | list j r closes' =>
        obtain ⟨rfl, rfl, rfl⟩ : closed = false ∧ closes = 0 ∧ closes' = 0 := h
        exact ⟨l, r, rfl, fun catalog => drainsTo_of_pass (Plan.pass_reset catalog i j l r held)⟩

end Join

/-- **Resets of a join.** Build a join over two new lists of `m` and `n` rows. It answers `m * n` fetches
with a row and the next one with none. From then on, however often it is fetched from, the left list was
reset once and the right one `m` times, or once if `m = 0`, or `min m 2` times if only `n = 0`. Wherever
a history without a close has led, a reset and the fetches to the end add the same numbers. -/
theorem join_resets_inputs (catalog : Catalog) (leftTag rightTag : Nat)
    (leftSchema rightSchema : Schema) (leftRows rightRows : List Row) :
    let c := join catalog (ofPlan catalog (.list leftTag leftSchema leftRows))
      (ofPlan catalog (.list rightTag rightSchema rightRows))
    let n := leftRows.length * rightRows.length
    let again := Plan.rightResets leftRows.length rightRows.length
    c.DrainsTo n [(leftTag, 1), (rightTag, again)] ∧
      ∀ ks : List (Catalog × Call), .close ∉ ks.map Prod.snd →
        ∃ l r, (c.calls ks).resetCounts = [(leftTag, l), (rightTag, r)] ∧
          ∀ now, ((c.calls ks).reset now).DrainsTo n [(leftTag, l + 1), (rightTag, r + again)] := by
  intro c n again
  have hopen : c.IsOpen :=
    IsOpen.join catalog (Plan.isOpen_start catalog _) (Plan.isOpen_start catalog _)
  refine ⟨?_, fun ks hk => ?_⟩
  · have h : c.DrainsTo n [(leftTag, 0 + 1), (rightTag, 0 + again)] :=
      drainsTo_of_pass (Plan.pass_reset catalog 0 0 0 0 none)
    rwa [Nat.zero_add, Nat.zero_add] at h
  · exact drainsTo_reset (plan_calls c ks) ((hopen.calls ks).1 hk)

/-- Three rows joined with none: drained twice, and then reset when the catalog has changed. -/
theorem join_resets_inputs_of_empty_right :
    let rows := [Row.single (.integer 1), Row.single (.integer 2), Row.single (.integer 3)]
    let c := join {} (ofPlan {} (.list 7 [] rows)) (ofPlan {} (.list 8 [] []))
    let catalog : Catalog := { relations := [⟨"a", []⟩] }
    let ks : List (Catalog × Call) := [({}, .fetch), (catalog, .reset), ({}, .fetch)]
    (c.calls (fetches [{}, catalog, {}])).resetCounts = [(7, 1), (8, 2)] ∧
      (c.calls ks).resetCounts = [(7, 2), (8, 4)] ∧
      ((c.calls ks).reset {}).DrainsTo 0 [(7, 3), (8, 6)] := by
  intro rows c catalog ks
  obtain ⟨hnew, hagain⟩ := join_resets_inputs {} 7 8 [] [] rows []
  obtain ⟨l, r, hcounts, hreset⟩ := hagain ks (by decide)
  have hks : (c.calls ks).resetCounts = [(7, 2), (8, 4)] := by decide
  obtain ⟨rfl, rfl⟩ : 2 = l ∧ 4 = r := by simpa using hks.symm.trans hcounts
  exact ⟨(hnew _).2 ((hnew _).1.mpr (by decide)), hks, hreset {}⟩

end PullSql.Cursor
