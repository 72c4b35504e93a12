import Mathlib
import PullSql.Text.Upper

/-!
# Letter cases of ASCII words

Text in capitals is reached by upper-casing from its own letters and their small forms only
(`map_toUpper_eq_iff`). For ASCII text this is all that upper-casing does (`upperChars_of_ascii`).
-/

namespace PullSql.Text

theorem eq_toUpper_or_eq_toLower_toUpper (c : Char) : c = c.toUpper ∨ c = c.toUpper.toLower := by
  rw [Char.toLower_toUpper_eq_toLower]
  by_cases h : c.isLower
  · exact .inr (Char.toLower_eq_of_not_isUpper (Char.not_isUpper_of_isLower h)).symm
  · exact .inl (Char.toUpper_eq_of_not_isLower h).symm

/-- Upper case is reached from the letters of `ls` and their lower cases only. -/
theorem map_toUpper_eq_iff {cs ls : List Char} (h : ∀ l ∈ ls, l.toUpper = l) :
    cs.map Char.toUpper = ls ↔ List.Forall₂ (fun c l => c = l ∨ c = l.toLower) cs ls := by
  induction ls generalizing cs with
  | nil => simp
  | cons l ls ih =>
    obtain ⟨hl, hls⟩ := List.forall_mem_cons.mp h
    cases cs with
    | nil => simp
    | cons c cs =>
      have hc : c.toUpper = l ↔ c = l ∨ c = l.toLower := by
        constructor
        · rintro rfl
          exact eq_toUpper_or_eq_toLower_toUpper c
        · rintro (rfl | rfl)
          · exact hl
          · rw [Char.toUpper_toLower_eq_toUpper, hl]
      rw [List.map_cons, List.cons.injEq, List.forall₂_cons, ih hls, hc]

theorem upperChars_of_ascii {cs : List Char} (h : ∀ c ∈ cs, c.toNat < 0x80) :
    upperChars cs = cs.map Char.toUpper := by
  induction cs with
  | nil => rfl
  | cons c cs ih =>
    obtain ⟨hc, hcs⟩ := List.forall_mem_cons.mp h
    have hu : upperChar c = [c.toUpper] := if_pos hc
    rw [List.map_cons, ← ih hcs]
    show upperChar c ++ upperChars cs = _
    rw [hu]
    rfl

end PullSql.Text
