/-!
# Ranges of characters

Classes of characters are given by the closed ranges of their code points, in ascending order.
-/

namespace PullSql.Text

/-- Whether a code point lies in one of the ranges. The first range that starts behind it ends the
search. -/
def inRanges (code : Nat) : List (Nat × Nat) → Bool
  | [] => false
  | (first, last) :: rest => first ≤ code && (code ≤ last || inRanges code rest)

end PullSql.Text
