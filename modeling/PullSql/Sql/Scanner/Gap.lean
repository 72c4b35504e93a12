import PullSql.Text.Blank

/-!
# Gaps between tokens

Blanks and comments separate tokens. A comment runs from `--` to the end of its line or from `/*` to
the next `*/`; one that is never closed runs to the end of the input.
-/

namespace PullSql.Sql

/-- Where in a gap the reader stands. -/
inductive GapPart where
  | outside
  | lineComment
  | blockComment
  deriving DecidableEq, Repr

/-- The input behind the gap that the reader stands in. -/
def afterGap : GapPart → List Char → List Char
  | _, [] => []
  | .outside, '-' :: '-' :: rest => afterGap .lineComment rest
  | .outside, '/' :: '*' :: rest => afterGap .blockComment rest
  | .outside, c :: rest => if Text.isBlank c then afterGap .outside rest else c :: rest
  | .lineComment, c :: rest => afterGap (if c = '\n' then .outside else .lineComment) rest
  | .blockComment, '*' :: '/' :: rest => afterGap .outside rest
  | .blockComment, _ :: rest => afterGap .blockComment rest

/-- The input without the blanks and comments in front of it. -/
def skipGap (input : List Char) : List Char := afterGap .outside input

end PullSql.Sql
