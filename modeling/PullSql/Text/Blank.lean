import PullSql.Text.Ranges

/-!
# Blanks

Blanks are the characters with the Unicode property White_Space. `trim` drops them at both ends of a
text and `words` splits a text at them.
-/

namespace PullSql.Text

/-- The code points of the blanks, as closed ranges in ascending order. -/
def blankRanges : List (Nat × Nat) :=
  [(0x09, 0x0D), (0x20, 0x20), (0x85, 0x85), (0xA0, 0xA0), (0x1680, 0x1680), (0x2000, 0x200A),
   (0x2028, 0x2029), (0x202F, 0x202F), (0x205F, 0x205F), (0x3000, 0x3000)]

/-- Whether a character is a blank. -/
def isBlank (c : Char) : Bool := inRanges c.toNat blankRanges

/-- A text without the blanks at its end. -/
def trimEnd (s : List Char) : List Char :=
  s.foldr (fun c rest => if rest.isEmpty && isBlank c then [] else c :: rest) []

/-- A text without the blanks at both ends. -/
def trim (s : List Char) : List Char := trimEnd (s.dropWhile isBlank)

/-- The runs of characters between blanks. -/
def words (s : List Char) : List (List Char) :=
  (s.splitOnP isBlank).filter (! ·.isEmpty)

end PullSql.Text
