import PullSql.Text.Cluster

/-!
# Typed lines

A line may hold the backspaces of the one who typed it. Each takes back the cluster before it, and none
is left in the line. Main statement: `typed_eq_self`, a line without backspaces is as it was typed.

The size of a cluster is kept in one byte. A cluster of 256 bytes or more is therefore taken back only
in part, from its end and by what its size exceeds a multiple of 256.
-/

namespace PullSql.Text

/-- The backspace. -/
def backspace : Char := '\x08'

/-- The number of bytes of a text. -/
def byteSize (text : List Char) : Nat := text.foldr (fun c size => c.utf8Size + size) 0

/-- What is left of a text, given with its last character first, without its last `n` bytes. -/
def dropBytes : Nat → List Char → List Char
  | 0, text => text
  | _, [] => []
  | n + 1, c :: rest => dropBytes (n + 1 - c.utf8Size) rest

/-- A line being typed. -/
structure Typing where
  /-- The text, the last character first. -/
  text : List Char := []
  /-- The sizes of the clusters that can be taken back, the last one first. -/
  sizes : List UInt8 := []

/-- One more cluster or a backspace, which is a cluster of its own. -/
def Typing.key (t : Typing) (cluster : List Char) : Typing :=
  if cluster = [backspace] then
    match t.sizes with
    | [] => t
    | size :: sizes => ⟨dropBytes size.toNat t.text, sizes⟩
  else ⟨cluster.reverse ++ t.text, .ofNat (byteSize cluster) :: t.sizes⟩

/-- What is left of a line when its backspaces have taken effect. -/
def typed (line : List Char) : List Char :=
  if backspace ∈ line then ((clusters line).foldl Typing.key {}).text.reverse else line

theorem typed_eq_self {line : List Char} (h : backspace ∉ line) : typed line = line := if_neg h

end PullSql.Text
