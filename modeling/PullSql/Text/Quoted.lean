/-!
# Quoted text

Text between double quotes as JSON has it. The quote, the backslash and the control characters are
escaped; every other character stands for itself.
-/

namespace PullSql.Text

/-- The letter that follows the backslash in a short escape. -/
def escapeLetter? : Char → Option Char
  | '"' => some '"'
  | '\\' => some '\\'
  | '\x08' => some 'b'
  | '\t' => some 't'
  | '\n' => some 'n'
  | '\x0C' => some 'f'
  | '\r' => some 'r'
  | _ => none

/-- A character inside quotes. -/
def escape (c : Char) : List Char :=
  match escapeLetter? c with
  | some letter => ['\\', letter]
  | none =>
    if c.toNat < 0x20 then
      ['\\', 'u', '0', '0', Nat.digitChar (c.toNat / 16), Nat.digitChar (c.toNat % 16)]
    else [c]

/-- A text in double quotes. -/
def quoted (s : String) : String := String.ofList ('"' :: s.toList.flatMap escape ++ ['"'])

/-- Items between two brackets, set apart by commas. -/
def bracketed (opening closing : String) (items : List String) : String :=
  opening ++ ",".intercalate items ++ closing

/-- A JSON array of items that are JSON texts. -/
def jsonArray (items : List String) : String := bracketed "[" "]" items

/-- A JSON object of members whose values are JSON texts. -/
def jsonObject (members : List (String × String)) : String :=
  bracketed "\x7b" "\x7d" (members.map fun (name, value) => quoted name ++ ":" ++ value)

end PullSql.Text
