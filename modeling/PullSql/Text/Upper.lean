import PullSql.Text.CaseTable

/-!
# Upper case

A text is put in upper case character by character, and a character may become several. Main
statement: `upper_append`, no character's form hangs on its neighbours.
-/

namespace PullSql.Text

/-- Whether a code point belongs to a run. -/
def CaseRun.holds (r : CaseRun) (code : Nat) : Bool :=
  r.first ≤ code && code ≤ r.last && (code - r.first) % r.step = 0

/-- The upper-case form of a character outside ASCII, itself when it has none. -/
def upperBeyondAscii (c : Char) : List Char :=
  match caseExpansions.lookup c.toNat with
  | some codes => codes.map Char.ofNat
  | none =>
    match caseRuns.find? (·.holds c.toNat) with
    | some run => [Char.ofNat (c.toNat + run.shift).toNat]
    | none => [c]

/-- The upper-case form of a character. -/
def upperChar (c : Char) : List Char :=
  if c.toNat < 0x80 then [c.toUpper] else upperBeyondAscii c

/-- The upper-case form of a text, as characters. -/
def upperChars (s : List Char) : List Char := s.flatMap upperChar

/-- The upper-case form of a text. -/
def upper (s : String) : String := String.ofList (upperChars s.toList)

@[simp] theorem upperChars_append (s t : List Char) :
    upperChars (s ++ t) = upperChars s ++ upperChars t := by
  simp [upperChars]

theorem upper_append (s t : String) : upper (s ++ t) = upper s ++ upper t := by
  simp [upper]

end PullSql.Text
