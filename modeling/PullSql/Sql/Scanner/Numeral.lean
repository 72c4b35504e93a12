import PullSql.Sql.Token

/-!
# Numerals

A numeral is digits, a fraction and an exponent, the last two optional. The scanner first takes the
run of characters that could belong to one and then checks its form. Digits alone make an integer if
it fits 64 bits; every other numeral is the nearest double.
-/

namespace PullSql.Sql

/-- Splits off the run of digits, points and exponents at the front. A point belongs to the run when
a digit follows it and no point or exponent came before; an exponent takes its sign along. -/
def numeralRun (inFraction : Bool) : List Char → List Char × List Char
  | [] => ([], [])
  | c :: rest =>
    if c.isDigit then
      let (run, rest) := numeralRun inFraction rest
      (c :: run, rest)
    else if c = '.' && !inFraction && rest.head?.any Char.isDigit then
      let (run, rest) := numeralRun true rest
      (c :: run, rest)
    else if c = 'e' || c = 'E' then
      match rest with
      | '+' :: rest =>
        let (run, rest) := numeralRun true rest
        (c :: '+' :: run, rest)
      | '-' :: rest =>
        let (run, rest) := numeralRun true rest
        (c :: '-' :: run, rest)
      | rest =>
        let (run, rest) := numeralRun true rest
        (c :: run, rest)
    else ([], c :: rest)

/-- The number that digits stand for. -/
def digitsValue (digits : List Char) : Nat :=
  digits.foldl (fun n c => 10 * n + (c.toNat - '0'.toNat)) 0

/-- The parts of a numeral. -/
structure Numeral where
  whole : List Char
  fraction : List Char
  exponent : Int

namespace Numeral

/-- The exponent that ends a numeral: nothing, or a mark, a sign if any and digits. -/
def exponentOf? : List Char → Option Int
  | [] => some 0
  | _ :: '+' :: digits => (magnitude? digits).map (·)
  | _ :: '-' :: digits => (magnitude? digits).map (-·)
  | _ :: digits => (magnitude? digits).map (·)
where
  /-- The value of one or more digits. -/
  magnitude? (digits : List Char) : Option Int :=
    if digits.isEmpty || !digits.all Char.isDigit then none else some (digitsValue digits)

/-- Reads a run that starts with a digit and whose points are followed by digits. -/
def ofRun? (run : List Char) : Option Numeral :=
  let whole := run.takeWhile Char.isDigit
  match run.dropWhile Char.isDigit with
  | '.' :: rest =>
    (exponentOf? (rest.dropWhile Char.isDigit)).map (⟨whole, rest.takeWhile Char.isDigit, ·⟩)
  | rest => (exponentOf? rest).map (⟨whole, [], ·⟩)

/-- The decimal that a numeral writes. -/
def decimal (n : Numeral) : Decimal :=
  ⟨digitsValue (n.whole ++ n.fraction), n.exponent - n.fraction.length⟩

end Numeral

/-- The token of a run of numeral characters, if the run has the form of a numeral. -/
def numeralToken? (run : List Char) : Option Token :=
  if run.all Char.isDigit then
    let n := digitsValue run
    match Value.int64? n with
    | some k => some (.integer k)
    | none => some (.double (.ofDecimal ⟨n, 0⟩))
  else (Numeral.ofRun? run).map fun n => .double (.ofDecimal n.decimal)

end PullSql.Sql
