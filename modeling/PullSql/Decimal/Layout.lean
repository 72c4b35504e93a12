import PullSql.Decimal.Shortest

/-!
# Layout of decimals

A `Layout` holds the decisions of one number format: which magnitudes are written positionally,
whether whole numbers keep a point, which of two equally near candidates is written, and the texts
of the values that are no numbers. `Layout.write` lays out a decimal under these decisions.
-/

namespace PullSql

/-- The decisions of a number format. -/
structure Layout where
  /-- The powers of ten of the leading digit that are written without an exponent. -/
  positional : Int → Bool
  /-- Whether a whole number written without an exponent ends in `.0`. -/
  keepsPoint : Bool
  /-- The candidate written when two shortest decimals are equally near. -/
  tie : Tie
  notANumber : String
  infinity : String
  negativeInfinity : String

namespace Layout

/-- A row of `n` zeros. -/
def zeros (n : Nat) : List Char := List.replicate n '0'

/-- Digits written without an exponent; `leading` is the power of ten of the first digit. -/
def writePositional (l : Layout) (digits : List Char) (leading : Int) : List Char :=
  if leading < 0 then
    '0' :: '.' :: zeros (-leading - 1).toNat ++ digits
  else
    let whole := leading.toNat + 1
    if digits.length ≤ whole then
      digits ++ zeros (whole - digits.length) ++ if l.keepsPoint then ['.', '0'] else []
    else
      digits.take whole ++ '.' :: digits.drop whole

/-- Digits written with a signed exponent, the point after the first digit. -/
def writeScientific (digits : List Char) (leading : Int) : List Char :=
  let fraction := digits.drop 1
  digits.take 1 ++ (if fraction.isEmpty then [] else '.' :: fraction) ++
    ['e', if leading < 0 then '-' else '+'] ++ Nat.toDigits 10 leading.natAbs

/-- The text of a decimal. -/
def write (l : Layout) (d : Decimal) : List Char :=
  let digits := Nat.toDigits 10 d.digits
  let leading := d.exponent + digits.length - 1
  if l.positional leading then l.writePositional digits leading else writeScientific digits leading

end Layout

end PullSql
