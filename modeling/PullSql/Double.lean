import PullSql.Decimal.Layout

/-!
# Doubles

A double is its 64 bits, so two doubles are equal exactly when their bits are: a NaN equals itself
and the two zeros differ. Arithmetic is that of the binary64 format; reading and writing go through
exact decimals.
-/

namespace PullSql

/-- A binary64 number, known by its bits. -/
structure Double where
  bits : UInt64
  deriving DecidableEq, Repr, Inhabited

namespace Double

/-- The double that the machine number holds. -/
def ofFloat (x : Float) : Double := ⟨x.toBits⟩

/-- The machine number with these bits. -/
def toFloat (d : Double) : Float := Float.ofBits d.bits

/-- Positive infinity. -/
def infinity : Double := ⟨0x7FF0000000000000⟩

/-- The sign bit. -/
def isNegative (d : Double) : Bool := d.bits >>> 63 = 1

/-! ## Arithmetic -/

instance : Add Double := ⟨fun a b => ofFloat (a.toFloat + b.toFloat)⟩

instance : Sub Double := ⟨fun a b => ofFloat (a.toFloat - b.toFloat)⟩

instance : Mul Double := ⟨fun a b => ofFloat (a.toFloat * b.toFloat)⟩

instance : Div Double := ⟨fun a b => ofFloat (a.toFloat / b.toFloat)⟩

/-- Negation flips the sign bit, of zeros, infinities and NaN as well. -/
instance : Neg Double := ⟨fun d => ⟨d.bits ^^^ 0x8000000000000000⟩⟩

/-! ## Parts of a double -/

/-- What the bits stand for, the sign apart. -/
inductive Size where
  | notANumber
  | infinite
  | finite (magnitude : Binary)
  deriving DecidableEq, Repr

/-- Splits the bits into exponent and fraction. Numbers with the least exponent have no leading one;
the others are narrow below when the fraction is zero, unless the number below is one of the former. -/
def size (d : Double) : Size :=
  let exponent := (d.bits >>> 52 &&& 0x7FF).toNat
  let fraction := (d.bits &&& 0xFFFFFFFFFFFFF).toNat
  if exponent = 0x7FF then if fraction = 0 then .infinite else .notANumber
  else if exponent = 0 then .finite ⟨fraction, -1074, false⟩
  else .finite ⟨0x10000000000000 + fraction, exponent - 1075, fraction = 0 && 1 < exponent⟩

/-! ## Integers -/

/-- The double nearest to an integer. -/
def ofInt (n : Int) : Double := ofFloat (Float.ofInt n)

/-- The integer part of a 64-bit integer's range: truncated toward zero, held at the ends of the
range, and zero for NaN. -/
def toInt64 (d : Double) : Int64 :=
  match d.size with
  | .notANumber => 0
  | .infinite => if d.isNegative then Int64.minValue else Int64.maxValue
  | .finite x =>
    let whole := x.mantissa <<< x.exponent.toNat >>> (-x.exponent).toNat
    let signed : Int := if d.isNegative then -whole else whole
    if signed < Int64.minValue.toInt then Int64.minValue
    else if Int64.maxValue.toInt < signed then Int64.maxValue
    else Int64.ofInt signed

/-! ## Decimals -/

/-- The double nearest to a decimal. Decimals far outside the range are zero or infinite without
computing their power of ten. -/
def ofDecimal (d : Decimal) : Double :=
  if d.digits = 0 || (d.digits.log2 / 3 : Nat) + d.exponent < -400 then ⟨0⟩
  else if 400 < d.exponent then infinity
  else ofFloat (Float.ofScientific d.digits (d.exponent < 0) d.exponent.natAbs)

/-- The text of a double in a number format: the shortest decimal, laid out, behind its sign. -/
def write (l : Layout) (d : Double) : String :=
  match d.size with
  | .notANumber => l.notANumber
  | .infinite => if d.isNegative then l.negativeInfinity else l.infinity
  | .finite x =>
    let text := l.write (x.shortest l.tie)
    String.ofList (if d.isNegative then '-' :: text else text)

end Double

end PullSql
