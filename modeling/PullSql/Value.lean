import PullSql.Double
import PullSql.Text.Quoted

/-!
# Values

What a field of a row holds: NULL, a 64-bit integer, a double or a text. Arithmetic on two integers
is exact as long as the result fits 64 bits and falls back to doubles where it does not; operand
pairs without a meaning have no result.
-/

namespace PullSql

/-- The value of one field. -/
inductive Value where
  | null
  | integer (n : Int64)
  | double (d : Double)
  | text (s : String)
  deriving DecidableEq, Repr, Inhabited

namespace Value

/-! ## Conversions -/

/-- The 64-bit integer equal to `n`, if there is one. -/
def int64? (n : Int) : Option Int64 :=
  if Int64.minValue.toInt ≤ n ∧ n ≤ Int64.maxValue.toInt then some (Int64.ofInt n) else none

/-- The integer part of a number, held in the 64-bit range. -/
def toInt64? : Value → Option Int64
  | integer n => some n
  | double d => some d.toInt64
  | _ => none

/-- The double nearest to a number. -/
def toDouble? : Value → Option Double
  | integer n => some (.ofInt n.toInt)
  | double d => some d
  | _ => none

/-! ## Arithmetic -/

/-- Combines two numbers: exactly when both are integers and the result fits, else as doubles. -/
def combine? (exact : Int → Int → Int) (rounded : Double → Double → Double) (a b : Value) :
    Option Value :=
  match a, b with
  | integer m, integer n =>
    match int64? (exact m.toInt n.toInt) with
    | some k => some (integer k)
    | none => some (double (rounded (.ofInt m.toInt) (.ofInt n.toInt)))
  | a, b => do return double (rounded (← a.toDouble?) (← b.toDouble?))

/-- The sum of two numbers, or two texts joined. -/
def add? : Value → Value → Option Value
  | text s, text t => some (text (s ++ t))
  | a, b => combine? (· + ·) (· + ·) a b

/-- The difference of two numbers. -/
def sub? : Value → Value → Option Value := combine? (· - ·) (· - ·)

/-- The product of two numbers. -/
def mul? : Value → Value → Option Value := combine? (· * ·) (· * ·)

/-- The quotient of two numbers, always a double. -/
def div? (a b : Value) : Option Value := do return double ((← a.toDouble?) / (← b.toDouble?))

/-- The negative of a number. -/
def neg? : Value → Option Value
  | integer n =>
    match int64? (-n.toInt) with
    | some k => some (integer k)
    | none => some (double (-.ofInt n.toInt))
  | double d => some (double (-d))
  | _ => none

/-! ## Text -/

/-- Numbers as text: never with an exponent, and whole numbers without a point. -/
def plainLayout : Layout where
  positional _ := true
  keepsPoint := false
  tie := .upward
  notANumber := "NaN"
  infinity := "inf"
  negativeInfinity := "-inf"

/-- Numbers in JSON: whole numbers keep their point, very small and very large ones have an exponent,
and what is no number is `null`. -/
def jsonLayout : Layout where
  positional leading := -5 ≤ leading && leading < 16
  keepsPoint := true
  tie := .toEven
  notANumber := "null"
  infinity := "null"
  negativeInfinity := "null"

/-- The text shown for a value. -/
def display : Value → String
  | null => "NULL"
  | integer n => toString n.toInt
  | double d => d.write plainLayout
  | text s => s

/-- The JSON text of a value. -/
def json : Value → String
  | null => "null"
  | integer n => toString n.toInt
  | double d => d.write jsonLayout
  | text s => Text.quoted s

end Value

end PullSql
