/-!
# Shortest decimals

A finite binary number stands for every real number that rounds to it. Among the decimals in that
interval the ones with the fewest digits identify the number; of those, the one nearest to it is
chosen, and a rule settles an exact tie.

* `Binary.accepts` decides, in exact arithmetic, whether a decimal lies in the interval.
* `Binary.shortest` tries the decimal grids from the coarsest on and takes the first one with a
  neighbour of the number in the interval.
-/

namespace PullSql

/-- A non-negative decimal number, `digits · 10 ^ exponent`. -/
structure Decimal where
  digits : Nat
  exponent : Int
  deriving DecidableEq, Repr

/-- A non-negative binary number, `mantissa · 2 ^ exponent`, as one of a fixed-width format. -/
structure Binary where
  mantissa : Nat
  exponent : Int
  /-- The next number below is half as far away as the next one above. -/
  narrowBelow : Bool
  deriving DecidableEq, Repr

/-- The choice between two candidates that are equally near. -/
inductive Tie where
  | toEven
  | upward
  deriving DecidableEq, Repr

namespace Binary

/-! ## The interval of a number

Lengths are counted in quarters of the last binary place, so that both ends are whole numbers. -/

/-- The number in quarters of its last place. -/
def quarters (x : Binary) : Nat := 4 * x.mantissa

/-- The lower end of the interval, in quarters. -/
def lowerEnd (x : Binary) : Nat := x.quarters - if x.narrowBelow then 1 else 2

/-- The upper end of the interval, in quarters. -/
def upperEnd (x : Binary) : Nat := x.quarters + 2

/-- One quarter of the last place as a fraction of `10 ^ grid`: numerator and denominator. -/
def quarterOn (x : Binary) (grid : Int) : Nat × Nat :=
  (Nat.pow 10 (-grid).toNat <<< (x.exponent - 2).toNat,
    Nat.pow 10 grid.toNat <<< (2 - x.exponent).toNat)

/-- Whether `digits · 10 ^ grid` rounds to the number. The ends of the interval belong to it exactly
when the mantissa is even. -/
def accepts (x : Binary) (grid : Int) (digits : Nat) : Bool :=
  let (num, den) := x.quarterOn grid
  let here := digits * den
  let low := x.lowerEnd * num
  let high := x.upperEnd * num
  if x.mantissa % 2 = 0 then low ≤ here && here ≤ high else low < here && here < high

/-! ## The search -/

/-- The digits on one grid: of the two neighbours of the number those that round to it, and of two
the nearer one. -/
def digitsOn (x : Binary) (tie : Tie) (grid : Int) : Option Nat :=
  let (num, den) := x.quarterOn grid
  let below := x.quarters * num / den
  match x.accepts grid below, x.accepts grid (below + 1) with
  | false, false => none
  | true, false => some below
  | false, true => some (below + 1)
  | true, true =>
    match compare (2 * (x.quarters * num)) ((2 * below + 1) * den), tie with
    | .lt, _ => some below
    | .gt, _ => some (below + 1)
    | .eq, .upward => some (below + 1)
    | .eq, .toEven => some (if below % 2 = 0 then below else below + 1)

/-- Whether the number is below `10 ^ power`. -/
def belowPower (x : Binary) (power : Int) : Bool :=
  let (num, den) := x.quarterOn power
  x.quarters * num < den

/-- The least power of ten above the number, found next to an estimate from the binary logarithm. -/
def magnitude (x : Binary) : Int :=
  let estimate := ((x.mantissa.log2 + x.exponent) * 30103).fdiv 100000
  ([estimate - 1, estimate, estimate + 1].find? x.belowPower).getD (estimate + 2)

/-- The exact decimal value. -/
def exact (x : Binary) : Decimal :=
  if 0 ≤ x.exponent then ⟨x.mantissa <<< x.exponent.toNat, 0⟩
  else ⟨x.mantissa * Nat.pow 5 (-x.exponent).toNat, x.exponent⟩

/-- The shortest decimal that rounds to the number. Seventeen digits suffice for a 64-bit format; the
exact value stands in should none be found. -/
def shortest (x : Binary) (tie : Tie) : Decimal :=
  if x.mantissa = 0 then ⟨0, 0⟩
  else
    let grids := (List.range 18).map fun (places : Nat) => x.magnitude - places
    (grids.findSome? fun grid => (x.digitsOn tie grid).map (⟨·, grid⟩)).getD x.exact

end Binary

end PullSql
