/-!
# Rounded arithmetic

Coordinates are computed with rational numbers, and each step may round its result.

* `Arithmetic` — how a result is rounded, and which results lie in the range of numbers;
  `Arithmetic.add` and the like round after each operation.
* `exact` — no rounding, and a range without end.
* `binary64` — the nearest number with 53 significant bits, the even one of two, and with no bits
  below `2 ^ (-1074)`; the range ends before `2 ^ 1024`.
* `floorSqrt`, `Arithmetic.sqrt` — square roots of whole numbers.
* `onGrid` — the nearest multiple of a grid step, a half going up.

Layouts are computed with `binary64`; for all coordinates of ordinary size the two arithmetics
agree, since halves and quarters of whole numbers are then represented without loss. Operations do
not stop at the end of the range: a result beyond it is computed as if the range went on, and what
uses numbers says which of them have to lie in the range.
-/

namespace Diagrams.Number

/-- The nearest integer, the even one of two that are equally near. -/
def nearestEven (q : Rat) : Int :=
  let below := q.floor
  let rest := q - below
  if rest < 1 / 2 then below
  else if 1 / 2 < rest then below + 1
  else if below % 2 = 0 then below
  else below + 1

/-- The nearest integer, the upper one of two that are equally near. -/
def nearestUp (q : Rat) : Int := (q + 1 / 2).floor

/-- The exponent of the last of 53 significant bits of a non-zero number, but at least `-1074`. -/
def lastBit (q : Rat) : Int :=
  let guess : Int := (q.num.natAbs.log2 : Int) - q.den.log2 - 52
  let shift := if q.abs / (2 : Rat) ^ guess < (2 : Rat) ^ (52 : Int) then guess - 1 else guess
  max shift (-1074)

/-- The nearest number with 53 significant bits and no bit below `2 ^ (-1074)`; of two that are
equally near the one whose last bit is zero. -/
def toBinary64 (q : Rat) : Rat :=
  if q = 0 then 0
  else (nearestEven (q / (2 : Rat) ^ lastBit q) : Rat) * (2 : Rat) ^ lastBit q

/-- The greatest number whose square is at most `n`, bit by bit: the root of a quarter is doubled,
and one is added if the square stays below. -/
def floorSqrt (n : Nat) : Nat :=
  if n = 0 then 0
  else
    let r := 2 * floorSqrt (n / 4)
    if (r + 1) * (r + 1) ≤ n then r + 1 else r
termination_by n
decreasing_by omega

/-- How results are rounded, and which lie in the range of numbers. -/
structure Arithmetic where
  /-- The rounded value of an exact result. -/
  round : Rat → Rat
  /-- Whether a rounded value lies in the range. -/
  inRange : Rat → Bool := fun _ => true

namespace Arithmetic

/-- Results are kept as they are. -/
def exact : Arithmetic := { round := id }

/-- Results are rounded to 53 significant bits, and lie below `2 ^ 1024`. -/
def binary64 : Arithmetic where
  round := toBinary64
  inRange q := q.abs < (2 : Rat) ^ (1024 : Int)

variable (A : Arithmetic)

/-- A whole number as an operand. -/
def ofInt (n : Int) : Rat := A.round n

/-- The rounded sum. -/
def add (a b : Rat) : Rat := A.round (a + b)

/-- The rounded difference. -/
def sub (a b : Rat) : Rat := A.round (a - b)

/-- The rounded product. -/
def mul (a b : Rat) : Rat := A.round (a * b)

/-- The rounded quotient. -/
def div (a b : Rat) : Rat := A.round (a / b)

/-- The rounded square root of a whole number. The root is cut after 64 binary places, half a place
being added when it does not end there, so that it is rounded as the root itself would be. -/
def sqrt (n : Nat) : Rat :=
  let square := (A.ofInt n).floor.toNat * Nat.pow 4 64
  let r := floorSqrt square
  A.round ((if r * r = square then (r : Rat) else r + 1 / 2) / (2 : Rat) ^ (64 : Int))

/-- The nearest integer, a half going up: one half is added, with rounding, and the fraction cut
off. -/
def nearest (a : Rat) : Int := (A.add a (1 / 2)).floor

/-- The nearest multiple of `step`, a half going up. -/
def onGrid (step : Int) (a : Rat) : Int := A.nearest (A.div a step) * step

/-- Without rounding a number stays as it is. -/
@[simp] theorem round_exact (a : Rat) : exact.round a = a := rfl

/-- Without rounding every number lies in the range. -/
@[simp] theorem inRange_exact (a : Rat) : exact.inRange a = true := rfl

/-- Without rounding a whole number is taken as it is. -/
@[simp] theorem ofInt_exact (n : Int) : exact.ofInt n = n := rfl

/-- Without rounding the sum is the sum of the numbers. -/
@[simp] theorem add_exact (a b : Rat) : exact.add a b = a + b := rfl

/-- Without rounding the difference is that of the numbers. -/
@[simp] theorem sub_exact (a b : Rat) : exact.sub a b = a - b := rfl

/-- Without rounding the product is that of the numbers. -/
@[simp] theorem mul_exact (a b : Rat) : exact.mul a b = a * b := rfl

/-- Without rounding the quotient is that of the numbers. -/
@[simp] theorem div_exact (a b : Rat) : exact.div a b = a / b := rfl

/-- Without rounding, the nearest integer is the floor of the number plus one half. -/
@[simp] theorem nearest_exact (a : Rat) : exact.nearest a = nearestUp a := rfl

/-- A number on the grid is a multiple of the step. -/
theorem dvd_onGrid (step : Int) (a : Rat) : step ∣ A.onGrid step a :=
  Int.dvd_mul_left _ _

end Arithmetic

end Diagrams.Number
