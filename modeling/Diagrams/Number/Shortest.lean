import Diagrams.Number.Rounding

/-!
# The shortest decimal

The decimal with the fewest digits that reads back as a given 53-bit number, and two ways of writing
it.

* `Decimal.shortest` — among the decimals with the fewest digits that round to the number, the
  nearest.
* `coordinateText` — a whole number without a point, any other number as `realText`.
* `realText` — always with a point or an exponent; the exponent is written from `10 ^ 16` upward and
  below `10 ^ (-4)`.
-/

namespace Diagrams.Number

/-- The number `mantissa * 10 ^ exponent`. -/
structure Decimal where
  /-- The digits as a whole number. -/
  mantissa : Nat
  /-- The place of the last digit. -/
  exponent : Int
  deriving DecidableEq, Repr

namespace Decimal

/-- The number that a decimal denotes. -/
def value (d : Decimal) : Rat := (d.mantissa : Rat) * (10 : Rat) ^ d.exponent

/-- The place of the first digit of a positive number. -/
def firstPlace (q : Rat) : Int :=
  if 1 ≤ q then ((Nat.toDigits 10 q.floor.toNat).length : Int) - 1
  else
    match (List.range 400).find? fun j => 1 ≤ q * 10 ^ (j + 1) with
    | some j => -((j : Int) + 1)
    | none => -401

/-- The nearer of the two decimals around a positive number that end in the given place, provided
it rounds to the number; if only one of them does, that one. -/
def endingIn? (q : Rat) (place : Int) : Option Decimal :=
  let below := (q / (10 : Rat) ^ place).floor.toNat
  let under : Decimal := ⟨below, place⟩
  let above : Decimal := ⟨below + 1, place⟩
  let candidates := if above.value - q < q - under.value then [above, under] else [under, above]
  candidates.find? fun d => toBinary64 d.value == q

/-- The digits without zeros at the end. At most as many are dropped as there are digits. -/
def dropZeros (d : Decimal) : Decimal :=
  go (Nat.toDigits 10 d.mantissa).length d
where
  /-- Drops up to the given number of zeros. -/
  go : Nat → Decimal → Decimal
    | 0, d => d
    | n + 1, d => if d.mantissa % 10 = 0 then go n ⟨d.mantissa / 10, d.exponent + 1⟩ else d

/-- The decimal with the fewest digits that rounds to the positive number, which must have at most
53 significant bits. Seventeen digits are always enough. -/
def shortest (q : Rat) : Decimal :=
  let first := firstPlace q
  match (List.range 17).findSome? fun n => endingIn? q (first - (n : Nat)) with
  | some d => d.dropZeros
  | none => ⟨q.floor.toNat, 0⟩

end Decimal

/-- An exponent with its sign and at least two digits. -/
def exponentText (e : Int) : String :=
  let digits := toString e.natAbs
  (if e < 0 then "e-" else "e+") ++ (if digits.length < 2 then "0" ++ digits else digits)

/-- A positive number of at most 53 bits: positional from `10 ^ (-4)` up to but excluding
`10 ^ 16`, with at least one digit after the point; otherwise with an exponent. -/
def positiveText (q : Rat) : String :=
  let d := Decimal.shortest q
  let digits := Nat.toDigits 10 d.mantissa
  let point : Int := digits.length + d.exponent
  if point ≤ -4 ∨ 16 < point then
    let tail := digits.drop 1
    String.ofList (digits.take 1 ++ (if tail = [] then [] else '.' :: tail)) ++
      exponentText (point - 1)
  else if point ≤ 0 then
    "0." ++ String.ofList (List.replicate (-point).toNat '0' ++ digits)
  else if point < digits.length then
    String.ofList (digits.take point.toNat ++ '.' :: digits.drop point.toNat)
  else
    String.ofList (digits ++ List.replicate (point.toNat - digits.length) '0') ++ ".0"

/-- A number of at most 53 bits, with a point or an exponent. -/
def realText (q : Rat) : String :=
  if q = 0 then "0.0" else if q < 0 then "-" ++ positiveText (-q) else positiveText q

/-- A coordinate, rounded to 53 bits: a whole number as such, any other number by its shortest
decimal. -/
def coordinateText (q : Rat) : String :=
  let r := toBinary64 q
  if r.den = 1 then toString r.num else realText r

end Diagrams.Number
