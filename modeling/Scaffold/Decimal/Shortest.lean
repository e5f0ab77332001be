import Scaffold.Decimal.Binary64

/-!
The decimal text of a real: the fewest digits that read back as the same real, the nearest of those
to it. `Layout` says when the digits are written positionally.
-/

namespace Scaffold.Decimal

/-- The number of decimal digits of a natural; zero has one. -/
def digitCount (n : Nat) : Nat := (Nat.toDigits 10 n).length

/-- The power `p` with `10 ^ (p - 1) ≤ num / den < 10 ^ p`, for a positive quotient. -/
def leadingPower (num den : Nat) : Int :=
  if den ≤ num then digitCount (num / den)
  else 1 - (digitCount ((den - 1) / num) : Int)

/-- The reals that round to one real, as numerators over a common denominator. -/
structure Interval where
  low : Nat
  value : Nat
  high : Nat
  denominator : Nat
  /-- Do the ends themselves round to it? -/
  closed : Bool

/-- The interval of `mantissa · 2 ^ exponent`. Below a power of two the neighbour is half as far. -/
def Interval.of (mantissa : Nat) (exponent : Int) : Interval :=
  let below := if mantissa = Nat.pow 2 52 ∧ Binary64.minExponent < exponent then 1 else 2
  let (n, d) :=
    if 0 ≤ exponent - 2 then (Nat.pow 2 (exponent - 2).toNat, 1)
    else (1, Nat.pow 2 (2 - exponent).toNat)
  ⟨(4 * mantissa - below) * n, 4 * mantissa * n, (4 * mantissa + 2) * n, d, mantissa % 2 == 0⟩

/-- Is `digits · 10 ^ power` in the interval? -/
def Interval.holds (i : Interval) (digits : Nat) (power : Int) : Bool :=
  let (x, scale) :=
    if 0 ≤ power then (digits * Nat.pow 10 power.toNat * i.denominator, 1)
    else (digits * i.denominator, Nat.pow 10 (-power).toNat)
  if i.closed then i.low * scale ≤ x && x ≤ i.high * scale
  else i.low * scale < x && x < i.high * scale

/-- The better of the value's two neighbours among the multiples of `10 ^ power`, if one of them is
in the interval. -/
def Interval.candidate? (i : Interval) (power : Int) : Option Nat :=
  let (num, den) :=
    if 0 ≤ power then (i.value, i.denominator * Nat.pow 10 power.toNat)
    else (i.value * Nat.pow 10 (-power).toNat, i.denominator)
  let lower := num / den
  let rest := num % den
  let preferLower := 2 * rest < den || (2 * rest == den && lower % 2 == 0)
  match i.holds lower power, i.holds (lower + 1) power with
  | true, true => some (if preferLower then lower else lower + 1)
  | true, false => some lower
  | false, true => some (lower + 1)
  | false, false => none

/-- Drops the trailing zeros of a number and counts them in the power. -/
def dropZeros : (fuel digits : Nat) → (power : Int) → Nat × Int
  | 0, digits, power => (digits, power)
  | fuel + 1, digits, power =>
    if digits % 10 = 0 ∧ digits ≠ 0 then dropZeros fuel (digits / 10) (power + 1)
    else (digits, power)

/-- The fewest digits, as a number and a power of ten: `count` is tried first, then one more. -/
def shortestFrom (i : Interval) (leading : Int) : (tries count : Nat) → Nat × Int
  | 0, _ => (0, 0)
  | tries + 1, count =>
    match i.candidate? (leading - count) with
    | some digits => dropZeros 20 digits (leading - count)
    | none => shortestFrom i leading tries (count + 1)

/-- The digits of a positive real: `digits · 10 ^ power`. -/
def shortest (mantissa : Nat) (exponent : Int) : Nat × Int :=
  let i := Interval.of mantissa exponent
  shortestFrom i (leadingPower i.value i.denominator) 17 1

/-- How digits are laid out: positionally while the exponent of the first digit lies between two
bounds. -/
structure Layout where
  minPositional : Int
  maxPositional : Int

/-- Positional from `0.0001` to below `10 ^ 16`. -/
def Layout.plain : Layout := ⟨-4, 15⟩

/-- An exponent with its sign and at least two digits. -/
def exponentText (e : Int) : String :=
  let digits := toString e.natAbs
  "e" ++ (if e < 0 then "-" else "+") ++ (if e.natAbs < 10 then "0" else "") ++ digits

/-- Writes `digits · 10 ^ power`; a whole number keeps one decimal place. -/
def Layout.write (layout : Layout) (digits : Nat) (power : Int) : String :=
  let ds := Nat.toDigits 10 digits
  let point : Int := ds.length + power
  if layout.minPositional ≤ point - 1 ∧ point - 1 ≤ layout.maxPositional then
    if point ≤ 0 then "0." ++ String.ofList (List.replicate (-point).toNat '0' ++ ds)
    else if (ds.length : Int) ≤ point then
      String.ofList (ds ++ List.replicate (point - ds.length).toNat '0') ++ ".0"
    else String.ofList (ds.take point.toNat ++ '.' :: ds.drop point.toNat)
  else
    match ds with
    | [] => ""
    | [d] => d.toString ++ exponentText (point - 1)
    | d :: rest => String.ofList (d :: '.' :: rest) ++ exponentText (point - 1)

end Decimal

/-- The text of a real. -/
def Binary64.text : Binary64 → String
  | .finite negative m e =>
    let body :=
      if m = 0 then "0.0"
      else
        let (digits, power) := Decimal.shortest m e
        Decimal.Layout.plain.write digits power
    if negative then "-" ++ body else body
  | .infinite negative => if negative then "-inf" else "inf"
  | .nan => "nan"

end Scaffold
