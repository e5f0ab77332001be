/-!
Real numbers of 64 bits, held exactly: a finite one is a sign, a mantissa and a power of two.
`ofRatio` rounds a quotient of naturals to the nearest of them, a half to the even mantissa.
-/

namespace Scaffold

/-- A real number of 64 bits. A finite one stands for `± mantissa · 2 ^ exponent`. -/
inductive Binary64 where
  | finite (negative : Bool) (mantissa : Nat) (exponent : Int)
  | infinite (negative : Bool)
  | nan
  deriving DecidableEq, Repr, Inhabited

namespace Binary64

/-- The exponent of the smallest reals. -/
def minExponent : Int := -1074

/-- The exponent of the largest reals. -/
def maxExponent : Int := 971

/-- `num / den`, a half rounded to the even neighbour. -/
def roundDiv (num den : Nat) : Nat :=
  let q := num / den
  let r := num % den
  if 2 * r < den then q else if den < 2 * r then q + 1 else q + q % 2

/-- The quotient `num / (den · 2 ^ e)` as numerator and denominator. -/
def scaled (num den : Nat) (e : Int) : Nat × Nat :=
  if 0 ≤ e then (num, den * Nat.pow 2 e.toNat) else (num * Nat.pow 2 (-e).toNat, den)

/-- The real nearest to `num / den`. -/
def ofRatio (negative : Bool) (num den : Nat) : Binary64 :=
  if num = 0 then .finite negative 0 minExponent
  else
    let low : Int := (Nat.log2 num : Int) - (Nat.log2 den : Int) - 53
    let (n, d) := scaled num den low
    let e := max (if n / d < Nat.pow 2 53 then low else low + 1) minExponent
    let (n, d) := scaled num den e
    let m := roundDiv n d
    let (m, e) := if m = Nat.pow 2 53 then (Nat.pow 2 52, e + 1) else (m, e)
    if maxExponent < e then .infinite negative else .finite negative m e

/-- The real nearest to `digits · 10 ^ exponent`. Far exponents are decided without computing the
power. -/
def ofDecimal (negative : Bool) (digits : Nat) (exponent : Int) : Binary64 :=
  let magnitude : Int := exponent + (Nat.toDigits 10 digits).length
  if digits = 0 ∨ magnitude < -400 then .finite negative 0 minExponent
  else if 400 < magnitude then .infinite negative
  else if 0 ≤ exponent then ofRatio negative (digits * Nat.pow 10 exponent.toNat) 1
  else ofRatio negative digits (Nat.pow 10 (-exponent).toNat)

/-- The whole part of a finite real. -/
def truncate? : Binary64 → Option Int
  | .finite negative m e =>
    let n := if 0 ≤ e then m * Nat.pow 2 e.toNat else m / Nat.pow 2 (-e).toNat
    some (if negative then -(n : Int) else n)
  | _ => none

/-- The integer that a real without a fraction is. -/
def whole? : Binary64 → Option Int
  | .finite negative m e =>
    let exact := 0 ≤ e || m % Nat.pow 2 (-e).toNat == 0
    if exact then truncate? (.finite negative m e) else none
  | _ => none

/-- Zero, of either sign. -/
def isZero : Binary64 → Bool
  | .finite _ m _ => m == 0
  | _ => false

/-- Is it above one? -/
def exceedsOne : Binary64 → Bool
  | .finite negative m e =>
    !negative && (if 0 ≤ e then 1 < m * Nat.pow 2 e.toNat else Nat.pow 2 (-e).toNat < m)
  | .infinite negative => !negative
  | .nan => false

/-- Is it below one? -/
def belowOne : Binary64 → Bool
  | .finite negative m e =>
    negative || (if 0 ≤ e then m * Nat.pow 2 e.toNat < 1 else m < Nat.pow 2 (-e).toNat)
  | .infinite negative => negative
  | .nan => false

end Binary64

end Scaffold
