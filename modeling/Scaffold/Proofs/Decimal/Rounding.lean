import Mathlib.Algebra.Order.Field.Power
import Mathlib.Data.Rat.Cast.Order
import Mathlib.Tactic.FieldSimp
import Mathlib.Tactic.Linarith
import Mathlib.Tactic.NormNum
import Mathlib.Tactic.Positivity
import Mathlib.Tactic.Ring
import Scaffold.Decimal.Binary64

/-!
Rounding to reals of 64 bits. `Nearest` says which rationals lie so near to a real that they are rounded to it;
`ofRatio` rounds every quotient so, and gives nothing but reals whose mantissa is as long as it can be.
-/

namespace Scaffold.Binary64

/-- A finite real has one form: its mantissa is below `2 ^ 53`, and at least `2 ^ 52` if the exponent is not the
least. -/
def Canonical : Binary64 → Prop
  | .finite _ m e =>
    m < 2 ^ 53 ∧ minExponent ≤ e ∧ e ≤ maxExponent ∧ (minExponent < e → 2 ^ 52 ≤ m)
  | _ => True

/-- How far below a real others are rounded to it, in quarters of its unit. The neighbour below a power of two is
half as far. -/
def reach (m : Nat) (e : Int) : Nat := if m = 2 ^ 52 ∧ minExponent < e then 1 else 2

/-- The rational `x` is rounded to `m · 2 ^ e`; one half way to a neighbour only if `m` is even. -/
structure Nearest (x : ℚ) (m : Nat) (e : Int) : Prop where
  low : (4 * m - reach m e) * 2 ^ (e - 2) ≤ x
  high : x ≤ (4 * m + 2) * 2 ^ (e - 2)
  between : m % 2 ≠ 0 → (4 * m - reach m e) * 2 ^ (e - 2) < x ∧ x < (4 * m + 2) * 2 ^ (e - 2)

variable {num den m : Nat} {e : Int} {x : ℚ}

theorem reach_le (m : Nat) (e : Int) : reach m e ≤ 2 := by
  unfold reach
  split <;> decide

theorem two_zpow_pos (e : Int) : (0 : ℚ) < 2 ^ e := by positivity

theorem Nearest.pos (h : Nearest x m e) (some_ : 0 < m) : 0 < x := by
  refine lt_of_lt_of_le (mul_pos ?_ (two_zpow_pos _)) h.low
  have reach : (reach m e : ℚ) ≤ 2 := by exact_mod_cast reach_le m e
  have one : (1 : ℚ) ≤ m := by exact_mod_cast some_
  linarith

/-- A quotient is rounded to the natural that is at most half away, to an even one if it is half away. -/
theorem roundDiv_eq (pos : 0 < den) (low : 2 * (m * den) ≤ 2 * num + den)
    (high : 2 * num ≤ 2 * (m * den) + den)
    (even : 2 * (m * den) = 2 * num + den ∨ 2 * num = 2 * (m * den) + den → m % 2 = 0) :
    roundDiv num den = m := by
  have parts : num / den * den + num % den = num := by
    rw [Nat.mul_comm]
    exact Nat.div_add_mod num den
  have rest : num % den < den := Nat.mod_lt num pos
  have near : m = num / den ∨ m = num / den + 1 := by
    have above : num / den ≤ m := by
      by_contra below
      have := Nat.mul_le_mul_right den (show m + 1 ≤ num / den by omega)
      rw [Nat.add_mul] at this
      omega
    have below : m ≤ num / den + 1 := by
      by_contra above
      have := Nat.mul_le_mul_right den (show num / den + 2 ≤ m by omega)
      rw [Nat.add_mul] at this
      omega
    omega
  simp only [roundDiv]
  rcases near with same | next
  · rw [same] at low high even ⊢
    split
    · rfl
    · split <;> omega
  · have product : m * den = num / den * den + den := by rw [next, Nat.add_mul, Nat.one_mul]
    simp only [product] at low high even
    split
    · omega
    · split <;> omega

/-- A quotient of naturals divided by a power with a whole exponent. -/
theorem quotient_div_zpow {b : Nat} (base : 0 < b) (num : Nat) (pos : 0 < den) (e : Int) :
    let r : Nat × Nat := if 0 ≤ e then (num, den * b ^ e.toNat) else (num * b ^ (-e).toNat, den)
    0 < r.2 ∧ (r.1 : ℚ) / r.2 = (num : ℚ) / den / b ^ e := by
  intro r
  by_cases up : 0 ≤ e
  · have form : r = (num, den * b ^ e.toNat) := if_pos up
    have power : (b : ℚ) ^ e = b ^ e.toNat := by
      rw [← zpow_natCast, Int.toNat_of_nonneg up]
    rw [form, power]
    refine ⟨Nat.mul_pos pos (Nat.pow_pos base), ?_⟩
    push_cast
    rw [div_div]
  · have form : r = (num * b ^ (-e).toNat, den) := if_neg up
    have power : (b : ℚ) ^ e = ((b : ℚ) ^ (-e).toNat)⁻¹ := by
      rw [← zpow_natCast, Int.toNat_of_nonneg (by omega), zpow_neg, inv_inv]
    rw [form, power]
    refine ⟨pos, ?_⟩
    push_cast
    rw [div_inv_eq_mul, div_mul_eq_mul_div]

theorem scaled_eq (num : Nat) (pos : 0 < den) (e : Int) :
    0 < (scaled num den e).2 ∧
      ((scaled num den e).1 : ℚ) / (scaled num den e).2 = (num : ℚ) / den / 2 ^ e :=
  quotient_div_zpow two_pos num pos e

theorem scaled_lt_iff (pos : 0 < den) (e : Int) (k : Nat) :
    (scaled num den e).1 / (scaled num den e).2 < Nat.pow 2 k ↔ (num : ℚ) / den < 2 ^ (e + k) := by
  obtain ⟨posScaled, same⟩ := scaled_eq num pos e
  rw [Nat.div_lt_iff_lt_mul posScaled, zpow_add₀ two_ne_zero, zpow_natCast, ← div_lt_iff₀' (two_zpow_pos e),
    ← same, div_lt_iff₀ (by exact_mod_cast posScaled)]
  exact_mod_cast Iff.rfl

/-- The exponent that gives a positive quotient a mantissa of 53 digits. -/
def binade (num den : Nat) : Int :=
  let low : Int := (Nat.log2 num : Int) - (Nat.log2 den : Int) - 53
  if (scaled num den low).1 / (scaled num den low).2 < Nat.pow 2 53 then low else low + 1

/-- The logarithms of two naturals bound their quotient. -/
theorem quotient_bounds (some_ : 0 < num) (pos : 0 < den) :
    (2 : ℚ) ^ ((Nat.log2 num : Int) - Nat.log2 den - 1) ≤ (num : ℚ) / den ∧
      (num : ℚ) / den < 2 ^ ((Nat.log2 num : Int) - Nat.log2 den + 1) := by
  have numLow : (2 : ℚ) ^ Nat.log2 num ≤ num := by exact_mod_cast Nat.log2_self_le some_.ne'
  have numHigh : (num : ℚ) < 2 ^ (Nat.log2 num + 1) := by exact_mod_cast Nat.lt_log2_self (n := num)
  have denLow : (2 : ℚ) ^ Nat.log2 den ≤ den := by exact_mod_cast Nat.log2_self_le pos.ne'
  have denHigh : (den : ℚ) < 2 ^ (Nat.log2 den + 1) := by exact_mod_cast Nat.lt_log2_self (n := den)
  have posDen : (0 : ℚ) < den := by exact_mod_cast pos
  have split (a b : Int) : (2 : ℚ) ^ (a - b) = 2 ^ a / 2 ^ b := zpow_sub₀ two_ne_zero a b
  constructor
  · rw [sub_sub, split, div_le_div_iff₀ (two_zpow_pos _) posDen]
    exact mul_le_mul (by exact_mod_cast numLow) (by exact_mod_cast denHigh.le) posDen.le (by positivity)
  · rw [sub_add_eq_add_sub, split, div_lt_div_iff₀ posDen (two_zpow_pos _)]
    exact mul_lt_mul (by exact_mod_cast numHigh) (by exact_mod_cast denLow) (two_zpow_pos _) (by positivity)

theorem binade_bounds (some_ : 0 < num) (pos : 0 < den) :
    (2 : ℚ) ^ (binade num den + 52) ≤ (num : ℚ) / den ∧ (num : ℚ) / den < 2 ^ (binade num den + 53) := by
  obtain ⟨low, high⟩ := quotient_bounds some_ pos
  simp only [binade]
  split
  · rename_i below
    refine ⟨?_, (scaled_lt_iff pos _ _).mp below⟩
    rwa [show (Nat.log2 num : Int) - Nat.log2 den - 53 + 52 = Nat.log2 num - Nat.log2 den - 1 by ring]
  · rename_i above
    rw [scaled_lt_iff pos, not_lt] at above
    constructor
    · rwa [show (Nat.log2 num : Int) - Nat.log2 den - 53 + 1 + 52 =
        Nat.log2 num - Nat.log2 den - 53 + (53 : Nat) by push_cast; ring]
    · rwa [show (Nat.log2 num : Int) - Nat.log2 den - 53 + 1 + 53 = Nat.log2 num - Nat.log2 den + 1 by ring]

/-- Rounding takes the exponent of the quotient, at least the least one; a mantissa that is rounded up to
`2 ^ 53` moves to the next exponent. -/
theorem ofRatio_eq (negative : Bool) (some_ : num ≠ 0) :
    ofRatio negative num den =
      let e := max (binade num den) minExponent
      let m := roundDiv (scaled num den e).1 (scaled num den e).2
      let up : Nat × Int := if m = 2 ^ 53 then (2 ^ 52, e + 1) else (m, e)
      if maxExponent < up.2 then .infinite negative else .finite negative up.1 up.2 := by
  rw [ofRatio, if_neg some_]
  rfl

/-- Rounding a scaled quotient, in terms of the rationals. -/
theorem roundDiv_scaled (pos : 0 < den) (low : (2 * m - 1) * 2 ^ (e - 1) ≤ (num : ℚ) / den)
    (high : (num : ℚ) / den ≤ (2 * m + 1) * 2 ^ (e - 1))
    (between : m % 2 ≠ 0 → (2 * m - 1) * 2 ^ (e - 1) < (num : ℚ) / den ∧
      (num : ℚ) / den < (2 * m + 1) * 2 ^ (e - 1)) :
    roundDiv (scaled num den e).1 (scaled num den e).2 = m := by
  obtain ⟨posScaled, same⟩ := scaled_eq num pos e
  generalize (scaled num den e).1 = n at same
  generalize (scaled num den e).2 = d at posScaled same
  have posD : (0 : ℚ) < d := by exact_mod_cast posScaled
  have value : (num : ℚ) / den = 2 * n / d * 2 ^ (e - 1) := by
    rw [zpow_sub_one₀ two_ne_zero, mul_div_assoc, same]
    field_simp
  have le_iff (a : ℚ) : a * 2 ^ (e - 1) ≤ (num : ℚ) / den ↔ a * d ≤ 2 * n := by
    rw [value, mul_le_mul_iff_of_pos_right (two_zpow_pos _), le_div_iff₀ posD]
  have ge_iff (a : ℚ) : (num : ℚ) / den ≤ a * 2 ^ (e - 1) ↔ 2 * n ≤ a * d := by
    rw [value, mul_le_mul_iff_of_pos_right (two_zpow_pos _), div_le_iff₀ posD]
  rw [le_iff] at low
  rw [ge_iff] at high
  refine roundDiv_eq posScaled ?_ ?_ fun half => ?_
  · have : (2 * (m * d) : ℚ) ≤ 2 * n + d := by linarith
    exact_mod_cast this
  · have : (2 * n : ℚ) ≤ 2 * (m * d) + d := by linarith
    exact_mod_cast this
  · by_contra odd
    obtain ⟨above, below⟩ := between odd
    rw [← not_le, ge_iff] at above
    rw [← not_le, le_iff] at below
    rcases half with half | half
    · have : (2 * (m * d) : ℚ) = 2 * n + d := by exact_mod_cast half
      exact above (by linarith)
    · have : (2 * n : ℚ) = 2 * (m * d) + d := by exact_mod_cast half
      exact below (by linarith)

theorem zpow_lt_of_bounds {a b : Int} (low : (2 : ℚ) ^ a ≤ x) (high : x < 2 ^ b) : a < b :=
  (zpow_lt_zpow_iff_right₀ one_lt_two).mp (low.trans_lt high)

/-- The upper end of what is rounded to a real is below the next power of two. -/
theorem Nearest.lt_zpow (h : Nearest x m e) (short : m < 2 ^ 53) : x < 2 ^ (e + 53) := by
  have mantissa : (m : ℚ) ≤ 2 ^ 53 - 1 := by
    have : m + 1 ≤ 2 ^ 53 := short
    have : ((m + 1 : Nat) : ℚ) ≤ 2 ^ 53 := by exact_mod_cast this
    push_cast at this
    linarith
  have unit := two_zpow_pos (e - 2)
  calc x ≤ (4 * m + 2) * 2 ^ (e - 2) := h.high
    _ < 2 ^ 55 * 2 ^ (e - 2) := by
      rw [mul_lt_mul_iff_of_pos_right unit]
      linarith
    _ = 2 ^ (e + 53) := by
      rw [show e + 53 = (55 : Nat) + (e - 2) by push_cast; ring, zpow_add₀ two_ne_zero, zpow_natCast]

/-- Below a power of two the reals have half the unit: what is nearest to the power from below is rounded up to
it. -/
theorem Nearest.eq_of_lt (h : Nearest x m e) (long : 2 ^ 52 ≤ m)
    (below : x < 2 ^ (e + 52)) : m = 2 ^ 52 := by
  by_contra other
  have mantissa : (2 ^ 52 + 1 : ℚ) ≤ m := by
    have : 2 ^ 52 + 1 ≤ m := by omega
    exact_mod_cast this
  have unit := two_zpow_pos (e - 2)
  have reach : (reach m e : ℚ) ≤ 2 := by exact_mod_cast reach_le m e
  have : (2 : ℚ) ^ (e + 52) ≤ x :=
    calc (2 : ℚ) ^ (e + 52) = 2 ^ 54 * 2 ^ (e - 2) := by
          rw [show e + 52 = (54 : Nat) + (e - 2) by push_cast; ring, zpow_add₀ two_ne_zero, zpow_natCast]
      _ ≤ (4 * m - Binary64.reach m e) * 2 ^ (e - 2) := by
          rw [mul_le_mul_iff_of_pos_right unit]
          linarith
      _ ≤ x := h.low
  exact this.not_gt below

/-- From a power of two on, what is nearest to a real is at most half a unit below it. -/
theorem Nearest.half_below (h : Nearest x m e) (inBinade : minExponent < e → (2 : ℚ) ^ (e + 52) ≤ x) :
    (2 * m - 1) * 2 ^ (e - 1) ≤ x ∧ (m % 2 ≠ 0 → (2 * m - 1) * 2 ^ (e - 1) < x) := by
  have unit := two_zpow_pos (e - 2)
  rw [show e - 1 = 1 + (e - 2) by ring, zpow_add₀ two_ne_zero, zpow_one]
  by_cases power : m = 2 ^ 52 ∧ minExponent < e
  · have top := inBinade power.2
    rw [show e + 52 = (54 : Nat) + (e - 2) by push_cast; ring, zpow_add₀ two_ne_zero, zpow_natCast] at top
    rw [power.1]
    push_cast
    exact ⟨by linarith, fun odd => absurd rfl odd⟩
  · have reached : reach m e = 2 := if_neg power
    have low := h.low
    have between := h.between
    rw [reached] at low between
    push_cast at low between
    exact ⟨by linarith, fun odd => by linarith [(between odd).1]⟩

/-- What is nearest to a power of two from below is rounded up to it, from the exponent below. -/
theorem Nearest.mantissa_below (pos : 0 < den) (least : minExponent < e)
    (h : Nearest ((num : ℚ) / den) (2 ^ 52) e) (below : (num : ℚ) / den < 2 ^ (e + 52)) :
    (2 : ℚ) ^ (e + 51) ≤ (num : ℚ) / den ∧
      roundDiv (scaled num den (e - 1)).1 (scaled num den (e - 1)).2 = 2 ^ 53 := by
  have unit := two_zpow_pos (e - 2)
  have reached : reach (2 ^ 52) e = 1 := if_pos ⟨rfl, least⟩
  have low := h.low
  rw [reached] at low
  push_cast at low
  constructor
  · rw [show e + 51 = (53 : Nat) + (e - 2) by push_cast; ring, zpow_add₀ two_ne_zero, zpow_natCast]
    linarith
  · rw [show e + 52 = (54 : Nat) + (e - 2) by push_cast; ring, zpow_add₀ two_ne_zero, zpow_natCast] at below
    refine roundDiv_scaled pos ?_ ?_ fun odd => absurd rfl odd
    · rw [show e - 1 - 1 = e - 2 by ring]
      push_cast
      linarith
    · rw [show e - 1 - 1 = e - 2 by ring]
      push_cast
      linarith

/-- What lies nearest to a real is rounded to it. -/
theorem ofRatio_of_nearest {negative : Bool} (pos : 0 < den)
    (canonical : (finite negative m e).Canonical) (some_ : 0 < m)
    (h : Nearest ((num : ℚ) / den) m e) : ofRatio negative num den = .finite negative m e := by
  have numPos : 0 < num := by
    have quotient := h.pos some_
    rcases Nat.eq_zero_or_pos num with rfl | pos
    · simp at quotient
    · exact pos
  obtain ⟨short, least, most, long⟩ := canonical
  obtain ⟨low, high⟩ := binade_bounds numPos pos
  have notAbove := zpow_lt_of_bounds low (h.lt_zpow short)
  rw [ofRatio_eq negative numPos.ne']
  by_cases carry : minExponent < e ∧ (num : ℚ) / den < 2 ^ (e + 52)
  · -- the quotient belongs to the exponent below, and its mantissa is rounded up to the power of two
    obtain ⟨above, below⟩ := carry
    obtain rfl := h.eq_of_lt (long above) below
    obtain ⟨inBinade, mantissa⟩ := h.mantissa_below pos above below
    have exponent : max (binade num den) minExponent = e - 1 := by
      have := zpow_lt_of_bounds inBinade high
      have := zpow_lt_of_bounds low below
      omega
    simp only [exponent, mantissa, if_true, sub_add_cancel]
    rw [if_neg (not_lt.mpr most)]
  · have inBinade (above : minExponent < e) : (2 : ℚ) ^ (e + 52) ≤ (num : ℚ) / den :=
      not_lt.mp fun below => carry ⟨above, below⟩
    have exponent : max (binade num den) minExponent = e := by
      rcases least.eq_or_lt with same | above
      · omega
      · have := zpow_lt_of_bounds (inBinade above) high
        omega
    have half : (2 : ℚ) ^ (e - 1) = 2 * 2 ^ (e - 2) := by
      rw [show e - 1 = 1 + (e - 2) by ring, zpow_add₀ two_ne_zero, zpow_one]
    obtain ⟨lowEnd, above⟩ := h.half_below inBinade
    have mantissa : roundDiv (scaled num den e).1 (scaled num den e).2 = m := by
      refine roundDiv_scaled pos lowEnd ?_ fun odd => ⟨above odd, ?_⟩
      · rw [half]
        linarith [h.high]
      · rw [half]
        linarith [(h.between odd).2]
    simp only [exponent, mantissa, if_neg short.ne]
    rw [if_neg (not_lt.mpr most)]

theorem roundDiv_bounds (num den : Nat) :
    num / den ≤ roundDiv num den ∧ roundDiv num den ≤ num / den + 1 := by
  simp only [roundDiv]
  split
  · omega
  · split <;> omega

/-- Rounding a quotient gives a real in its one form. -/
theorem canonical_ofRatio (negative : Bool) (num : Nat) (pos : 0 < den) :
    (ofRatio negative num den).Canonical := by
  rcases Nat.eq_zero_or_pos num with rfl | some_
  · rw [ofRatio, if_pos rfl]
    exact ⟨by decide, by decide, by decide, by decide⟩
  obtain ⟨low, high⟩ := binade_bounds some_ pos
  rw [ofRatio_eq negative some_.ne']
  generalize reached : max (binade num den) minExponent = e
  obtain ⟨notBelow, notAbove⟩ := roundDiv_bounds (scaled num den e).1 (scaled num den e).2
  have short : (scaled num den e).1 / (scaled num den e).2 < 2 ^ 53 := by
    refine (scaled_lt_iff pos e 53).mpr (high.trans_le (zpow_le_zpow_right₀ one_le_two ?_))
    push_cast
    omega
  have long (above : minExponent < e) : 2 ^ 52 ≤ (scaled num den e).1 / (scaled num den e).2 := by
    refine not_lt.mp fun less => ((scaled_lt_iff pos e 52).mp less).not_ge (le_trans ?_ low)
    refine zpow_le_zpow_right₀ one_le_two ?_
    push_cast
    omega
  simp only
  generalize roundDiv (scaled num den e).1 (scaled num den e).2 = m at notBelow notAbove
  by_cases carry : m = 2 ^ 53
  · simp only [if_pos carry]
    split
    · trivial
    · exact ⟨by decide, by omega, by omega, fun _ => le_rfl⟩
  · simp only [if_neg carry]
    split
    · trivial
    · exact ⟨by omega, by omega, by omega, fun above => (long above).trans notBelow⟩

/-- So does reading digits and a power of ten. -/
theorem canonical_ofDecimal (negative : Bool) (digits : Nat) (exponent : Int) :
    (ofDecimal negative digits exponent).Canonical := by
  simp only [ofDecimal]
  split
  · exact ⟨by decide, by decide, by decide, by decide⟩
  · split
    · trivial
    · split
      · exact canonical_ofRatio _ _ one_pos
      · exact canonical_ofRatio _ _ (Nat.pow_pos (by decide))

end Scaffold.Binary64
