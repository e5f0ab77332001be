import Mathlib.Tactic.LinearCombination
import Scaffold.Decimal.Shortest
import Scaffold.Proofs.Decimal.Digits

/-!
The shortest digits of a real stand for a rational that is nearest to it. Seventeen digits are always enough, so
some are found.
-/

namespace Scaffold.Decimal

open Binary64

variable {m n d digits : Nat} {e power : Int}

/-- A power with a whole exponent as a quotient of naturals. -/
theorem ratio_zpow {b : Nat} (pos : 0 < b) (e : Int) :
    let r : Nat × Nat := if 0 ≤ e then (b ^ e.toNat, 1) else (1, b ^ (-e).toNat)
    0 < r.1 ∧ 0 < r.2 ∧ (r.1 : ℚ) / r.2 = b ^ e := by
  intro r
  by_cases up : 0 ≤ e
  · have form : r = (b ^ e.toNat, 1) := if_pos up
    rw [form]
    refine ⟨Nat.pow_pos pos, one_pos, ?_⟩
    rw [Nat.cast_one, div_one, Nat.cast_pow, ← zpow_natCast, Int.toNat_of_nonneg up]
  · have form : r = (1, b ^ (-e).toNat) := if_neg up
    rw [form]
    refine ⟨one_pos, Nat.pow_pos pos, ?_⟩
    rw [Nat.cast_one, Nat.cast_pow, ← zpow_natCast, Int.toNat_of_nonneg (by omega), zpow_neg, one_div, inv_inv]

/-- The ends of an interval are counted in quarters of the unit. -/
theorem Interval.of_eq (m : Nat) (e : Int) : ∃ n d : Nat, 0 < n ∧ 0 < d ∧ (n : ℚ) / d = 2 ^ (e - 2) ∧
    Interval.of m e = ⟨(4 * m - reach m e) * n, 4 * m * n, (4 * m + 2) * n, d, m % 2 == 0⟩ := by
  obtain ⟨posN, posD, same⟩ := ratio_zpow (b := 2) two_pos (e - 2)
  refine ⟨_, _, posN, posD, same, ?_⟩
  have down : 2 - e = -(e - 2) := by ring
  simp only [Interval.of, reach, Nat.pow_eq, down]

/-- What `holds` compares with the ends of an interval. -/
theorem holds_eq (i : Interval) (digits : Nat) (power : Int) : ∃ x scale : Nat, 0 < scale ∧
    (x : ℚ) = digits * 10 ^ power * i.denominator * scale ∧
    i.holds digits power = if i.closed then decide (i.low * scale ≤ x) && decide (x ≤ i.high * scale)
      else decide (i.low * scale < x) && decide (x < i.high * scale) := by
  by_cases up : 0 ≤ power
  · refine ⟨digits * 10 ^ power.toNat * i.denominator, 1, one_pos, ?_, ?_⟩
    · have natural : (10 : ℚ) ^ power = 10 ^ power.toNat := by
        rw [← zpow_natCast, Int.toNat_of_nonneg up]
      rw [natural]
      push_cast
      ring
    · simp only [Interval.holds, if_pos up, Nat.pow_eq]
  · refine ⟨digits * i.denominator, 10 ^ (-power).toNat, Nat.pow_pos (by decide), ?_, ?_⟩
    · have cancel : (10 : ℚ) ^ power * 10 ^ (-power).toNat = 1 := by
        rw [← zpow_natCast, Int.toNat_of_nonneg (by omega), ← zpow_add₀ (by norm_num), add_neg_cancel, zpow_zero]
      push_cast
      linear_combination (-(digits : ℚ) * i.denominator) * cancel
    · simp only [Interval.holds, if_neg up, Nat.pow_eq]

/-- An interval holds the rationals that are nearest to its real. -/
theorem holds_iff (some_ : 0 < m) :
    (Interval.of m e).holds digits power = true ↔ Nearest (digits * 10 ^ power) m e := by
  obtain ⟨n, d, -, posD, unit, form⟩ := Interval.of_eq m e
  obtain ⟨x, scale, posScale, value, holds⟩ := holds_eq (Interval.of m e) digits power
  rw [holds, form]
  rw [form] at value
  generalize (digits : ℚ) * 10 ^ power = v at value ⊢
  have posD : (0 : ℚ) < d := by exact_mod_cast posD
  have posScale : (0 : ℚ) < scale := by exact_mod_cast posScale
  have quarters (a : ℚ) : a * n * scale = a * 2 ^ (e - 2) * d * scale := by
    rw [← unit]
    field_simp
  have lowEnd : (((4 * m - reach m e : Nat) : ℕ) : ℚ) = 4 * m - reach m e := by
    have := reach_le m e
    rw [Nat.cast_sub (by omega)]
    push_cast
    rfl
  have highEnd : (((4 * m + 2 : Nat) : ℕ) : ℚ) = 4 * m + 2 := by
    push_cast
    rfl
  have le_iff (a : Nat) : a * n * scale ≤ x ↔ (a : ℚ) * 2 ^ (e - 2) ≤ v := by
    rw [← Nat.cast_le (α := ℚ), value]
    push_cast
    rw [quarters, mul_le_mul_iff_of_pos_right posScale, mul_le_mul_iff_of_pos_right posD]
  have ge_iff (a : Nat) : x ≤ a * n * scale ↔ v ≤ (a : ℚ) * 2 ^ (e - 2) := by
    rw [← Nat.cast_le (α := ℚ), value]
    push_cast
    rw [quarters, mul_le_mul_iff_of_pos_right posScale, mul_le_mul_iff_of_pos_right posD]
  have lt_iff (a : Nat) : a * n * scale < x ↔ (a : ℚ) * 2 ^ (e - 2) < v := by
    rw [← not_le, ge_iff, not_le]
  have gt_iff (a : Nat) : x < a * n * scale ↔ v < (a : ℚ) * 2 ^ (e - 2) := by
    rw [← not_le, le_iff, not_le]
  by_cases even : m % 2 = 0
  · simp only [even, beq_self_eq_true, if_true, Bool.and_eq_true, decide_eq_true_eq, le_iff, ge_iff, lowEnd, highEnd]
    exact ⟨fun h => ⟨h.1, h.2, fun odd => absurd even odd⟩, fun h => ⟨h.low, h.high⟩⟩
  · simp only [beq_eq_false_iff_ne.mpr even, Bool.false_eq_true, if_false, Bool.and_eq_true, decide_eq_true_eq,
      lt_iff, gt_iff, lowEnd, highEnd]
    exact ⟨fun h => ⟨h.1.le, h.2.le, fun _ => h⟩, fun h => h.between even⟩

/-- The candidates are the whole part of the value over the power, and the next number. -/
theorem candidate?_eq (i : Interval) (pos : 0 < i.denominator) (power : Int) : ∃ num den : Nat,
    (0 < den ∧ (num : ℚ) / den = (i.value : ℚ) / i.denominator / 10 ^ power) ∧ i.candidate? power =
      if i.holds (num / den) power then
        if i.holds (num / den + 1) power then
          some (if 2 * (num % den) < den || (2 * (num % den) == den && num / den % 2 == 0)
            then num / den else num / den + 1)
        else some (num / den)
      else if i.holds (num / den + 1) power then some (num / den + 1) else none := by
  have scaled := quotient_div_zpow (b := 10) (by decide) i.value pos power
  simp only [Interval.candidate?, Nat.pow_eq]
  generalize (if 0 ≤ power then (i.value, i.denominator * 10 ^ power.toNat)
    else (i.value * 10 ^ (-power).toNat, i.denominator) : Nat × Nat) = r at scaled ⊢
  obtain ⟨num, den⟩ := r
  refine ⟨num, den, scaled, ?_⟩
  cases i.holds (num / den) power <;> cases i.holds (num / den + 1) power <;> rfl

/-- A candidate is in the interval; and there is one if the multiple of the power below the value, or the next, is
in the interval. -/
theorem candidate_spec (i : Interval) (pos : 0 < i.denominator) (power : Int) :
    (∀ digits, i.candidate? power = some digits → i.holds digits power = true) ∧
      ∃ lower : Nat, (lower : ℚ) * 10 ^ power ≤ (i.value : ℚ) / i.denominator ∧
        (i.value : ℚ) / i.denominator < (lower + 1 : Nat) * 10 ^ power ∧
        (i.holds lower power = true ∨ i.holds (lower + 1) power = true → (i.candidate? power).isSome = true) := by
  obtain ⟨num, den, ⟨posR, same⟩, unfolded⟩ := candidate?_eq i pos power
  have posDen : (0 : ℚ) < den := by exact_mod_cast posR
  have unit := ten_zpow_pos power
  have value : (i.value : ℚ) / i.denominator = num / den * 10 ^ power := by
    rw [same]
    field_simp
  refine ⟨fun digits found => ?_, num / den, ?_, ?_, ?_⟩
  · rw [unfolded] at found
    split at found
    · rename_i lower
      split at found
      · rename_i upper
        rw [← Option.some.inj found]
        split
        · exact lower
        · exact upper
      · exact Option.some.inj found ▸ lower
    · split at found
      · rename_i upper
        exact Option.some.inj found ▸ upper
      · cases found
  · rw [value, mul_le_mul_iff_of_pos_right unit, le_div_iff₀ posDen]
    exact_mod_cast Nat.div_mul_le_self num den
  · rw [value, mul_lt_mul_iff_of_pos_right unit, div_lt_iff₀ posDen]
    exact_mod_cast (Nat.div_lt_iff_lt_mul posR).mp (Nat.lt_succ_self (num / den))
  · intro inside
    rw [unfolded]
    rcases inside with lower | upper
    · rw [if_pos lower]
      split <;> rfl
    · rw [if_pos upper, if_pos upper]
      split <;> rfl

/-- The power of ten that a positive quotient reaches. -/
theorem leadingPower_le {num den : Nat} (some_ : 0 < num) (pos : 0 < den) :
    (10 : ℚ) ^ (leadingPower num den - 1) ≤ (num : ℚ) / den := by
  have posNum : (0 : ℚ) < num := by exact_mod_cast some_
  have posDen : (0 : ℚ) < den := by exact_mod_cast pos
  unfold leadingPower digitCount
  split
  · rename_i whole
    have quotient : 0 < num / den := Nat.div_pos whole pos
    have some_ := Nat.length_toDigits_pos (b := 10) (n := num / den)
    have low := pow_length_toDigits_le quotient
    generalize (Nat.toDigits 10 (num / den)).length = length at *
    rw [show ((length : Int) - 1) = ((length - 1 : Nat) : Int) by omega, zpow_natCast, le_div_iff₀ posDen]
    have : 10 ^ (length - 1) * den ≤ num := (Nat.mul_le_mul_right den low).trans (Nat.div_mul_le_self num den)
    exact_mod_cast this
  · have high := lt_pow_length_toDigits ((den - 1) / num)
    generalize (Nat.toDigits 10 ((den - 1) / num)).length = length at *
    rw [show (1 - (length : Int) - 1) = -(length : Int) by ring, zpow_neg, zpow_natCast, le_div_iff₀ posDen,
      inv_mul_le_iff₀ (by positivity)]
    have : den ≤ 10 ^ length * num := by
      have := (Nat.div_lt_iff_lt_mul some_).mp high
      omega
    exact_mod_cast this

/-- With seventeen digits the step is so small that one of the value's neighbours is nearest to the real. -/
theorem seventeen_digits {s : ℚ} {lower : Nat} (short : m < 2 ^ 53)
    (step : s * 10 ^ 16 ≤ 4 * m * 2 ^ (e - 2)) (low : lower * s ≤ 4 * m * 2 ^ (e - 2))
    (high : 4 * m * 2 ^ (e - 2) < (lower + 1) * s) :
    Nearest (lower * s) m e ∨ Nearest ((lower + 1) * s) m e := by
  have unit := two_zpow_pos (e - 2)
  have mantissa : (m : ℚ) ≤ 2 ^ 53 := by exact_mod_cast short.le
  have small : s < (2 + reach m e) * 2 ^ (e - 2) := by
    by_cases power : m = 2 ^ 52 ∧ minExponent < e
    · have reached : reach m e = 1 := if_pos power
      rw [reached]
      rw [power.1] at step
      push_cast at step ⊢
      linarith
    · have reached : reach m e = 2 := if_neg power
      have top : (4 * m * 2 ^ (e - 2) : ℚ) ≤ 4 * 2 ^ 53 * 2 ^ (e - 2) := by gcongr
      rw [reached]
      push_cast
      linarith
  by_cases near : (4 * m - reach m e) * 2 ^ (e - 2) < lower * s
  · have upper : lower * s < (4 * m + 2) * 2 ^ (e - 2) := by linarith
    exact .inl ⟨near.le, upper.le, fun _ => ⟨near, upper⟩⟩
  · rw [not_lt] at near
    have reached : (0 : ℚ) ≤ reach m e := Nat.cast_nonneg _
    have low : (4 * m - reach m e) * 2 ^ (e - 2) < (lower + 1) * s := by
      nlinarith
    have upper : (lower + 1) * s < (4 * m + 2) * 2 ^ (e - 2) := by linarith
    exact .inr ⟨low.le, upper.le, fun _ => ⟨low, upper⟩⟩

theorem dropZeros_spec (fuel digits : Nat) (power : Int) :
    ((dropZeros fuel digits power).1 : ℚ) * 10 ^ (dropZeros fuel digits power).2 = digits * 10 ^ power := by
  induction fuel generalizing digits power with
  | zero => rfl
  | succ fuel ih =>
    rw [dropZeros]
    split
    · rename_i tens
      have whole : (digits : ℚ) = (digits / 10 : Nat) * 10 := by
        exact_mod_cast (Nat.div_mul_cancel (Nat.dvd_of_mod_eq_zero tens.1)).symm
      rw [ih, zpow_add_one₀ (by norm_num), whole]
      ring
    · rfl

/-- The digits are those of the first candidate that is found. -/
theorem shortestFrom_spec {i : Interval} {leading : Int} {tries count : Nat}
    (h : ∃ k, count ≤ k ∧ k < count + tries ∧ (i.candidate? (leading - k)).isSome = true) :
    ∃ k digits, i.candidate? (leading - k) = some digits ∧
      shortestFrom i leading tries count = dropZeros 20 digits (leading - k) := by
  induction tries generalizing count with
  | zero =>
    obtain ⟨k, low, high, -⟩ := h
    omega
  | succ tries ih =>
    rw [shortestFrom]
    cases found : i.candidate? (leading - count) with
    | some digits => exact ⟨count, digits, found, rfl⟩
    | none =>
      obtain ⟨k, low, high, isSome⟩ := h
      refine ih ⟨k, ?_, by omega, isSome⟩
      refine Nat.lt_of_le_of_ne low fun same => ?_
      rw [← same, found] at isSome
      cases isSome

/-- The shortest digits of a real are nearest to it. -/
theorem nearest_shortest {negative : Bool} (canonical : (finite negative m e).Canonical) (some_ : 0 < m) :
    Nearest ((shortest m e).1 * 10 ^ (shortest m e).2) m e := by
  obtain ⟨n, d, posN, posD, unit, form⟩ := Interval.of_eq m e
  have posDenominator : 0 < (Interval.of m e).denominator := by rw [form]; exact posD
  have posValue : 0 < (Interval.of m e).value := by rw [form]; exact Nat.mul_pos (by omega) posN
  have value : ((Interval.of m e).value : ℚ) / (Interval.of m e).denominator = 4 * m * 2 ^ (e - 2) := by
    rw [form, ← unit]
    push_cast
    ring
  have leading := leadingPower_le posValue posDenominator
  generalize p : leadingPower (Interval.of m e).value (Interval.of m e).denominator = leadingPower at leading
  obtain ⟨-, lower, low, high, found⟩ := candidate_spec _ posDenominator (leadingPower - 17)
  have step : (10 : ℚ) ^ (leadingPower - 17) * 10 ^ 16 ≤ 4 * m * 2 ^ (e - 2) := by
    rw [← value]
    refine le_trans (le_of_eq ?_) leading
    rw [← zpow_natCast, ← zpow_add₀ (by norm_num)]
    congr 1
    push_cast
    ring
  rw [value] at low high
  have near := seventeen_digits canonical.1 step low (by exact_mod_cast high)
  have isSome := found (near.imp (holds_iff some_).mpr fun near => (holds_iff some_).mpr (by exact_mod_cast near))
  obtain ⟨k, digits, candidate, result⟩ := shortestFrom_spec ⟨17, (by omega : 1 ≤ 17), (by omega : 17 < 1 + 17), isSome⟩
  simp only [shortest, p, result, dropZeros_spec]
  exact (holds_iff some_).mp ((candidate_spec _ posDenominator _).1 digits candidate)

end Scaffold.Decimal
