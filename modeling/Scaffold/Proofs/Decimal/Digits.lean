import Mathlib.Data.List.Induction
import Scaffold.Decimal.Reading
import Scaffold.Proofs.Decimal.Rounding

/-!
Decimal digits and the naturals they write. What a number with its power of ten is read as depends on its value
alone: on which real is nearest.
-/

namespace Scaffold.Decimal

variable {n k : Nat} {digits : List Char}

theorem naturalOf_eq_ofDigitChars (digits : List Char) : naturalOf digits = Nat.ofDigitChars 10 digits 0 :=
  Nat.ofDigitChars_eq_foldl.symm

@[simp] theorem naturalOf_toDigits (n : Nat) : naturalOf (Nat.toDigits 10 n) = n := by
  rw [naturalOf_eq_ofDigitChars, Nat.ofDigitChars_ten_toDigits]

theorem naturalOf_append (digits more : List Char) :
    naturalOf (digits ++ more) = 10 ^ more.length * naturalOf digits + naturalOf more := by
  simp only [naturalOf_eq_ofDigitChars]
  rw [Nat.ofDigitChars_append, Nat.ofDigitChars_eq_ofDigitChars_zero]

@[simp] theorem naturalOf_zeros (k : Nat) : naturalOf (List.replicate k '0') = 0 := by
  rw [naturalOf_eq_ofDigitChars, Nat.ofDigitChars_replicate_zero, Nat.mul_zero]

theorem isDigit_of_mem_toDigits {c : Char} (mem : c ∈ Nat.toDigits 10 n) : c.isDigit = true :=
  Nat.isDigit_of_mem_toDigits (by decide) (by decide) mem

theorem lt_pow_length_toDigits (n : Nat) : n < 10 ^ (Nat.toDigits 10 n).length :=
  (Nat.length_toDigits_le_iff (by decide) Nat.length_toDigits_pos).mp le_rfl

theorem pow_length_toDigits_le (some_ : 0 < n) : 10 ^ ((Nat.toDigits 10 n).length - 1) ≤ n := by
  rcases Nat.eq_zero_or_pos ((Nat.toDigits 10 n).length - 1) with one | more
  · rw [one]
    exact some_
  · refine not_lt.mp fun less => ?_
    have := (Nat.length_toDigits_le_iff (by decide) more).mpr less
    omega

/-- A digit stands for a number below ten. -/
theorem toNat_of_isDigit {c : Char} (h : c.isDigit = true) : 48 ≤ c.toNat ∧ c.toNat ≤ 57 := by
  simp only [Char.isDigit, Bool.and_eq_true, decide_eq_true_eq, ge_iff_le, UInt32.le_iff_toNat_le] at h
  exact h

theorem naturalOf_lt (all : ∀ c ∈ digits, c.isDigit = true) : naturalOf digits < 10 ^ digits.length := by
  induction digits using List.reverseRecOn with
  | nil => exact one_pos
  | append_singleton before c ih =>
    have rest := ih fun d mem => all d (List.mem_append_left _ mem)
    have digit := toNat_of_isDigit (all c (by simp))
    have value : naturalOf [c] = c.toNat - 48 := by simp [naturalOf]
    rw [naturalOf_append, value, List.length_append, Nat.pow_add]
    simp only [List.length_singleton, pow_one]
    omega

/-- The digits of a positive number do not begin with a zero. -/
theorem head_toDigits_ne_zero (some_ : 0 < n) : ∀ c ∈ (Nat.toDigits 10 n).head?, c ≠ '0' := by
  rintro c head rfl
  obtain ⟨rest, form⟩ := List.head?_eq_some_iff.mp head
  have low := pow_length_toDigits_le some_
  have value : naturalOf rest = n := by
    rw [← naturalOf_toDigits n, form]
    rfl
  have high := naturalOf_lt fun d mem => isDigit_of_mem_toDigits (n := n) (form ▸ List.mem_cons_of_mem _ mem)
  rw [form] at low
  simp only [List.length_cons, Nat.add_sub_cancel] at low
  omega

end Scaffold.Decimal

namespace Scaffold.Binary64

open Decimal

variable {digits m : Nat} {power e : Int}

theorem ten_zpow_pos (e : Int) : (0 : ℚ) < 10 ^ e := by positivity

theorem two_pow_lt_ten_pow : (2 : ℚ) ^ 1200 < 10 ^ 400 := by
  rw [show 1200 = 3 * 400 from rfl, pow_mul]
  exact pow_lt_pow_left₀ (by norm_num) (by norm_num) (by decide)

/-- Reals are neither so small nor so large that a power of ten decides their reading. -/
theorem Nearest.bounds {x : ℚ} (canonical : (finite false m e).Canonical) (some_ : 0 < m)
    (h : Nearest x m e) : (10 : ℚ) ^ (-400 : Int) < x ∧ x < 10 ^ (400 : Int) := by
  obtain ⟨short, least, most, -⟩ := canonical
  have unit := two_zpow_pos (e - 2)
  constructor
  · have mantissa : (1 : ℚ) ≤ m := by exact_mod_cast some_
    have reach : (reach m e : ℚ) ≤ 2 := by exact_mod_cast reach_le m e
    calc (10 : ℚ) ^ (-400 : Int) < 2 ^ (-1200 : Int) := by
          rw [zpow_neg, zpow_neg, inv_lt_inv₀ (ten_zpow_pos _) (two_zpow_pos _)]
          exact_mod_cast two_pow_lt_ten_pow
      _ ≤ 2 ^ (e - 2) := zpow_le_zpow_right₀ one_le_two (by unfold minExponent at least; omega)
      _ ≤ (4 * m - Binary64.reach m e) * 2 ^ (e - 2) := le_mul_of_one_le_left unit.le (by linarith)
      _ ≤ x := h.low
  · calc x < 2 ^ (e + 53) := h.lt_zpow short
      _ ≤ 2 ^ (1200 : Int) := zpow_le_zpow_right₀ one_le_two (by unfold maxExponent at most; omega)
      _ < 10 ^ (400 : Int) := by exact_mod_cast two_pow_lt_ten_pow

theorem ofDecimal_zero (negative : Bool) (power : Int) :
    ofDecimal negative 0 power = .finite negative 0 minExponent := by
  simp [ofDecimal]

/-- A number that is nearest to a real is read as that real. -/
theorem ofDecimal_of_nearest {negative : Bool} (canonical : (finite negative m e).Canonical) (some_ : 0 < m)
    (h : Nearest (digits * 10 ^ power) m e) : ofDecimal negative digits power = .finite negative m e := by
  obtain ⟨low, high⟩ := h.bounds canonical some_
  have numPos : 0 < digits := by
    rcases Nat.eq_zero_or_pos digits with rfl | pos
    · have := h.pos some_
      simp at this
    · exact pos
  have unit := ten_zpow_pos power
  have below : -400 < power + (Nat.toDigits 10 digits).length := by
    have digitsLt : (digits : ℚ) < 10 ^ (Nat.toDigits 10 digits).length := by
      exact_mod_cast lt_pow_length_toDigits digits
    refine (zpow_lt_zpow_iff_right₀ (by norm_num : (1 : ℚ) < 10)).mp (low.trans ?_)
    rw [add_comm, zpow_add₀ (by norm_num), zpow_natCast]
    exact mul_lt_mul_of_pos_right digitsLt unit
  have above : power + (Nat.toDigits 10 digits).length - 1 < 400 := by
    have digitsGe : (10 : ℚ) ^ ((Nat.toDigits 10 digits).length - 1) ≤ digits := by
      exact_mod_cast pow_length_toDigits_le numPos
    refine (zpow_lt_zpow_iff_right₀ (by norm_num : (1 : ℚ) < 10)).mp (lt_of_le_of_lt ?_ high)
    have length := Nat.length_toDigits_pos (b := 10) (n := digits)
    rw [show power + (Nat.toDigits 10 digits).length - 1 =
      (((Nat.toDigits 10 digits).length - 1 : Nat) : Int) + power by omega, zpow_add₀ (by norm_num), zpow_natCast]
    exact mul_le_mul_of_nonneg_right digitsGe unit.le
  simp only [ofDecimal]
  rw [if_neg (by omega), if_neg (by omega)]
  split
  · rename_i whole
    refine ofRatio_of_nearest one_pos canonical some_ ?_
    rwa [Nat.pow_eq, Nat.cast_one, div_one, Nat.cast_mul, Nat.cast_pow, Nat.cast_ofNat, ← zpow_natCast,
      Int.toNat_of_nonneg whole]
  · rename_i fraction
    refine ofRatio_of_nearest (Nat.pow_pos (by decide)) canonical some_ ?_
    rwa [Nat.pow_eq, Nat.cast_pow, Nat.cast_ofNat, ← zpow_natCast, Int.toNat_of_nonneg (by omega), zpow_neg,
      div_inv_eq_mul]

end Scaffold.Binary64
