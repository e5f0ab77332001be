import Mathlib.Data.List.Basic
import Scaffold.Text.Case

/-!
Lower case is settled: a text in small letters stays as it is. No run of the case table moves a code point to
where another run, or the rule for the dotted capital, would move it on.
-/

namespace Scaffold.Text

open CaseTable

variable {c d : Char} {before cs : List Char}

/-- What holds of the characters of ASCII one by one. -/
theorem forall_ascii {P : Char → Prop} (h : ∀ n < 128, P (Char.ofNat n)) (ascii : c.toNat < 128) :
    P c := by
  have := h c.toNat ascii
  rwa [Char.ofNat_toNat] at this

theorem lowerForm_of_ascii (ascii : c.toNat < 128) : lowerForm c = [c.toLower] := by
  have other : c ≠ 'İ' := by
    rintro rfl
    exact absurd ascii (by decide)
  simp [lowerForm, lowerChar, other, ascii]

/-- A character that is its own lower case wherever it stands. -/
def IsSmall (c : Char) : Prop := c ≠ 'Σ' ∧ lowerForm c = [c]

/-- Small characters stay as they are. -/
theorem lowerAfter_of_small (h : ∀ c ∈ cs, IsSmall c) : lowerAfter before cs = cs := by
  induction cs generalizing before with
  | nil => rfl
  | cons c cs ih =>
    obtain ⟨⟨other, small⟩, rest⟩ := List.forall_mem_cons.mp h
    simp [lowerAfter, other, small, ih rest]

theorem isSmall_toLower (ascii : c.toNat < 128) : IsSmall c.toLower := by
  obtain ⟨asciiL, again⟩ : c.toLower.toNat < 128 ∧ c.toLower.toLower = c.toLower :=
    forall_ascii (P := fun c => c.toLower.toNat < 128 ∧ c.toLower.toLower = c.toLower) (by decide) ascii
  refine ⟨?_, by rw [lowerForm_of_ascii asciiL, again]⟩
  intro sigma
  rw [sigma] at asciiL
  exact absurd asciiL (by decide)

/-- The runs with the dotted capital, which has two characters as its lower case. -/
def capitals : Shifts := (0x130, 0x130, 1, 0) :: lowerShifts

/-- Does a run leave out the code points from `low` to `high`? If these are all even or all odd, it may step over
them. -/
def leavesOut (low high : Nat) (even : Bool) (run : Nat × Nat × Nat × Int) : Bool :=
  Nat.ble (run.2.1 + 1) low || Nat.ble (high + 1) run.1 ||
    (even && Nat.beq (run.2.2.1 % 2) 0 && Nat.beq ((low + run.1) % 2) 1)

/-- Does a run move no code point to another capital? -/
def isSettling (run : Nat × Nat × Nat × Int) : Bool :=
  let (first, last, step, shift) := run
  decide (0 ≤ first + shift) && capitals.all
    (leavesOut (first + shift).toNat (last + shift).toNat (Nat.beq first last || Nat.beq (step % 2) 0))

theorem lowerShifts_settling : lowerShifts.all isSettling = true := by decide +kernel

/-- A code point in a run of capitals. -/
def IsIn (n : Nat) (run : Nat × Nat × Nat × Int) : Prop :=
  run.1 ≤ n ∧ n ≤ run.2.1 ∧ (n - run.1) % run.2.2.1 = 0

theorem not_isIn_of_leavesOut {n low high : Nat} {even : Bool} {run : Nat × Nat × Nat × Int}
    (h : leavesOut low high even run = true) (lower : low ≤ n) (upper : n ≤ high)
    (parity : even = true → n % 2 = low % 2) : ¬ IsIn n run := by
  rintro ⟨first, last, step⟩
  simp only [leavesOut, Bool.or_eq_true, Bool.and_eq_true, Nat.ble_eq, Nat.beq_eq] at h
  rcases h with (h | h) | ⟨⟨isEven, h⟩, odd⟩
  · omega
  · omega
  · have := parity isEven
    obtain ⟨k, steps⟩ := Nat.dvd_of_mod_eq_zero step
    obtain ⟨half, two⟩ := Nat.dvd_of_mod_eq_zero h
    have : n - run.1 = 2 * (half * k) := by rw [steps, two, Nat.mul_assoc]
    omega

/-- What a run moves is no capital. -/
theorem not_isIn_of_shift {n : Nat} {first last step : Nat} {shift : Int}
    (mem : (first, last, step, shift) ∈ lowerShifts) (h : IsIn n (first, last, step, shift)) :
    ∀ run ∈ capitals, ¬ IsIn ((n : Int) + shift).toNat run := by
  intro run memRun
  have settling := List.all_eq_true.mp lowerShifts_settling _ mem
  simp only [isSettling, Bool.and_eq_true, decide_eq_true_eq] at settling
  obtain ⟨nonneg, settling⟩ := settling
  obtain ⟨lower, upper, steps⟩ : first ≤ n ∧ n ≤ last ∧ (n - first) % step = 0 := h
  refine not_isIn_of_leavesOut (List.all_eq_true.mp settling run memRun) (by omega) (by omega) fun even => ?_
  have same : n % 2 = first % 2 := by
    rw [Bool.or_eq_true, Nat.beq_eq, Nat.beq_eq] at even
    rcases even with single | two
    · omega
    · obtain ⟨k, steps⟩ := Nat.dvd_of_mod_eq_zero steps
      obtain ⟨half, two⟩ := Nat.dvd_of_mod_eq_zero two
      have : n - first = 2 * (half * k) := by rw [steps, two, Nat.mul_assoc]
      omega
  omega

theorem shift?_eq_some {shifts : Shifts} (h : shift? shifts c = some d) :
    ∃ first last step shift, (first, last, step, shift) ∈ shifts ∧
      IsIn c.toNat (first, last, step, shift) ∧ d = Char.ofNat ((c.toNat : Int) + shift).toNat := by
  obtain ⟨⟨first, last, step, shift⟩, found, rfl⟩ := Option.map_eq_some_iff.mp h
  have holds := List.find?_some found
  simp only [Bool.and_eq_true, decide_eq_true_eq, beq_iff_eq] at holds
  exact ⟨first, last, step, shift, List.mem_of_find?_eq_some found, ⟨holds.1.1, holds.1.2, holds.2⟩, rfl⟩

/-- What is no capital stays as it is. -/
theorem isSmall_of_not_isIn (h : ∀ run ∈ capitals, ¬ IsIn c.toNat run) : IsSmall c := by
  have dotted : c ≠ 'İ' := by
    rintro rfl
    exact h _ List.mem_cons_self ⟨by decide, by decide, by decide⟩
  have sigma : c ≠ 'Σ' := by
    rintro rfl
    exact h (0x3A3, 0x3AB, 1, 32) (by decide +kernel) ⟨by decide, by decide, by decide⟩
  have none_ : shift? lowerShifts c = none := by
    cases found : shift? lowerShifts c with
    | none => rfl
    | some d =>
      obtain ⟨_, _, _, _, mem, isIn, _⟩ := shift?_eq_some found
      exact (h _ (List.mem_cons_of_mem _ mem) isIn).elim
  refine ⟨sigma, ?_⟩
  by_cases ascii : c.toNat < 128
  · have notCapital : ¬ (65 ≤ c.toNat ∧ c.toNat ≤ 90) := fun capital =>
      h (0x41, 0x5A, 1, 32) (by decide +kernel) ⟨capital.1, capital.2, Nat.mod_one _⟩
    rw [lowerForm_of_ascii ascii]
    exact forall_ascii (P := fun c => ¬ (65 ≤ c.toNat ∧ c.toNat ≤ 90) → [c.toLower] = [c])
      (by decide) ascii notCapital
  · simp [lowerForm, lowerChar, dotted, ascii, none_]

/-- What a character becomes stays as it is. -/
theorem isSmall_of_mem_lowerForm (sigma : c ≠ 'Σ') (mem : d ∈ lowerForm c) : IsSmall d := by
  by_cases ascii : c.toNat < 128
  · rw [lowerForm_of_ascii ascii, List.mem_singleton] at mem
    exact mem ▸ isSmall_toLower ascii
  by_cases dotted : c = 'İ'
  · simp only [lowerForm, dotted, if_pos, List.mem_cons, List.not_mem_nil, or_false, beq_self_eq_true] at mem
    rcases mem with rfl | rfl
    · exact ⟨by decide, by decide⟩
    · exact ⟨by decide, by decide +kernel⟩
  have form : lowerForm c = [(shift? lowerShifts c).getD c] := by
    simp [lowerForm, lowerChar, dotted, ascii]
  rw [form, List.mem_singleton] at mem
  cases found : shift? lowerShifts c with
  | none =>
    rw [found] at mem
    subst mem
    exact ⟨sigma, by rw [form, found]; rfl⟩
  | some moved =>
    obtain ⟨first, last, step, shift, memShifts, isIn, rfl⟩ := shift?_eq_some found
    rw [found, Option.getD_some] at mem
    subst mem
    by_cases valid : ((c.toNat : Int) + shift).toNat.isValidChar
    · refine isSmall_of_not_isIn ?_
      rw [Char.ofNat, dif_pos valid]
      exact not_isIn_of_shift memShifts isIn
    · rw [Char.ofNat, dif_neg valid]
      exact ⟨by decide, by decide +kernel⟩

theorem isSmall_of_mem_lowerAfter (mem : d ∈ lowerAfter before cs) : IsSmall d := by
  induction cs generalizing before with
  | nil => cases mem
  | cons c cs ih =>
    rcases List.mem_append.mp mem with here | later
    · by_cases sigma : c = 'Σ'
      · have small : IsSmall 'ς' ∧ IsSmall 'σ' :=
          ⟨⟨by decide, by decide +kernel⟩, by decide, by decide +kernel⟩
        simp only [sigma, beq_self_eq_true, if_true] at here
        split at here <;> simp_all
      · simp only [sigma, beq_iff_eq, if_false] at here
        exact isSmall_of_mem_lowerForm sigma here
    · exact ih later

/-- A text in small letters stays as it is. -/
theorem lower_lower (s : String) : lower (lower s) = lower s := by
  rw [lower, lower, String.toList_ofList, lowerChars, lowerChars,
    lowerAfter_of_small fun _ mem => isSmall_of_mem_lowerAfter mem]

end Scaffold.Text
