import Scaffold.Proofs.Text.Case
import Scaffold.Proofs.Text.Lines

/-!
Marks: the braces and the characters that end lines. No change of case makes a mark out of anything else, so the
marks of a text in small or large letters are those of the text.
-/

namespace Scaffold.Text

open CaseTable

variable {c d : Char} {cs ds es before : List Char} {s t : String}

/-- A brace or a character that ends a line. -/
def isMark (c : Char) : Bool := c == '\x7b' || c == '\x7d' || isLineBoundary c

def markCodes : List Nat := [10, 11, 12, 13, 28, 29, 30, 0x7B, 0x7D, 0x85, 0x2028, 0x2029]

theorem toNat_mem_markCodes (h : isMark c = true) : c.toNat ∈ markCodes := by
  simp only [isMark, isLineBoundary, Bool.or_eq_true, Bool.and_eq_true, beq_iff_eq, decide_eq_true_eq] at h
  simp only [markCodes, List.mem_cons, List.not_mem_nil, or_false]
  rcases h with (rfl | rfl) | h
  · decide
  · decide
  · omega

/-- Every mark of the one text is in the other. -/
def MarksIn (ds cs : List Char) : Prop := ∀ d ∈ ds, isMark d = true → d ∈ cs

instance (ds cs : List Char) : Decidable (MarksIn ds cs) :=
  decidable_of_iff ((ds.all fun d => !isMark d || cs.contains d) = true) (by
    simp only [List.all_eq_true, Bool.or_eq_true, Bool.not_eq_true', List.contains_iff_mem, MarksIn]
    exact forall₂_congr fun d _ => by cases isMark d <;> simp)

namespace MarksIn

theorem of_subset (h : ds ⊆ cs) : MarksIn ds cs := fun _ mem _ => h mem

theorem refl (cs : List Char) : MarksIn cs cs := of_subset (List.Subset.refl cs)

theorem trans (h : MarksIn es ds) (h' : MarksIn ds cs) : MarksIn es cs :=
  fun d mem mark => h' d (h d mem mark) mark

theorem mono (h : MarksIn es ds) (sub : ds ⊆ cs) : MarksIn es cs := h.trans (of_subset sub)

theorem append (h : MarksIn ds cs) (h' : MarksIn es cs) : MarksIn (ds ++ es) cs :=
  fun d mem mark => (List.mem_append.mp mem).elim (h d · mark) (h' d · mark)

theorem of_unmarked (h : ∀ d ∈ ds, isMark d = false) : MarksIn ds cs :=
  fun d mem mark => absurd mark (by simp [h d mem])

/-- A text without marks. -/
theorem of_all (h : (ds.all fun d => !isMark d) = true) : MarksIn ds cs :=
  of_unmarked fun d mem => by simpa using List.all_eq_true.mp h d mem

theorem flatMap {f : Char → List Char} (each : ∀ c, MarksIn (f c) [c]) : MarksIn (cs.flatMap f) cs := by
  intro d mem mark
  obtain ⟨c, memC, memD⟩ := List.mem_flatMap.mp mem
  obtain rfl := List.mem_singleton.mp (each c d memD mark)
  exact memC

end MarksIn

theorem isSingleLine_of_marksIn {s t : String} (h : MarksIn t.toList s.toList)
    (single : isSingleLine s = true) : isSingleLine t = true := by
  rw [isSingleLine_eq]
  refine List.all_eq_true.mpr fun c mem => ?_
  cases boundary : isLineBoundary c with
  | false => rfl
  | true =>
    have inside := forall_not_boundary single c (h c mem (by simp [isMark, boundary]))
    rw [boundary] at inside
    cases inside

theorem isMark_ofNat {n : Nat} (h : n ∉ markCodes) : isMark (Char.ofNat n) = false := by
  by_contra mark
  have code := toNat_mem_markCodes (by simpa using mark)
  by_cases valid : n.isValidChar
  · rw [Char.ofNat, dif_pos valid] at code
    exact h code
  · rw [Char.ofNat, dif_neg valid] at code
    exact absurd code (by decide)

/-- Does no run move a code point to a mark? -/
def avoidsMarks (shifts : Shifts) : Bool :=
  shifts.all fun (first, last, _, shift) => markCodes.all fun code =>
    decide ((code : Int) < first + shift ∨ last + shift < code) && decide (0 ≤ first + shift)

theorem avoidsMarks_lower : avoidsMarks lowerShifts = true := by decide +kernel

theorem avoidsMarks_upper : avoidsMarks upperShifts = true := by decide +kernel

theorem isMark_of_shift {shifts : Shifts} (avoids : avoidsMarks shifts = true) (h : shift? shifts c = some d) :
    isMark d = false := by
  obtain ⟨first, last, step, shift, mem, ⟨lower, upper, -⟩, rfl⟩ := shift?_eq_some h
  refine isMark_ofNat fun code => ?_
  have clear := List.all_eq_true.mp (List.all_eq_true.mp avoids _ mem) _ code
  simp only [Bool.and_eq_true, decide_eq_true_eq] at clear
  simp only at lower upper
  omega

theorem marksIn_shift {shifts : Shifts} (avoids : avoidsMarks shifts = true) (c : Char) :
    MarksIn [(shift? shifts c).getD c] [c] := by
  cases moved : shift? shifts c with
  | none => exact .refl [c]
  | some d => exact .of_unmarked (by simpa using isMark_of_shift avoids moved)

theorem marksIn_lowerForm (c : Char) : MarksIn (lowerForm c) [c] := by
  unfold lowerForm lowerChar
  split
  · exact .of_all (by decide)
  · split
    · exact forall_ascii (P := fun c => MarksIn [c.toLower] [c]) (by decide +kernel) ‹_›
    · exact marksIn_shift avoidsMarks_lower c

theorem marksIn_lowerAfter (before cs : List Char) : MarksIn (lowerAfter before cs) cs := by
  induction cs generalizing before with
  | nil => exact .refl []
  | cons c rest ih =>
    have here : MarksIn (if c == 'Σ' then if meetsCased before && !meetsCased rest then ['ς'] else ['σ']
        else lowerForm c) [c] := by
      split
      · split <;> exact .of_all (by decide)
      · exact marksIn_lowerForm c
    exact .append (here.mono (by simp)) ((ih _).mono (by simp))

theorem marksIn_lowerChars (cs : List Char) : MarksIn (lowerChars cs) cs := marksIn_lowerAfter [] cs

theorem upperExpansions_unmarked :
    (upperExpansions.all fun (_, codes) => codes.all fun n => !markCodes.contains n) = true := by decide +kernel

theorem marksIn_upperForm (c : Char) : MarksIn (upperForm c) [c] := by
  unfold upperForm
  split
  · exact forall_ascii (P := fun c => MarksIn [c.toUpper] [c]) (by decide +kernel) ‹_›
  · cases expanded : upperExpansions.lookup c.toNat with
    | none => exact marksIn_shift avoidsMarks_upper c
    | some codes =>
      refine .of_unmarked fun d mem => ?_
      obtain ⟨n, memN, rfl⟩ := List.mem_map.mp mem
      obtain ⟨front, back, eq, -⟩ := List.lookup_eq_some_iff.mp expanded
      have clear := List.all_eq_true.mp upperExpansions_unmarked (c.toNat, codes) (by simp [eq])
      exact isMark_ofNat (by simpa using List.all_eq_true.mp clear n memN)

theorem marksIn_upperChars (cs : List Char) : MarksIn (upperChars cs) cs := .flatMap marksIn_upperForm

end Scaffold.Text
