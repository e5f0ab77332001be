import Scaffold.Proofs.Naming.Joining
import Scaffold.Proofs.Text.Case

/-!
File items of names in ASCII. What a conversion writes is small and holds no backslash, and of such a text
a second conversion changes nothing; so it does not matter how often a name is converted. Identifiers are
such names, and theirs are file items without a slash.
-/

namespace Scaffold.Naming

open Text (forall_ascii lowerForm_of_ascii)

variable {c : Char} {cs last : List Char} {s : String}

/-- A character that a conversion leaves alone: small, and no backslash. -/
def isSettled (c : Char) : Bool := c.toNat < 128 && !c.isUpper && c != '\\'

theorem isSettled_toLower (ascii : c.toNat < 128) (h : c ≠ '\\') : isSettled c.toLower = true :=
  forall_ascii (P := fun c => c ≠ '\\' → isSettled c.toLower = true) (by decide) ascii h

theorem toLower_of_settled (h : isSettled c = true) : c.toNat < 128 ∧ c.toLower = c := by
  have ascii : c.toNat < 128 := by simp_all [isSettled]
  exact ⟨ascii, forall_ascii (P := fun c => isSettled c = true → c.toLower = c) (by decide) ascii h⟩

theorem toLower_ascii (ascii : c.toNat < 128) :
    c.toLower.toNat < 128 ∧ c.toLower.toLower = c.toLower ∧ (c.toLower = '/' ↔ c = '/') :=
  forall_ascii
    (P := fun c => c.toLower.toNat < 128 ∧ c.toLower.toLower = c.toLower ∧
      (c.toLower = '/' ↔ c = '/'))
    (by decide) ascii

/-- The step of a conversion at a character of ASCII. -/
theorem fileItemAfter_cons (ascii : c.toNat < 128) :
    fileItemAfter last (c :: cs) =
      if c = '\\' ∨ c = '/' then '/' :: fileItemAfter ['/'] cs
      else if c.isUpper ∧ last ≠ ['/'] then '-' :: c.toLower :: fileItemAfter [c.toLower] cs
      else c.toLower :: fileItemAfter [c.toLower] cs := by
  have capital : Text.isUpper c = c.isUpper := by simp [Text.isUpper, ascii]
  by_cases slash : c = '\\' ∨ c = '/'
  · simp [fileItemAfter, slash]
  · cases upper : c.isUpper <;> by_cases start : last = ['/'] <;>
      simp [fileItemAfter, slash, lowerForm_of_ascii ascii, capital, upper, start]

theorem settled_of_mem_fileItemAfter (ascii : ∀ c ∈ cs, c.toNat < 128) :
    ∀ b ∈ fileItemAfter last cs, isSettled b = true := by
  induction cs generalizing last with
  | nil => simp [fileItemAfter]
  | cons c cs ih =>
    obtain ⟨asciiC, asciiCs⟩ := List.forall_mem_cons.mp ascii
    rw [fileItemAfter_cons asciiC]
    split
    · exact List.forall_mem_cons.mpr ⟨by decide, ih asciiCs⟩
    · rename_i slash
      have small := isSettled_toLower asciiC fun e => slash (.inl e)
      split
      · exact List.forall_mem_cons.mpr
          ⟨by decide, List.forall_mem_cons.mpr ⟨small, ih asciiCs⟩⟩
      · exact List.forall_mem_cons.mpr ⟨small, ih asciiCs⟩

theorem fileItemAfter_of_settled (settled : ∀ c ∈ cs, isSettled c = true) :
    fileItemAfter last cs = cs := by
  induction cs generalizing last with
  | nil => rfl
  | cons c cs ih =>
    obtain ⟨settledC, settledCs⟩ := List.forall_mem_cons.mp settled
    obtain ⟨ascii, lower⟩ := toLower_of_settled settledC
    have small : c.isUpper = false ∧ c ≠ '\\' := by simp_all [isSettled]
    rw [fileItemAfter_cons ascii, lower]
    simp only [ih settledCs]
    by_cases slash : c = '/' <;> simp [small, slash]

/-- The conversion of a name in ASCII is final. -/
theorem fileItem_fileItem (ascii : ∀ c ∈ s.toList, c.toNat < 128) :
    fileItem (fileItem s) = fileItem s := by
  unfold fileItem
  rw [String.toList_ofList]
  congr 1
  cases chars : s.toList with
  | nil => rfl
  | cons c cs =>
    rw [chars] at ascii
    obtain ⟨asciiC, asciiCs⟩ := List.forall_mem_cons.mp ascii
    obtain ⟨asciiL, again, -⟩ := toLower_ascii asciiC
    have once : fileItemChars (c :: cs) = c.toLower :: fileItemAfter [c.toLower] cs := by
      rw [fileItemChars, lowerForm_of_ascii asciiC, List.singleton_append]
    rw [once, fileItemChars, lowerForm_of_ascii asciiL, again, List.singleton_append,
      fileItemAfter_of_settled (settled_of_mem_fileItemAfter asciiCs)]

theorem fileItem_ne_empty (ascii : ∀ c ∈ s.toList, c.toNat < 128) (h : s ≠ "") :
    fileItem s ≠ "" := by
  unfold fileItem
  cases chars : s.toList with
  | nil => exact absurd (String.toList_eq_nil_iff.mp chars) h
  | cons c cs =>
    rw [chars] at ascii
    simp [fileItemChars, lowerForm_of_ascii (ascii c List.mem_cons_self)]

theorem slash_notMem_fileItemAfter (ascii : ∀ c ∈ cs, c.toNat < 128)
    (plain : ∀ c ∈ cs, c ≠ '\\' ∧ c ≠ '/') : '/' ∉ fileItemAfter last cs := by
  induction cs generalizing last with
  | nil => simp [fileItemAfter]
  | cons c cs ih =>
    obtain ⟨asciiC, asciiCs⟩ := List.forall_mem_cons.mp ascii
    obtain ⟨plainC, plainCs⟩ := List.forall_mem_cons.mp plain
    have other : '/' ≠ c.toLower := fun e => plainC.2 ((toLower_ascii asciiC).2.2.mp e.symm)
    rw [fileItemAfter_cons asciiC, if_neg (by simp [plainC])]
    split <;> simp [other, ih asciiCs plainCs]

/-- A name without slashes has a file item without slashes. -/
theorem slash_notMem_fileItem (ascii : ∀ c ∈ s.toList, c.toNat < 128)
    (plain : ∀ c ∈ s.toList, c ≠ '\\' ∧ c ≠ '/') : '/' ∉ (fileItem s).toList := by
  rw [fileItem, String.toList_ofList]
  cases chars : s.toList with
  | nil => simp [fileItemChars]
  | cons c cs =>
    rw [chars] at ascii plain
    obtain ⟨asciiC, asciiCs⟩ := List.forall_mem_cons.mp ascii
    obtain ⟨plainC, plainCs⟩ := List.forall_mem_cons.mp plain
    have other : '/' ≠ c.toLower := fun e => plainC.2 ((toLower_ascii asciiC).2.2.mp e.symm)
    simp [fileItemChars, lowerForm_of_ascii asciiC, other,
      slash_notMem_fileItemAfter asciiCs plainCs]

/-- A name of letters, digits and low lines. -/
structure IsIdentifier (name : String) : Prop where
  nonempty : name ≠ ""
  letters : ∀ c ∈ name.toList, c.isAlphanum = true ∨ c = '_'

theorem isIdentifier_iff {name : String} :
    IsIdentifier name ↔ name ≠ "" ∧ name.toList.all (fun c => c.isAlphanum || c == '_') = true := by
  constructor
  · intro h
    exact ⟨h.nonempty, by simpa using h.letters⟩
  · rintro ⟨nonempty, letters⟩
    exact ⟨nonempty, by simpa using letters⟩

instance (name : String) : Decidable (IsIdentifier name) := decidable_of_iff _ isIdentifier_iff.symm

namespace IsIdentifier

variable {name : String}

theorem ascii (h : IsIdentifier name) : ∀ c ∈ name.toList, c.toNat < 128 := by
  intro c mem
  rcases h.letters c mem with letter | rfl
  · change (decide (c.val ≥ 65 ∧ c.val ≤ 90) || decide (c.val ≥ 97) && decide (c.val ≤ 122) ||
      decide (c.val ≥ 48) && decide (c.val ≤ 57)) = true at letter
    simp only [Bool.or_eq_true, Bool.and_eq_true, decide_eq_true_eq, ge_iff_le, UInt32.le_iff_toNat_le]
      at letter
    change ((65 ≤ c.toNat ∧ c.toNat ≤ 90) ∨ (97 ≤ c.toNat ∧ c.toNat ≤ 122)) ∨
      (48 ≤ c.toNat ∧ c.toNat ≤ 57) at letter
    omega
  · decide

theorem no_slash (h : IsIdentifier name) : ∀ c ∈ name.toList, c ≠ '\\' ∧ c ≠ '/' := by
  intro c mem
  rcases h.letters c mem with letter | rfl
  · constructor <;> rintro rfl <;> exact absurd letter (by decide)
  · decide

/-- The file item of an identifier goes into a path as it is. -/
theorem isPart (h : IsIdentifier name) : IsPart (fileItem name) :=
  .of_notMem (fileItem_ne_empty h.ascii h.nonempty) (slash_notMem_fileItem h.ascii h.no_slash)

end IsIdentifier

theorem mem_intercalate {separator : String} {texts : List String}
    (mem : c ∈ (separator.intercalate texts).toList) :
    c ∈ separator.toList ∨ ∃ text ∈ texts, c ∈ text.toList := by
  induction texts with
  | nil => simp at mem
  | cons text rest ih =>
    by_cases alone : rest = []
    · exact .inr ⟨text, List.mem_cons_self, by simpa [alone] using mem⟩
    · rw [String.intercalate_cons_of_ne_nil alone, String.toList_append, String.toList_append,
        List.mem_append, List.mem_append] at mem
      rcases mem with (mem | mem) | mem
      · exact .inr ⟨text, List.mem_cons_self, mem⟩
      · exact .inl mem
      · exact (ih mem).imp_right fun ⟨other, memOther, mem⟩ =>
          ⟨other, List.mem_cons_of_mem _ memOther, mem⟩

/-- The folder of a namespace of identifiers is its own file item. -/
theorem fileItem_subPath {namespace_ : String}
    (h : ∀ segment ∈ segments namespace_, IsIdentifier segment) :
    fileItem (subPath namespace_) = subPath namespace_ := by
  refine fileItem_fileItem fun c mem => ?_
  rcases mem_intercalate mem with slash | ⟨segment, memSegment, mem⟩
  · obtain rfl : c = '/' := by simpa using slash
    decide
  · exact (h segment memSegment).ascii c mem

end Scaffold.Naming
