import Mathlib.Data.List.Forall2
import Scaffold.Proofs.Naming.FileItem

/-!
Names of one file item. A conversion marks every capital after the first character with a hyphen, which is
in no identifier; so a file item tells an identifier but for the case of its first letter.
-/

namespace Scaffold.Naming

open Text (forall_ascii lowerForm_of_ascii)

variable {name name' ending : String} {c c' : Char} {cs cs' last last' : List Char}

/-- The names are equal but for the case of their first letters. -/
def EqualUpToFirst (name name' : String) : Prop :=
  ∃ c c' rest, name.toList = c :: rest ∧ name'.toList = c' :: rest ∧ c.toLower = c'.toLower

/-- A character of an identifier. -/
def IsLetter (c : Char) : Prop := c.isAlphanum = true ∨ c = '_'

instance (c : Char) : Decidable (IsLetter c) := inferInstanceAs (Decidable (_ ∨ _))

theorem IsLetter.ascii (h : IsLetter c) : c.toNat < 128 := by
  have identifier : IsIdentifier (.singleton c) := by
    refine ⟨by simp, fun d mem => ?_⟩
    obtain rfl : d = c := by simpa using mem
    exact h
  exact identifier.ascii c (by simp)

/-- A small form is a capital's or its own, and neither a hyphen nor a slash. -/
theorem IsLetter.toLower (h : IsLetter c) :
    c ≠ '\\' ∧ c ≠ '/' ∧ c.toLower ≠ '-' ∧ c.toLower ≠ '/' ∧ (c.isUpper = false → c.toLower = c) :=
  forall_ascii
    (P := fun c => IsLetter c → c ≠ '\\' ∧ c ≠ '/' ∧ c.toLower ≠ '-' ∧ c.toLower ≠ '/' ∧
      (c.isUpper = false → c.toLower = c))
    (by decide) h.ascii h

/-- A capital is told by its small form. -/
theorem toLower_inj_of_upper (upper : c.isUpper = true) (upper' : c'.isUpper = true)
    (same : c.toLower = c'.toLower) : c = c' := by
  have back (c : Char) (upper : c.isUpper = true) (ascii : c.toNat < 128) : c.toLower.toUpper = c :=
    forall_ascii (P := fun c => c.isUpper = true → c.toLower.toUpper = c) (by decide) ascii upper
  have ascii (c : Char) (upper : c.isUpper = true) : c.toNat < 128 := by
    refine IsLetter.ascii (.inl ?_)
    show (c.isUpper || c.isLower || c.isDigit) = true
    rw [upper, Bool.true_or, Bool.true_or]
  rw [← back c upper (ascii c upper), same, back c' upper' (ascii c' upper')]

/-- One character of an identifier, not at the start. -/
theorem fileItemAfter_letter (letter : IsLetter c) (start : last ≠ ['/']) :
    fileItemAfter last (c :: cs) =
      if c.isUpper then '-' :: c.toLower :: fileItemAfter [c.toLower] cs
      else c :: fileItemAfter [c] cs := by
  obtain ⟨backslash, slash, _, _, small⟩ := letter.toLower
  rw [fileItemAfter_cons letter.ascii, if_neg (by simp [backslash, slash])]
  cases upper : c.isUpper with
  | true => simp [start]
  | false => simp [small upper]

/-- After the first character the characters of an identifier can be read off its file item. -/
theorem fileItemAfter_inj (letters : ∀ c ∈ cs, IsLetter c) (letters' : ∀ c ∈ cs', IsLetter c)
    (start : last ≠ ['/']) (start' : last' ≠ ['/'])
    (same : fileItemAfter last cs = fileItemAfter last' cs') : cs = cs' := by
  induction cs generalizing cs' last last' with
  | nil =>
    cases cs' with
    | nil => rfl
    | cons c' cs' =>
      rw [fileItemAfter_letter (letters' c' List.mem_cons_self) start'] at same
      split at same <;> simp [fileItemAfter] at same
  | cons c cs ih =>
    obtain ⟨letter, rest⟩ := List.forall_mem_cons.mp letters
    obtain ⟨_, slash, _, slashLower, small⟩ := letter.toLower
    rw [fileItemAfter_letter letter start] at same
    cases cs' with
    | nil => split at same <;> simp [fileItemAfter] at same
    | cons c' cs' =>
      obtain ⟨letter', rest'⟩ := List.forall_mem_cons.mp letters'
      obtain ⟨_, slash', _, slashLower', small'⟩ := letter'.toLower
      rw [fileItemAfter_letter letter' start'] at same
      have hyphen {c : Char} (letter : IsLetter c) (plain : ¬ c.isUpper = true) : c ≠ '-' := by
        obtain ⟨_, _, hyphen, _, small⟩ := letter.toLower
        rw [small (by simpa using plain)] at hyphen
        exact hyphen
      split at same
      · rename_i upper
        split at same
        · rename_i upper'
          simp only [List.cons.injEq, true_and] at same
          rw [toLower_inj_of_upper upper upper' same.1, ih rest rest' (by simp [slashLower])
            (by simp [slashLower']) same.2]
        · rename_i plain'
          exact absurd (List.cons.inj same).1.symm (hyphen letter' plain')
      · rename_i plain
        split at same
        · exact absurd (List.cons.inj same).1 (hyphen letter plain)
        · obtain ⟨rfl, same⟩ := List.cons.inj same
          rw [ih rest rest' (by simp [slash]) (by simp [slash']) same]

theorem IsIdentifier.exists_cons (h : IsIdentifier name) :
    ∃ c rest, name.toList = c :: rest ∧ IsLetter c ∧ ∀ c ∈ rest, IsLetter c := by
  obtain ⟨c, rest, eq⟩ := List.exists_cons_of_ne_nil
    (fun none_ => h.nonempty (String.toList_eq_nil_iff.mp none_))
  have letters := h.letters
  rw [eq] at letters
  obtain ⟨letter, rest'⟩ := List.forall_mem_cons.mp letters
  exact ⟨c, rest, eq, letter, rest'⟩

/-- Identifiers have one file item exactly if they are equal but for the case of their first letters. -/
theorem fileItem_eq_iff (h : IsIdentifier name) (h' : IsIdentifier name') :
    fileItem name = fileItem name' ↔ EqualUpToFirst name name' := by
  obtain ⟨c, rest, eq, letter, letters⟩ := h.exists_cons
  obtain ⟨c', rest', eq', letter', letters'⟩ := h'.exists_cons
  have item {name : String} {c : Char} {rest : List Char} (eq : name.toList = c :: rest)
      (letter : IsLetter c) : (fileItem name).toList = c.toLower :: fileItemAfter [c.toLower] rest := by
    rw [fileItem, String.toList_ofList, eq, fileItemChars, lowerForm_of_ascii letter.ascii]
    rfl
  obtain ⟨_, _, _, slash, _⟩ := letter.toLower
  obtain ⟨_, _, _, slash', _⟩ := letter'.toLower
  rw [← String.toList_inj, item eq letter, item eq' letter', List.cons.injEq]
  constructor
  · rintro ⟨first, same⟩
    obtain rfl := fileItemAfter_inj letters letters' (by simp [slash]) (by simp [slash']) same
    exact ⟨c, c', rest, eq, eq', first⟩
  · rintro ⟨d, d', common, eqD, eqD', first⟩
    obtain ⟨rfl, rfl⟩ := List.cons.inj (eq.symm.trans eqD)
    obtain ⟨rfl, rfl⟩ := List.cons.inj (eq'.symm.trans eqD')
    exact ⟨first, by rw [first]⟩

/-- That goes for lists of identifiers as well. -/
theorem map_fileItem_eq_iff {names names' : List String} (h : ∀ name ∈ names, IsIdentifier name)
    (h' : ∀ name ∈ names', IsIdentifier name) :
    names.map fileItem = names'.map fileItem ↔ List.Forall₂ EqualUpToFirst names names' := by
  induction names generalizing names' with
  | nil => simp [eq_comm]
  | cons name rest ih =>
    obtain ⟨identifier, identifiers⟩ := List.forall_mem_cons.mp h
    cases names' with
    | nil => simp
    | cons name' rest' =>
      obtain ⟨identifier', identifiers'⟩ := List.forall_mem_cons.mp h'
      rw [List.map_cons, List.map_cons, List.cons.injEq, List.forall₂_cons,
        fileItem_eq_iff identifier identifier', ih identifiers identifiers']

/-- An ending that both names have does not tell them apart. -/
theorem equalUpToFirst_append (some_ : name ≠ "") (some' : name' ≠ "") :
    EqualUpToFirst (name ++ ending) (name' ++ ending) ↔ EqualUpToFirst name name' := by
  have cons {name : String} (some_ : name ≠ "") : ∃ c rest, name.toList = c :: rest :=
    List.exists_cons_of_ne_nil fun none_ => some_ (String.toList_eq_nil_iff.mp none_)
  obtain ⟨c, rest, eq⟩ := cons some_
  obtain ⟨c', rest', eq'⟩ := cons some'
  simp only [EqualUpToFirst, String.toList_append, eq, eq', List.cons_append, List.cons.injEq]
  constructor
  · rintro ⟨_, _, _, ⟨rfl, rfl⟩, ⟨rfl, same⟩, first⟩
    exact ⟨_, _, rest, ⟨rfl, rfl⟩, ⟨rfl, List.append_cancel_right same⟩, first⟩
  · rintro ⟨_, _, _, ⟨rfl, rfl⟩, ⟨rfl, rfl⟩, first⟩
    exact ⟨_, _, _, ⟨rfl, rfl⟩, ⟨rfl, rfl⟩, first⟩

end Scaffold.Naming
