import Scaffold.Proofs.Naming.FileItem
import Scaffold.Proofs.Tree.Paths

/-!
What a tree refuses to look for. Where nothing is found a lookup says so; it fails on a path or a name that is
too long, and on nothing else.
-/

namespace Scaffold

variable {t : Tree} {p : Path}

/-- A lookup is refused for nothing but length. -/
theorem Tree.exists?_ok_iff : (∃ there, t.exists? p = .ok there) ↔ t.locate p ≠ .error .nameTooLong := by
  unfold exists? nodeAt?
  cases t.locate p with
  | ok spot => simp [Except.map]
  | error obstacle => cases obstacle <;> simp [Except.map]

namespace Text

theorem countBytes_append (cs cs' : List Char) : countBytes (cs ++ cs') = countBytes cs + countBytes cs' := by
  induction cs with
  | nil => exact (Nat.zero_add _).symm
  | cons ch rest ih => rw [List.cons_append, countBytes, countBytes, ih, Nat.add_assoc]

theorem nameSize_append (s s' : String) : nameSize (s ++ s') = nameSize s + nameSize s' := by
  simp only [nameSize, chars_eq, String.toList_append, countBytes_append]

theorem length_le_countBytes (cs : List Char) : cs.length ≤ countBytes cs := by
  induction cs with
  | nil => exact Nat.le_refl _
  | cons ch rest ih =>
    have positive := ch.utf8Size_pos
    rw [List.length_cons, countBytes]
    split <;> omega

theorem length_le_nameSize (cs : List Char) : cs.length ≤ nameSize (.ofList cs) := by
  rw [nameSize, chars_eq, String.toList_ofList]
  exact length_le_countBytes cs

theorem firstHalves?_eq_none {mayStand : Char → Bool} {cs : List Char} {place : Nat} :
    firstHalves? mayStand place cs = none ↔ ∀ ch ∈ cs, mayStand ch = true ∨ carried? ch = none := by
  induction cs generalizing place with
  | nil => simp [firstHalves?]
  | cons ch rest ih =>
    cases carried : carried? ch <;> cases stands : mayStand ch <;> simp [firstHalves?, carried, stands, ih]

theorem carried?_of_ascii {ch : Char} (ascii : ch.toNat < 128) : carried? ch = none :=
  if_neg (by unfold firstCarrier; omega)

/-- A name without halves spells nothing by its bytes. -/
theorem spellsCharacter_eq_false {cs : List Char} (none_ : ∀ ch ∈ cs, carried? ch = none) :
    spellsCharacter cs = false := by
  induction cs with
  | nil => rfl
  | cons ch rest ih =>
    obtain ⟨here, later⟩ := List.forall_mem_cons.mp none_
    simp [spellsCharacter, nameBytes, nameByte?, here, beginsCharacter, ih later]

end Text

/-- A name in ASCII, without slashes and nulls. -/
def Tree.IsPlain (name : String) : Prop :=
  ∀ ch ∈ name.toList, ch ≠ '/' ∧ ch ≠ '\x00' ∧ ch.toNat < 128

instance (name : String) : Decidable (Tree.IsPlain name) :=
  decidable_of_iff (name.toList.all fun ch => decide (ch ≠ '/' ∧ ch ≠ '\x00' ∧ ch.toNat < 128))
    (by simp only [Tree.IsPlain, List.all_eq_true, decide_eq_true_eq])

theorem Tree.IsPlain.append {name name' : String} (h : IsPlain name) (h' : IsPlain name') :
    IsPlain (name ++ name') := by
  intro ch mem
  rw [String.toList_append, List.mem_append] at mem
  exact mem.elim (h ch) (h' ch)

theorem Tree.IsPlain.slash_notMem {name : String} (h : IsPlain name) : '/' ∉ name.toList :=
  fun mem => (h _ mem).1 rfl

/-- The text of a path has the characters of its names, and of where it starts. -/
theorem Path.text_subset (p : Path) : p.text.toList ⊆ "./<cwd>".toList ++ p.parts.flatMap String.toList := by
  have mark {cs : List Char} (known : cs ⊆ "./<cwd>".toList) :
      cs ⊆ "./<cwd>".toList ++ p.parts.flatMap String.toList :=
    List.Subset.trans known (List.subset_append_left _ _)
  have inner : ("/".intercalate p.parts).toList ⊆ "./<cwd>".toList ++ p.parts.flatMap String.toList := by
    intro ch mem
    rcases Naming.mem_intercalate mem with divides | ⟨name, memName, mem⟩
    · exact @mark "/".toList (by decide) ch divides
    · exact List.mem_append_right _ (List.mem_flatMap.mpr ⟨name, memName, mem⟩)
  have outer {before : String} (known : before.toList ⊆ "./<cwd>".toList) :
      (before ++ "/".intercalate p.parts).toList ⊆ "./<cwd>".toList ++ p.parts.flatMap String.toList := by
    rw [String.toList_append]
    exact List.append_subset.mpr ⟨mark known, inner⟩
  cases anchor : p.anchor <;> simp only [text, anchor]
  case relative =>
    split
    · exact mark (by decide)
    · exact inner
  case root => exact outer (by decide)
  case doubleRoot => exact outer (by decide)
  case workingDirectory =>
    split
    · exact mark (by decide)
    · exact outer (by decide)

/-- A path of plain names is impossible for nothing but its length. -/
theorem Tree.impossible?_of_plain (plain : ∀ name ∈ p.parts, IsPlain name) :
    impossible? p = none ∨ impossible? p = some .nameTooLong := by
  have text (ch : Char) (mem : ch ∈ p.text.toList) : ch ≠ '\x00' ∧ ch.toNat < 128 := by
    have marks : "./<cwd>".toList.all (fun mark => decide (mark ≠ '\x00' ∧ mark.toNat < 128)) = true := by decide
    rcases List.mem_append.mp (p.text_subset mem) with mark | mem
    · exact of_decide_eq_true (List.all_eq_true.mp marks ch mark)
    · obtain ⟨name, memName, mem⟩ := List.mem_flatMap.mp mem
      exact (plain name memName ch mem).2
  have null : '\x00' ∉ p.text.toList := fun mem => (text _ mem).1 rfl
  have halves : Text.firstHalves? Text.isNameByte 0 p.text.toList = none :=
    Text.firstHalves?_eq_none.mpr fun ch mem => .inr (Text.carried?_of_ascii (text ch mem).2)
  have slashes : ∀ name ∈ p.parts, '/' ∉ name.toList := fun name mem => (plain name mem).slash_notMem
  have spells : ∀ name ∈ p.parts, Text.spellsCharacter name.toList = false := fun name mem =>
    Text.spellsCharacter_eq_false fun ch memCh => Text.carried?_of_ascii (plain name mem ch memCh).2.2
  by_cases long : pathLimit < Text.nameSize p.text
  · simp [impossible?, Text.chars_eq, halves, null, long]
  · have fine : ∀ name ∈ p.parts, '/' ∉ name.toList ∧ Text.spellsCharacter name.toList = false :=
      fun name mem => ⟨slashes name mem, spells name mem⟩
    simpa [impossible?, Text.chars_eq, halves, null, long] using fine

/-- Names that lead somewhere are walked on from there. -/
theorem Tree.walk_append {at_ place : Location} {names : List String}
    (h : t.walk at_ names = .ok place) (more : List String) :
    t.walk at_ (names ++ more) = t.walk place more := by
  induction names generalizing at_ with
  | nil =>
    obtain rfl : at_ = place := Except.ok.inj h
    rfl
  | cons name rest ih =>
    obtain ⟨here, short, further⟩ := walk_cons_eq_ok.mp h
    rw [List.cons_append, walk_cons_of here short, ih further]

/-- In a directory a name that is too long is refused. -/
theorem Tree.locate_tooLong {at_ : Location} {name : String} (plain : ∀ part ∈ p.parts ++ [name], IsPlain part)
    (folder : t.locate p = .ok at_) (there : t.node? at_ = some .directory)
    (long : nameLimit < Text.nameSize name) :
    t.locate ⟨p.anchor, p.parts ++ [name]⟩ = .error .nameTooLong := by
  obtain ⟨-, start, walked⟩ := locate_eq_ok_iff.mp folder
  have further : t.walk (t.start p.anchor) (p.parts ++ [name]) = .error .nameTooLong := by
    rw [walk_append walked]
    exact walk_cons_tooLong.mpr ⟨there, .inl long⟩
  unfold locate
  rcases @impossible?_of_plain ⟨p.anchor, p.parts ++ [name]⟩ plain with possible | impossible
  · rw [possible]
    simp only [if_pos start, further]
  · rw [impossible]

end Scaffold
