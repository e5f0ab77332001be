import Scaffold.Proofs.Naming.FileItem

/-!
The separators of file items. A conversion divides directories at slashes and at backslashes, and after either it
starts anew. Only the first character is written before it is looked at: a backslash that a name begins with stays,
and it does not divide.
-/

namespace Scaffold.Naming

open Text (forall_ascii lowerForm_of_ascii)

variable {c : Char} {cs last : List Char} {s : String}

/-- The character, with a slash for a backslash. -/
def forward (c : Char) : Char := if c = '\\' then '/' else c

/-- A path with a slash for each backslash. -/
def withSlashes (s : String) : String := .ofList (s.toList.map forward)

/-- Does a text begin with a capital? -/
def startsUpper : List Char → Bool
  | [] => false
  | c :: _ => c.isUpper

theorem forward_of_ne (h : c ≠ '\\') : forward c = c := if_neg h

theorem forward_ascii (ascii : c.toNat < 128) : (forward c).toNat < 128 := by
  unfold forward
  split
  · decide
  · exact ascii

/-- After the first character both slashes are converted alike. -/
theorem fileItemAfter_map_forward (ascii : ∀ c ∈ cs, c.toNat < 128) :
    fileItemAfter last (cs.map forward) = fileItemAfter last cs := by
  induction cs generalizing last with
  | nil => rfl
  | cons c cs ih =>
    obtain ⟨asciiC, asciiCs⟩ := List.forall_mem_cons.mp ascii
    rw [List.map_cons, fileItemAfter_cons (forward_ascii asciiC), fileItemAfter_cons asciiC]
    simp only [ih asciiCs]
    by_cases back : c = '\\'
    · simp [back, forward]
    · rw [forward_of_ne back]

/-- A capital gets a hyphen unless a slash was written before it. -/
theorem fileItemAfter_eq (ascii : ∀ c ∈ cs, c.toNat < 128) (h : last ≠ ['/']) :
    fileItemAfter last cs = (if startsUpper cs then ['-'] else []) ++ fileItemAfter ['/'] cs := by
  cases cs with
  | nil => rfl
  | cons c cs =>
    have asciiC := ascii c List.mem_cons_self
    rw [fileItemAfter_cons asciiC, fileItemAfter_cons asciiC]
    by_cases slash : c = '\\' ∨ c = '/'
    · have small : c.isUpper = false := by rcases slash with rfl | rfl <;> decide
      simp [slash, startsUpper, small]
    · cases upper : c.isUpper <;> simp [slash, startsUpper, upper, h]

/-- The first character is written before it is looked at. -/
theorem toList_fileItem (chars : s.toList = c :: cs) (ascii : ∀ c ∈ s.toList, c.toNat < 128) :
    (fileItem s).toList = c.toLower :: fileItemAfter [c.toLower] cs := by
  rw [chars] at ascii
  rw [fileItem, String.toList_ofList, chars, fileItemChars, lowerForm_of_ascii (ascii c List.mem_cons_self),
    List.singleton_append]

theorem toList_fileItem_withSlashes (chars : s.toList = c :: cs) (ascii : ∀ c ∈ s.toList, c.toNat < 128) :
    (fileItem (withSlashes s)).toList = (forward c).toLower :: fileItemAfter [(forward c).toLower] cs := by
  have mapped : (withSlashes s).toList = forward c :: cs.map forward := by
    rw [withSlashes, String.toList_ofList, chars, List.map_cons]
  have asciiMapped : ∀ d ∈ (withSlashes s).toList, d.toNat < 128 := by
    rw [withSlashes, String.toList_ofList]
    intro d mem
    obtain ⟨e, memE, rfl⟩ := List.mem_map.mp mem
    exact forward_ascii (ascii e memE)
  rw [chars] at ascii
  rw [toList_fileItem mapped asciiMapped,
    fileItemAfter_map_forward fun d mem => ascii d (List.mem_cons_of_mem c mem)]

theorem isUpper_of_settled (h : isSettled c = true) : Text.isUpper c = false ∧ c ≠ '\\' := by
  simp_all [isSettled, Text.isUpper]

theorem toLower_first (ascii : c.toNat < 128) :
    Text.isUpper c.toLower = false ∧ (c.toLower = '\\' ↔ c = '\\') :=
  forall_ascii (P := fun c => Text.isUpper c.toLower = false ∧ (c.toLower = '\\' ↔ c = '\\')) (by decide) ascii

theorem isUpper_of_mem_fileItem (ascii : ∀ c ∈ s.toList, c.toNat < 128) {b : Char} (mem : b ∈ (fileItem s).toList) :
    Text.isUpper b = false := by
  cases chars : s.toList with
  | nil => simp [fileItem, fileItemChars, chars] at mem
  | cons c cs =>
    rw [toList_fileItem chars ascii] at mem
    rw [chars] at ascii
    obtain ⟨asciiC, asciiCs⟩ := List.forall_mem_cons.mp ascii
    rcases List.mem_cons.mp mem with rfl | mem
    · exact (toLower_first asciiC).1
    · exact (isUpper_of_settled (settled_of_mem_fileItemAfter asciiCs b mem)).1

theorem backslash_notMem_fileItem_iff (ascii : ∀ c ∈ s.toList, c.toNat < 128) :
    '\\' ∉ (fileItem s).toList ↔ s.toList.head? ≠ some '\\' := by
  cases chars : s.toList with
  | nil => simp [fileItem, fileItemChars, chars]
  | cons c cs =>
    rw [toList_fileItem chars ascii]
    rw [chars] at ascii
    obtain ⟨asciiC, asciiCs⟩ := List.forall_mem_cons.mp ascii
    have later : '\\' ∉ fileItemAfter [c.toLower] cs := fun mem =>
      (isUpper_of_settled (settled_of_mem_fileItemAfter asciiCs _ mem)).2 rfl
    have first : '\\' = c.toLower ↔ c = '\\' := eq_comm.trans (toLower_first asciiC).2
    simp [later, first]

/-- A name that begins with a backslash has an item that begins with it too, where that of the path with slashes
begins with a slash; and a capital that comes next gets a hyphen there. -/
theorem fileItem_of_backslash (chars : s.toList = '\\' :: cs) (ascii : ∀ c ∈ s.toList, c.toNat < 128) :
    ∃ tail, '\\' ∉ tail ∧ (fileItem (withSlashes s)).toList = '/' :: tail ∧
      (fileItem s).toList = '\\' :: ((if startsUpper cs then ['-'] else []) ++ tail) := by
  have asciiCs : ∀ c ∈ cs, c.toNat < 128 := fun c mem => ascii c (chars ▸ List.mem_cons_of_mem _ mem)
  refine ⟨fileItemAfter ['/'] cs, fun mem => ?_, toList_fileItem_withSlashes chars ascii, ?_⟩
  · exact (isUpper_of_settled (settled_of_mem_fileItemAfter asciiCs _ mem)).2 rfl
  · rw [toList_fileItem chars ascii]
    exact congrArg ('\\' :: ·) (fileItemAfter_eq asciiCs (by decide))

theorem fileItem_withSlashes_iff (ascii : ∀ c ∈ s.toList, c.toNat < 128) :
    fileItem s = fileItem (withSlashes s) ↔ s.toList.head? ≠ some '\\' := by
  cases chars : s.toList with
  | nil =>
    obtain rfl := String.toList_eq_nil_iff.mp chars
    simp [withSlashes]
  | cons c cs =>
    by_cases back : c = '\\'
    · subst back
      obtain ⟨tail, -, slashed, kept⟩ := fileItem_of_backslash chars ascii
      rw [← String.toList_inj, slashed, kept]
      simp
    · rw [← String.toList_inj, toList_fileItem chars ascii, toList_fileItem_withSlashes chars ascii,
        forward_of_ne back]
      simpa using back

/-- The item of a name in ASCII has no capitals, and a conversion of it changes nothing. It has no backslash, and is
that of the same name with slashes for backslashes, just if the name does not begin with a backslash; of a name that
does, the item begins with the one backslash that is left, and with a hyphen after it if a capital comes next. -/
theorem fileItem_settles (ascii : ∀ c ∈ s.toList, c.toNat < 128) :
    (∀ c ∈ (fileItem s).toList, Text.isUpper c = false) ∧ fileItem (fileItem s) = fileItem s ∧
    ('\\' ∉ (fileItem s).toList ↔ s.toList.head? ≠ some '\\') ∧
    (fileItem s = fileItem (withSlashes s) ↔ s.toList.head? ≠ some '\\') ∧
    ∀ rest, s.toList = '\\' :: rest → ∃ tail, '\\' ∉ tail ∧ (fileItem (withSlashes s)).toList = '/' :: tail ∧
      (fileItem s).toList = '\\' :: ((if startsUpper rest then ['-'] else []) ++ tail) := by
  exact ⟨fun b => isUpper_of_mem_fileItem ascii, fileItem_fileItem ascii, backslash_notMem_fileItem_iff ascii,
    fileItem_withSlashes_iff ascii, fun rest chars => fileItem_of_backslash chars ascii⟩

/-- Of two backslashes the second is a slash in the item. The first is not, and the capital after it gets a
hyphen. -/
theorem fileItem_settles_sales :
    '\\' ∈ (fileItem "\\Sales\\Item").toList ∧ fileItem "\\Sales\\Item" ≠ fileItem "/Sales/Item" ∧
      fileItem (fileItem "\\Sales\\Item") = fileItem "\\Sales\\Item" ∧
      fileItem "\\Sales\\Item" = "\\-sales/item" ∧ fileItem "/Sales/Item" = "/sales/item" := by
  obtain ⟨-, again, kept, same, -⟩ := fileItem_settles (s := "\\Sales\\Item") (by simp)
  have slashed : withSlashes "\\Sales\\Item" = "/Sales/Item" := by decide
  rw [slashed] at same
  exact ⟨not_not.mp fun none_ => kept.mp none_ (by decide), fun eq => same.mp eq (by decide), again, by decide,
    by decide⟩

end Scaffold.Naming
