import Scaffold.Text.Chars

/-!
Parts of a text: white space at its ends, prefixes, suffixes, pieces between separators, and replacement. A line
is blank when nothing is left of it without white space.
-/

namespace Scaffold.Text

/-- White space of all scripts and the four information separators. -/
def isBlank (c : Char) : Bool :=
  let n := c.toNat
  (9 ≤ n && n ≤ 13) || (28 ≤ n && n ≤ 32) || n == 0x85 || n == 0xA0 || n == 0x1680 ||
    (0x2000 ≤ n && n ≤ 0x200A) || n == 0x2028 || n == 0x2029 || n == 0x202F || n == 0x205F ||
    n == 0x3000

/-- Takes the characters that satisfy `p` off both ends. -/
def trimChars (p : Char → Bool) (cs : List Char) : List Char :=
  ((cs.dropWhile p).reverse.dropWhile p).reverse

/-- Takes the white space off both ends. -/
def strip (s : String) : String := ofChars (trimChars isBlank (chars s))

theorem strip_eq (s : String) : strip s = .ofList (trimChars isBlank s.toList) := by simp [strip]

/-- Takes every leading and trailing `c` off. -/
def stripChar (c : Char) (s : String) : String := .ofList (trimChars (· == c) s.toList)

/-- Holds white space only. -/
def isBlankLine (s : String) : Bool := (chars s).all isBlank

theorem trimChars_eq_nil {p : Char → Bool} {cs : List Char} (h : cs.all p = true) :
    trimChars p cs = [] := by
  have : cs.dropWhile p = [] := by
    induction cs with
    | nil => rfl
    | cons c cs ih =>
      simp only [List.all_cons, Bool.and_eq_true] at h
      simp [h.1, ih h.2]
  simp [trimChars, this]

theorem strip_of_isBlankLine {s : String} (h : isBlankLine s = true) : strip s = "" := by
  rw [isBlankLine, chars_eq] at h
  simp [strip, trimChars_eq_nil h]

/-- What follows `p` in a text that begins with it. -/
def dropPrefix? : (p cs : List Char) → Option (List Char)
  | [], cs => some cs
  | _, [] => none
  | a :: p, c :: cs => if a == c then dropPrefix? p cs else none

/-- What stands before `p` in a text that ends with it. -/
def dropSuffix? (p cs : List Char) : Option (List Char) :=
  (dropPrefix? p.reverse cs.reverse).map List.reverse

theorem dropPrefix?_eq_some {p cs rest : List Char} :
    dropPrefix? p cs = some rest ↔ cs = p ++ rest := by
  induction p generalizing cs with
  | nil => simp [dropPrefix?, eq_comm]
  | cons a p ih =>
    cases cs with
    | nil => simp [dropPrefix?]
    | cons c cs =>
      by_cases h : a = c
      · simp [dropPrefix?, h, ih]
      · have : ¬ c = a := fun e => h e.symm
        simp [dropPrefix?, h, this]

theorem dropSuffix?_eq_some {p cs rest : List Char} :
    dropSuffix? p cs = some rest ↔ cs = rest ++ p := by
  rw [dropSuffix?, Option.map_eq_some_iff]
  constructor
  · rintro ⟨rest, eq, rfl⟩
    rw [← List.reverse_reverse cs, dropPrefix?_eq_some.mp eq, List.reverse_append, List.reverse_reverse]
  · rintro rfl
    exact ⟨rest.reverse, dropPrefix?_eq_some.mpr (by simp), by simp⟩

def startsWith (p s : String) : Bool := (dropPrefix? p.toList s.toList).isSome

def endsWith (p s : String) : Bool := (dropSuffix? p.toList s.toList).isSome

/-- Does `p` occur in the text? -/
def containsChars (p : List Char) : List Char → Bool
  | [] => p.isEmpty
  | c :: cs => (dropPrefix? p (c :: cs)).isSome || containsChars p cs

def contains (p s : String) : Bool := containsChars (chars p) (chars s)

theorem containsChars_iff {p cs : List Char} : containsChars p cs = true ↔ p <:+: cs := by
  induction cs with
  | nil => simp [containsChars]
  | cons c cs ih =>
    rw [containsChars, Bool.or_eq_true, ih, List.infix_cons_iff, Option.isSome_iff_exists]
    simp only [dropPrefix?_eq_some, List.prefix_iff_exists_eq_append]

theorem contains_iff {p s : String} : contains p s = true ↔ p.toList <:+: s.toList := by
  rw [contains, chars_eq, chars_eq, containsChars_iff]

/-- Replaces each occurrence of a non-empty `old`, from the left; `skip` characters are still part of
the last one. -/
def replaceFrom (old new : List Char) : (skip : Nat) → List Char → List Char
  | _, [] => []
  | skip + 1, _ :: cs => replaceFrom old new skip cs
  | 0, c :: cs =>
    if (dropPrefix? old (c :: cs)).isSome then new ++ replaceFrom old new (old.length - 1) cs
    else c :: replaceFrom old new 0 cs

/-- Replaces each occurrence of `old`; an empty `old` stands at both ends and between all
characters. -/
def replace (old new s : String) : String :=
  .ofList <|
    if old.isEmpty then new.toList ++ s.toList.flatMap fun c => c :: new.toList
    else replaceFrom old.toList new.toList 0 s.toList

/-- The pieces between the characters that satisfy `p`. -/
def splitWhere (p : Char → Bool) (s : String) : List String :=
  ((chars s).splitOnP p).map String.ofList

/-- The pieces between the characters `c`. -/
def splitOn (c : Char) (s : String) : List String := splitWhere (· == c) s

theorem splitOn_eq (c : Char) (s : String) :
    splitOn c s = (s.toList.splitOnP (· == c)).map String.ofList := by
  rw [splitOn, splitWhere, chars_eq]

end Scaffold.Text
