/-!
The characters of a text. A text in ASCII, in which each byte is a character of its own, is read and made byte by
byte; every other text as it is.
-/

namespace Scaffold.Text

/-- The bytes of a text, in a list. -/
def bytesOf (s : String) : List UInt8 := s.toByteArray.data.toList

/-- Is each byte a character of its own? -/
def isAscii (bytes : List UInt8) : Bool := bytes.all (· < 0x80)

/-- The characters that such bytes are. -/
def asciiChars (bytes : List UInt8) : List Char := bytes.map fun b => Char.ofNat b.toNat

/-- The characters of a text; one in ASCII is read byte by byte. -/
def chars (s : String) : List Char :=
  if isAscii (bytesOf s) then asciiChars (bytesOf s) else s.toList

theorem bytesOf_ofList (cs : List Char) : bytesOf (.ofList cs) = cs.flatMap String.utf8EncodeChar := by
  simp [bytesOf, List.utf8Encode]

theorem not_lt_of_high {n : Nat} (low : 0x80 ≤ n) (high : n < 0x100) : ¬ UInt8.ofNat n < 0x80 := by
  have same : (UInt8.ofNat n).toNat = n := by
    simp only [UInt8.toNat_ofNat']
    omega
  rw [UInt8.lt_iff_toNat_lt, same]
  exact Nat.not_lt.mpr low

/-- A character whose bytes are in ASCII has one byte, its own number. -/
theorem utf8EncodeChar_of_isAscii {c : Char} (h : isAscii (String.utf8EncodeChar c) = true) :
    String.utf8EncodeChar c = [UInt8.ofNat c.toNat] ∧ c.toNat < 0x80 := by
  unfold String.utf8EncodeChar at h ⊢
  by_cases low : c.val.toNat ≤ 127
  · exact ⟨if_pos low, Nat.lt_succ_of_le low⟩
  · exfalso
    have first {n : Nat} {rest : List UInt8} (high : 0x80 ≤ n) (short : n < 0x100) :
        isAscii (UInt8.ofNat n :: rest) ≠ true := by
      simp [isAscii, not_lt_of_high high short]
    simp only [low, if_false] at h
    split at h
    · exact first (by omega) (by omega) h
    · split at h
      · exact first (by omega) (by omega) h
      · exact first (by omega) (by omega) h

theorem asciiChars_flatMap {cs : List Char} (h : isAscii (cs.flatMap String.utf8EncodeChar) = true) :
    asciiChars (cs.flatMap String.utf8EncodeChar) = cs := by
  induction cs with
  | nil => rfl
  | cons c rest ih =>
    rw [List.flatMap_cons, isAscii, List.all_append, Bool.and_eq_true] at h
    obtain ⟨one, low⟩ := utf8EncodeChar_of_isAscii h.1
    have same : Char.ofNat (UInt8.ofNat c.toNat).toNat = c := by
      have size : c.toNat % 256 = c.toNat := Nat.mod_eq_of_lt (by omega)
      simp [size]
    have later := ih h.2
    rw [List.flatMap_cons, one]
    simp only [asciiChars, List.singleton_append, List.map_cons, same] at later ⊢
    rw [later]

theorem flatMap_asciiChars {bytes : List UInt8} (h : isAscii bytes = true) :
    (asciiChars bytes).flatMap String.utf8EncodeChar = bytes := by
  induction bytes with
  | nil => rfl
  | cons b rest ih =>
    rw [isAscii, List.all_cons, Bool.and_eq_true] at h
    have low : b.toNat < 0x80 := by simpa [UInt8.lt_iff_toNat_lt] using h.1
    have later := ih h.2
    have one : String.utf8EncodeChar (Char.ofNat b.toNat) = [b] := by
      have same : (Char.ofNat b.toNat).val.toNat = b.toNat := by
        have valid : b.toNat.isValidChar := .inl (by omega)
        rw [Char.ofNat, dif_pos valid]
        rfl
      unfold String.utf8EncodeChar
      simp only [same]
      rw [if_pos (by omega), UInt8.ofNat_toNat]
    simp only [asciiChars, List.map_cons, List.flatMap_cons, one] at later ⊢
    rw [later]
    rfl

@[simp] theorem chars_eq (s : String) : chars s = s.toList := by
  unfold chars
  split
  · rename_i ascii
    obtain ⟨cs, rfl⟩ : ∃ cs, s = .ofList cs := ⟨s.toList, String.ofList_toList.symm⟩
    rw [bytesOf_ofList] at ascii ⊢
    rw [asciiChars_flatMap ascii, String.toList_ofList]
  · rfl

theorem flatMap_of_ascii {cs : List Char} (ascii : cs.all (·.toNat < 0x80) = true) :
    cs.flatMap String.utf8EncodeChar = cs.map fun c => UInt8.ofNat c.toNat := by
  induction cs with
  | nil => rfl
  | cons c rest ih =>
    obtain ⟨low, later⟩ := by simpa only [List.all_cons, Bool.and_eq_true, decide_eq_true_eq] using ascii
    have one : String.utf8EncodeChar c = [UInt8.ofNat c.toNat] := if_pos (Nat.le_of_lt_succ low)
    rw [List.flatMap_cons, one, ih later]
    rfl

theorem toByteArray_of_ascii {cs : List Char} (ascii : cs.all (·.toNat < 0x80) = true) :
    (String.ofList cs).toByteArray = ⟨⟨cs.map fun c => UInt8.ofNat c.toNat⟩⟩ := by
  refine ByteArray.ext (Array.toList_inj.mp ?_)
  rw [← flatMap_of_ascii ascii, ← bytesOf_ofList]
  rfl

/-- The text with the characters; one in ASCII is made byte by byte. -/
def ofChars (cs : List Char) : String :=
  if ascii : cs.all (·.toNat < 0x80) then
    .ofByteArray ⟨⟨cs.map fun c => UInt8.ofNat c.toNat⟩⟩ (toByteArray_of_ascii ascii ▸ (String.ofList cs).isValidUTF8)
  else .ofList cs

@[simp] theorem ofChars_eq (cs : List Char) : ofChars cs = .ofList cs := by
  unfold ofChars
  split
  · rename_i ascii
    exact String.toByteArray_inj.mp (toByteArray_of_ascii ascii).symm
  · rfl

end Scaffold.Text
