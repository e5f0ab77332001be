import Scaffold.Json.Parser
import Scaffold.Json.Printer

/-!
Texts in a file. A text in double quotes is read back, whatever characters it holds.
-/

namespace Scaffold.Json

variable {start fuel : Nat} {c : Char} {cs more rest : List Char}

theorem hexFour?_hexDigits : ∀ n < 32, hexFour? (Text.hexDigits 4 n) = some n := by decide

/-- A control character that has no escape of its own. -/
theorem unicodeEscape_control (control : c.toNat < 32) (more_ : more ≠ []) :
    unicodeEscape (Text.hexDigits 4 c.toNat ++ more) = .ok (c.toNat, more) := by
  have length : (Text.hexDigits 4 c.toNat).length = 4 := rfl
  have low : Text.isHighHalf c.toNat = false := by
    simp [Text.isHighHalf]
    omega
  have drop : (Text.hexDigits 4 c.toNat ++ more).drop 4 = more := List.drop_left' length
  have take : (Text.hexDigits 4 c.toNat ++ more).take 4 = Text.hexDigits 4 c.toNat := List.take_left' length
  simp only [unicodeEscape, drop, take, hexFour?_hexDigits _ control, List.isEmpty_iff, more_, if_false]
  split
  · simp [low]
  · rfl

/-- What is read after a character. -/
def before (c : Char) (read : Except Fault (List Char × List Char)) : Except Fault (List Char × List Char) :=
  read.map fun (chars, rest) => (c :: chars, rest)

/-- An escape of two characters. -/
theorem stringBody_simpleEscape {e : Char} (escape : simpleEscape? e = some c) :
    stringBody start (fuel + 1) ('\\' :: e :: more) = before c (stringBody start fuel more) := by
  have notUnicode : e ≠ 'u' := by
    rintro rfl
    cases escape
  rw [stringBody.eq_def]
  simp only [show ('\\' == '"') = false from rfl, Bool.false_eq_true, if_false, beq_self_eq_true, if_true, escape]
  cases stringBody start fuel more <;> rfl

/-- One character of a text, written as it is or as an escape. -/
theorem stringBody_escapedChar (more_ : more ≠ []) :
    stringBody start (fuel + 1) (escapedChar c ++ more) = before c (stringBody start fuel more) := by
  unfold escapedChar
  iterate 7
    split
    · rename_i same
      obtain rfl := eq_of_beq same
      exact stringBody_simpleEscape rfl
  split
  · rename_i control
    rw [List.cons_append, List.cons_append, stringBody]
    have char : charOf c.toNat = c := by
      have low : Text.isHighHalf c.toNat = false ∧ Text.isLowHalf c.toNat = false := by
        simp [Text.isHighHalf, Text.isLowHalf]
        omega
      simp [charOf, low]
    simp only [show ('\\' == '"') = false from rfl, Bool.false_eq_true, if_false, beq_self_eq_true, if_true,
      unicodeEscape_control control more_]
    change (do
      let (chars, rest) ← stringBody start fuel more
      return (charOf c.toNat :: chars, rest)) = _
    rw [char]
    cases stringBody start fuel more <;> rfl
  · rename_i quote backslash _ _ _ _ _ control
    rw [List.singleton_append, stringBody.eq_def]
    simp only [quote, backslash, control, if_false]
    cases stringBody start fuel more <;> rfl

theorem stringBody_escaped (enough : cs.length < fuel) :
    stringBody start fuel (cs.flatMap escapedChar ++ '"' :: rest) = .ok (cs, rest) := by
  induction cs generalizing fuel with
  | nil =>
    obtain ⟨fuel, rfl⟩ := Nat.exists_eq_add_of_lt enough
    rfl
  | cons c cs ih =>
    obtain ⟨fuel, rfl⟩ := Nat.exists_eq_add_of_lt (Nat.zero_lt_of_lt enough)
    rw [Nat.zero_add] at enough ⊢
    rw [List.flatMap_cons, List.append_assoc, stringBody_escapedChar (by simp), ih (by simpa using enough)]
    rfl

theorem length_le_flatMap_escapedChar (cs : List Char) : cs.length ≤ (cs.flatMap escapedChar).length := by
  induction cs with
  | nil => exact Nat.le_refl _
  | cons c cs ih =>
    have one : 1 ≤ (escapedChar c).length := by
      unfold escapedChar
      repeat' split
      all_goals simp
    rw [List.flatMap_cons, List.length_append, List.length_cons]
    omega

/-- A text in quotes is read back. -/
theorem stringAfterQuote_escaped (s : String) (rest : List Char) :
    stringAfterQuote (s.toList.flatMap escapedChar ++ '"' :: rest) = .ok (s, rest) := by
  have := length_le_flatMap_escapedChar s.toList
  rw [stringAfterQuote, stringBody_escaped]
  · exact congrArg (fun text => Except.ok (text, rest)) String.ofList_toList
  · rw [List.length_append]
    omega

end Scaffold.Json
