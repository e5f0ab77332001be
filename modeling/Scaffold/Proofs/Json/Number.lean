import Scaffold.Json.Printer
import Scaffold.Proofs.Decimal.Shortest
import Scaffold.Proofs.Json.Readable

/-!
Numbers in a file. What is written for an integer or a real is read back as that number, if what follows does not
go on with it.
-/

namespace Scaffold.Json

open Decimal

/-- Nothing that goes on with a number. -/
def Stops (rest : List Char) : Prop :=
  ∀ c ∈ rest.head?, c.isDigit = false ∧ c ≠ '.' ∧ c ≠ 'e' ∧ c ≠ 'E'

variable {digits rest fraction tail after whole : List Char} {exponent : Option Int} {n d : Nat} {c : Char}

theorem takeWhile_digits (all : ∀ c ∈ digits, c.isDigit = true) (stops : ∀ c ∈ rest.head?, c.isDigit = false) :
    (digits ++ rest).takeWhile Char.isDigit = digits ∧ (digits ++ rest).dropWhile Char.isDigit = rest := by
  rw [List.takeWhile_append_of_pos all, List.dropWhile_append_of_pos all]
  cases rest with
  | nil => simp
  | cons c rest => simp [stops c rfl]

theorem takeFraction_digits (some_ : fraction ≠ []) (all : ∀ c ∈ fraction, c.isDigit = true)
    (stops : ∀ c ∈ rest.head?, c.isDigit = false) : takeFraction ('.' :: (fraction ++ rest)) = (fraction, rest) := by
  obtain ⟨taken, dropped⟩ := takeWhile_digits all stops
  simp [takeFraction, taken, dropped, some_]

theorem takeFraction_none (stops : ∀ c ∈ rest.head?, c ≠ '.') : takeFraction rest = ([], rest) := by
  cases rest with
  | nil => rfl
  | cons c rest =>
    unfold takeFraction
    split
    · rename_i same
      exact absurd (List.cons.inj same).1 (stops c rfl)
    · rfl

theorem takeExponent_none (stops : ∀ c ∈ rest.head?, c ≠ 'e' ∧ c ≠ 'E') : takeExponent rest = (none, rest) := by
  cases rest with
  | nil => rfl
  | cons c rest =>
    obtain ⟨small, large⟩ := stops c rfl
    simp [takeExponent, small, large]

/-- The digits of an exponent: at least two. -/
def exponentDigits (e : Int) : List Char := (if e.natAbs < 10 then ['0'] else []) ++ Nat.toDigits 10 e.natAbs

theorem toList_exponentText (e : Int) :
    (exponentText e).toList = 'e' :: (if e < 0 then '-' else '+') :: exponentDigits e := by
  unfold exponentText exponentDigits
  rw [Nat.toString_eq_ofList_toDigits]
  split <;> split <;> simp

/-- An exponent is read as it is written. -/
theorem takeExponent_exponentText (e : Int) (stops : ∀ c ∈ rest.head?, c.isDigit = false) :
    takeExponent ((exponentText e).toList ++ rest) = (some e, rest) := by
  have all : ∀ c ∈ exponentDigits e, c.isDigit = true := by
    intro c mem
    rcases List.mem_append.mp mem with pad | digit
    · split at pad
      · obtain rfl := List.mem_singleton.mp pad
        rfl
      · cases pad
    · exact isDigit_of_mem_toDigits digit
  have some_ : exponentDigits e ≠ [] := List.append_ne_nil_of_right_ne_nil _ Nat.toDigits_ne_nil
  have value : naturalOf (exponentDigits e) = e.natAbs := by
    unfold exponentDigits
    rw [naturalOf_append, naturalOf_toDigits]
    split <;> simp [naturalOf]
  obtain ⟨taken, dropped⟩ := takeWhile_digits all stops
  rw [toList_exponentText]
  by_cases negative : e < 0
  · simp [takeExponent, takeSign, negative, taken, dropped, some_, value, -Nat.cast_natAbs]
    omega
  · simp [takeExponent, takeSign, negative, taken, dropped, some_, value, -Nat.cast_natAbs]
    omega

theorem wholePart_of_head (some_ : digits ≠ []) (all : ∀ c ∈ digits, c.isDigit = true)
    (head : ∀ c ∈ digits.head?, c ≠ '0') (stops : ∀ c ∈ tail.head?, c.isDigit = false) :
    wholePart (digits ++ tail) = digits := by
  cases digits with
  | nil => exact absurd rfl some_
  | cons c digits =>
    unfold wholePart
    split
    · rename_i same
      exact absurd (List.cons.inj same).1 (head c rfl)
    · exact (takeWhile_digits all stops).1

/-- A number with a fraction or an exponent is a real. -/
theorem unsignedNumber_real (start : Nat) (negative : Bool) (whole_ : wholePart (whole ++ tail) = whole)
    (some_ : whole ≠ []) (fraction_ : takeFraction tail = (fraction, after))
    (exponent_ : takeExponent after = (exponent, rest)) (real : fraction ≠ [] ∨ exponent.isSome = true) :
    unsignedNumber start negative (whole ++ tail) =
      .ok (.real (.ofDecimal negative (naturalOf (whole ++ fraction))
        (exponent.getD 0 - fraction.length)), rest) := by
  have notWhole : (fraction.isEmpty && exponent.isNone) = false := by
    rcases real with real | real
    · simp [real]
    · rw [← Option.not_isSome, real, Bool.not_true, Bool.and_false]
  simp [unsignedNumber_eq, whole_, some_, fraction_, exponent_, notWhole]

theorem wholePart_toDigits (some_ : 0 < n) (zeros : Nat) (stops : ∀ c ∈ tail.head?, c.isDigit = false) :
    wholePart (Nat.toDigits 10 n ++ List.replicate zeros '0' ++ tail) =
      Nat.toDigits 10 n ++ List.replicate zeros '0' := by
  refine wholePart_of_head (by simp [Nat.toDigits_ne_nil]) (fun c mem => ?_) ?_ stops
  · rcases List.mem_append.mp mem with digit | zero
    · exact isDigit_of_mem_toDigits digit
    · rw [List.eq_of_mem_replicate zero]
      rfl
  · rw [List.head?_append_of_ne_nil _ Nat.toDigits_ne_nil]
    exact head_toDigits_ne_zero some_

/-- Digits on their own are an integer. -/
theorem unsignedNumber_toDigits (start : Nat) (negative : Bool) (n : Nat) (stops : Stops rest)
    (short : (Nat.toDigits 10 n).length ≤ digitLimit) :
    unsignedNumber start negative (Nat.toDigits 10 n ++ rest) =
      .ok (.int (if negative then -n else n), rest) := by
  have whole : wholePart (Nat.toDigits 10 n ++ rest) = Nat.toDigits 10 n := by
    rcases Nat.eq_zero_or_pos n with rfl | some_
    · rfl
    · simpa using wholePart_toDigits some_ 0 fun c mem => (stops c mem).1
  have fraction := takeFraction_none fun c mem => (stops c mem).2.1
  have exponent := takeExponent_none fun c mem => (stops c mem).2.2
  simp [unsignedNumber_eq, whole, Nat.toDigits_ne_nil, fraction, exponent, not_lt.mpr short]

/-- A number with a point. -/
theorem unsignedNumber_point (start : Nat) (negative : Bool)
    (whole_ : wholePart (whole ++ ('.' :: (fraction ++ rest))) = whole) (someWhole : whole ≠ [])
    (some_ : fraction ≠ []) (all : ∀ c ∈ fraction, c.isDigit = true) (stops : Stops rest) :
    unsignedNumber start negative (whole ++ ('.' :: (fraction ++ rest))) =
      .ok (.real (.ofDecimal negative (naturalOf (whole ++ fraction)) (-(fraction.length : Int))), rest) := by
  have fraction_ := takeFraction_digits some_ all fun c mem => (stops c mem).1
  have exponent_ := takeExponent_none fun c mem => (stops c mem).2.2
  rw [unsignedNumber_real start negative whole_ someWhole fraction_ exponent_ (.inl some_), Option.getD_none,
    zero_sub]

/-- One digit, more after a point if there are more, and an exponent. -/
theorem unsignedNumber_exponent (start : Nat) (negative : Bool) (e : Int) (first : c.isDigit = true)
    (notZero : c ≠ '0') (all : ∀ c ∈ fraction, c.isDigit = true) (stops : Stops rest) :
    unsignedNumber start negative
        (c :: ((if fraction = [] then [] else '.' :: fraction) ++ ((exponentText e).toList ++ rest))) =
      .ok (.real (.ofDecimal negative (naturalOf (c :: fraction)) (e - fraction.length)), rest) := by
  have exponent_ := takeExponent_exponentText e fun c mem => (stops c mem).1
  have head : ∀ c ∈ ((exponentText e).toList ++ rest).head?, c = 'e' := by
    rw [toList_exponentText]
    exact fun c mem => (Option.some.inj mem).symm
  have single (tail : List Char) (stops : ∀ c ∈ tail.head?, c.isDigit = false) :
      wholePart ([c] ++ tail) = [c] :=
    wholePart_of_head (by simp) (by simpa using first) (by simpa using notZero) stops
  by_cases none_ : fraction = []
  · subst none_
    rw [if_pos rfl, List.nil_append]
    have fraction_ := takeFraction_none fun c mem => show c ≠ '.' by
      rw [head c mem]
      decide
    have read := unsignedNumber_real start negative (single _ fun c mem => by rw [head c mem]; rfl)
      (List.cons_ne_nil c []) fraction_ exponent_ (.inr rfl)
    exact read
  · rw [if_neg none_, List.cons_append]
    have fraction_ := takeFraction_digits none_ all fun c mem => show c.isDigit = false by
      rw [head c mem]
      rfl
    have read := unsignedNumber_real start negative (single _ fun c mem => by rw [← Option.some.inj mem]; rfl)
      (List.cons_ne_nil c []) fraction_ exponent_ (.inr rfl)
    exact read

/-- The characters are read as a real that is written with the value `d · 10 ^ power`. -/
def ReadsAs (d : Nat) (power : Int) (cs : List Char) : Prop :=
  ∀ start negative rest, Stops rest → ∃ (number : Nat) (exponent : Int),
    unsignedNumber start negative (cs ++ rest) = .ok (.real (.ofDecimal negative number exponent), rest) ∧
      (number : ℚ) * 10 ^ exponent = d * 10 ^ power

theorem readsAs_point {power : Int} (whole_ : ∀ tail, wholePart (whole ++ '.' :: tail) = whole)
    (someWhole : whole ≠ []) (some_ : fraction ≠ []) (all : ∀ c ∈ fraction, c.isDigit = true)
    (value : (naturalOf (whole ++ fraction) : ℚ) * 10 ^ (-(fraction.length : Int)) = d * 10 ^ power) :
    ReadsAs d power (whole ++ '.' :: fraction) := by
  intro start negative rest stops
  refine ⟨_, _, ?_, value⟩
  rw [List.append_assoc, List.cons_append]
  exact unsignedNumber_point start negative (whole_ _) someWhole some_ all stops

theorem isDigit_toDigits (d : Nat) : ∀ c ∈ Nat.toDigits 10 d, c.isDigit = true :=
  fun _ mem => isDigit_of_mem_toDigits mem

theorem point_stops (tail : List Char) : ∀ c ∈ ('.' :: tail).head?, c.isDigit = false := by
  intro c mem
  rw [← Option.some.inj mem]
  rfl

/-- Zeros after the point and then the digits. -/
theorem readsAs_below (d k : Nat) :
    ReadsAs d (-((k : Int) + (Nat.toDigits 10 d).length))
      ('0' :: '.' :: (List.replicate k '0' ++ Nat.toDigits 10 d)) := by
  refine readsAs_point (fun _ => rfl) (List.cons_ne_nil '0' []) (by simp [Nat.toDigits_ne_nil]) ?_ ?_
  · rw [List.forall_mem_append]
    exact ⟨fun c mem => by rw [List.eq_of_mem_replicate mem]; rfl, isDigit_toDigits d⟩
  · have number : naturalOf (['0'] ++ (List.replicate k '0' ++ Nat.toDigits 10 d)) = d := by
      rw [← List.append_assoc, naturalOf_append, naturalOf_toDigits, naturalOf_append, naturalOf_zeros]
      simp [naturalOf]
    rw [number, List.length_append, List.length_replicate, Nat.cast_add]

/-- The digits and then zeros before the point. -/
theorem readsAs_above (some_ : 0 < d) (k : Nat) :
    ReadsAs d k (Nat.toDigits 10 d ++ List.replicate k '0' ++ ['.', '0']) := by
  refine readsAs_point (fun _ => wholePart_toDigits some_ k (point_stops _)) (by simp [Nat.toDigits_ne_nil])
    (List.cons_ne_nil '0' []) (by simp [Char.isDigit]) ?_
  have number : naturalOf (Nat.toDigits 10 d ++ List.replicate k '0' ++ ['0']) = d * 10 ^ k * 10 := by
    rw [naturalOf_append, naturalOf_append, naturalOf_toDigits, naturalOf_zeros]
    simp [naturalOf]
    ring
  rw [number, zpow_natCast]
  push_cast
  exact mul_inv_cancel_right₀ (by norm_num) _

/-- The point between the digits. -/
theorem readsAs_between (some_ : 0 < d) {k : Nat} (low : 0 < k) (high : k < (Nat.toDigits 10 d).length) :
    ReadsAs d (k - (Nat.toDigits 10 d).length) ((Nat.toDigits 10 d).take k ++ '.' :: (Nat.toDigits 10 d).drop k) := by
  have someWhole : (Nat.toDigits 10 d).take k ≠ [] := by
    simp [Nat.toDigits_ne_nil]
    omega
  refine readsAs_point (fun _ => ?_) someWhole ?_ ?_ ?_
  · refine wholePart_of_head someWhole (fun c mem => ?_) ?_ (point_stops _)
    · exact isDigit_toDigits d c (List.mem_of_mem_take mem)
    rw [List.head?_take, if_neg (by omega)]
    exact head_toDigits_ne_zero some_
  · rw [ne_eq, List.drop_eq_nil_iff]
    omega
  · exact fun c mem => isDigit_toDigits d c (List.mem_of_mem_drop mem)
  · rw [List.take_append_drop, naturalOf_toDigits, List.length_drop]
    congr 2
    omega

/-- The first digit, the others after a point, and an exponent. -/
theorem readsAs_exponent (some_ : 0 < d) (power : Int) (form : Nat.toDigits 10 d = c :: fraction) :
    ReadsAs d power (c :: ((if fraction = [] then [] else '.' :: fraction) ++
      (exponentText (((c :: fraction).length : Int) + power - 1)).toList)) := by
  intro start negative rest stops
  have all := isDigit_toDigits d
  have value := naturalOf_toDigits d
  rw [form] at all value
  have notZero : c ≠ '0' := head_toDigits_ne_zero some_ c (by rw [form]; rfl)
  have read := unsignedNumber_exponent start negative (((c :: fraction).length : Int) + power - 1)
    (all c List.mem_cons_self) notZero (fun x mem => all x (List.mem_cons_of_mem _ mem)) stops
  have exponent : ((c :: fraction).length : Int) + power - 1 - fraction.length = power := by
    rw [List.length_cons]
    omega
  rw [value, exponent] at read
  refine ⟨d, power, ?_, rfl⟩
  rw [List.cons_append, List.append_assoc]
  exact read

/-- However the digits of a positive number are laid out, they are read as that number. -/
theorem readsAs_write (layout : Layout) (some_ : 0 < d) (power : Int) :
    ReadsAs d power (layout.write d power).toList := by
  unfold Layout.write
  simp only
  split
  · split
    · have below := readsAs_below d (-((Nat.toDigits 10 d).length + power)).toNat
      rw [show -(((-(((Nat.toDigits 10 d).length : Int) + power)).toNat : Int) + (Nat.toDigits 10 d).length) = power by
        omega] at below
      simpa using below
    · split
      · have above := readsAs_above some_ ((Nat.toDigits 10 d).length + power - (Nat.toDigits 10 d).length : Int).toNat
        rw [Int.toNat_of_nonneg (by omega), add_sub_cancel_left] at above
        simpa using above
      · have between := readsAs_between some_ (k := ((Nat.toDigits 10 d).length + power).toNat) (by omega) (by omega)
        rw [Int.toNat_of_nonneg (by omega), add_sub_cancel_left] at between
        simpa using between
  · cases form : Nat.toDigits 10 d with
    | nil => exact absurd form Nat.toDigits_ne_nil
    | cons c fraction =>
      have read := readsAs_exponent some_ power form
      cases fraction with
      | nil => simpa using read
      | cons next more => simpa using read

theorem wholePart_ne_nil {start : Nat} {negative : Bool} {cs : List Char} {read : Json × List Char}
    (h : unsignedNumber start negative cs = .ok read) : wholePart cs ≠ [] := by
  intro none_
  rw [unsignedNumber_eq, none_] at h
  cases h

/-- A number begins with a digit. -/
theorem exists_digit {cs : List Char} (some_ : wholePart cs ≠ []) : ∃ c tail, cs = c :: tail ∧ c.isDigit = true := by
  cases cs with
  | nil => exact absurd rfl some_
  | cons c tail =>
    refine ⟨c, tail, rfl, ?_⟩
    by_contra other
    refine some_ ?_
    unfold wholePart
    split
    · rename_i same
      rw [(List.cons.inj same).1] at other
      exact absurd rfl other
    · simp [other]

/-- No word of letters begins with a digit, or has one as its second character. -/
theorem afterWord?_of_digit {word : String} {cs : List Char} (letters : word.toList.all fun c => !c.isDigit)
    (digit : ∃ c ∈ cs.take word.toList.length, c.isDigit = true) : afterWord? word cs = none := by
  refine if_neg fun begins => ?_
  obtain ⟨c, mem, digit⟩ := digit
  rw [← List.prefix_iff_eq_take.mp (List.isPrefixOf_iff_prefix.mp begins)] at mem
  have letter := List.all_eq_true.mp letters c mem
  rw [digit] at letter
  cases letter

/-- A number with its sign is none of the words. -/
theorem scalar_of_unsignedNumber {start : Nat} {negative : Bool} {cs : List Char} {read : Json × List Char}
    (h : unsignedNumber start negative cs = .ok read) :
    scalar ((if negative then ['-'] else []) ++ cs) = .ok read := by
  have some_ := wholePart_ne_nil h
  have anyStart (start : Nat) : unsignedNumber start negative cs = .ok read := by
    rw [unsignedNumber_eq, if_neg (by simpa using some_)] at h ⊢
    exact h
  obtain ⟨c, tail, rfl, digit⟩ := exists_digit some_
  have noWord (word : String) (letters : word.toList.all fun c => !c.isDigit) (long : 2 ≤ word.toList.length) :
      afterWord? word ((if negative then ['-'] else []) ++ c :: tail) = none := by
    refine afterWord?_of_digit letters ⟨c, ?_, digit⟩
    obtain ⟨k, same⟩ := Nat.exists_eq_add_of_le' long
    rw [same]
    cases negative <;> simp
  have notMinus : c ≠ '-' := by
    rintro rfl
    cases digit
  simp only [scalar, List.findSome?_cons, List.findSome?_nil, Option.map_none,
    noWord "null" (by decide) (by decide), noWord "true" (by decide) (by decide),
    noWord "false" (by decide) (by decide), noWord "NaN" (by decide) (by decide),
    noWord "Infinity" (by decide) (by decide), noWord "-Infinity" (by decide) (by decide)]
  cases negative with
  | false =>
    rw [if_neg Bool.false_ne_true, List.nil_append]
    split
    · rename_i same
      exact absurd (List.cons.inj same).1 notMinus
    · exact anyStart _
  | true => exact anyStart _

theorem toList_toString (n : Int) :
    (toString n).toList = (if decide (n < 0) then ['-'] else []) ++ Nat.toDigits 10 n.natAbs := by
  cases n with
  | ofNat n => simp [Int.toString_eq_repr, Int.repr, Nat.repr_eq_ofList_toDigits]
  | negSucc n => simp [Int.toString_eq_repr, Int.repr, Nat.repr_eq_ofList_toDigits]

/-- An integer is read back, unless it has too many digits. -/
theorem scalar_int {n : Int} (short : digitCount n.natAbs ≤ digitLimit) (stops : Stops rest) :
    scalar ((toString n).toList ++ rest) = .ok (.int n, rest) := by
  rw [toList_toString, List.append_assoc, scalar_of_unsignedNumber (unsignedNumber_toDigits 0 _ n.natAbs stops short)]
  congr 3
  cases n with
  | ofNat n => simp
  | negSucc n =>
    simp only [Int.negSucc_lt_zero, decide_true, if_true, Int.natAbs_negSucc]
    rfl

/-- A zero has one form but for its sign. -/
theorem eq_of_canonical_zero {negative : Bool} {e : Int} (h : (Binary64.finite negative 0 e).Canonical) :
    e = Binary64.minExponent := by
  obtain ⟨-, least, -, long⟩ := h
  refine le_antisymm (not_lt.mp fun above => ?_) least
  have := long above
  omega

theorem toList_realForm (negative : Bool) (m : Nat) (e : Int) :
    (realForm (.finite negative m e)).toList = (if negative then ['-'] else []) ++
      (if m = 0 then "0.0" else Layout.plain.write (shortest m e).1 (shortest m e).2).toList := by
  cases found : shortest m e with
  | mk digits power =>
    simp only [realForm, Binary64.text, found]
    cases negative <;> simp

/-- A real in its one form is read back. -/
theorem scalar_real {x : Binary64} (canonical : x.Canonical) (stops : Stops rest) :
    scalar ((realForm x).toList ++ rest) = .ok (.real x, rest) := by
  cases x with
  | nan => rfl
  | infinite negative => cases negative <;> rfl
  | finite negative m e =>
    rw [toList_realForm, List.append_assoc]
    by_cases zero : m = 0
    · subst zero
      have read : unsignedNumber 0 negative (['0'] ++ ('.' :: (['0'] ++ rest))) =
          .ok (.real (.ofDecimal negative 0 (-1)), rest) :=
        unsignedNumber_point 0 negative rfl (List.cons_ne_nil '0' []) (List.cons_ne_nil '0' [])
          (by simp [Char.isDigit]) stops
      rw [Binary64.ofDecimal_zero negative] at read
      rw [if_pos rfl, eq_of_canonical_zero canonical]
      exact scalar_of_unsignedNumber read
    · have some_ : 0 < m := Nat.pos_of_ne_zero zero
      have near := nearest_shortest canonical some_
      have digits : 0 < (shortest m e).1 := by
        refine Nat.pos_of_ne_zero fun none_ => ?_
        have := near.pos some_
        rw [none_] at this
        simp at this
      obtain ⟨number, exponent, read, value⟩ :=
        readsAs_write Layout.plain digits (shortest m e).2 0 negative rest stops
      rw [← value] at near
      rw [if_neg zero, scalar_of_unsignedNumber read, Binary64.ofDecimal_of_nearest canonical some_ near]

/-- The characters that numbers are written in. -/
def IsNumeral (c : Char) : Prop := c.isDigit = true ∨ c = '.' ∨ c = 'e' ∨ c = '+' ∨ c = '-'

theorem isNumeral_toDigits (n : Nat) : ∀ c ∈ Nat.toDigits 10 n, IsNumeral c :=
  fun _ mem => .inl (isDigit_of_mem_toDigits mem)

theorem isNumeral_zeros (k : Nat) : ∀ c ∈ List.replicate k '0', IsNumeral c :=
  fun _ mem => .inl (List.eq_of_mem_replicate mem ▸ rfl)

theorem isNumeral_exponentText (e : Int) : ∀ c ∈ (exponentText e).toList, IsNumeral c := by
  have sign : IsNumeral (if e < 0 then '-' else '+') := by
    split
    · exact .inr (.inr (.inr (.inr rfl)))
    · exact .inr (.inr (.inr (.inl rfl)))
  have pad : ∀ c ∈ (if e.natAbs < 10 then ['0'] else []), IsNumeral c := by
    split
    · exact List.forall_mem_singleton.mpr (.inl rfl)
    · exact List.forall_mem_nil _
  rw [toList_exponentText, List.forall_mem_cons, List.forall_mem_cons, exponentDigits, List.forall_mem_append]
  exact ⟨.inr (.inr (.inl rfl)), sign, pad, isNumeral_toDigits _⟩

theorem isNumeral_write (layout : Layout) (d : Nat) (power : Int) :
    ∀ c ∈ (layout.write d power).toList, IsNumeral c := by
  have digits := isNumeral_toDigits d
  have zero : IsNumeral '0' := .inl rfl
  have point : IsNumeral '.' := .inr (.inl rfl)
  unfold Layout.write
  simp only
  split
  · split
    · simp only [String.toList_append, String.toList_ofList, List.forall_mem_append]
      exact ⟨by simp [zero, point], isNumeral_zeros _, digits⟩
    · split
      · simp only [String.toList_append, String.toList_ofList, List.forall_mem_append]
        exact ⟨⟨digits, isNumeral_zeros _⟩, by simp [zero, point]⟩
      · simp only [String.toList_ofList, List.forall_mem_append, List.forall_mem_cons]
        exact ⟨fun c mem => digits c (List.mem_of_mem_take mem), point,
          fun c mem => digits c (List.mem_of_mem_drop mem)⟩
  · split
    · exact List.forall_mem_nil _
    · rename_i d' form
      rw [form] at digits
      simp only [String.toList_append, List.forall_mem_append]
      exact ⟨by simpa using digits, isNumeral_exponentText _⟩
    · rename_i d' rest _ form
      rw [form, List.forall_mem_cons] at digits
      simp only [String.toList_append, String.toList_ofList, List.forall_mem_append, List.forall_mem_cons]
      exact ⟨⟨digits.1, point, digits.2⟩, isNumeral_exponentText _⟩

theorem isNumeral_toString (n : Int) : ∀ c ∈ (toString n).toList, IsNumeral c := by
  have minus : IsNumeral '-' := .inr (.inr (.inr (.inr rfl)))
  rw [toList_toString, List.forall_mem_append]
  refine ⟨?_, isNumeral_toDigits _⟩
  split
  · exact List.forall_mem_singleton.mpr minus
  · exact List.forall_mem_nil _

end Scaffold.Json
