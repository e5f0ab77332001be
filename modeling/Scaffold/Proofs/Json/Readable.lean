import Scaffold.Json.Misfit
import Scaffold.Json.Parser
import Scaffold.Proofs.Action
import Scaffold.Proofs.Decimal.Digits
import Scaffold.Proofs.Json.Fields
import Scaffold.Proofs.Outcome

/-!
The values that texts hold: integers of not too many digits, reals in their one form, objects without repeated keys,
lists and objects that do not stand inside one another too deeply.
-/

namespace Scaffold.Json

open Decimal

/-- A value that can be read, with lists and objects inside one another up to a depth. -/
inductive Readable : (depth : Nat) → Json → Prop
  | null {depth : Nat} : Readable depth .null
  | bool {depth : Nat} (b : Bool) : Readable depth (.bool b)
  | int {depth : Nat} {n : Int} (short : digitCount n.natAbs ≤ digitLimit) : Readable depth (.int n)
  | real {depth : Nat} {x : Binary64} (canonical : x.Canonical) : Readable depth (.real x)
  | str {depth : Nat} (s : String) : Readable depth (.str s)
  | arr {depth : Nat} {items : List Json} (each : ∀ item ∈ items, Readable depth item) :
    Readable (depth + 1) (.arr items)
  | obj {depth : Nat} {fields : List (String × Json)} (distinct : (fields.map (·.1)).Nodup)
    (each : ∀ field ∈ fields, Readable depth field.2) : Readable (depth + 1) (.obj fields)

/-- The whole part of a number. -/
def wholePart (cs : List Char) : List Char :=
  match cs with
  | '0' :: _ => ['0']
  | _ => cs.takeWhile Char.isDigit

theorem isDigit_of_mem_wholePart {c : Char} {cs : List Char} (mem : c ∈ wholePart cs) : c.isDigit = true := by
  unfold wholePart at mem
  split at mem
  · rw [List.mem_singleton.mp mem]
    rfl
  · exact List.all_eq_true.mp List.all_takeWhile c mem

theorem unsignedNumber_eq (start : Nat) (negative : Bool) (cs : List Char) :
    unsignedNumber start negative cs =
      if (wholePart cs).isEmpty then .error (.complaint .value start)
      else
        let (fraction, afterFraction) := takeFraction (cs.drop (wholePart cs).length)
        let (exponent, after) := takeExponent afterFraction
        if fraction.isEmpty && exponent.isNone then
          if digitLimit < (wholePart cs).length then .error (.number (.tooManyDigits (wholePart cs).length))
          else
            let n : Int := naturalOf (wholePart cs)
            .ok (.int (if negative then -n else n), after)
        else
          .ok (.real (.ofDecimal negative (naturalOf (wholePart cs ++ fraction))
            (exponent.getD 0 - fraction.length)), after) := rfl

variable {depth fuel start : Nat} {v : Json} {rest cs : List Char} {l : List Json} {negative : Bool}

theorem readable_unsignedNumber (h : unsignedNumber start negative cs = .ok (v, rest)) : Readable depth v := by
  rw [unsignedNumber_eq] at h
  simp only at h
  split at h
  · cases h
  · rename_i some_
    split at h
    · split at h
      · cases h
      · rename_i short
        obtain ⟨rfl, -⟩ := Prod.mk.inj (Except.ok.inj h)
        refine .int ?_
        have natural : (if negative = true then -(naturalOf (wholePart cs) : Int)
            else naturalOf (wholePart cs)).natAbs = naturalOf (wholePart cs) := by
          split <;> simp
        have length : 0 < (wholePart cs).length := List.length_pos_of_ne_nil (by simpa using some_)
        rw [natural]
        refine le_trans ?_ (not_lt.mp short)
        exact (Nat.length_toDigits_le_iff (by decide) length).mpr (naturalOf_lt fun c => isDigit_of_mem_wholePart)
    · obtain ⟨rfl, -⟩ := Prod.mk.inj (Except.ok.inj h)
      exact .real (Binary64.canonical_ofDecimal _ _ _)

theorem readable_scalar (h : scalar cs = .ok (v, rest)) : Readable depth v := by
  simp only [scalar] at h
  split at h
  · rename_i found word
    obtain rfl := Except.ok.inj h
    obtain ⟨⟨word, value⟩, mem, found⟩ := List.exists_of_findSome?_eq_some word
    obtain ⟨after, -, same⟩ := Option.map_eq_some_iff.mp found
    obtain ⟨rfl, -⟩ := Prod.mk.inj same
    simp only [List.mem_cons, Prod.mk.injEq, List.not_mem_nil, or_false] at mem
    rcases mem with ⟨-, rfl⟩ | ⟨-, rfl⟩ | ⟨-, rfl⟩ | ⟨-, rfl⟩ | ⟨-, rfl⟩ | ⟨-, rfl⟩
    · exact .null
    · exact .bool true
    · exact .bool false
    · exact .real trivial
    · exact .real trivial
    · exact .real trivial
  · split at h
    · exact readable_unsignedNumber h
    · exact readable_unsignedNumber h

/-- Fields that can be read one after the other. -/
def ReadableFields (depth : Nat) (fields : List (String × Json)) : Prop :=
  (fields.map (·.1)).Nodup ∧ ∀ field ∈ fields, Readable depth field.2

theorem ReadableFields.put {fields : List (String × Json)} (h : ReadableFields depth fields) (key : String)
    (value : Readable depth v) : ReadableFields depth (Fields.put fields key v) := by
  refine ⟨Fields.nodup_put h.1 key v, fun field mem => ?_⟩
  rcases Fields.mem_put mem with known | rfl
  · exact h.2 field known
  · exact value

variable {n m : Nat}

theorem Readable.mono (le : n ≤ m) (h : Readable n v) : Readable m v := by
  induction h generalizing m with
  | null => exact .null
  | bool b => exact .bool b
  | int short => exact .int short
  | real canonical => exact .real canonical
  | str s => exact .str s
  | arr each ih =>
    obtain ⟨m, rfl⟩ := Nat.exists_eq_add_one_of_ne_zero (by omega : m ≠ 0)
    exact .arr fun item mem => ih item mem (by omega)
  | obj distinct each ih =>
    obtain ⟨m, rfl⟩ := Nat.exists_eq_add_one_of_ne_zero (by omega : m ≠ 0)
    exact .obj distinct fun field mem => ih field mem (by omega)

theorem Readable.nodup {fields : List (String × Json)} (h : Readable n (.obj fields)) : (fields.map (·.1)).Nodup := by
  cases h with
  | obj distinct _ => exact distinct

theorem Readable.fields {fields : List (String × Json)} (h : Readable (n + 1) (.obj fields)) :
    ReadableFields n fields := by
  cases h with
  | obj distinct each => exact ⟨distinct, each⟩

theorem ReadableFields.merge {old new : List (String × Json)} (h : ReadableFields n old)
    (h' : ReadableFields n new) : ReadableFields n (Fields.merge old new) := by
  obtain ⟨-, each⟩ := h'
  induction new generalizing old with
  | nil => exact h
  | cons field rest ih =>
    obtain ⟨first, others⟩ := List.forall_mem_cons.mp each
    exact ih (h.put field.1 first) others

theorem ReadableFields.filter {fields : List (String × Json)} (h : ReadableFields n fields)
    (p : String × Json → Bool) : ReadableFields n (fields.filter p) :=
  ⟨h.1.sublist ((List.filter_sublist).map _), fun field mem => h.2 field (List.mem_of_mem_filter mem)⟩

theorem ReadableFields.get? {fields : List (String × Json)} (h : ReadableFields n fields) {key : String}
    (found : Fields.get? fields key = some v) : Readable n v :=
  h.2 _ (Fields.mem_of_get? found)

theorem ReadableFields.getD {fields : List (String × Json)} (h : ReadableFields n fields) (key : String)
    (other : Readable n v) : Readable n ((Fields.get? fields key).getD v) := by
  cases found : Fields.get? fields key with
  | none => exact other
  | some value => exact h.get? found

/-- The items of a value that can be read make a list that can be read. -/
theorem readable_items (h : Readable (n + 1) v) (listed : v.items? = .ok l) : Readable (n + 1) (.arr l) := by
  cases v with
  | arr items =>
    obtain rfl := Except.ok.inj listed
    exact h
  | str s =>
    obtain rfl := Except.ok.inj listed
    refine .arr fun item mem => ?_
    obtain ⟨c, -, rfl⟩ := List.mem_map.mp mem
    exact .str _
  | obj fields =>
    obtain rfl := Except.ok.inj listed
    refine .arr fun item mem => ?_
    obtain ⟨field, -, rfl⟩ := List.mem_map.mp mem
    exact .str _
  | _ => cases listed

/-- What a reader gives if it succeeds. -/
def Reads {α : Type} (read : Except Fault (α × List Char)) (P : α → Prop) : Prop :=
  ∀ a rest, read = .ok (a, rest) → P a

/-- With this fuel, what is read can be read. -/
structure ReadsReadable (fuel : Nat) : Prop where
  value : ∀ depth cs, Reads (value fuel depth cs) (Readable depth)
  items : ∀ depth cs, Reads (items fuel depth cs) fun l => ∀ item ∈ l, Readable depth item
  fields : ∀ depth before cs, ReadableFields depth before → Reads (fields fuel depth before cs) (ReadableFields depth)

theorem ReadsReadable.value_succ (ih : ReadsReadable fuel) (depth : Nat) (cs : List Char) :
    Reads (Json.value (fuel + 1) depth cs) (Readable depth) := by
  intro v rest h
  unfold Json.value at h
  split at h
  · obtain ⟨⟨s, after⟩, -, same⟩ := exists_of_bind_eq_ok h
    obtain ⟨rfl, -⟩ := Prod.mk.inj (Except.ok.inj same)
    exact .str s
  · cases h
  · cases h
  · split at h
    · obtain ⟨rfl, -⟩ := Prod.mk.inj (Except.ok.inj h)
      exact .arr (List.forall_mem_nil _)
    · obtain ⟨⟨items, after⟩, read, same⟩ := exists_of_bind_eq_ok h
      obtain ⟨rfl, -⟩ := Prod.mk.inj (Except.ok.inj same)
      exact .arr (ih.items _ _ items after read)
  · split at h
    · obtain ⟨rfl, -⟩ := Prod.mk.inj (Except.ok.inj h)
      exact .obj List.nodup_nil (List.forall_mem_nil _)
    · obtain ⟨⟨fields, after⟩, read, same⟩ := exists_of_bind_eq_ok h
      obtain ⟨rfl, -⟩ := Prod.mk.inj (Except.ok.inj same)
      have readable := ih.fields _ [] _ ⟨List.nodup_nil, List.forall_mem_nil _⟩ fields after read
      exact .obj readable.1 readable.2
  · exact readable_scalar h

theorem ReadsReadable.items_succ (ih : ReadsReadable fuel) (depth : Nat) (cs : List Char) :
    Reads (Json.items (fuel + 1) depth cs) fun l => ∀ item ∈ l, Readable depth item := by
  intro l rest h
  rw [items.eq_2] at h
  obtain ⟨⟨item, after⟩, read, h⟩ := exists_of_bind_eq_ok h
  have first := ih.value _ _ item after read
  simp only at h
  split at h
  · obtain ⟨rfl, -⟩ := Prod.mk.inj (Except.ok.inj h)
    exact List.forall_mem_singleton.mpr first
  · obtain ⟨⟨more, afterMore⟩, readMore, same⟩ := exists_of_bind_eq_ok h
    obtain ⟨rfl, -⟩ := Prod.mk.inj (Except.ok.inj same)
    exact List.forall_mem_cons.mpr ⟨first, ih.items _ _ more afterMore readMore⟩
  · cases h

theorem ReadsReadable.fields_succ (ih : ReadsReadable fuel) (depth : Nat) (before : List (String × Json))
    (cs : List Char) (known : ReadableFields depth before) :
    Reads (Json.fields (fuel + 1) depth before cs) (ReadableFields depth) := by
  intro l rest h
  unfold Json.fields at h
  split at h
  · obtain ⟨⟨key, after⟩, -, h⟩ := exists_of_bind_eq_ok h
    simp only at h
    split at h
    · obtain ⟨⟨item, afterItem⟩, read, h⟩ := exists_of_bind_eq_ok h
      have grown := known.put key (ih.value _ _ item afterItem read)
      simp only at h
      split at h
      · obtain ⟨rfl, -⟩ := Prod.mk.inj (Except.ok.inj h)
        exact grown
      · exact ih.fields _ _ _ grown l rest h
      · cases h
    · cases h
  · cases h

/-- Whatever the fuel, what is read can be read. -/
theorem readsReadable (fuel : Nat) : ReadsReadable fuel := by
  induction fuel with
  | zero =>
    refine ⟨fun depth cs v rest h => ?_, fun depth cs l rest h => ?_, fun depth before cs known l rest h => ?_⟩
    · cases h
    · cases h
    · cases h
  | succ fuel ih => exact ⟨ih.value_succ, ih.items_succ, ih.fields_succ⟩

/-- What is read from a text can be read. -/
theorem readable_of_parse {text : String} (h : parse depth text = .ok v) : Readable depth v := by
  rw [parse, mapError_eq_ok] at h
  unfold document at h
  split at h
  · cases h
  · obtain ⟨⟨read, after⟩, first, h⟩ := exists_of_bind_eq_ok h
    simp only at h
    split at h
    · obtain rfl := Except.ok.inj h
      exact (readsReadable _).value _ _ read after first
    · cases h

end Scaffold.Json
