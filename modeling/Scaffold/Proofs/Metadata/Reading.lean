import Scaffold.Metadata.Provider
import Scaffold.Proofs.Outcome

/-!
What is known of a document that was read: every type has a name with something in it, as a value that
says something is written with some character.
-/

namespace Scaffold

theorem Decimal.Layout.write_ne_empty (layout : Layout) (digits : Nat) (power : Int) :
    layout.write digits power ≠ "" := by
  unfold write
  simp only
  split
  · split
    · simp
    · split <;> simp
  · split
    · rename_i none_
      exact absurd none_ Nat.toDigits_ne_nil
    · simp
    · simp

theorem Binary64.text_ne_empty (x : Binary64) : x.text ≠ "" := by
  cases x with
  | finite negative m e =>
    unfold text
    simp only
    split
    · simp
    · split
      · decide
      · exact Decimal.Layout.write_ne_empty _ _ _
  | infinite negative => cases negative <;> decide
  | nan => decide

/-- A value that says something has a text. -/
theorem Json.text_ne_empty {v : Json} (h : v.isSet = true) : v.text ≠ "" := by
  cases v with
  | null => cases h
  | bool b => cases b <;> decide
  | int n =>
    change n.repr ≠ ""
    cases n <;> simp [Int.repr, Nat.repr]
  | real x => exact x.text_ne_empty
  | str s => simpa [isSet, text] using h
  | arr items => simp [text, literal]
  | obj fields => simp [text, literal]

namespace Metadata

/-- What was read from a list was read from one of its entries. -/
theorem exists_of_mem_readAll {ε α : Type} {read : Json → Except ε α} {entries : List Json}
    {found : List α} (h : readAll read entries = .ok found) {a : α} (mem : a ∈ found) :
    ∃ entry ∈ entries, read entry = .ok a := by
  induction entries generalizing found with
  | nil =>
    obtain rfl : [] = found := Except.ok.inj h
    cases mem
  | cons entry rest ih =>
    obtain ⟨b, first, h⟩ := exists_of_bind_eq_ok h
    obtain ⟨more, others, h⟩ := exists_of_bind_eq_ok h
    obtain rfl : b :: more = found := Except.ok.inj h
    rcases List.mem_cons.mp mem with rfl | mem
    · exact ⟨entry, List.mem_cons_self, first⟩
    · obtain ⟨entry', memRest, eq⟩ := ih others mem
      exact ⟨entry', List.mem_cons_of_mem _ memRest, eq⟩

theorem RawType.name_ne_empty {entry : Json} {t : RawType} (h : RawType.ofJson entry = .ok t) :
    t.name ≠ "" := by
  obtain ⟨fields, _, h⟩ := exists_of_bind_eq_ok h
  simp only at h
  split at h
  · cases h
  · rename_i named
    split at h
    · cases h
    · obtain ⟨items, _, h⟩ := exists_of_bind_eq_ok h
      obtain ⟨members, _, h⟩ := exists_of_bind_eq_ok h
      obtain ⟨items', _, h⟩ := exists_of_bind_eq_ok h
      obtain ⟨properties, _, h⟩ := exists_of_bind_eq_ok h
      obtain rfl := Except.ok.inj h
      exact Json.text_ne_empty (by simpa using named)

/-- The types of a document have names. -/
theorem Provider.name_ne_empty {document : Json} {p : Provider} (h : Provider.ofJson document = .ok p) :
    ∀ t ∈ p.types, t.name ≠ "" := by
  intro t mem
  have read : typesOf document = .ok p.types := by
    unfold Provider.ofJson at h
    cases types : typesOf document with
    | error e =>
      rw [types] at h
      cases h
    | ok found =>
      rw [types] at h
      obtain rfl := Except.ok.inj h
      rfl
  unfold typesOf at read
  split at read
  · obtain ⟨entry, _, eq⟩ := exists_of_mem_readAll read mem
    exact RawType.name_ne_empty eq
  · cases read

end Metadata

end Scaffold
