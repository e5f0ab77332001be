import Scaffold.Json.Misfit

/-!
How a reading ends: with a value, with a report, or with a failure that no report covers. Of readings in sequence the
first that does not succeed decides, so when the whole succeeds and when it escapes is put together from when its steps
do. The entries of a list are read in turn.
-/

namespace Scaffold

@[simp] theorem ok_bind {ε α β : Type} (a : α) (f : α → Except ε β) : (.ok a >>= f : Except ε β) = f a := rfl

/-- When a reading succeeds, and when it fails without a report. -/
structure Ends {ε α : Type} (IsReport : ε → Prop) (r : Except ε α) (fine escapes : Prop) : Prop where
  read : (∃ a, r = .ok a) ↔ fine
  escaped : (∃ e, r = .error e ∧ ¬ IsReport e) ↔ escapes

namespace Ends

variable {ε δ α β : Type} {IsReport : ε → Prop} {fine escapes fine' escapes' : Prop}

theorem ok (a : α) : Ends IsReport (.ok a) True False :=
  ⟨iff_of_true ⟨a, rfl⟩ trivial, iff_of_false (fun ⟨_, h, _⟩ => nomatch h) id⟩

theorem escape {e : ε} (unreported : ¬ IsReport e) : Ends IsReport (.error e : Except ε α) False True :=
  ⟨iff_of_false (fun ⟨_, h⟩ => nomatch h) id, iff_of_true ⟨e, rfl, unreported⟩ trivial⟩

theorem report {e : ε} (isReport : IsReport e) : Ends IsReport (.error e : Except ε α) False False :=
  ⟨iff_of_false (fun ⟨_, h⟩ => nomatch h) id,
    iff_of_false (fun ⟨_, h, unreported⟩ => unreported (Except.error.inj h ▸ isReport)) id⟩

theorem congr {r : Except ε α} (h : Ends IsReport r fine escapes) (sameFine : fine ↔ fine')
    (sameEscapes : escapes ↔ escapes') : Ends IsReport r fine' escapes' :=
  ⟨h.read.trans sameFine, h.escaped.trans sameEscapes⟩

/-- Of two readings the second, which goes by what the first has read, counts where the first succeeds. -/
theorem andThen {x : Except ε α} {f : α → Except ε β} {fine' escapes' : α → Prop}
    (first : Ends IsReport x fine escapes) (second : ∀ a, x = .ok a → Ends IsReport (f a) (fine' a) (escapes' a)) :
    Ends IsReport (x >>= f) (∃ a, x = .ok a ∧ fine' a) (escapes ∨ ∃ a, x = .ok a ∧ escapes' a) := by
  cases x with
  | error e =>
    have none_ (P : α → Prop) : ¬ ∃ a, (.error e : Except ε α) = .ok a ∧ P a := fun ⟨_, h, _⟩ => nomatch h
    refine ⟨iff_of_false (fun ⟨_, h⟩ => nomatch h) (none_ fine'), ?_⟩
    rw [or_iff_left (none_ escapes'), ← first.escaped]
    exact exists_congr fun _ => and_congr_left' ⟨fun h => congrArg Except.error (Except.error.inj h),
      fun h => congrArg Except.error (Except.error.inj h)⟩
  | ok a =>
    have quiet : ¬ escapes := fun escaped => nomatch (first.escaped.mpr escaped).choose_spec.1
    have later := second a rfl
    have here (P : α → Prop) : (∃ b, (.ok a : Except ε α) = .ok b ∧ P b) ↔ P a :=
      ⟨fun ⟨_, h, holds⟩ => Except.ok.inj h ▸ holds, fun holds => ⟨a, rfl, holds⟩⟩
    exact ⟨later.read.trans (here fine').symm,
      later.escaped.trans ((or_iff_right quiet).trans (here escapes')).symm⟩

/-- Of two readings the second counts where the first succeeds. -/
theorem bind {x : Except ε α} {f : α → Except ε β} (first : Ends IsReport x fine escapes)
    (second : ∀ a, x = .ok a → Ends IsReport (f a) fine' escapes') :
    Ends IsReport (x >>= f) (fine ∧ fine') (escapes ∨ fine ∧ escapes') := by
  have here (P : Prop) : (∃ a, x = .ok a ∧ P) ↔ fine ∧ P := by rw [exists_and_right, first.read]
  exact (first.andThen second).congr (here fine') (or_congr_right (here escapes'))

/-- A value that is made of what was read changes nothing. -/
theorem map {x : Except ε α} (h : Ends IsReport x fine escapes) (f : α → β) :
    Ends IsReport (x >>= fun a => .ok (f a)) fine escapes :=
  (h.bind fun a _ => .ok (f a)).congr (iff_of_eq (and_true fine)) (by simp)

/-- Errors that are named otherwise, and are reports as before, change nothing. -/
theorem mapError {IsReport' : δ → Prop} {r : Except ε α} (h : Ends IsReport r fine escapes) {make : ε → δ}
    (same : ∀ e, IsReport' (make e) ↔ IsReport e) : Ends IsReport' (r.mapError make) fine escapes := by
  cases r with
  | error e =>
    refine ⟨Iff.trans (iff_of_false ?_ ?_) h.read, Iff.trans ⟨?_, ?_⟩ h.escaped⟩
    · rintro ⟨_, read⟩
      cases read
    · rintro ⟨_, read⟩
      cases read
    · rintro ⟨_, failed, unreported⟩
      obtain rfl := Except.error.inj failed
      exact ⟨e, rfl, mt (same e).mpr unreported⟩
    · rintro ⟨_, failed, unreported⟩
      obtain rfl := Except.error.inj failed
      exact ⟨make e, rfl, mt (same e).mp unreported⟩
  | ok a =>
    refine ⟨Iff.trans (iff_of_true ⟨a, rfl⟩ ⟨a, rfl⟩) h.read, Iff.trans (iff_of_false ?_ ?_) h.escaped⟩
    · rintro ⟨_, failed, _⟩
      cases failed
    · rintro ⟨_, failed, _⟩
      cases failed

end Ends

/-- A first entry escapes after others that are fine. -/
def FirstEscapes (fine escapes : Json → Prop) (entries : List Json) : Prop :=
  ∃ before entry after, entries = before ++ entry :: after ∧ (∀ e ∈ before, fine e) ∧ escapes entry

section InTurn

variable {fine escapes : Json → Prop} {entry : Json} {entries : List Json}

theorem firstEscapes_nil : ¬ FirstEscapes fine escapes [] := by
  rintro ⟨before, entry, after, eq, _⟩
  simp at eq

theorem firstEscapes_cons : FirstEscapes fine escapes (entry :: entries) ↔
    escapes entry ∨ fine entry ∧ FirstEscapes fine escapes entries := by
  constructor
  · rintro ⟨before, e, after, eq, allFine, escaped⟩
    cases before with
    | nil =>
      obtain ⟨rfl, -⟩ := List.cons.inj eq
      exact .inl escaped
    | cons first before =>
      obtain ⟨rfl, rfl⟩ := List.cons.inj eq
      obtain ⟨here, later⟩ := List.forall_mem_cons.mp allFine
      exact .inr ⟨here, before, e, after, rfl, later, escaped⟩
  · rintro (escaped | ⟨here, before, e, after, rfl, later, escaped⟩)
    · exact ⟨[], entry, entries, rfl, List.forall_mem_nil _, escaped⟩
    · exact ⟨entry :: before, e, after, rfl, List.forall_mem_cons.mpr ⟨here, later⟩, escaped⟩

/-- Where all that is not fine escapes, one does if not all are fine. -/
theorem firstEscapes_not : FirstEscapes fine (¬ fine ·) entries ↔ ¬ ∀ entry ∈ entries, fine entry := by
  induction entries with
  | nil => exact iff_of_false firstEscapes_nil (not_not_intro (List.forall_mem_nil _))
  | cons entry rest ih =>
    rw [firstEscapes_cons, ih, List.forall_mem_cons]
    by_cases here : fine entry <;> simp [here]

/-- Entries that are read in turn are read if all are fine, and escape with the first that does. -/
theorem ends_inTurn {ε α : Type} {IsReport : ε → Prop} (run : Nat → List Json → Except ε (List α))
    (read : Nat → Json → Except ε α) (nil : ∀ k, run k [] = .ok [])
    (cons : ∀ k entry rest, run k (entry :: rest) =
      read k entry >>= fun a => run (k + 1) rest >>= fun more => .ok (a :: more))
    (each : ∀ k entry, Ends IsReport (read k entry) (fine entry) (escapes entry)) (k : Nat) (entries : List Json) :
    Ends IsReport (run k entries) (∀ entry ∈ entries, fine entry) (FirstEscapes fine escapes entries) := by
  induction entries generalizing k with
  | nil =>
    rw [nil]
    exact (Ends.ok []).congr (iff_of_true trivial (List.forall_mem_nil _)) (iff_of_false id firstEscapes_nil)
  | cons entry rest ih =>
    rw [cons]
    exact ((each k entry).bind fun a _ => (ih (k + 1)).map (a :: ·)).congr List.forall_mem_cons.symm
      firstEscapes_cons.symm

end InTurn

namespace Json

/-- Can a value be gone through? -/
def IsIterable : Json → Prop
  | .arr _ | .str _ | .obj _ => True
  | _ => False

/-- What is met when a value is gone through. -/
def parts (v : Json) : List Json := v.items?.toOption.getD []

/-- A value is gone through just if it can be. -/
theorem items?_cases (v : Json) :
    v.IsIterable ∧ v.items? = .ok v.parts ∨ ¬ v.IsIterable ∧ ∃ what, v.items? = .error what := by
  cases v with
  | arr | str | obj => exact .inl ⟨trivial, rfl⟩
  | _ => exact .inr ⟨id, _, rfl⟩

end Json

end Scaffold
