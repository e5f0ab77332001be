import Mathlib.Data.List.Perm.Basic
import Mathlib.Order.Defs.Unbundled
import Scaffold.Proofs.Action

/-!
Actions that cannot tell states apart. An action that ends alike in states that are alike, and leaves such a
state, ends among others as it ends on its own; so a list of such actions can be run in any order. A state need
not be like itself: nothing is asked of an action where it is not.
-/

namespace Scaffold.Action

variable {σ ε α β : Type} {S : σ → σ → Prop} {s s' : σ}

/-- In states that are alike the action ends alike and finds the same wrong, and it leaves such a state. -/
structure Respects (S : σ → σ → Prop) (x : Action σ ε α) : Prop where
  result : ∀ {s s'}, S s s' → (x s).result = (x s').result
  diagnostics : ∀ {s s'}, S s s' → Note.diagnostics (x s).notes = Note.diagnostics (x s').notes
  state : ∀ {s}, S s s → S s (x s).state

namespace Respects

variable {x : Action σ ε α}

/-- An action that neither reads nor changes the state. -/
theorem of_constant {notes : List Note} {r : Except ε α} (h : ∀ s, x s = ⟨notes, s, r⟩) :
    x.Respects S where
  result := by simp [h]
  diagnostics := by simp [h]
  state alike := by
    simp only [h]
    exact alike

theorem ok (a : α) : (Action.ok a : Action σ ε α).Respects S := of_constant fun _ => rfl

theorem fail (e : ε) : (Action.fail e : Action σ ε α).Respects S := of_constant fun _ => rfl

theorem note (n : Note) : (Action.note n : Action σ ε Unit).Respects S := of_constant fun _ => rfl

theorem ofExcept (r : Except ε α) : (Action.ofExcept r : Action σ ε α).Respects S :=
  of_constant fun _ => rfl

section Alike

variable [Std.Symm S] [IsTrans σ S]

theorem left_alike (same : S s s') : S s s := trans_of S same (symm_of S same)

theorem right_alike (same : S s s') : S s' s' := trans_of S (symm_of S same) same

/-- What is left is like what the other state was. -/
theorem alike_state (h : x.Respects S) (same : S s s') : S s (x s').state :=
  trans_of S same (h.state (right_alike same))

/-- Where two states are alike, those that are left are. -/
theorem related (h : x.Respects S) (same : S s s') : S (x s).state (x s').state :=
  trans_of S (symm_of S (h.state (left_alike same))) (h.alike_state same)

theorem bind {f : α → Action σ ε β} (first : x.Respects S) (next : ∀ a, (f a).Respects S) :
    (x.bind f).Respects S where
  result {s s'} same := by
    simp only [Action.bind, ← first.result same]
    cases (x s).result with
    | error e => rfl
    | ok a => exact (next a).result (first.related same)
  diagnostics {s s'} same := by
    simp only [Action.bind, ← first.result same]
    cases (x s).result with
    | error e => exact first.diagnostics same
    | ok a =>
      simp only [Note.diagnostics_append, first.diagnostics same,
        (next a).diagnostics (first.related same)]
  state {s} same := by
    simp only [Action.bind]
    cases (x s).result with
    | error e => exact first.state same
    | ok a => exact (next a).alike_state (first.state same)

variable {f : α → Action σ ε β} {l l' : List α} {bs : List β}

theorem mapEach (each : ∀ a ∈ l, (f a).Respects S) : (Action.mapEach f l).Respects S := by
  induction l with
  | nil => exact ok []
  | cons a rest ih =>
    obtain ⟨here, later⟩ := List.forall_mem_cons.mp each
    exact bind here fun b => bind (ih later) fun bs => ok _

/-- A list of actions gives what each of them gives in any one state of the class. -/
theorem mapEach_eq_ok_iff (each : ∀ a ∈ l, (f a).Respects S) (same : S s s') :
    (Action.mapEach f l s').result = .ok bs ↔
      List.Forall₂ (fun a b => (f a s).result = .ok b) l bs := by
  induction l generalizing s' bs with
  | nil =>
    rw [List.forall₂_nil_left_iff]
    exact ⟨fun h => (Except.ok.inj h).symm, fun h => h ▸ rfl⟩
  | cons a rest ih =>
    obtain ⟨here, later⟩ := List.forall_mem_cons.mp each
    have same' : S s (f a s').state := here.alike_state same
    constructor
    · intro h
      obtain ⟨b, more, rfl, first, others, _⟩ := mapEach_cons_eq_ok h
      exact .cons (by rw [here.result same, first]) ((ih later same').mp others)
    · rintro (_ | ⟨first, others⟩)
      rw [here.result same] at first
      exact (mapEach_cons_of_ok first ((ih later same').mpr others)).1

/-- A list of actions finds wrong what each of them finds wrong in any one state of the class. -/
theorem diagnostics_mapEach (each : ∀ a ∈ l, (f a).Respects S) (same : S s s')
    (h : (Action.mapEach f l s').result = .ok bs) :
    Note.diagnostics (Action.mapEach f l s').notes =
      l.flatMap fun a => Note.diagnostics (f a s).notes := by
  induction l generalizing s' bs with
  | nil => rfl
  | cons a rest ih =>
    obtain ⟨here, later⟩ := List.forall_mem_cons.mp each
    obtain ⟨b, more, rfl, first, others, _⟩ := mapEach_cons_eq_ok h
    rw [Action.mapEach, notes_bind first, notes_bind others, Note.diagnostics_append,
      Note.diagnostics_append, List.flatMap_cons, here.diagnostics same,
      ih later (here.alike_state same) others]
    exact congrArg _ (List.append_nil _)

/-- In another order the same is given and the same found wrong, each in its order. -/
theorem mapEach_perm (each : ∀ a ∈ l, (f a).Respects S) (refl : S s s) (perm : l'.Perm l)
    (h : (Action.mapEach f l s).result = .ok bs) :
    ∃ bs', (Action.mapEach f l' s).result = .ok bs' ∧ bs'.Perm bs ∧
      (Note.diagnostics (Action.mapEach f l' s).notes).Perm
        (Note.diagnostics (Action.mapEach f l s).notes) := by
  have each' : ∀ a ∈ l', (f a).Respects S := fun a mem => each a (perm.mem_iff.mp mem)
  obtain ⟨bs', given, permB⟩ := List.perm_comp_forall₂ perm ((mapEach_eq_ok_iff each refl).mp h)
  have h' := (mapEach_eq_ok_iff each' refl).mpr given
  refine ⟨bs', h', permB, ?_⟩
  rw [diagnostics_mapEach each refl h, diagnostics_mapEach each' refl h']
  exact perm.flatMap_right _

end Alike

end Respects

end Scaffold.Action
