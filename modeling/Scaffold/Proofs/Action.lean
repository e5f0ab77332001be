import Scaffold.Action

/-!
Actions that succeed: what a sequence did when it succeeds, and what two actions on a list have in common
when their steps have it. What holds of all that an action gives, or of all that it finds wrong, is put together
from its steps.
-/

namespace Scaffold

variable {σ ε δ α β γ : Type} {s : σ}

@[simp] theorem mapError_ok (make : ε → δ) (a : α) :
    (Except.ok a : Except ε α).mapError make = .ok a := rfl

@[simp] theorem mapError_error (make : ε → δ) (e : ε) :
    (Except.error e : Except ε α).mapError make = .error (make e) := rfl

theorem mapError_eq_ok {make : ε → δ} {r : Except ε α} {a : α} :
    r.mapError make = .ok a ↔ r = .ok a := by
  cases r <;> simp

namespace Action

theorem bind_eq (x : Action σ ε α) (f : α → Action σ ε β) : (x >>= f) = x.bind f := rfl

theorem pure_eq (a : α) : (pure a : Action σ ε α) = ok a := rfl

/-- A sequence succeeds if both of its parts do. -/
theorem bind_eq_ok {x : Action σ ε α} {f : α → Action σ ε β} {b : β} :
    (x.bind f s).result = .ok b ↔
      ∃ a, (x s).result = .ok a ∧ (f a (x s).state).result = .ok b := by
  unfold bind
  cases h : (x s).result <;> simp [h]

theorem state_bind {x : Action σ ε α} {f : α → Action σ ε β} {a : α} (h : (x s).result = .ok a) :
    (x.bind f s).state = (f a (x s).state).state := by
  simp [bind, h]

theorem result_bind {x : Action σ ε α} {f : α → Action σ ε β} {a : α} (h : (x s).result = .ok a) :
    (x.bind f s).result = (f a (x s).state).result := by
  simp [bind, h]

theorem notes_bind {x : Action σ ε α} {f : α → Action σ ε β} {a : α} (h : (x s).result = .ok a) :
    (x.bind f s).notes = (x s).notes ++ (f a (x s).state).notes := by
  simp [bind, h]

/-- A sequence runs through if both of its parts do. -/
theorem run_bind {x : Action σ ε α} {f : α → Action σ ε β} {a : α} {b : β} {s' s'' : σ}
    (first : (x s).result = .ok a ∧ (x s).state = s')
    (second : (f a s').result = .ok b ∧ (f a s').state = s'') :
    (x.bind f s).result = .ok b ∧ (x.bind f s).state = s'' := by
  rw [result_bind first.1, state_bind first.1, first.2]
  exact second

theorem bind_ok (x : Action σ ε α) : x.bind ok = x := by
  funext s
  unfold bind
  obtain ⟨notes, state, result⟩ := x s
  cases result <;> simp [ok]

theorem ofExcept_bind (a : α) (f : α → Action σ ε β) : (ofExcept (.ok a)).bind f = f a := by
  funext s
  simp [bind, ofExcept]

theorem ofExcept_bind_eq_ok {r : Except ε α} {f : α → Action σ ε β} {b : β} :
    ((ofExcept r).bind f s).result = .ok b ↔ ∃ a, r = .ok a ∧ (f a s).result = .ok b := bind_eq_ok

theorem bind_of_error {x : Action σ ε α} {f : α → Action σ ε β} {e : ε} (h : (x s).result = .error e) :
    x.bind f s = ⟨(x s).notes, (x s).state, .error e⟩ := by
  simp [bind, h]

theorem bind_of_ok {x : Action σ ε α} {f : α → Action σ ε β} {a : α} (h : (x s).result = .ok a) :
    x.bind f s = ⟨(x s).notes ++ (f a (x s).state).notes, (f a (x s).state).state,
      (f a (x s).state).result⟩ := by
  simp [bind, h]

theorem ok_bind (a : α) (f : α → Action σ ε β) : (ok a).bind f = f a := ofExcept_bind a f

theorem bind_assoc (x : Action σ ε α) (f : α → Action σ ε β) (g : β → Action σ ε γ) :
    (x.bind f).bind g = x.bind fun a => (f a).bind g := by
  funext s
  cases first : (x s).result with
  | error e =>
    have both : (x.bind f s).result = .error e := by rw [bind_of_error first]
    rw [bind_of_error both, bind_of_error first, bind_of_error first]
  | ok a =>
    rw [bind_of_ok first]
    cases second : (f a (x s).state).result with
    | error e =>
      have both : (x.bind f s).result = .error e := by rw [bind_of_ok first, second]
      rw [bind_of_error both, bind_of_error second, bind_of_ok first]
    | ok b =>
      have both : (x.bind f s).result = .ok b := by rw [bind_of_ok first, second]
      rw [bind_of_ok both, bind_of_ok second, bind_of_ok first, List.append_assoc]

@[simp] theorem result_ok (a : α) : ((ok a : Action σ ε α) s).result = .ok a := rfl

@[simp] theorem state_ok (a : α) : ((ok a : Action σ ε α) s).state = s := rfl

@[simp] theorem result_note (n : Note) : ((note n : Action σ ε Unit) s).result = .ok () := rfl

@[simp] theorem state_note (n : Note) : ((note n : Action σ ε Unit) s).state = s := rfl

@[simp] theorem result_ofExcept (r : Except ε α) : ((ofExcept r : Action σ ε α) s).result = r := rfl

@[simp] theorem state_ofExcept (r : Except ε α) : ((ofExcept r : Action σ ε α) s).state = s := rfl

@[simp] theorem result_ofOutcome (x : Outcome ε α) :
    ((ofOutcome x : Action σ ε α) s).result = x.result := rfl

@[simp] theorem state_ofOutcome (x : Outcome ε α) : ((ofOutcome x : Action σ ε α) s).state = s := rfl

@[simp] theorem state_mapError (make : ε → δ) (x : Action σ ε α) :
    (x.mapError make s).state = (x s).state := rfl

theorem result_mapError_eq_ok {make : ε → δ} {x : Action σ ε α} {a : α} :
    (x.mapError make s).result = .ok a ↔ (x s).result = .ok a := mapError_eq_ok

theorem change_eq_ok {f : σ → Except ε σ} (h : (change f s).result = .ok ()) :
    f s = .ok (change f s).state := by
  unfold change at h ⊢
  cases fs : f s <;> simp_all

theorem change_of_ok {f : σ → Except ε σ} {s' : σ} (h : f s = .ok s') :
    change f s = ⟨[], s', .ok ()⟩ := by
  simp [change, h]

variable {f : α → Action σ ε β}

theorem mapEach_cons_eq_ok {a : α} {rest : List α} {bs : List β}
    (h : (mapEach f (a :: rest) s).result = .ok bs) :
    ∃ b more, bs = b :: more ∧ (f a s).result = .ok b ∧
      (mapEach f rest (f a s).state).result = .ok more ∧
      (mapEach f (a :: rest) s).state = (mapEach f rest (f a s).state).state := by
  rw [mapEach, bind_eq_ok] at h
  obtain ⟨b, hb, h⟩ := h
  obtain ⟨more, hmore, h⟩ := bind_eq_ok.mp h
  refine ⟨b, more, (Except.ok.inj h).symm, hb, hmore, ?_⟩
  rw [mapEach, state_bind hb, state_bind hmore, state_ok]

theorem mapEach_cons_of_ok {a : α} {rest : List α} {b : β} {more : List β}
    (h : (f a s).result = .ok b) (h' : (mapEach f rest (f a s).state).result = .ok more) :
    (mapEach f (a :: rest) s).result = .ok (b :: more) ∧
      (mapEach f (a :: rest) s).state = (mapEach f rest (f a s).state).state := by
  rw [mapEach, result_bind h, result_bind h', state_bind h, state_bind h']
  exact ⟨rfl, rfl⟩

/-- What every step gives is what the list is made of; each step starts as it should if the first does. -/
theorem mapEach_mem_of {I : σ → Prop} {l : List α} (keeps : ∀ a ∈ l, ∀ s, I s → I (f a s).state) (start : I s)
    {bs : List β} (h : (mapEach f l s).result = .ok bs) :
    ∀ b ∈ bs, ∃ a ∈ l, ∃ s', I s' ∧ (f a s').result = .ok b := by
  induction l generalizing s bs with
  | nil =>
    obtain rfl := Except.ok.inj h
    simp
  | cons a rest ih =>
    obtain ⟨b, more, rfl, hb, hmore, _⟩ := mapEach_cons_eq_ok h
    obtain ⟨here, later⟩ := List.forall_mem_cons.mp keeps
    intro x hx
    rcases List.mem_cons.mp hx with rfl | hx
    · exact ⟨a, List.mem_cons_self, s, start, hb⟩
    · obtain ⟨a', mem, found⟩ := ih later (here s start) hmore x hx
      exact ⟨a', List.mem_cons_of_mem _ mem, found⟩

theorem mapEach_mem {l : List α} {bs : List β} (h : (mapEach f l s).result = .ok bs) :
    ∀ b ∈ bs, ∃ a ∈ l, ∃ s', (f a s').result = .ok b := by
  intro b mem
  obtain ⟨a, memA, s', -, given⟩ := mapEach_mem_of (I := fun _ => True) (fun _ _ _ _ => trivial) trivial h b mem
  exact ⟨a, memA, s', given⟩

/-- Where a step gives the same in paired states, and leaves them paired, so does a list of steps. -/
theorem mapEach_agree {R : σ → σ → Prop} (view : β → γ) (good : β → Prop) {l : List α}
    (step : ∀ a ∈ l, ∀ s s' b, R s s' → (f a s).result = .ok b → good b →
      ∃ b', (f a s').result = .ok b' ∧ R (f a s).state (f a s').state ∧ view b' = view b)
    {s' : σ} (paired : R s s') {bs : List β} (h : (mapEach f l s).result = .ok bs) (all : ∀ b ∈ bs, good b) :
    ∃ bs', (mapEach f l s').result = .ok bs' ∧
      R (mapEach f l s).state (mapEach f l s').state ∧ bs'.map view = bs.map view := by
  induction l generalizing s s' bs with
  | nil =>
    obtain rfl := Except.ok.inj h
    exact ⟨[], rfl, paired, rfl⟩
  | cons a rest ih =>
    obtain ⟨b, more, rfl, hb, hmore, state⟩ := mapEach_cons_eq_ok h
    obtain ⟨goodB, goodMore⟩ := List.forall_mem_cons.mp all
    obtain ⟨here, later⟩ := List.forall_mem_cons.mp step
    obtain ⟨b', hb', stepped, viewB⟩ := here s s' b paired hb goodB
    obtain ⟨more', hmore', left, viewMore⟩ := ih later stepped hmore goodMore
    obtain ⟨result, state'⟩ := mapEach_cons_of_ok hb' hmore'
    exact ⟨b' :: more', result, by rw [state, state']; exact left, by simp [viewB, viewMore]⟩

/-- Whatever the action starts from, what it gives has a property. -/
def Gives (x : Action σ ε α) (P : α → Prop) : Prop := ∀ s a, (x s).result = .ok a → P a

namespace Gives

variable {P : α → Prop} {Q : β → Prop} {x : Action σ ε α}

theorem any (x : Action σ ε α) : x.Gives fun _ => True := fun _ _ _ => trivial

theorem mono {P' : α → Prop} (h : x.Gives P) (imp : ∀ a, P a → P' a) : x.Gives P' :=
  fun s a ok => imp a (h s a ok)

theorem ok {a : α} (h : P a) : (Action.ok a : Action σ ε α).Gives P := by
  intro s b eq
  obtain rfl := Except.ok.inj eq
  exact h

theorem fail (e : ε) : (Action.fail e : Action σ ε α).Gives P := by
  intro s b eq
  cases eq

theorem ofExcept {r : Except ε α} (h : ∀ a, r = .ok a → P a) :
    (Action.ofExcept r : Action σ ε α).Gives P := fun _ a eq => h a eq

theorem ofOutcome {y : Outcome ε α} (h : ∀ a, y.result = .ok a → P a) :
    (Action.ofOutcome y : Action σ ε α).Gives P := fun _ a eq => h a eq

theorem bind {f : α → Action σ ε β} (h : x.Gives P) (next : ∀ a, P a → (f a).Gives Q) :
    (x.bind f).Gives Q := by
  intro s b eq
  obtain ⟨a, first, second⟩ := bind_eq_ok.mp eq
  exact next a (h s a first) _ b second

/-- The first step may give anything. -/
theorem after {f : α → Action σ ε β} (next : ∀ a, (f a).Gives Q) : (x.bind f).Gives Q :=
  bind (any x) fun a _ => next a

theorem foldEach {f : β → α → Action σ ε β} {l : List α} {b : β} (start : Q b)
    (step : ∀ b a, Q b → (f b a).Gives Q) : (Action.foldEach f b l).Gives Q := by
  induction l generalizing b with
  | nil => exact ok start
  | cons a rest ih => exact bind (step b a start) fun b' hb' => ih hb'

theorem mapEach {f : α → Action σ ε β} {l : List α} (step : ∀ a ∈ l, (f a).Gives Q) :
    (Action.mapEach f l).Gives fun bs => ∀ b ∈ bs, Q b := by
  intro s bs h b hb
  obtain ⟨a, mem, s', eq⟩ := mapEach_mem h b hb
  exact step a mem s' b eq

/-- What is kept of a list is from the list, in its order. -/
theorem filterEach (f : α → Action σ ε Bool) (l : List α) :
    (Action.filterEach f l).Gives fun kept => kept.Sublist l := by
  induction l with
  | nil => exact ok (List.Sublist.refl [])
  | cons a rest ih =>
    refine after fun keep => bind ih fun kept sublist => ok ?_
    cases keep
    · exact sublist.cons a
    · exact sublist.cons_cons a

end Gives

/-- Whatever the action starts from and ends with, the diagnostics that it leaves have a property. -/
def Records (x : Action σ ε α) (P : Diagnostic → Prop) : Prop := ∀ s, ∀ d ∈ Note.diagnostics (x s).notes, P d

namespace Records

variable {P : Diagnostic → Prop} {x : Action σ ε α}

theorem of_silent (silent : ∀ s, Note.diagnostics (x s).notes = []) : x.Records P := by
  intro s d mem
  rw [silent s] at mem
  cases mem

theorem ok (a : α) : (Action.ok a : Action σ ε α).Records P := of_silent fun _ => rfl

theorem fail (e : ε) : (Action.fail e : Action σ ε α).Records P := of_silent fun _ => rfl

theorem ofExcept (r : Except ε α) : (Action.ofExcept r : Action σ ε α).Records P := of_silent fun _ => rfl

theorem change (f : σ → Except ε σ) : (Action.change f).Records P :=
  of_silent fun s => by unfold Action.change; split <;> rfl

theorem record (r : Log.Record) : (Action.note (.record r) : Action σ ε Unit).Records P := of_silent fun _ => rfl

theorem diagnostic {d : Diagnostic} (h : P d) : (Action.note (.diagnostic d) : Action σ ε Unit).Records P := by
  intro _ d' mem
  obtain rfl := List.mem_singleton.mp mem
  exact h

theorem ofOutcome {y : Outcome ε α} (h : ∀ d ∈ Note.diagnostics y.notes, P d) :
    (Action.ofOutcome y : Action σ ε α).Records P := fun _ => h

theorem bind {f : α → Action σ ε β} (first : x.Records P) (next : ∀ a, (f a).Records P) :
    (x.bind f).Records P := by
  intro s d mem
  cases result : (x s).result with
  | error e =>
    rw [bind_of_error result] at mem
    exact first s d mem
  | ok a =>
    rw [bind_of_ok result, Note.diagnostics_append, List.mem_append] at mem
    exact mem.elim (first s d) (next a _ d)

theorem mapEach {f : α → Action σ ε β} {l : List α} (step : ∀ a ∈ l, (f a).Records P) :
    (Action.mapEach f l).Records P := by
  induction l with
  | nil => exact ok []
  | cons a rest ih =>
    obtain ⟨here, later⟩ := List.forall_mem_cons.mp step
    exact bind here fun b => bind (ih later) fun bs => ok _

theorem foldEach {f : β → α → Action σ ε β} (step : ∀ b a, (f b a).Records P) (b : β) (l : List α) :
    (Action.foldEach f b l).Records P := by
  induction l generalizing b with
  | nil => exact ok b
  | cons a rest ih => exact bind (step b a) ih

theorem filterEach {f : α → Action σ ε Bool} (step : ∀ a, (f a).Records P) (l : List α) :
    (Action.filterEach f l).Records P := by
  induction l with
  | nil => exact ok []
  | cons a rest ih => exact bind (step a) fun keep => bind ih fun kept => ok _

end Records

/-- Whatever the action starts from, it succeeds, and what it gives has a property. -/
def Yields (x : Action σ ε α) (P : α → Prop) : Prop := ∀ s, ∃ a, (x s).result = .ok a ∧ P a

namespace Yields

variable {P : α → Prop} {Q : β → Prop} {x : Action σ ε α}

theorem ok {a : α} (h : P a) : (Action.ok a : Action σ ε α).Yields P := fun _ => ⟨a, rfl, h⟩

theorem note (n : Note) : (Action.note n : Action σ ε Unit).Yields fun _ => True :=
  fun _ => ⟨(), rfl, trivial⟩

theorem ofExcept {r : Except ε α} (h : ∃ a, r = .ok a ∧ P a) :
    (Action.ofExcept r : Action σ ε α).Yields P := fun _ => h

theorem bind {f : α → Action σ ε β} (h : x.Yields P) (next : ∀ a, P a → (f a).Yields Q) :
    (x.bind f).Yields Q := by
  intro s
  obtain ⟨a, first, ha⟩ := h s
  obtain ⟨b, second, hb⟩ := next a ha (x s).state
  exact ⟨b, bind_eq_ok.mpr ⟨a, first, second⟩, hb⟩

theorem foldEach {f : β → α → Action σ ε β} {l : List α} {b : β} (start : Q b)
    (step : ∀ b a, Q b → (f b a).Yields Q) : (Action.foldEach f b l).Yields Q := by
  induction l generalizing b with
  | nil => exact ok start
  | cons a rest ih => exact bind (step b a start) fun b' hb' => ih hb'

theorem filterEach {f : α → Action σ ε Bool} (step : ∀ a, (f a).Yields fun _ => True) (l : List α) :
    (Action.filterEach f l).Yields fun _ => True := by
  induction l with
  | nil => exact ok trivial
  | cons a rest ih => exact bind (step a) fun _ _ => bind ih fun _ _ => ok trivial

end Yields

/-- Whatever the action ends with, it leaves the state as it should be. -/
def Preserves (x : Action σ ε α) (I : σ → Prop) : Prop := ∀ s, I s → I (x s).state

namespace Preserves

variable {I : σ → Prop} {x : Action σ ε α}

theorem ok (a : α) : (Action.ok a : Action σ ε α).Preserves I := fun _ h => h

theorem note (n : Note) : (Action.note n : Action σ ε Unit).Preserves I := fun _ h => h

theorem ofExcept (r : Except ε α) : (Action.ofExcept r : Action σ ε α).Preserves I := fun _ h => h

theorem bind {f : α → Action σ ε β} (first : x.Preserves I) (next : ∀ a, (f a).Preserves I) :
    (x.bind f).Preserves I := by
  intro s h
  unfold Action.bind
  cases result : (x s).result with
  | error e => simpa [result] using first s h
  | ok a => simpa [result] using next a _ (first s h)

theorem mapError (make : ε → δ) (h : x.Preserves I) : (x.mapError make).Preserves I := h

theorem change {f : σ → Except ε σ} (step : ∀ s s', f s = .ok s' → I s → I s') :
    (Action.change f).Preserves I := by
  intro s h
  unfold Action.change
  cases changed : f s with
  | error e => exact h
  | ok s' => exact step s s' changed h

theorem mapEach {f : α → Action σ ε β} {l : List α} (step : ∀ a ∈ l, (f a).Preserves I) :
    (Action.mapEach f l).Preserves I := by
  induction l with
  | nil => exact ok []
  | cons a rest ih =>
    refine bind (step a List.mem_cons_self) fun b => bind (ih fun x hx => ?_) fun bs => ok _
    exact step x (List.mem_cons_of_mem _ hx)

end Preserves

/-- In all states of one kind the action gives the same, and it leaves such a state. -/
def Always (I : σ → Prop) (x : Action σ ε α) (a : α) : Prop :=
  ∀ s, I s → (x s).result = .ok a ∧ I (x s).state

namespace Always

variable {I : σ → Prop} {x : Action σ ε α} {a : α}

theorem ok (a : α) : Always I (Action.ok a : Action σ ε α) a := fun _ h => ⟨rfl, h⟩

theorem note (n : Note) : Always I (Action.note n : Action σ ε Unit) () := fun _ h => ⟨rfl, h⟩

theorem bind {f : α → Action σ ε β} {b : β} (first : x.Always I a) (next : (f a).Always I b) :
    (x.bind f).Always I b := by
  intro s h
  obtain ⟨given, left⟩ := first s h
  rw [result_bind given, state_bind given]
  exact next _ left

theorem filterEach {f : α → Action σ ε Bool} {p : α → Bool} {l : List α}
    (each : ∀ a ∈ l, (f a).Always I (p a)) : (Action.filterEach f l).Always I (l.filter p) := by
  induction l with
  | nil => exact ok []
  | cons a rest ih =>
    obtain ⟨here, later⟩ := List.forall_mem_cons.mp each
    rw [List.filter_cons]
    exact bind here (bind (ih later) (ok _))

theorem filterEach_all {f : α → Action σ ε Bool} {l : List α} (all : ∀ a ∈ l, (f a).Always I true) :
    (Action.filterEach f l).Always I l := by
  have whole : l.filter (fun _ => true) = l := List.filter_eq_self.mpr fun _ _ => rfl
  have kept := filterEach (p := fun _ => true) all
  rwa [whole] at kept

theorem mapEach {f : α → Action σ ε β} {g : α → β} {l : List α} (each : ∀ a ∈ l, (f a).Always I (g a)) :
    (Action.mapEach f l).Always I (l.map g) := by
  induction l with
  | nil => exact ok []
  | cons a rest ih =>
    obtain ⟨here, later⟩ := List.forall_mem_cons.mp each
    exact bind here (bind (ih later) (ok _))

end Always

end Action

end Scaffold
