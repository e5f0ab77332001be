import Scaffold.Outcome

/-!
Actions: computations that change a state, leave notes and may fail. A failure keeps the notes and the
state that it happened in.
-/

namespace Scaffold

/-- What an action ends with. -/
structure Ended (σ ε α : Type) where
  notes : List Note
  state : σ
  result : Except ε α

def Action (σ ε α : Type) := σ → Ended σ ε α

namespace Action

variable {σ ε α β : Type}

def ok (a : α) : Action σ ε α := fun s => ⟨[], s, .ok a⟩

def fail (e : ε) : Action σ ε α := fun s => ⟨[], s, .error e⟩

def bind (x : Action σ ε α) (f : α → Action σ ε β) : Action σ ε β := fun s =>
  let first := x s
  match first.result with
  | .error e => ⟨first.notes, first.state, .error e⟩
  | .ok a =>
    let second := f a first.state
    ⟨first.notes ++ second.notes, second.state, second.result⟩

instance : Monad (Action σ ε) where
  pure := ok
  bind := bind

/-- Leaves a note. -/
def note (n : Note) : Action σ ε Unit := fun s => ⟨[n], s, .ok ()⟩

def ofExcept (r : Except ε α) : Action σ ε α := fun s => ⟨[], s, r⟩

/-- Changes the state, unless that is refused. -/
def change (f : σ → Except ε σ) : Action σ ε Unit := fun s =>
  match f s with
  | .ok s => ⟨[], s, .ok ()⟩
  | .error e => ⟨[], s, .error e⟩

/-- An outcome as an action that leaves the state alone. -/
def ofOutcome (x : Outcome ε α) : Action σ ε α := fun s => ⟨x.notes, s, x.result⟩

/-- The same action under other failures. -/
def mapError {δ : Type} (make : ε → δ) (x : Action σ ε α) : Action σ δ α := fun s =>
  let ended := x s
  ⟨ended.notes, ended.state, ended.result.mapError make⟩

/-- Runs over a list in order and collects the results. -/
def mapEach (f : α → Action σ ε β) : List α → Action σ ε (List β)
  | [] => ok []
  | a :: rest => (f a).bind fun b => (mapEach f rest).bind fun bs => ok (b :: bs)

/-- Passes a value through an action for each item of a list. -/
def foldEach (f : β → α → Action σ ε β) (b : β) : List α → Action σ ε β
  | [] => ok b
  | a :: rest => (f b a).bind fun b => foldEach f b rest

/-- Keeps the items of a list for which an action answers yes. -/
def filterEach (f : α → Action σ ε Bool) : List α → Action σ ε (List α)
  | [] => ok []
  | a :: rest => (f a).bind fun keep => (filterEach f rest).bind fun kept =>
    ok (if keep then a :: kept else kept)

end Action

end Scaffold
