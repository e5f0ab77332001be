import Scaffold.Diagnostic

/-!
A computation that leaves notes and may fail. The notes of what happened before a failure are kept.
-/

namespace Scaffold

structure Outcome (ε α : Type) where
  notes : List Note
  result : Except ε α

namespace Outcome

variable {ε α β : Type}

def ok (a : α) : Outcome ε α := ⟨[], .ok a⟩

def fail (e : ε) : Outcome ε α := ⟨[], .error e⟩

/-- Leaves a note. -/
def note (n : Note) : Outcome ε Unit := ⟨[n], .ok ()⟩

def ofExcept (r : Except ε α) : Outcome ε α := ⟨[], r⟩

def bind (x : Outcome ε α) (f : α → Outcome ε β) : Outcome ε β :=
  match x.result with
  | .error e => ⟨x.notes, .error e⟩
  | .ok a => ⟨x.notes ++ (f a).notes, (f a).result⟩

instance : Monad (Outcome ε) where
  pure := ok
  bind := bind

@[simp] theorem ok_bind (a : α) (f : α → Outcome ε β) : (ok a).bind f = f a := by
  simp [ok, bind]

@[simp] theorem fail_bind (e : ε) (f : α → Outcome ε β) : (fail e).bind f = fail e := rfl

/-- Runs over a list and keeps what is found, in order; stops at the first failure. -/
def collect (f : α → Outcome ε (Option β)) : List α → Outcome ε (List β)
  | [] => ok []
  | a :: rest => (f a).bind fun found => (collect f rest).bind fun more => ok (found.toList ++ more)

end Outcome

end Scaffold
