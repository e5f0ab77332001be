import Scaffold.Artifact
import Scaffold.Graph.Basic

/-!
Hooks: changes of an artifact at set points of its generation. A hook before an item may say that it has
done the item's own step; then no later hook is asked and the step is left out.
-/

namespace Scaffold

/-- What a hook is called for. -/
inductive Subject where
  | type (d : Graph.TypeDescriptor)
  | property (p : Graph.PropertyDescriptor)

def Subject.name : Subject → String
  | .type d => d.name
  | .property p => p.name

/-- The message of a hook that gives up. -/
structure HookError where
  message : String
  deriving DecidableEq, Repr

/-- A change of an artifact; `true` if the step is done by it. -/
abbrev Hook := Artifact → Subject → Except HookError (Artifact × Bool)

structure Hooks where
  before : List (ItemKind × Hook) := []
  after : List (ItemKind × Hook) := []
  start : List Hook := []
  finish : List Hook := []

namespace Hooks

def none : Hooks := {}

/-- The hooks of one item. -/
def forItem (item : ItemKind) (hooks : List (ItemKind × Hook)) : List Hook :=
  (hooks.filter fun (i, _) => i = item).map (·.2)

/-- Asks hooks in order up to the first that does the step. -/
def untilDone (subject : Subject) (a : Artifact) : List Hook → Except HookError (Artifact × Bool)
  | [] => .ok (a, false)
  | hook :: rest => do
    let (a, done) ← hook a subject
    if done then return (a, true) else untilDone subject a rest

/-- Runs all hooks in order. -/
def runAll (subject : Subject) (a : Artifact) : List Hook → Except HookError Artifact
  | [] => .ok a
  | hook :: rest => do
    let (a, _) ← hook a subject
    runAll subject a rest

def runBefore (h : Hooks) (item : ItemKind) (a : Artifact) (subject : Subject) :
    Except HookError (Artifact × Bool) :=
  untilDone subject a (forItem item h.before)

def runAfter (h : Hooks) (item : ItemKind) (a : Artifact) (subject : Subject) :
    Except HookError Artifact :=
  runAll subject a (forItem item h.after)

end Hooks

end Scaffold
