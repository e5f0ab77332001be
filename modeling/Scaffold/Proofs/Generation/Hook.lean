import Scaffold.Generation.Generator
import Scaffold.Proofs.Action

/-!
What hooks leave alone. If every hook keeps a property of artifacts, so does a whole list of them, and
with it the start of an artifact and the step of an item.
-/

namespace Scaffold

variable {P : Artifact → Prop}

/-- The hook makes no artifact with the property into one without. -/
def Hook.Keeps (P : Artifact → Prop) (hook : Hook) : Prop :=
  ∀ a subject changed done, P a → hook a subject = .ok (changed, done) → P changed

/-- What is said of a path holds on where a hook leaves the path. -/
theorem Hook.Keeps.of_subPath {hook : Hook} (keeps : ∀ s, hook.Keeps fun a => a.subPath = s)
    (Q : String → Prop) : hook.Keeps fun a => Q a.subPath := by
  intro a subject changed done ha ran
  have same : changed.subPath = a.subPath := keeps a.subPath a subject changed done rfl ran
  rwa [same]

namespace Hooks

/-- No hook round the items makes an artifact with the property into one without. -/
structure Keep (P : Artifact → Prop) (h : Hooks) : Prop where
  start : ∀ hook ∈ h.start, hook.Keeps P
  before : ∀ pair ∈ h.before, pair.2.Keeps P
  after : ∀ pair ∈ h.after, pair.2.Keeps P

theorem keep_none : Hooks.none.Keep P := by constructor <;> simp [none]

/-- Nor does any hook at the finish. -/
structure KeepThroughout (P : Artifact → Prop) (h : Hooks) : Prop extends h.Keep P where
  finish : ∀ hook ∈ h.finish, hook.Keeps P

theorem keepThroughout_none : Hooks.none.KeepThroughout P where
  toKeep := keep_none
  finish := by simp [none]

theorem Keep.of_subPath {h : Hooks} (keep : ∀ s, h.Keep fun a => a.subPath = s) (Q : String → Prop) :
    h.Keep fun a => Q a.subPath where
  start := fun hook mem => .of_subPath (fun s => (keep s).start hook mem) Q
  before := fun pair mem => .of_subPath (fun s => (keep s).before pair mem) Q
  after := fun pair mem => .of_subPath (fun s => (keep s).after pair mem) Q

theorem KeepThroughout.of_subPath {h : Hooks} (keep : ∀ s, h.KeepThroughout fun a => a.subPath = s)
    (Q : String → Prop) : h.KeepThroughout fun a => Q a.subPath where
  toKeep := .of_subPath (fun s => (keep s).toKeep) Q
  finish := fun hook mem => .of_subPath (fun s => (keep s).finish hook mem) Q

variable {hooks : List Hook} {subject : Subject} {a b : Artifact} {done : Bool}

theorem untilDone_keeps (keeps : ∀ hook ∈ hooks, hook.Keeps P) (ha : P a)
    (h : untilDone subject a hooks = .ok (b, done)) : P b := by
  induction hooks generalizing a with
  | nil =>
    cases h
    exact ha
  | cons hook rest ih =>
    obtain ⟨first, others⟩ := List.forall_mem_cons.mp keeps
    simp only [untilDone, bind, Except.bind] at h
    split at h
    · cases h
    · rename_i ran asked
      have kept := first a subject _ _ ha asked
      split at h
      · cases h
        exact kept
      · exact ih others kept h

theorem runAll_keeps (keeps : ∀ hook ∈ hooks, hook.Keeps P) (ha : P a)
    (h : runAll subject a hooks = .ok b) : P b := by
  induction hooks generalizing a with
  | nil =>
    cases h
    exact ha
  | cons hook rest ih =>
    obtain ⟨first, others⟩ := List.forall_mem_cons.mp keeps
    simp only [runAll, bind, Except.bind] at h
    split at h
    · cases h
    · rename_i ran asked
      exact ih others (first a subject _ _ ha asked) h

theorem forItem_keeps {item : ItemKind} {pairs : List (ItemKind × Hook)}
    (keeps : ∀ pair ∈ pairs, pair.2.Keeps P) : ∀ hook ∈ forItem item pairs, hook.Keeps P := by
  intro hook mem
  obtain ⟨pair, memPair, rfl⟩ := List.mem_map.mp mem
  exact keeps pair (List.mem_filter.mp memPair).1

end Hooks

theorem Building.orHook_gives {α : Type} {Q : α → Prop} {r : Except HookError α}
    (h : ∀ a, r = .ok a → Q a) : (Building.orHook r).Gives Q :=
  Action.Gives.ofExcept fun a ha => h a (mapError_eq_ok.mp ha)

/-- What comes after a value that was found goes on with it. -/
theorem Building.exists_of_orMisfit_bind {α β : Type} {r : Except Misfit α} {next : α → Building β} {result : β}
    {w : Workshop} (h : ((orMisfit r).bind next w).result = .ok result) :
    ∃ x, r = .ok x ∧ (orMisfit r).bind next = next x := by
  obtain ⟨x, found, _⟩ := Action.ofExcept_bind_eq_ok.mp h
  obtain rfl := mapError_eq_ok.mp found
  exact ⟨x, rfl, Action.ofExcept_bind x next⟩

namespace Generator

variable {g : Generator} {item : ItemKind}

/-- A new artifact has what the hooks keep, if that holds of the bare one at the path that was asked for. -/
theorem newArtifact_keeps (keep : g.hooks.Keep P) {d : Graph.TypeDescriptor}
    {fullName subPath : Except Misfit String}
    (bare : ∀ name path, subPath = .ok path →
      P { unit := g.target.unit, item, fullName := name, subPath := path, extension := g.target.extension }) :
    (g.newArtifact item d fullName subPath).Gives P := by
  refine Action.Gives.after fun name => ?_
  refine Action.Gives.bind (P := (subPath = .ok ·)) (Action.Gives.ofExcept fun path found => ?_)
    fun path found => ?_
  · exact mapError_eq_ok.mp found
  · exact Building.orHook_gives fun a ran => Hooks.runAll_keeps keep.start (bare name path found) ran

/-- Without hooks a new artifact is empty, and nothing is asked or recorded for it. -/
theorem exists_of_newArtifact_bind (plain : g.hooks = Hooks.none) {d : Graph.TypeDescriptor}
    {fullName subPath : Except Misfit String} {next : Artifact → Building Artifact} {b : Artifact} {w : Workshop}
    (h : ((g.newArtifact item d fullName subPath).bind next w).result = .ok b) :
    ∃ name path, fullName = .ok name ∧ subPath = .ok path ∧
      (g.newArtifact item d fullName subPath).bind next = next
        { unit := g.target.unit, item, fullName := name, subPath := path, extension := g.target.extension } := by
  obtain ⟨_, made, _⟩ := Action.bind_eq_ok.mp h
  obtain ⟨name, named, made⟩ := Action.ofExcept_bind_eq_ok.mp made
  obtain ⟨path, planned, made⟩ := Action.ofExcept_bind_eq_ok.mp made
  obtain rfl := mapError_eq_ok.mp named
  obtain rfl := mapError_eq_ok.mp planned
  refine ⟨name, path, rfl, rfl, ?_⟩
  have start : g.hooks.start = [] := by
    rw [plain]
    rfl
  unfold newArtifact
  rw [start]
  rfl

/-- Without hooks the step is all that is done. -/
theorem betweenHooks_none (plain : g.hooks = Hooks.none) {subject : Subject}
    {step : Artifact → Building Artifact} {a : Artifact} : g.betweenHooks item subject step a = step a := by
  have before : g.hooks.runBefore item a subject = .ok (a, false) := by
    rw [plain]
    rfl
  have after_ : (fun b => Building.orHook (g.hooks.runAfter item b subject)) = Action.ok := by
    funext b
    rw [plain]
    rfl
  unfold betweenHooks Building.orHook
  rw [before]
  exact (Action.ofExcept_bind _ _).trans ((congrArg _ after_).trans (Action.bind_ok _))

/-- What the hooks and the step of an item keep holds after them. -/
theorem betweenHooks_keeps (keep : g.hooks.Keep P) {subject : Subject}
    {step : Artifact → Building Artifact} {a : Artifact} (ha : P a)
    (stepKeeps : ∀ b, P b → (step b).Gives P) : (g.betweenHooks item subject step a).Gives P := by
  have ended : ∀ b, P b → (Building.orHook (g.hooks.runAfter item b subject)).Gives P :=
    fun b hb => Building.orHook_gives fun _ ran =>
      Hooks.runAll_keeps (Hooks.forItem_keeps keep.after) hb ran
  refine Action.Gives.bind (P := fun pair => P pair.1) (Building.orHook_gives fun pair ran => ?_) ?_
  · exact Hooks.untilDone_keeps (Hooks.forItem_keeps keep.before) ha ran
  · rintro ⟨b, done⟩ hb
    cases done
    · exact Action.Gives.bind (stepKeeps b hb) ended
    · exact Action.Gives.bind (Action.Gives.ok hb) ended

end Generator

end Scaffold
