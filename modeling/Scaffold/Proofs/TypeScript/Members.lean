import Scaffold.Proofs.Generation.Total
import Scaffold.Proofs.Graph.Reports
import Scaffold.Proofs.Import

/-!
What becomes of the properties of a model. Each that has a type is a line of the interface, in their order, and
each other one is reported, once.
-/

namespace Scaffold.TypeScript

open Scaffold.Graph

variable {gen : Generator} {g : TypeGraph} {d : TypeDescriptor} {a b : Artifact} {q : PropertyDescriptor}
  {qs : List PropertyDescriptor} {w : Workshop}

/-- The line of a property that has a type. -/
def IsMember (gen : Generator) (g : TypeGraph) (q : PropertyDescriptor) (line : String) : Prop :=
  ∃ type case, mapProperty g q = some type ∧ namingCase gen.config = .ok case ∧
    line = "  " ++ case.apply q.name ++ ": " ++ type ++ ";"

/-- The report of a property that has none. -/
def IsLeftOut (g : TypeGraph) (d : TypeDescriptor) (q : PropertyDescriptor) (r : Diagnostic) : Prop :=
  mapProperty g q = none ∧
    r = ⟨.str (d.name ++ "." ++ q.name), "no TypeScript type for '" ++ q.typeName ++ "'; property skipped"⟩

/-- A model imports its base by the one alias, and each type that a property leads to. -/
theorem given_of_mem_modelImports {base : Json} {lines : List String} {line : String}
    (h : modelImports gen.config g d base = .ok lines) (mem : line ∈ lines) :
    importGiven gen.config.modelAlias base (.str "") = .ok line ∨
      ∃ p ∈ d.properties, ∃ t, g.resolve? p = some t ∧ (Import.ofTarget gen.config t).statement = .ok line := by
  simp only [modelImports, pure_bind] at h
  split at h
  · obtain ⟨found, others, h⟩ := exists_of_bind_eq_ok h
    obtain rfl := Except.ok.inj h
    exact .inr (Import.exists_of_mem_statements others mem)
  · obtain ⟨first, given, h⟩ := exists_of_bind_eq_ok h
    obtain ⟨found, others, h⟩ := exists_of_bind_eq_ok h
    obtain rfl := Except.ok.inj h
    rcases List.mem_cons.mp mem with rfl | mem
    · exact .inl given
    · exact .inr (Import.exists_of_mem_statements others mem)

/-- Either a property is a line, without a note, or its report is the one note. -/
theorem addMember_cases (h : (addMember gen g d a q w).result = .ok b) :
    (∃ line, IsMember gen g q line ∧ b = a.addText line ∧ (addMember gen g d a q w).notes = []) ∨
      ∃ r, IsLeftOut g d q r ∧ b = a ∧ (addMember gen g d a q w).notes = [.diagnostic r] := by
  unfold addMember at h ⊢
  cases typed : mapProperty g q with
  | none =>
    simp only [typed] at h ⊢
    obtain rfl := Except.ok.inj h
    exact .inr ⟨_, ⟨typed, rfl⟩, rfl, rfl⟩
  | some type =>
    simp only [typed, Action.bind_eq] at h ⊢
    obtain ⟨case, named, h⟩ := Action.ofExcept_bind_eq_ok.mp h
    obtain rfl := Except.ok.inj h
    refine .inl ⟨_, ⟨type, case, typed, named, rfl⟩, rfl, ?_⟩
    rw [named, Action.ofExcept_bind]
    rfl

/-- Of some properties each is a line or reported, and nothing else is recorded. -/
theorem divided_addMembers (h : (Action.foldEach (addMember gen g d) a qs w).result = .ok b) :
    ∃ lines, b = a.addTexts lines ∧ Divided (IsMember gen g) (IsLeftOut g d) qs lines
      (Note.diagnostics (Action.foldEach (addMember gen g d) a qs w).notes) := by
  induction qs generalizing a w with
  | nil =>
    obtain rfl := Except.ok.inj h
    exact ⟨[], by simp [Artifact.addTexts, Artifact.addLines], .nil⟩
  | cons q rest ih =>
    obtain ⟨a', first, others⟩ := Action.bind_eq_ok.mp h
    obtain ⟨lines, rfl, divided⟩ := ih others
    rw [Action.foldEach, Action.notes_bind first, Note.diagnostics_append]
    rcases addMember_cases first with ⟨line, member, rfl, notes⟩ | ⟨r, leftOut, rfl, notes⟩
    · refine ⟨line :: lines, ?_, ?_⟩
      · simp [Artifact.addTexts, Artifact.addLines, Artifact.addText, Artifact.addLine]
      · rw [notes]
        exact .keep member divided
    · refine ⟨lines, rfl, ?_⟩
      rw [notes]
      exact .leave leftOut divided

/-- Without hooks a model has the imports of its base and its types, and one line for each property that has a type,
between its first and its last line; just the other properties are reported. -/
theorem createModel_eq_ok (plain : gen.hooks = Hooks.none) (h : (createModel gen g d w).result = .ok b) :
    ∃ base lines, baseInterface gen.config d = .ok base ∧ modelImports gen.config g d base = .ok b.imports ∧
      b.source = .str (interfaceLine d base) :: lines.map .str ++ [.str "\x7d"] ∧
      b.item = .typeScriptModel ∧ b.hasRegions = true ∧ b.hasCustomImports = true ∧
      Divided (IsMember gen g) (IsLeftOut g d) d.properties lines
        (Note.diagnostics (createModel gen g d w).notes) := by
  unfold createModel at h ⊢
  simp only [Action.bind_eq, Generator.betweenHooks_none plain] at h ⊢
  obtain ⟨base, ofBase, found⟩ := Building.exists_of_orMisfit_bind h
  rw [found] at h ⊢
  obtain ⟨name, path, -, -, made⟩ := Generator.exists_of_newArtifact_bind plain h
  rw [made] at h ⊢
  obtain ⟨imports, ofTypes, stated⟩ := Building.exists_of_orMisfit_bind h
  rw [stated] at h ⊢
  obtain ⟨body, members, h⟩ := Action.bind_eq_ok.mp h
  obtain rfl := Except.ok.inj h
  obtain ⟨lines, rfl, divided⟩ := divided_addMembers members
  refine ⟨base, lines, ofBase, ofTypes, ?_, rfl, rfl, rfl, ?_⟩
  · simp [Artifact.addTexts, Artifact.addLines, Artifact.addText, Artifact.addLine]
  · rw [Action.notes_bind members, Note.diagnostics_append]
    simpa [Action.pure_eq, Action.ok, Note.diagnostics] using divided

/-- Without hooks a model has one line for each property that has a type, between its first and its last line, and
just the other properties are reported. -/
theorem divided_createModel (plain : gen.hooks = Hooks.none)
    (h : (createModel gen g d w).result = .ok b) :
    ∃ base lines, b.source = .str (interfaceLine d base) :: lines.map .str ++ [.str "\x7d"] ∧
      Divided (IsMember gen g) (IsLeftOut g d) d.properties lines
        (Note.diagnostics (createModel gen g d w).notes) := by
  obtain ⟨base, lines, -, -, source, -, -, -, divided⟩ := createModel_eq_ok plain h
  exact ⟨base, lines, source, divided⟩

/-- Without hooks and with options of their kinds a model can be emitted. -/
theorem createModel_ok (typed : gen.config.IsTyped) (plain : gen.hooks = Hooks.none) (g : TypeGraph)
    (d : TypeDescriptor) (w : Workshop) : ∃ a, (createModel gen g d w).result = .ok a := by
  obtain ⟨s, planned⟩ := Generator.plannedPath_ok typed d .typeScriptModel
  obtain ⟨a, made, _⟩ : ∃ a, (createModel gen g d w).result = .ok a ∧ a.IsAt s true :=
    createModel_yields typed plain planned w
  exact ⟨a, made⟩

end Scaffold.TypeScript
