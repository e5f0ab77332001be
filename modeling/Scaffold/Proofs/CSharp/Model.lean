import Scaffold.CSharp.Emission
import Scaffold.Proofs.Generation.Asked
import Scaffold.Proofs.Generation.Hook

/-!
The lines of a C# model. Without hooks they are put together from the type, the settings and the types of its
properties alone: what comes before the first property, each property with its attributes, the expression that
trails them, and the members.
-/

namespace Scaffold

namespace Artifact

variable {a : Artifact}

@[simp] theorem addTexts_nil (a : Artifact) : a.addTexts [] = a := by
  simp [addTexts, addLines]

@[simp] theorem addTexts_addTexts (a : Artifact) (lines more : List String) :
    (a.addTexts lines).addTexts more = a.addTexts (lines ++ more) := by
  simp [addTexts, addLines]

theorem addText_eq (a : Artifact) (line : String) : a.addText line = a.addTexts [line] := rfl

@[simp] theorem source_addTexts (a : Artifact) (lines : List String) :
    (a.addTexts lines).source = a.source ++ lines.map .str := rfl

end Artifact

namespace Action.Always

variable {σ ε α β : Type} {I : σ → Prop} {x : Action σ ε α} {a : α} {f : α → Action σ ε β} {b : β} {s : σ}

/-- What comes after a step that always gives the same goes on with it. -/
theorem next (first : x.Always I a) (h : I s) (ran : (x.bind f s).result = .ok b) :
    ∃ s', I s' ∧ (f a s').result = .ok b ∧ (x.bind f s).state = (f a s').state := by
  obtain ⟨given, left⟩ := first s h
  rw [result_bind given] at ran
  exact ⟨_, left, ran, state_bind given⟩

end Action.Always

namespace CSharp

open Scaffold.Graph Settings

variable {g : Generator} {graph : TypeGraph} {d : TypeDescriptor} {store : Store} {m : Mapper}
  {p : PropertyDescriptor} {a b : Artifact} {w : Workshop}

/-- The text that the store has for a scope; without an entry the default. -/
def textFor (store : Store) (scope : Scope) (default : String) : String := (store.value? scope).getD default

/-- The line around the text that the store has for a scope, if it has one. -/
def lineFor (store : Store) (scope : Scope) (line : String → String) : List String :=
  if textFor store scope "" = "" then [] else [line (textFor store scope "")]

/-- The line of an attribute, if the store has one for the scope. -/
def attributeLines (store : Store) (scope : Scope) : List String :=
  lineFor store scope fun given => "[" ++ given ++ "]"

/-- Is the property a member of the model? It is, unless it is a navigation or its switch is off. -/
def isMember (g : Generator) (store : Store) (p : PropertyDescriptor) : Bool :=
  !p.isNavigation && (store.textFlag? (g.scope .modelProperty p.identity "Generate")).getD true

/-- The properties of a model, by their order in the type. -/
def members (g : Generator) (store : Store) (d : TypeDescriptor) : List PropertyDescriptor :=
  d.properties.filter (isMember g store)

/-- The members that copies and comparisons are about. -/
def compared (g : Generator) (store : Store) (d : TypeDescriptor) : List PropertyDescriptor :=
  (members g store d).filter fun p => !p.isVersion

/-- The visibility that the store has for a model, if it is one. -/
def visibilityFor (g : Generator) (store : Store) (d : TypeDescriptor) : String :=
  if visibilities.contains (textFor store (g.scope .model d.qualifiedName "Visibility") "public") then
    textFor store (g.scope .model d.qualifiedName "Visibility") "public" else "public"

/-- The comment and the attribute above a model. -/
def headLines (g : Generator) (store : Store) (d : TypeDescriptor) : List String :=
  (if g.config.addComments.isSet then
    summary ("This model represents a transmission model for the '" ++ d.name ++ "' data unit.") else []) ++
  attributeLines store (g.scope .model d.qualifiedName "Attribute")

/-- The lines that open the class of a model. -/
def openingLines (g : Generator) (store : Store) (d : TypeDescriptor) : List String :=
  [visibilityFor g store d ++ " partial class " ++ d.name, "\x7b"]

/-- A property with its attribute. -/
def declarationLines (g : Generator) (store : Store) (p : PropertyDescriptor) (type : CSharpType) :
    List String :=
  attributeLines store (g.scope .modelProperty p.identity "Attribute") ++ [propertyLine p type]

/-- The expression after the properties, if the store has one. -/
def trailingLines (g : Generator) (store : Store) (d : TypeDescriptor) : List String :=
  lineFor store (g.scope .model d.qualifiedName ItemKind.lambda.name) fun given => given ++ ";"

/-- The methods of a model of some properties, of these types. -/
def methodLines (d : TypeDescriptor) (ps : List PropertyDescriptor) (type : PropertyDescriptor → CSharpType) :
    List String :=
  factories d.name ++ copyMethod d.name (ps.map fun p => Mapper.copyOf p (type p)) ++
    equalsMethod d.name ps ++ hashMethod ps

/-- What is inside the class of a model, whose properties have these types. -/
def classLines (g : Generator) (store : Store) (d : TypeDescriptor) (type : PropertyDescriptor → CSharpType) :
    List String :=
  (members g store d).flatMap (fun p => declarationLines g store p (type p)) ++ trailingLines g store d ++
    methodLines d (compared g store d) type

/-- All lines of a model. -/
def modelLines (g : Generator) (store : Store) (d : TypeDescriptor) (type : PropertyDescriptor → CSharpType) :
    List String :=
  headLines g store d ++ openingLines g store d ++ classLines g store d type ++ ["\x7d"]

theorem eq_of_mem_lineFor {scope : Scope} {f : String → String} {line : String} (mem : line ∈ lineFor store scope f) :
    line = f (textFor store scope "") := by
  unfold lineFor at mem
  split at mem
  · cases mem
  · exact List.mem_singleton.mp mem

theorem exists_of_mem_attributeLines {scope : Scope} {line : String} (mem : line ∈ attributeLines store scope) :
    ∃ rest, line = "[" ++ rest ++ "]" := ⟨_, eq_of_mem_lineFor mem⟩

/-- Above a model stand comments, and attributes in brackets. -/
theorem exists_of_mem_headLines {line : String} (mem : line ∈ headLines g store d) :
    (∃ rest, line = "/// " ++ rest) ∨ ∃ rest, line = "[" ++ rest ++ "]" := by
  rcases List.mem_append.mp mem with comment | bracketed
  · split at comment
    · simp only [summary, List.mem_cons, List.not_mem_nil, or_false] at comment
      rcases comment with rfl | rfl | rfl
      · exact .inl ⟨"<summary>", by decide⟩
      · exact .inl ⟨_, rfl⟩
      · exact .inl ⟨"</summary>", by decide⟩
    · cases comment
  · exact .inr (exists_of_mem_attributeLines bracketed)

/-- A copy assigns to a property from the same one of the other object. -/
theorem exists_copyOf_eq (p : PropertyDescriptor) (type : CSharpType) :
    ∃ rest, Mapper.copyOf p type = p.name ++ " " ++ ("=" ++ " " ++ ("other." ++ p.name ++ rest ++ ";")) := by
  have same {s t : String} (h : s.toList = t.toList) : s = t := String.toList_inj.mp h
  unfold Mapper.copyOf
  split
  · split
    · exact ⟨".Select(e => " ++ type.element.getD "None" ++ ".Create((object)e)).ToArray()", same (by simp)⟩
    · exact ⟨".Select(e => " ++ type.element.getD "None" ++ ".Create((object)e)).ToList()", same (by simp)⟩
    · exact ⟨" != null ? " ++ type.element.getD "None" ++ ".Create((object)other." ++ p.name ++ ") : null",
        same (by simp)⟩
  · exact ⟨"", same (by simp)⟩

theorem visibilityFor_mem (g : Generator) (store : Store) (d : TypeDescriptor) :
    visibilityFor g store d ∈ visibilities := by
  unfold visibilityFor
  split
  · exact List.contains_iff_mem.mp ‹_›
  · decide

theorem addTexts_lineFor (store : Store) (scope : Scope) (line : String → String) (a : Artifact) :
    (if textFor store scope "" = "" then a else a.addText (line (textFor store scope ""))) =
      a.addTexts (lineFor store scope line) := by
  unfold lineFor
  split
  · exact (a.addTexts_nil).symm
  · exact a.addText_eq _

theorem addAttribute_always (scope : Scope) (a : Artifact) :
    (addAttribute scope a).Always (Workshop.Reads store) (a.addTexts (attributeLines store scope)) := by
  refine .bind (Building.askText_always scope "") ?_
  exact addTexts_lineFor store scope (fun given => "[" ++ given ++ "]") a ▸ .ok _

theorem isGenerated_always (g : Generator) (p : PropertyDescriptor) :
    (isGenerated g p).Always (Workshop.Reads store) (isMember g store p) := by
  unfold isGenerated isMember
  cases p.isNavigation with
  | true => exact .ok false
  | false =>
    simp only [Bool.false_eq_true, if_false, Bool.not_false, Bool.true_and]
    exact Building.askSwitch_always (g.scope .modelProperty p.identity "Generate") true

theorem generatedProperties_always (g : Generator) (d : TypeDescriptor) :
    (generatedProperties g d).Always (Workshop.Reads store) (members g store d) :=
  .filterEach fun p _ => isGenerated_always g p

theorem visibility_always (g : Generator) (d : TypeDescriptor) :
    (visibility g d).Always (Workshop.Reads store) (visibilityFor g store d) := by
  refine .bind (Building.askText_always _ "public") ?_
  unfold visibilityFor textFor
  split
  · exact Action.Always.ok _
  · exact .bind (.note _) (Action.Always.ok _)

/-- The step of one property: its lines are added, if it has a type. -/
theorem addProperty_eq_ok (plain : g.hooks = Hooks.none) (reads : w.Reads store)
    (h : (addProperty g m a p w).result = .ok b) :
    ∃ type, m.mapProperty p = .ok type ∧ b = a.addTexts (declarationLines g store p type) ∧
      (addProperty g m a p w).state.Reads store := by
  unfold addProperty at h ⊢
  simp only [Action.bind_eq, Generator.betweenHooks_none plain] at h ⊢
  obtain ⟨w', reads', ran, state⟩ := (addAttribute_always _ a).next reads h
  obtain ⟨type, typed, goesOn⟩ := Building.exists_of_orMisfit_bind ran
  rw [goesOn] at ran state
  obtain rfl := Except.ok.inj ran
  refine ⟨type, typed, ?_, ?_⟩
  · rw [Artifact.addText_eq, Artifact.addTexts_addTexts]
    rfl
  · rw [state]
    exact reads'

/-- The run over all properties: of each the lines are added, in their order. -/
theorem addProperties_eq_ok (plain : g.hooks = Hooks.none) {ps : List PropertyDescriptor}
    (reads : w.Reads store) (h : (Action.foldEach (addProperty g m) a ps w).result = .ok b) :
    (∀ p ∈ ps, ∃ type, m.mapProperty p = .ok type) ∧
      (∀ type : PropertyDescriptor → CSharpType, (∀ p ∈ ps, m.mapProperty p = .ok (type p)) →
        b = a.addTexts (ps.flatMap fun p => declarationLines g store p (type p))) ∧
      (Action.foldEach (addProperty g m) a ps w).state.Reads store := by
  induction ps generalizing a w with
  | nil =>
    obtain rfl := Except.ok.inj h
    exact ⟨by simp, fun _ _ => by simp, reads⟩
  | cons p rest ih =>
    obtain ⟨a', first, others⟩ := Action.bind_eq_ok.mp h
    obtain ⟨type, typed, added, reads'⟩ := addProperty_eq_ok plain reads first
    obtain ⟨typedRest, addedRest, readsRest⟩ := ih reads' others
    refine ⟨List.forall_mem_cons.mpr ⟨⟨type, typed⟩, typedRest⟩, fun types each => ?_, ?_⟩
    · obtain ⟨here, later⟩ := List.forall_mem_cons.mp each
      obtain rfl := Except.ok.inj (typed.symm.trans here)
      rw [addedRest types later, added, Artifact.addTexts_addTexts]
      rfl
    · rw [Action.foldEach, Action.state_bind first]
      exact readsRest

theorem memberLines_eq_ok {ps : List PropertyDescriptor} {type : PropertyDescriptor → CSharpType}
    (typed : ∀ p ∈ ps, m.mapProperty p = .ok (type p)) :
    memberLines m d ps =
      .ok (methodLines d (ps.filter fun p => !p.isVersion) type ++ ["\x7d"]) := by
  have statements : (ps.filter fun p => !p.isVersion).mapM m.copyStatement =
      .ok ((ps.filter fun p => !p.isVersion).map fun p => Mapper.copyOf p (type p)) :=
    mapM_eq_ok_map fun p mem => by
      rw [Mapper.copyStatement, typed p (List.mem_filter.mp mem).1]
      rfl
  simp only [memberLines, statements]
  exact congrArg Except.ok (by simp [methodLines])

/-- Without hooks the lines of a model are these, for the types that its properties have. -/
theorem createModel_eq_ok (plain : g.hooks = Hooks.none) (reads : w.Reads store)
    (h : (createModel g graph d w).result = .ok a) :
    ∃ type : PropertyDescriptor → CSharpType,
      (∀ p ∈ members g store d, (mapper g graph).mapProperty p = .ok (type p)) ∧
      a.source = (modelLines g store d type).map .str ∧ a.imports = [] ∧ a.item = .model ∧
      a.hasRegions = true ∧ a.hasCustomImports = true := by
  unfold createModel at h
  simp only [Action.bind_eq, Generator.betweenHooks_none plain] at h
  obtain ⟨name, path, -, -, made⟩ := Generator.exists_of_newArtifact_bind plain h
  rw [made] at h
  obtain ⟨w, reads, h, -⟩ := (visibility_always g d).next reads h
  obtain ⟨w, reads, h, -⟩ := (addAttribute_always _ _).next reads h
  obtain ⟨w, reads, h, -⟩ := (generatedProperties_always g d).next reads h
  obtain ⟨b, added, h⟩ := Action.bind_eq_ok.mp h
  obtain ⟨typed, lines, reads⟩ := addProperties_eq_ok plain reads added
  obtain ⟨w, reads, h, -⟩ := (Building.askText_always _ "").next reads h
  obtain ⟨found, isFound, goesOn⟩ := Building.exists_of_orMisfit_bind h
  rw [goesOn] at h
  obtain rfl := Except.ok.inj h
  -- the types are those that the map has; where it has none it does not matter which
  let type (p : PropertyDescriptor) : CSharpType :=
    ((mapper g graph).mapProperty p).toOption.getD { name := p.typeName }
  have ofType : ∀ p ∈ members g store d, (mapper g graph).mapProperty p = .ok (type p) := by
    intro p mem
    obtain ⟨t, eq⟩ := typed p mem
    simp [type, eq, Except.toOption]
  obtain rfl := lines type ofType
  obtain rfl := Except.ok.inj ((memberLines_eq_ok ofType).symm.trans isFound)
  refine ⟨type, ofType, ?_⟩
  have trailing := addTexts_lineFor store (g.scope .model d.qualifiedName ItemKind.lambda.name)
    fun given => given ++ ";"
  unfold textFor at trailing
  rw [trailing, addSummary_eq]
  simp only [Artifact.addTexts_addTexts, Artifact.source_addTexts, List.nil_append]
  refine ⟨?_, rfl, rfl, rfl, rfl⟩
  simp only [modelLines, headLines, openingLines, classLines, trailingLines, compared, List.append_assoc]

end CSharp

end Scaffold
