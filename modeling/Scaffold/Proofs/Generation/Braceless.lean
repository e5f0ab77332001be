import Scaffold.Config.Options
import Scaffold.CSharp.Emission
import Scaffold.Proofs.Graph.Lookup
import Scaffold.Proofs.Import
import Scaffold.Proofs.Naming.Marks
import Scaffold.Proofs.Text.Depth
import Scaffold.TypeScript.Emission

/-!
Names and texts without braces. What the types of properties, namespaces and import lines are written with comes from
the names of the types and from the options; so where these have no braces, those have none but their own.
-/

namespace Scaffold

open Text (Braceless Level)

/-- The property is called something without braces, and so is its type. -/
structure Graph.PropertyDescriptor.IsBraceless (p : Graph.PropertyDescriptor) : Prop where
  name : Braceless p.name.toList
  typeName : Braceless p.typeName.toList
  elementName : ∀ element ∈ p.elementName, Braceless element.toList

/-- Nothing that the type names has a brace. -/
structure Graph.TypeDescriptor.IsBraceless (d : Graph.TypeDescriptor) : Prop where
  name : Braceless d.name.toList
  namespace_ : Braceless d.namespace_.toList
  properties : ∀ p ∈ d.properties, p.IsBraceless
  members : ∀ m ∈ d.members, Braceless m.name.toList

def Graph.TypeGraph.IsBraceless (graph : Graph.TypeGraph) : Prop := ∀ d ∈ graph.descriptors, d.IsBraceless

/-- No text that the settings give has a brace. -/
def Settings.Store.IsBraceless (store : Settings.Store) : Prop := ∀ entry ∈ store.entries, Braceless entry.2.toList

/-- No option that is written into an artifact has a brace. -/
structure Config.IsBraceless (c : Config) : Prop where
  rootNamespace : Braceless c.rootNamespace.text.toList
  modelsFolder : Braceless c.modelsFolder.text.toList
  enumAlias : Braceless c.enumAlias.text.toList
  modelAlias : Braceless c.modelAlias.text.toList
  serviceAlias : Braceless c.serviceAlias.text.toList
  bases : ∀ name base, Graph.mapped? c.angularBaseClasses name = .ok (some base) → Braceless base.text.toList

theorem Config.isBraceless_default : Config.default.IsBraceless where
  rootNamespace := by decide
  modelsFolder := by decide
  enumAlias := by decide
  modelAlias := by decide
  serviceAlias := by decide
  bases := by
    intro name base mapped
    obtain ⟨⟨key, value⟩, mem, eq⟩ := List.mem_map.mp (Fields.mem_of_get? (Except.ok.inj mapped))
    obtain ⟨rfl, rfl⟩ := Prod.mk.inj eq
    have each : ∀ field ∈ [("EntityObject", "IdentityModel"), ("VersionEntityObject", "VersionModel"),
      ("ViewObject", "ViewModel")], Braceless field.2.toList := by decide
    exact each _ mem

theorem braceless_empty : Braceless "".toList := by decide

namespace Naming

variable {parts : List Json} {v : Json} {s : String}

theorem pathPart_eq_ok (h : pathPart v = .ok s) : s = v.text ∨ s = "" := by
  unfold pathPart at h
  split at h
  · cases v with
    | str t => exact .inl (Except.ok.inj h).symm
    | _ => cases h
  · exact .inr (Except.ok.inj h).symm

theorem modulePart_eq_ok (h : modulePart v = .ok s) : s = v.text ∨ s = "" := by
  unfold modulePart at h
  split at h
  · exact .inl (Except.ok.inj h).symm
  · split at h
    · cases h
    · exact .inr (Except.ok.inj h).symm

/-- A text whose marks are those of some parts has no braces if they have none. -/
theorem braceless_of_parts {texts : List String}
    (marks : ∀ d ∈ s.toList, Text.isMark d = true → ∃ part ∈ texts, d ∈ part.toList)
    (each : ∀ part ∈ texts, Braceless part.toList) : Braceless s.toList := by
  constructor
  · intro mem
    obtain ⟨part, memPart, inPart⟩ := marks _ mem (by decide)
    exact (each part memPart).1 inPart
  · intro mem
    obtain ⟨part, memPart, inPart⟩ := marks _ mem (by decide)
    exact (each part memPart).2 inPart

theorem braceless_intercalate {between : String} {texts : List String} (h : Braceless between.toList)
    (each : ∀ part ∈ texts, Braceless part.toList) : Braceless (between.intercalate texts).toList := by
  refine braceless_of_parts (fun d mem _ => ?_) (List.forall_mem_cons.mpr ⟨h, each⟩)
  rcases mem_intercalate mem with inside | ⟨part, memPart, inPart⟩
  · exact ⟨between, List.mem_cons_self, inside⟩
  · exact ⟨part, List.mem_cons_of_mem _ memPart, inPart⟩

theorem braceless_joinGiven (h : joinGiven parts = .ok s) (each : ∀ v ∈ parts, Braceless v.text.toList) :
    Braceless s.toList := by
  obtain ⟨texts, made, rfl⟩ := exists_of_map_eq_ok h
  refine braceless_of_parts (fun d => exists_part_of_mark) fun part mem => ?_
  obtain ⟨v, memV, ofV⟩ := exists_of_mem_mapM made mem
  rcases pathPart_eq_ok ofV with rfl | rfl
  · exact each v memV
  · exact braceless_empty

theorem braceless_moduleGiven (h : moduleGiven parts = .ok s) (each : ∀ v ∈ parts, Braceless v.text.toList) :
    Braceless s.toList := by
  obtain ⟨texts, made, rfl⟩ := exists_of_map_eq_ok h
  refine braceless_of_parts (fun d => exists_part_of_mark_module) fun part mem => ?_
  obtain ⟨v, memV, ofV⟩ := exists_of_mem_mapM made mem
  rcases modulePart_eq_ok ofV with rfl | rfl
  · exact each v memV
  · exact braceless_empty

end Naming

namespace Settings.Store

variable {store : Store}

theorem IsBraceless.value? (h : store.IsBraceless) {scope : Scope} {value : String}
    (found : store.value? scope = some value) : Braceless value.toList := by
  have each {scope : Scope} (found : store.lookup? scope = some value) : Braceless value.toList :=
    h _ (Fields.mem_of_get? found)
  unfold Store.value? at found
  cases own : store.lookup? scope with
  | some text =>
    rw [own] at found
    obtain rfl := Option.some.inj found
    exact each own
  | none =>
    rw [own] at found
    exact each found

end Settings.Store

open Scaffold.Graph

variable {graph : TypeGraph} {c : Config} {d : TypeDescriptor} {p : PropertyDescriptor}

theorem Graph.PropertyDescriptor.IsBraceless.writtenTarget (h : p.IsBraceless) : Braceless p.writtenTarget.toList := by
  unfold PropertyDescriptor.writtenTarget
  split
  · split
    · exact h.typeName
    · exact h.elementName _ ‹_›
  · exact h.typeName

namespace CSharp

variable {g : Generator} {type : CSharpType}

structure CSharpType.IsBraceless (type : CSharpType) : Prop where
  name : Braceless type.name.toList
  element : ∀ element ∈ type.element, Braceless element.toList
  initializer : ∀ value ∈ type.initializer, Braceless value.toList

theorem braceless_target (texts : g.config.IsBraceless) (types : graph.IsBraceless) (h : p.IsBraceless)
    {target : String × Bool} (found : (mapper g graph).target p = .ok target) : Braceless target.1.toList := by
  unfold Mapper.target at found
  cases resolved : graph.resolve? p with
  | none =>
    simp only [mapper, resolved] at found
    obtain rfl := Except.ok.inj found
    exact h.writtenTarget
  | some t =>
    have named := types t (TypeGraph.mem_of_resolve? resolved)
    simp only [mapper, resolved] at found
    split at found
    · obtain ⟨full, given, rfl⟩ := exists_of_map_eq_ok found
      refine Naming.braceless_moduleGiven given fun v mem => ?_
      simp only [List.mem_cons, List.not_mem_nil, or_false] at mem
      rcases mem with rfl | rfl | rfl
      · exact texts.rootNamespace
      · exact named.namespace_
      · exact named.name
    · obtain ⟨full, given, rfl⟩ := exists_of_map_eq_ok found
      obtain ⟨front, joined, rfl⟩ := exists_of_map_eq_ok given
      refine .concat (.concat (Naming.braceless_moduleGiven joined fun v mem => ?_) (by decide)) named.name
      simp only [List.mem_cons, List.not_mem_nil, or_false] at mem
      rcases mem with rfl | rfl | rfl
      · exact texts.rootNamespace
      · exact texts.modelsFolder
      · exact named.namespace_

theorem braceless_plainType (h : p.IsBraceless) : (Mapper.plainType p).IsBraceless := by
  have nullable : Braceless (p.typeName ++ "?").toList := h.typeName.concat (by decide)
  unfold Mapper.plainType
  split
  · exact ⟨nullable, nofun, nofun⟩
  split
  · exact ⟨h.typeName, nofun, by simp; decide⟩
  split
  · exact ⟨h.typeName, nofun, nofun⟩
  · exact ⟨nullable, nofun, nofun⟩

theorem braceless_referenceType (h : p.IsBraceless) {name : String} (named : Braceless name.toList) (isModel : Bool) :
    (Mapper.referenceType p name isModel).IsBraceless := by
  have nullable : Braceless (name ++ "?").toList := named.concat (by decide)
  have own : ∀ element ∈ some name, Braceless element.toList := by simpa using named
  unfold Mapper.referenceType
  split
  · refine ⟨.concat (.concat (by decide) named) (by decide), own, ?_⟩
    simp only [Option.mem_some_iff, forall_eq']
    decide
  · refine ⟨named.concat (by decide), own, ?_⟩
    simp only [Option.mem_some_iff, forall_eq']
    exact .concat (.concat (by decide) named) (by decide)
  · exact ⟨nullable, own, nofun⟩
  · refine ⟨?_, nofun, nofun⟩
    split
    · exact nullable
    · exact named
  all_goals exact braceless_plainType h

theorem braceless_mapProperty (texts : g.config.IsBraceless) (types : graph.IsBraceless) (h : p.IsBraceless)
    (typed : (mapper g graph).mapProperty p = .ok type) : type.IsBraceless := by
  unfold Mapper.mapProperty at typed
  split at typed
  iterate 3
    obtain rfl := Except.ok.inj typed
    exact braceless_plainType h
  obtain ⟨target, found, rfl⟩ := exists_of_map_eq_ok typed
  exact braceless_referenceType h (braceless_target texts types h found) _

end CSharp

namespace TypeScript

theorem braceless_mapScalar {typeName : String} {isNumeric : Bool} {type : String}
    (h : mapScalar typeName isNumeric = some type) : Braceless type.toList := by
  unfold mapScalar at h
  split at h
  · obtain rfl := Option.some.inj h
    decide
  split at h
  · obtain rfl := Option.some.inj h
    decide
  split at h
  · obtain rfl := Option.some.inj h
    decide
  split at h
  · obtain rfl := Option.some.inj h
    decide
  · cases h

theorem braceless_withoutInterfaceMark {s : String} (h : Braceless s.toList) :
    Braceless (Naming.withoutInterfaceMark s).toList := .of_marksIn (Naming.marksIn_withoutInterfaceMark s) h

theorem braceless_opaqueElement (h : p.IsBraceless) {element : String} (found : opaqueElement p = some element) :
    Braceless element.toList := by
  have own : Braceless (p.elementName.getD "").toList := by
    cases named : p.elementName with
    | none => exact braceless_empty
    | some name => exact h.elementName name named
  unfold opaqueElement at found
  simp only at found
  split at found
  · obtain rfl := Option.some.inj found
    exact braceless_withoutInterfaceMark own
  split at found
  · exact braceless_mapScalar found
  · obtain rfl := Option.some.inj found
    exact own

theorem braceless_elementName (types : graph.IsBraceless) (h : p.IsBraceless) {element : String}
    (found : elementName graph p = some element) : Braceless element.toList := by
  unfold elementName at found
  split at found
  · split at found
    · obtain rfl := Option.some.inj found
      exact (types _ (TypeGraph.mem_of_resolve? ‹_›)).name
    · exact braceless_opaqueElement h found
  · exact braceless_opaqueElement h found

theorem braceless_referenceName (types : graph.IsBraceless) (h : p.IsBraceless) :
    Braceless (referenceName graph p).toList := by
  unfold referenceName
  split
  · exact braceless_withoutInterfaceMark h.writtenTarget
  · split
    · exact (types _ (TypeGraph.mem_of_resolve? ‹_›)).name
    · exact h.writtenTarget

theorem braceless_mapProperty (types : graph.IsBraceless) (h : p.IsBraceless) {type : String}
    (typed : mapProperty graph p = some type) : Braceless type.toList := by
  unfold mapProperty at typed
  split at typed
  · obtain rfl := Option.some.inj typed
    decide
  · obtain rfl := Option.some.inj typed
    decide
  · exact braceless_mapScalar typed
  · split at typed
    · obtain rfl := Option.some.inj typed
      exact (types _ (TypeGraph.mem_of_resolve? ‹_›)).name
    · exact h.elementName type typed
  · obtain rfl := Option.some.inj typed
    exact braceless_referenceName types h
  all_goals
    split at typed
    · cases typed
    · obtain rfl := Option.some.inj typed
      exact (braceless_elementName types h ‹_›).concat (by decide)
    · cases typed

variable {aliasPath name : Json} {line subPath : String}

/-- The braces of an import line are the pair around the name. -/
theorem level_importLine {name module_ : String} (named : Braceless name.toList) (path : Braceless module_.toList) :
    Level (importLine name module_).toList := by
  have pair : Level ("import \x7b " ++ name ++ " \x7d from '").toList := by
    rw [String.append_assoc, String.toList_append, String.toList_append]
    exact named.level.between (by decide) (by decide)
  exact Text.level_concat (Text.level_concat pair path.level) (by decide)

theorem level_importGiven (aliased : Braceless aliasPath.text.toList) (named : Braceless name.text.toList)
    (folder : Braceless subPath.toList) (h : importGiven aliasPath name (.str subPath) = .ok line) :
    Level line.toList := by
  obtain ⟨n, folderItem, module_, rfl, ofSubPath, joined, rfl⟩ := Import.exists_importLine_of_given h
  rw [importFolder_text] at ofSubPath
  obtain rfl := Except.ok.inj ofSubPath
  refine level_importLine named (Naming.braceless_joinGiven joined fun v mem => ?_)
  simp only [List.mem_cons, List.not_mem_nil, or_false] at mem
  rcases mem with rfl | rfl | rfl
  · exact aliased
  · exact .of_marksIn (Naming.marksIn_fileItem subPath) folder
  · exact .of_marksIn (Naming.marksIn_fileItem n) named

end TypeScript

end Scaffold
