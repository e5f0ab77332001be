import Scaffold.Proofs.CSharp.Model
import Scaffold.Proofs.Decimal.Digits
import Scaffold.Proofs.Generation.Braceless
import Scaffold.Proofs.Generation.Composed
import Scaffold.Proofs.Generation.Sharing
import Scaffold.Proofs.Template.Rendering
import Scaffold.Proofs.TypeScript.Members
import Scaffold.Proofs.TypeScript.Service

/-!
Braces of what is built. Each item is lines that are level, a header that opens a body, level lines within it and a last
line that closes it. The region of custom code is put before that line; so it is at the depth of the body, and as what
is put above and below is in balance, so is the whole.
-/

namespace Scaffold

open Scaffold.Graph Region
open Text (Braceless Level braceDepth charsOf)

variable {g : Generator} {graph : TypeGraph} {item : ItemKind} {d : TypeDescriptor} {w : Workshop}
  {a e : Artifact} {store : Settings.Store}

namespace CSharp

variable {type : PropertyDescriptor → CSharpType} {ps : List PropertyDescriptor} {p : PropertyDescriptor}
  {name : String}

theorem level_lineFor (settings : store.IsBraceless) {scope : Settings.Scope} {line : String → String}
    (each : ∀ s : String, Braceless s.toList → Braceless (line s).toList) :
    Level (charsOf (lineFor store scope line)) := by
  have given : Braceless (textFor store scope "").toList := by
    unfold textFor
    cases found : store.value? scope with
    | none => exact braceless_empty
    | some value => exact settings.value? found
  unfold lineFor
  split
  · exact .nil
  · exact .cons (each _ given).level .nil

theorem level_attributeLines (settings : store.IsBraceless) (scope : Settings.Scope) :
    Level (charsOf (attributeLines store scope)) :=
  level_lineFor settings fun _ given => .concat (.concat (by decide) given) (by decide)

theorem level_headLines (settings : store.IsBraceless) (named : Braceless d.name.toList) :
    Level (charsOf (headLines g store d)) := by
  refine .concat ?_ (level_attributeLines settings _)
  split
  · have about : Braceless ("/// " ++ ("This model represents a transmission model for the '" ++ d.name ++
        "' data unit.")).toList := .concat (by decide) (.concat (.concat (by decide) named) (by decide))
    exact .cons (by decide) (.cons about.level (.cons (by decide) .nil))
  · exact .nil

theorem depth_openingLines (named : Braceless d.name.toList) :
    braceDepth 0 (charsOf (openingLines g store d)) = some 1 := by
  have shown : ∀ v ∈ visibilities, Braceless v.toList := by decide
  have declared : Braceless (visibilityFor g store d ++ " partial class " ++ d.name).toList :=
    .concat (.concat (shown _ (visibilityFor_mem g store d)) (by decide)) named
  rw [openingLines, Text.braceDepth_line declared.level]
  rfl

theorem level_propertyLine {type : CSharpType} (typed : type.IsBraceless) (named : Braceless p.name.toList) :
    Level (propertyLine p type).toList := by
  unfold propertyLine
  refine Text.level_concat (Text.level_concat (Braceless.level ?_) (by decide)) (Braceless.level ?_)
  · exact .concat (.concat (.concat (by decide) typed.name) (by decide)) named
  · split
    · exact .concat (.concat (by decide) (typed.initializer _ ‹_›)) (by decide)
    · exact braceless_empty

theorem braceless_copyOf {type : CSharpType} (typed : type.IsBraceless) (named : Braceless p.name.toList) :
    Braceless (Mapper.copyOf p type).toList := by
  have element : Braceless (type.element.getD "None").toList := by
    cases found : type.element with
    | none => decide
    | some element => exact typed.element element found
  have copies : Braceless (p.name ++ " = other." ++ p.name).toList := .concat (.concat named (by decide)) named
  unfold Mapper.copyOf
  split
  · split
    · exact .concat (.concat (copies.concat (by decide)) element) (by decide)
    · exact .concat (.concat (copies.concat (by decide)) element) (by decide)
    · exact .concat (.concat (.concat (.concat (copies.concat (by decide)) element) (by decide)) named) (by decide)
  · exact copies.concat (by decide)

theorem braceless_comparison (named : ∀ p ∈ ps, Braceless p.name.toList) : Braceless (comparison ps).toList := by
  unfold comparison
  split
  · decide
  · refine Naming.braceless_intercalate (by decide) fun part mem => ?_
    obtain ⟨p, memP, rfl⟩ := List.mem_map.mp mem
    exact .concat (.concat ((named p memP).between (by decide) (by decide)) (named p memP)) (by decide)

theorem level_factories (named : Braceless name.toList) : Level (charsOf (factories name)) := by
  have create := (named.between (s := "public static ") (u := " Create()") (by decide) (by decide)).level
  have fresh := (named.between (s := "return new ") (u := "();") (by decide) (by decide)).level
  have convert := (named.between (s := "public static ") (u := " Create(object other)") (by decide) (by decide)).level
  have check : Level "ArgumentNullException.ThrowIfNull(other);".toList := by decide
  have result := (named.between (s := "var result = new ") (u := "();") (by decide) (by decide)).level
  have cast := (named.between (s := "if (other is ") (u := " model)") (by decide) (by decide)).level
  have copy : Level "result.CopyProperties(model);".toList := by decide
  have back : Level "return result;".toList := by decide
  intro n
  simp only [factories, Text.braceDepth_openLine, Text.braceDepth_closeLine, Text.braceDepth_line create,
    Text.braceDepth_line fresh, Text.braceDepth_line convert, Text.braceDepth_line check, Text.braceDepth_line result,
    Text.braceDepth_line cast, Text.braceDepth_line copy, Text.braceDepth_line back]
  rfl

theorem level_copyMethod (named : Braceless name.toList) {statements : List String}
    (each : ∀ s ∈ statements, Braceless s.toList) : Level (charsOf (copyMethod name statements)) := by
  have header := (named.between (s := "public void CopyProperties(") (u := " other)") (by decide) (by decide)).level
  have check : Level "ArgumentNullException.ThrowIfNull(other);".toList := by decide
  have copies : Level (charsOf statements) := .of_lines fun s mem => (each s mem).level
  intro n
  simp only [copyMethod, List.cons_append, List.nil_append, Text.braceDepth_openLine, Text.braceDepth_line header,
    Text.braceDepth_line check, Text.braceDepth_lines copies, Text.braceDepth_closeLine]
  rfl

theorem level_equalsMethod (named : Braceless name.toList) (each : ∀ p ∈ ps, Braceless p.name.toList) :
    Level (charsOf (equalsMethod name ps)) := by
  have header : Level "public override bool Equals(object? obj)".toList := by decide
  have cast := (named.between (s := "if (obj is not ") (u := " other)") (by decide) (by decide)).level
  have other : Level "return false;".toList := by decide
  have compare := ((braceless_comparison each).between (s := "return ") (u := ";") (by decide) (by decide)).level
  intro n
  simp only [equalsMethod, Text.braceDepth_openLine, Text.braceDepth_closeLine, Text.braceDepth_line header,
    Text.braceDepth_line cast, Text.braceDepth_line other, Text.braceDepth_line compare]
  rfl

theorem level_hashMethod (each : ∀ p ∈ ps, Braceless p.name.toList) : Level (charsOf (hashMethod ps)) := by
  have header : Level "public override int GetHashCode()".toList := by decide
  have start : Level "var hashCode = new HashCode();".toList := by decide
  have adds : Level (charsOf (ps.map fun p => "hashCode.Add(" ++ p.name ++ ");")) := by
    refine .of_lines fun line mem => ?_
    obtain ⟨p, memP, rfl⟩ := List.mem_map.mp mem
    exact ((each p memP).between (by decide) (by decide)).level
  have back : Level "return hashCode.ToHashCode();".toList := by decide
  intro n
  simp only [hashMethod, List.cons_append, List.nil_append, Text.braceDepth_openLine,
    Text.braceDepth_line header, Text.braceDepth_line start, Text.braceDepth_lines adds, Text.braceDepth_line back,
    Text.braceDepth_closeLine]
  rfl

/-- The body of a model: its class. -/
theorem isBody_model (settings : store.IsBraceless) (named : d.IsBraceless)
    (typed : ∀ p ∈ members g store d, (type p).IsBraceless) :
    Text.IsBody (headLines g store d) (openingLines g store d) (classLines g store d type) := by
  have ofMember : ∀ p ∈ members g store d, Braceless p.name.toList := fun p mem =>
    (named.properties p (List.mem_filter.mp mem).1).name
  have isMember : ∀ p ∈ compared g store d, p ∈ members g store d := fun p mem => (List.mem_filter.mp mem).1
  have ofCompared : ∀ p ∈ compared g store d, Braceless p.name.toList := fun p mem => ofMember p (isMember p mem)
  refine ⟨level_headLines settings named.name, depth_openingLines named.name, .concat (.concat ?_ ?_) ?_⟩
  · refine .flatMap fun p mem => .concat (level_attributeLines settings _) ?_
    exact .cons (level_propertyLine (typed p mem) (ofMember p mem)) .nil
  · exact level_lineFor settings fun _ given => given.concat (by decide)
  · refine .concat (.concat (.concat (level_factories named.name) (level_copyMethod named.name ?_))
      (level_equalsMethod named.name ofCompared)) (level_hashMethod ofCompared)
    intro s mem
    obtain ⟨p, memP, rfl⟩ := List.mem_map.mp mem
    exact braceless_copyOf (typed p (isMember p memP)) (ofCompared p memP)

end CSharp

namespace TypeScript

variable {base : Json}

theorem braceless_int (n : Int) : Braceless (toString n).toList := by
  have digits (k : Nat) : Braceless (toString k).toList := by
    rw [Nat.toString_eq_ofList_toDigits, String.toList_ofList]
    constructor
    all_goals
      intro mem
      exact absurd (Decimal.isDigit_of_mem_toDigits mem) (by decide)
  cases n with
  | ofNat k => exact digits k
  | negSucc k => exact .concat (s := "-") (by decide) (digits (k + 1))

theorem depth_opening {line : String} (h : Braceless line.toList) {brace : String}
    (opens : braceDepth 0 brace.toList = some 1) : braceDepth 0 (line ++ brace).toList = some 1 :=
  (Text.braceDepth_concat h.level 0 brace).trans opens

/-- The body of an enumeration: its members. -/
theorem isBody_enum (named : d.IsBraceless) :
    Text.IsBody [] ["export enum " ++ d.name ++ " \x7b"]
      (d.members.map fun m => "  " ++ m.name ++ " = " ++ toString m.value ++ ",") := by
  refine ⟨.nil, ?_, .of_lines fun line mem => ?_⟩
  · rw [Text.charsOf_singleton]
    exact depth_opening (.concat (by decide) named.name) (by decide)
  · obtain ⟨m, memM, rfl⟩ := List.mem_map.mp mem
    have front : Braceless ("  " ++ m.name ++ " = ").toList :=
      (named.members m memM).between (by decide) (by decide)
    exact ((braceless_int m.value).between front (by decide)).level

/-- The body of a model: its members. -/
theorem isBody_model (types : graph.IsBraceless) (named : d.IsBraceless) (based : Braceless base.text.toList)
    {lines : List String} (members : ∀ line ∈ lines, ∃ p ∈ d.properties, IsMember g graph p line) :
    Text.IsBody [] [interfaceLine d base] lines := by
  refine ⟨.nil, ?_, .of_lines fun line mem => ?_⟩
  · rw [Text.charsOf_singleton]
    unfold interfaceLine
    refine depth_opening (.concat (.concat (by decide) named.name) ?_) (by decide)
    split
    · exact braceless_empty
    · exact .concat (by decide) based
  · obtain ⟨p, memP, type, case, typed, -, rfl⟩ := members line mem
    have isNamed := named.properties p memP
    have front : Braceless ("  " ++ case.apply p.name ++ ": ").toList :=
      Braceless.between (.of_marksIn (Naming.marksIn_apply case p.name) isNamed.name) (by decide) (by decide)
    exact ((braceless_mapProperty types isNamed typed).between front (by decide)).level

theorem level_constructorLines {p : Packages} (keeps : p.KeepsMarks) (named : Braceless d.name.toList) :
    Level (charsOf (constructorLines p d)) := by
  have address : Braceless (Text.lower (p.pluralOf d.name)).toList :=
    .of_marksIn ((Naming.marksIn_lower _).trans (marksIn_pluralOf keeps _)) named
  have called : Level (addressLine p d).toList := (address.between (by decide) (by decide)).level
  exact called.between (by decide) (by decide)

/-- The body of a service, however its lines are divided: its constructor. -/
theorem isBody_service {p : Packages} (keeps : p.KeepsMarks) (named : Braceless d.name.toList) :
    Text.IsBody decoratorLines (Text.splitLines (serviceLine d)) ((constructorLines p d).flatMap Text.splitLines) := by
  refine ⟨by decide, ?_, fun n => ?_⟩
  · have based : Braceless (baseService d).toList := by
      unfold baseService
      split <;> decide
    rw [Text.braceDepth_splitLines]
    refine depth_opening ?_ (by decide)
    exact .concat (.concat (.concat (named.between (by decide) (by decide)) based) (by decide)) named
  · rw [Text.braceDepth_flatMap_splitLines]
    exact level_constructorLines keeps named n

theorem exists_of_firstMapped? {mapping : Json} {names : List String} {value : Json}
    (h : firstMapped? mapping names = .ok (some value)) : ∃ name, mapped? mapping name = .ok (some value) := by
  induction names with
  | nil => cases h
  | cons name rest ih =>
    obtain ⟨found, mapped, h⟩ := exists_of_bind_eq_ok h
    cases found with
    | some first =>
      obtain rfl := Option.some.inj (Except.ok.inj h)
      exact ⟨name, mapped⟩
    | none => exact ih h

theorem braceless_baseInterface (options : g.config.IsBraceless) (h : baseInterface g.config d = .ok base) :
    Braceless base.text.toList := by
  obtain ⟨found, mapped, rfl⟩ := exists_of_map_eq_ok h
  cases found with
  | none => decide
  | some value =>
    obtain ⟨name, isMapped⟩ := exists_of_firstMapped? mapped
    exact options.bases name value isMapped

theorem level_modelImports (options : g.config.IsBraceless) (types : graph.IsBraceless)
    (based : Braceless base.text.toList) {lines : List String} (h : modelImports g.config graph d base = .ok lines) :
    ∀ line ∈ lines, Level line.toList := by
  intro line mem
  rcases given_of_mem_modelImports h mem with given | ⟨p, -, t, resolved, given⟩
  · exact level_importGiven options.modelAlias based braceless_empty given
  · have named := types t (TypeGraph.mem_of_resolve? resolved)
    have isNamed : Braceless (Json.str t.name).text.toList := named.name
    have folder : Braceless (Naming.subPath t.namespace_).toList :=
      .of_marksIn (Naming.marksIn_subPath _) named.namespace_
    unfold Import.ofTarget at given
    split at given
    · exact level_importGiven options.enumAlias isNamed folder given
    · exact level_importGiven options.modelAlias isNamed folder given

/-- Wherever the module of an import line is divided, each line of it is level. -/
theorem level_of_mem_importLine {name module_ line : String} (single : Text.isSingleLine name = true)
    (named : Braceless name.toList) (path : Braceless module_.toList)
    (mem : line ∈ Text.splitLines (importLine name module_)) : Level line.toList := by
  have split : importLine name module_ = ("import \x7b " ++ name ++ " \x7d from '") ++ (module_ ++ "';") := by
    unfold importLine
    rw [String.append_assoc]
  rw [split] at mem
  refine Text.level_of_mem_splitLines ?_ ?_ (path.concat (by decide)) mem
  · simp only [Text.isSingleLine_append, single]
    decide
  · rw [String.append_assoc, String.toList_append, String.toList_append]
    exact named.level.between (by decide) (by decide)

theorem level_serviceImports (options : g.config.IsBraceless) :
    ∀ line ∈ (serviceImportLines g.config d).flatMap Text.splitLines, Level line.toList := by
  have base : baseService d = "ApiViewBaseService" ∨ baseService d = "ApiEntityBaseService" := by
    unfold baseService
    split
    · exact .inl rfl
    · exact .inr rfl
  intro line mem
  obtain ⟨whole, memWhole, mem⟩ := List.mem_flatMap.mp mem
  simp only [serviceImportLines, List.mem_cons, List.not_mem_nil, or_false] at memWhole
  rcases memWhole with rfl | rfl | rfl | rfl
  · exact level_of_mem_importLine (by decide) (by decide) (by decide) mem
  · exact level_of_mem_importLine (by decide) (by decide) (by decide) mem
  · unfold baseServiceLine at mem
    rcases base with eq | eq
    all_goals
      rw [eq] at mem
      refine level_of_mem_importLine (by decide) (by decide) ?_ mem
      exact .concat (.concat options.serviceAlias (by decide)) (by decide +kernel)
  · exact level_of_mem_importLine (by decide) (by decide) (by decide) mem

end TypeScript

/-- The depth at which the types of a target stand. -/
def Target.outerDepth : Target → Nat
  | .csharp => 1
  | .typescript => 0

namespace Generator

/-- The lines that open the body of an item for a type. -/
def headerLines (g : Generator) (store : Settings.Store) (d : TypeDescriptor) : ItemKind → List String
  | .model => CSharp.openingLines g store d
  | .typeScriptEnum => ["export enum " ++ d.name ++ " \x7b"]
  | .typeScriptModel => [TypeScript.interfaceLine d ((TypeScript.baseInterface g.config d).toOption.getD rootBase)]
  | .typeScriptService => Text.splitLines (TypeScript.serviceLine d)
  | _ => []

/-- What is emitted is a body below its header, and import lines that are level. -/
theorem exists_isBody (plain : g.hooks = Hooks.none) (renders : g.packages.RendersBuiltins)
    (keeps : g.packages.KeepsMarks) (builtin : g.templates = ⟨none, Template.builtins⟩)
    (options : g.config.IsBraceless) (types : graph.IsBraceless) (named : d.IsBraceless) (settings : store.IsBraceless)
    (reads : w.Reads store) (taken : item ∈ [ItemKind.model, .typeScriptEnum, .typeScriptModel, .typeScriptService])
    (emitted : (g.emit graph item d w).result = .ok e) :
    ∃ front inside, e.source = (front ++ g.headerLines store d item ++ inside ++ ["\x7d"]).map .str ∧
      Text.IsBody front (g.headerLines store d item) inside ∧ e.hasRegions = true ∧
      ∀ line ∈ e.imports, Level line.toList := by
  cases emits_of_ok emitted with
  | inheritance => simp at taken
  | model target made =>
    obtain ⟨type, typed, source, none_, -, regions, -⟩ := CSharp.createModel_eq_ok plain reads made
    refine ⟨_, _, source, CSharp.isBody_model settings named fun p mem => ?_, regions, by simp [none_]⟩
    exact CSharp.braceless_mapProperty options types (named.properties p (List.mem_filter.mp mem).1) (typed p mem)
  | enumeration target made =>
    obtain ⟨none_, source, -, regions, -⟩ := TypeScript.createEnum_eq_ok plain made
    exact ⟨_, _, source, TypeScript.isBody_enum named, regions, by simp [none_]⟩
  | interface target made =>
    obtain ⟨base, lines, ofBase, imports, source, -, regions, -, divided⟩ := TypeScript.createModel_eq_ok plain made
    have based := TypeScript.braceless_baseInterface options ofBase
    have header : g.headerLines store d .typeScriptModel = [TypeScript.interfaceLine d base] := by
      simp [headerLines, ofBase, Except.toOption]
    rw [header]
    exact ⟨[], lines, by simp [source], TypeScript.isBody_model types named based fun line => divided.exists_of_mem,
      regions, TypeScript.level_modelImports options types based imports⟩
  | service target made =>
    obtain ⟨imports, own, lines, w₁, w₂, given, ofModel, body, eq, source, -, regions, -⟩ :=
      TypeScript.createService_eq_ok plain made
    have ofBody := TypeScript.templateLines_service renders builtin body
    have ofImports := TypeScript.templateLines_serviceImports renders builtin given
    rw [Text.splitLines_intercalate (TypeScript.isOpen_serviceLines _)] at ofBody
    rw [Text.splitLines_intercalate TypeScript.isOpen_serviceImportLines] at ofImports
    refine ⟨_, _, ?_, TypeScript.isBody_service keeps named.name, regions, fun line mem => ?_⟩
    · have decorators : TypeScript.decoratorLines.flatMap Text.splitLines = TypeScript.decoratorLines := by decide
      have last : Text.splitLines "\x7d" = ["\x7d"] := by decide
      rw [source, ofBody]
      simp [TypeScript.serviceLines, decorators, last, headerLines]
    · rw [eq, ofImports] at mem
      rcases List.mem_append.mp mem with mem | mem
      · exact TypeScript.level_serviceImports options line mem
      · obtain rfl := List.mem_singleton.mp mem
        have isNamed : Braceless (Json.str d.name).text.toList := named.name
        exact TypeScript.level_importGiven options.modelAlias isNamed
          (.of_marksIn (Naming.marksIn_subPath _) named.namespace_) ofModel

/-- What is put above and below an artifact opens and closes the same. -/
theorem Encloses.depth {above below : List String} (h : g.Encloses d item above below) (options : g.config.IsBraceless)
    (named : d.IsBraceless) : Text.depthAfter above = some g.target.outerDepth ∧
      braceDepth g.target.outerDepth (charsOf below) = some 0 := by
  cases h with
  | typescript target =>
    rw [target]
    exact ⟨rfl, rfl⟩
  | csharp target given =>
    rename_i namespace_
    have placed : Braceless namespace_.toList := by
      refine Naming.braceless_moduleGiven given fun v mem => ?_
      simp only [List.mem_cons, List.not_mem_nil, or_false] at mem
      rcases mem with rfl | rfl | rfl
      · exact options.rootNamespace
      · exact options.modelsFolder
      · exact named.namespace_
    have usings : Level (charsOf (if item = .model then CSharp.modelUsings else [])) := by split <;> decide
    have line : Level ("namespace " ++ namespace_).toList := (Braceless.concat (by decide) placed).level
    rw [target]
    refine ⟨?_, by decide⟩
    rw [Text.depthAfter, Text.braceDepth_line line, Text.braceDepth_openLine]
    exact usings 1

/-- Lines without braces are level with the labels round them. -/
theorem level_block {kind : RegionKind} {lines : List String} (each : ∀ line ∈ lines, Braceless line.toList) :
    Level (charsOf (block Config.default.labels kind lines)) := by
  have inside : Level (charsOf lines) := .of_lines fun line mem => (each line mem).level
  cases kind with
  | imports => exact .cons (by decide) (inside.concat (by decide))
  | code => exact .cons (by decide) (inside.concat (by decide))

/-- The braces of what is built are in balance. Its body is opened by the header of the type, at the depth at which the
types of the target stand; nothing inside leaves the body, and the labels of the custom code are in it, right before
the line that closes it. Of the packages this asks that the built-in templates read as they are written, and that a
plural has no brace and no line end of its own. -/
theorem balanced_of_build (plain : g.hooks = Hooks.none) (renders : g.packages.RendersBuiltins)
    (keeps : g.packages.KeepsMarks) (builtin : g.templates = ⟨none, Template.builtins⟩)
    (labels : g.config.labels = Config.default.labels) (options : g.config.IsBraceless) (types : graph.IsBraceless)
    (named : d.IsBraceless) (settings : store.IsBraceless) (reads : w.Reads store)
    (taken : item ∈ [ItemKind.model, .typeScriptEnum, .typeScriptModel, .typeScriptService])
    (custom : ∀ p state prior, Output.filePath g.config a = .ok p →
      (extract g.config w.tree p).result = .ok (state, prior) →
      ∀ kind, ∀ line ∈ prior.linesOf kind, Braceless line.toList)
    (h : (g.build graph item d w).result = .ok a) :
    ∃ p state prior, ∃ above inside below : List String, Output.filePath g.config a = .ok p ∧
      (extract g.config w.tree p).result = .ok (state, prior) ∧
      let header := g.headerLines store d item
      let begun := above ++ header ++ inside
      let ended := begun ++ "//@CustomCodeBegin" :: prior.linesOf .code
      let closed := ended ++ ["//@CustomCodeEnd", "\x7d"]
      a.source = (closed ++ below).map .str ∧ Level (charsOf inside) ∧
        Text.depthAfter above = some g.target.outerDepth ∧
        Text.depthAfter (above ++ header) = some (g.target.outerDepth + 1) ∧
        Text.depthAfter begun = some (g.target.outerDepth + 1) ∧
        Text.depthAfter ended = some (g.target.outerDepth + 1) ∧
        Text.depthAfter closed = some g.target.outerDepth ∧ Text.depthAfter (closed ++ below) = some 0 := by
  obtain ⟨e, p, outer, below, emitted, filePath, encloses, -, composed⟩ := composed_of_build plain h
  rw [tree_emit_of_builtins renders builtin] at composed
  obtain ⟨front, inside, source, body, regions, imports⟩ :=
    exists_isBody plain renders keeps builtin options types named settings reads taken emitted
  obtain ⟨state, prior, extracted, lines⟩ := composed regions
  have clear := custom p state prior filePath extracted
  -- what is put above the body is level
  let labelled := if e.hasCustomImports then
    block Config.default.labels .imports (notGenerated e.imports (prior.linesOf .imports)) else []
  have ofLabelled : Level (charsOf labelled) := by
    by_cases hasCustom : e.hasCustomImports = true
    · simp only [labelled, if_pos hasCustom]
      exact level_block fun line mem => clear .imports line (List.mem_filter.mp mem).1
    · simp only [labelled, if_neg hasCustom]
      exact .nil
  have ofImports : Level (charsOf (distinctLines e.imports)) :=
    .of_lines fun line mem => imports line (mem_distinctLines.mp mem)
  have ofCode : Level (charsOf ("//@CustomCodeBegin" :: prior.linesOf .code)) :=
    .cons (by decide) (.of_lines fun line mem => (clear .code line mem).level)
  obtain ⟨atAbove, atBelow⟩ := encloses.depth options named
  have start := Text.depthAfter_level atAbove (ofImports.concat ofLabelled)
  have rendered (kind : RegionKind) (lines : List String) :
      (g.config.labels.region kind lines).render = (block Config.default.labels kind lines).map .str := by
    rw [labels]
    exact render_eq Config.default_labels_proper kind lines
  refine ⟨p, state, prior, _, inside, below, filePath, extracted, ?_, body.inside,
    body.depths start ofCode (by decide) atBelow⟩
  have code : block Config.default.labels .code (prior.linesOf .code) =
      "//@CustomCodeBegin" :: (prior.linesOf .code ++ ["//@CustomCodeEnd"]) := rfl
  have whole := lines _ source
  rw [rendered, rendered, code, List.dropLast_concat, List.getLast?_concat] at whole
  rw [whole]
  by_cases hasCustom : e.hasCustomImports = true
  · simp [labelled, hasCustom]
  · simp [labelled, hasCustom]

/-- An order with an attribute and a line of custom code, which is in the class, at the depth two. -/
theorem balanced_of_build_order :
    let total : PropertyDescriptor :=
      { name := "Total", declaringType := "Order", valueKind := .scalar, typeName := "int", isNumeric := true }
    let d : TypeDescriptor := { name := "Order", kind := .entity, namespace_ := "Shop", properties := [total] }
    let store : Settings.Store := ⟨[(⟨"WebApi", "Model", "Shop.Order", .text "Attribute"⟩, "Serializable")]⟩
    let file := Text.encode (Text.joinLines ["//@CustomCodeBegin", "public int Own;", "//@CustomCodeEnd"])
    let t : Tree := ⟨[], [(["webapi"], .directory), (["webapi", "Models"], .directory),
      (["webapi", "Models", "Shop"], .directory), (["webapi", "Models", "Shop", "Order.cs"], .file file)]⟩
    let g : Generator := ⟨"csharp", .csharp, Config.default, .none, .builtin, ⟨none, Template.builtins⟩⟩
    let graph : TypeGraph := .ofList [d]
    let w : Workshop := ⟨Settings.Resolver.ofStore store, t, []⟩
    g.config.IsBraceless ∧ graph.IsBraceless ∧ d.IsBraceless ∧ store.IsBraceless ∧ w.Reads store ∧
      ∃ a, ∃ above inside below : List String, (g.build graph .model d w).result = .ok a ∧
        a.source = (above ++ ["public partial class Order", "\x7b"] ++ inside ++
          ["//@CustomCodeBegin", "public int Own;", "//@CustomCodeEnd", "\x7d"] ++ below).map .str ∧
        Text.depthAfter above = some 1 ∧
        Text.depthAfter (above ++ ["public partial class Order", "\x7b"] ++ inside) = some 2 := by
  intro total d store file t g graph w
  have reads : w.Reads store := Settings.Resolver.AgreesWith.ofStore store
  have ofTotal : total.IsBraceless := ⟨by decide, by decide, nofun⟩
  have named : d.IsBraceless := ⟨by decide, by decide, by simpa [d] using ofTotal, nofun⟩
  have types : graph.IsBraceless := by
    intro other mem
    have only : graph.descriptors = [d] := rfl
    rw [only] at mem
    exact List.mem_singleton.mp mem ▸ named
  have settings : store.IsBraceless := by
    intro entry mem
    obtain rfl := List.mem_singleton.mp mem
    decide
  have checked : (g.build graph .model d w).result.toOption.any (fun a =>
      (Output.filePath g.config a).toOption.any fun p => (extract g.config t p).result.toOption.any fun found =>
        decide (found.2.linesOf .imports = [] ∧ found.2.linesOf .code = ["public int Own;"])) = true := by
    decide +kernel
  obtain ⟨a, built, checked⟩ := exists_ok_of_any checked
  obtain ⟨p, filePath, checked⟩ := exists_ok_of_any checked
  obtain ⟨found, extracted, held⟩ := exists_ok_of_any checked
  obtain ⟨noImports, code⟩ := of_decide_eq_true held
  have custom : ∀ p' state prior, Output.filePath g.config a = .ok p' →
      (extract g.config t p').result = .ok (state, prior) →
        ∀ kind, ∀ line ∈ prior.linesOf kind, Braceless line.toList := by
    intro p' state prior filePath' extracted'
    obtain rfl := Except.ok.inj (filePath.symm.trans filePath')
    obtain rfl := Except.ok.inj (extracted.symm.trans extracted')
    rintro (_ | _)
    · rw [noImports]
      nofun
    · rw [code]
      decide
  obtain ⟨p', state, prior, above, inside, below, filePath', extracted', source, -, outer, -, begun, -, -, -⟩ :=
    balanced_of_build rfl Packages.builtin_rendersBuiltins Packages.builtin_keepsMarks rfl rfl
      Config.isBraceless_default types named settings reads (by simp) custom built
  obtain rfl := Except.ok.inj (filePath.symm.trans filePath')
  obtain rfl := Except.ok.inj (extracted.symm.trans extracted')
  have header : g.headerLines store d .model = ["public partial class Order", "\x7b"] := by decide +kernel
  rw [header] at begun source
  rw [code] at source
  exact ⟨Config.isBraceless_default, types, named, settings, reads, a, above, inside, below, built,
    source.trans (by simp), outer, begun⟩

end Generator

end Scaffold
