import Scaffold.Proofs.Naming.Marks
import Scaffold.Proofs.Packages
import Scaffold.Template.Placeholder

/-!
The packages that the program comes with. They render the templates that are always there as these are written,
leave every tree as it is, and answer alike where the directory of an engine has the same files: a template that
was taken from memory once had no file then, and has none later.
-/

namespace Scaffold.Template

variable {known : Filters} {context : Context} {name n source : String} {parts : List Piece} {v : Json}

/-- What the template for services is read as. -/
def serviceParts : List Piece := [
  .literal "@Injectable(\x7b\n  providedIn: 'root',\n\x7d)\nexport class ".toList, .slot "entity_name" [],
  .literal "Service extends ".toList, .slot "base_service" [], .literal "<".toList, .slot "model_name" [],
  .literal ("> \x7b\n  constructor(public override http: HttpClient) \x7b\n".toList ++
    "    super(http, environment.API_BASE_URL + '/".toList),
  .slot "entity_name" ["plural", "lower"], .literal "');\n  \x7d\n\x7d".toList]

theorem pieces_service : pieces serviceTemplate = some serviceParts := by decide +kernel

/-- What the template for the imports of services is read as. -/
def serviceImportsParts : List Piece := [
  .literal ("import \x7b Injectable \x7d from '@angular/core';\n".toList ++
    "import \x7b HttpClient \x7d from '@angular/common/http';\nimport \x7b ".toList),
  .slot "base_service" [], .literal " \x7d from '".toList, .slot "service_alias" [], .literal "/".toList,
  .slot "base_service_module" [],
  .literal "';\nimport \x7b environment \x7d from '@environment/environment';".toList]

theorem pieces_serviceImports : pieces serviceImportsTemplate = some serviceImportsParts := by decide +kernel

/-- What the template for derivations is read as. -/
def inheritanceParts : List Piece := [
  .literal "partial class ".toList, .slot "class_name" [], .literal " : ".toList, .slot "base_class" [],
  .literal "\n\x7b\n\x7d".toList]

theorem pieces_inheritance : pieces inheritanceTemplate = some inheritanceParts := by decide +kernel

/-- A variable without filters is its text. -/
theorem renderPiece_slot (given : valueOf? context n = some (.given v)) :
    renderPiece known false context (.slot n []) = .ok v.text := by
  simp only [renderPiece, given, applyFilters]
  rfl

theorem renderPiece_literal (context : Context) (text : List Char) :
    renderPiece known false context (.literal text) = .ok (.ofList text) := rfl

theorem text_str (s : String) : (Json.str s).text = s := rfl

theorem pluralOf_text (p : Packages) (s : String) : Naming.pluralOf p.plural (.str s) = .ok (.str (p.pluralOf s)) := by
  unfold Naming.pluralOf Packages.pluralOf
  by_cases empty : s = ""
  · rw [empty]
    rfl
  · simp [Json.isSet, empty, Naming.ofText, Json.asText?, Except.map]

section Lines

variable (p : Packages)

theorem render_service (c : Config) (d : Graph.TypeDescriptor) :
    renderPieces (p.filters ++ builtinFilters) false (TypeScript.serviceContext c d) serviceParts =
      .ok ("\n".intercalate (TypeScript.serviceLines p d)) := by
  have entity : valueOf? (TypeScript.serviceContext c d) "entity_name" = some (.given (.str d.name)) := rfl
  have model : valueOf? (TypeScript.serviceContext c d) "model_name" = some (.given (.str d.name)) := rfl
  have base : valueOf? (TypeScript.serviceContext c d) "base_service" =
    some (.given (.str (TypeScript.baseService d))) := rfl
  have address : renderPiece (p.filters ++ builtinFilters) false (TypeScript.serviceContext c d)
      (.slot "entity_name" ["plural", "lower"]) = .ok (Text.lower (p.pluralOf d.name)) := by
    have plural : (p.filters ++ builtinFilters).lookup "plural" =
      some (valueFilter (Naming.pluralOf p.plural) (.lacks "type" "lower")) := rfl
    have lower : (p.filters ++ builtinFilters).lookup "lower" = some (textFilter Text.lower) := rfl
    simp only [renderPiece, entity, applyFilters, plural, lower, Option.getD_some, valueFilter, pluralOf_text]
    rfl
  simp only [serviceParts, renderPieces, renderPiece_slot entity, renderPiece_slot model, renderPiece_slot base,
    address, renderPiece_literal, text_str, bind, Except.bind, pure, Except.pure]
  refine congrArg Except.ok ?_
  rw [← String.toList_inj]
  unfold TypeScript.serviceLines TypeScript.decoratorLines TypeScript.constructorLines TypeScript.serviceLine
    TypeScript.addressLine
  simp

theorem render_serviceImports (c : Config) (d : Graph.TypeDescriptor) :
    renderPieces known false (TypeScript.serviceContext c d) serviceImportsParts =
      .ok ("\n".intercalate (TypeScript.serviceImportLines c d)) := by
  have base : valueOf? (TypeScript.serviceContext c d) "base_service" =
    some (.given (.str (TypeScript.baseService d))) := rfl
  have module_ : valueOf? (TypeScript.serviceContext c d) "base_service_module" =
    some (.given (.str (TypeScript.baseServiceModule (TypeScript.baseService d)))) := rfl
  have alias_ : valueOf? (TypeScript.serviceContext c d) "service_alias" = some (.given c.serviceAlias) := rfl
  simp only [serviceImportsParts, renderPieces, renderPiece_slot base, renderPiece_slot module_,
    renderPiece_slot alias_, renderPiece_literal, text_str, bind, Except.bind, pure, Except.pure]
  refine congrArg Except.ok ?_
  rw [← String.toList_inj]
  unfold TypeScript.serviceImportLines TypeScript.baseServiceLine importLine
  simp

theorem render_inheritance (d : Graph.TypeDescriptor) (base : Json) :
    renderPieces known false (CSharp.inheritanceContext d base) inheritanceParts =
      .ok ("\n".intercalate (CSharp.inheritanceLines d base)) := by
  have name : valueOf? (CSharp.inheritanceContext d base) "class_name" = some (.given (.str d.name)) := rfl
  have derived : valueOf? (CSharp.inheritanceContext d base) "base_class" = some (.given base) := rfl
  simp only [inheritanceParts, renderPieces, renderPiece_slot name, renderPiece_slot derived, renderPiece_literal,
    text_str, bind, Except.bind, pure, Except.pure]
  refine congrArg Except.ok ?_
  rw [← String.toList_inj]
  unfold CSharp.inheritanceLines
  simp

end Lines

namespace Engine

variable {e : Engine} {t u : Tree} {taken : List String}

/-- A template from memory is found as it is read. -/
theorem find_of_memory (t : Tree) (taken : List String) (plain : e.directory = none)
    (there : e.memory.lookup name = some source) (read_ : pieces source = some parts)
    (clear : unknownFilter? known parts = none) : e.find known t taken name = .ok ⟨name, parts, true⟩ := by
  have noFile : (if taken.contains name then none else e.file? t name) = none := by
    simp [file?, plain]
  have template : read known source = .ok parts := by
    simp only [read, read_, clear]
  simp only [find, Engine.source, noFile, there, bind, Except.bind, template]
  rfl

/-- What is taken from memory has no file, unless it was taken before. -/
theorem file?_of_takes (takes : e.takes known t taken name = true) :
    taken.contains name = true ∨ e.file? t name = none := by
  unfold Engine.takes at takes
  by_cases before : taken.contains name = true
  · exact .inl before
  · right
    cases file : e.file? t name with
    | none => rfl
    | some bytes =>
      simp only [find, Engine.source, before, file] at takes
      cases decoded : Text.decode bytes with
      | error problem => simp [decoded, Except.map, bind, Except.bind, Except.mapError] at takes
      | ok text =>
        cases parts : read known text <;>
          simp [decoded, parts, Except.map, Except.mapError, bind, Except.bind, pure, Except.pure] at takes

variable {T : Tree → Prop}

/-- No template that was taken from memory has a file. -/
theorem file?_of_taken (files : ∀ u, T u → e.file? u = e.file? t) (user : String) {uses : List Use}
    (among : ∀ use ∈ uses, T use.tree) : ∀ name ∈ e.taken known user uses, e.file? t name = none := by
  induction uses with
  | nil => simp [Engine.taken]
  | cons use before ih =>
    obtain ⟨here, later⟩ := List.forall_mem_cons.mp among
    intro name mem
    rw [Engine.taken] at mem
    split at mem
    · rename_i taking
      rcases List.mem_cons.mp mem with rfl | mem
      · simp only [Bool.and_eq_true] at taking
        rcases file?_of_takes taking.2 with earlier | noFile
        · exact ih later _ (List.contains_iff_mem.mp earlier)
        · rw [← files _ here]
          exact noFile
      · exact ih later name mem
    · exact ih later name mem

/-- Where no template that was taken has a file, a template is found as if none was taken. -/
theorem find_of_taken (noFile : ∀ name ∈ taken, e.file? t name = none) (name : String) :
    e.find known t taken name = e.find known t [] name := by
  have same : (if taken.contains name then none else e.file? t name) =
      if ([] : List String).contains name then none else e.file? t name := by
    by_cases mem : name ∈ taken
    · simp [mem, noFile name mem]
    · simp [mem]
  simp only [find, Engine.source, same]

theorem find_congr (files : e.file? u = e.file? t) (taken : List String) (name : String) :
    e.find known u taken name = e.find known t taken name := by
  simp only [find, Engine.source, files]

end Engine

end Scaffold.Template

namespace Scaffold.Packages

open Template

theorem builtin_quiet (e : Engine) (K : Situation) : builtin.Quiet e K := fun _ _ _ _ _ _ _ => rfl

/-- An engine answers alike where its directory has the same files. -/
theorem builtin_steady {e : Engine} {T : Tree → Prop} (files : ∀ t u, T t → T u → e.file? u = e.file? t) :
    builtin.Steady e (Within T) where
  quiet := builtin_quiet e _
  repeats := by
    intro uses t uses' t' user name context within within' _
    have alone {uses : List Use} {t : Tree} (within : Within T uses t) (name : String) :
        e.find (builtin.filters ++ builtinFilters) t (e.taken (builtin.filters ++ builtinFilters) user uses) name =
          e.find (builtin.filters ++ builtinFilters) t [] name :=
      Engine.find_of_taken (Engine.file?_of_taken (fun u inU => files t u within.1 inU) user within.2) name
    change textFor _ uses t _ = textFor _ uses' t' _
    simp only [textFor, alone within, alone within', Engine.find_congr (files t t' within.1 within'.1)]

/-- Without a directory all trees are the same to an engine. -/
theorem builtin_steady_of_memory {e : Engine} (plain : e.directory = none) (T : Tree → Prop) :
    builtin.Steady e (Within T) := by
  refine builtin_steady fun t u _ _ => ?_
  funext name
  simp [Engine.file?, plain]

/-- A template from memory is rendered as it is read. -/
theorem builtin_answer {name source : String} {parts : List Piece} {context : Context} {s : String}
    (there : builtins.lookup name = some source) (read_ : pieces source = some parts)
    (clear : unknownFilter? (builtin.filters ++ builtinFilters) parts = none)
    (markup : isMarkup name = false) (free : context.lookup selfName = none)
    (rendered : renderPieces (builtin.filters ++ builtinFilters) false context parts = .ok s)
    (uses : List Use) (t : Tree) (user : String) :
    builtin.answer uses t ⟨user, ⟨none, builtins⟩, name, context⟩ = ⟨t, .ok s⟩ := by
  have found := Engine.find_of_memory (e := ⟨none, builtins⟩) t
    (Engine.taken ⟨none, builtins⟩ (builtin.filters ++ builtinFilters) user uses) rfl there read_ clear
  have text : textFor (builtin.filters ++ builtinFilters) uses t ⟨user, ⟨none, builtins⟩, name, context⟩ = .ok s := by
    simp only [textFor, found, bind, Except.bind, Found.render, free, markup]
    exact rendered
  exact congrArg (Answer.mk t) text

theorem builtin_rendersBuiltins : builtin.RendersBuiltins where
  service uses t user c d := builtin_answer rfl pieces_service (by decide +kernel) (by decide +kernel) rfl
    (render_service builtin c d) uses t user
  serviceImports uses t user c d := builtin_answer rfl pieces_serviceImports (by decide +kernel)
    (by decide +kernel) rfl (render_serviceImports c d) uses t user
  inheritance uses t user d base := builtin_answer rfl pieces_inheritance (by decide +kernel)
    (by decide +kernel) rfl (render_inheritance d base) uses t user

theorem builtin_keepsMarks : builtin.KeepsMarks := Naming.Plural.marksIn_of

end Scaffold.Packages
