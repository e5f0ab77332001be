import Scaffold.Proofs.CSharp.Model
import Scaffold.Proofs.Naming.FileItem
import Scaffold.Text.Search

/-!
The lines of a C# model with accessors. Those of its members have them, one each, and of the others only what the
settings put into the model, or the name of a type in a copy, can have any: every line that the model has of itself
holds less semicolons than accessors do.
-/

namespace Scaffold.CSharp

open Scaffold.Graph Settings

variable {g : Generator} {d : TypeDescriptor} {store : Store} {type : PropertyDescriptor → CSharpType}
  {ps : List PropertyDescriptor} {n : String}

/-- The characters that stand around the names in the lines of a model. -/
def separators : List Char := [' ', ',', ';', '.', '(', ')']

/-- A name without any of them, such as an identifier. -/
def IsName (name : String) : Prop := ∀ c ∈ name.toList, c ∉ separators

instance (name : String) : Decidable (IsName name) := List.decidableBAll (· ∉ separators) name.toList

/-- Do accessors stand on the line? -/
def hasAccessors (line : String) : Bool := Text.contains "\x7b get; set; \x7d" line

/-- The texts that the settings can put into a model: its attribute and its expression, and the attributes of its
members. -/
def addedTexts (g : Generator) (store : Store) (d : TypeDescriptor) : List String :=
  textFor store (g.scope .model d.qualifiedName "Attribute") "" ::
    textFor store (g.scope .model d.qualifiedName ItemKind.lambda.name) "" ::
    (members g store d).map fun p => textFor store (g.scope .modelProperty p.identity "Attribute") ""

theorem IsName.no_semicolon (named : IsName n) : ';' ∉ n.toList := fun mem => named _ mem (by decide)

theorem IsName.count_semicolon (named : IsName n) : n.toList.count ';' = 0 :=
  List.count_eq_zero.mpr named.no_semicolon

/-- What is inside the class of a model before its methods. -/
def stateLines (g : Generator) (store : Store) (d : TypeDescriptor) (type : PropertyDescriptor → CSharpType) :
    List String :=
  (members g store d).flatMap (fun p => declarationLines g store p (type p)) ++ trailingLines g store d

/-- The accessors stand on the line of every property. -/
theorem hasAccessors_propertyLine (p : PropertyDescriptor) (type : CSharpType) :
    hasAccessors (propertyLine p type) = true := by
  refine Text.contains_iff.mpr ?_
  unfold propertyLine
  cases type.initializer with
  | none => exact ⟨("public " ++ type.name ++ " " ++ p.name ++ " ").toList, [], by simp⟩
  | some value =>
    exact ⟨("public " ++ type.name ++ " " ++ p.name ++ " ").toList, (" = " ++ value ++ ";").toList, by simp⟩

/-- A line with less than two semicolons has no accessors. -/
theorem hasAccessors_eq_false {line : String} (h : line.toList.count ';' < 2) : hasAccessors line = false := by
  refine Bool.eq_false_iff.mpr fun found => ?_
  have two : 2 ≤ line.toList.count ';' := (Text.contains_iff.mp found).sublist.count_le ';'
  omega

/-- A name adds no semicolon to the texts round it. -/
theorem hasAccessors_around (named : IsName n) {before after : String}
    (few : before.toList.count ';' + after.toList.count ';' < 2) : hasAccessors (before ++ n ++ after) = false := by
  refine hasAccessors_eq_false ?_
  rw [String.toList_append, String.toList_append, List.count_append, List.count_append, named.count_semicolon]
  omega

theorem hasAccessors_bracketed {text : String} (quiet : hasAccessors text = false) :
    hasAccessors ("[" ++ text ++ "]") = false := by
  refine Bool.eq_false_iff.mpr fun found => Bool.eq_false_iff.mp quiet (Text.contains_iff.mpr ?_)
  have within := Text.contains_iff.mp found
  have chars : ("[" ++ text ++ "]").toList = ('[' :: text.toList) ++ [']'] := by simp
  rw [chars, List.infix_concat_iff, List.infix_cons_iff] at within
  rcases within with last | first | inside
  · rw [← List.reverse_prefix] at last
    simp at last
  · simp at first
  · exact inside

theorem hasAccessors_terminated {text : String} (quiet : hasAccessors text = false) :
    hasAccessors (text ++ ";") = false := by
  refine Bool.eq_false_iff.mpr fun found => Bool.eq_false_iff.mp quiet (Text.contains_iff.mpr ?_)
  have within := Text.contains_iff.mp found
  have chars : (text ++ ";").toList = text.toList ++ [';'] := by simp
  rw [chars, List.infix_concat_iff] at within
  rcases within with last | inside
  · rw [← List.reverse_prefix] at last
    simp at last
  · exact inside

/-- Attributes have accessors only if their text has. -/
theorem accessors_attributeLines {scope : Scope} (quiet : hasAccessors (textFor store scope "") = false) :
    (attributeLines store scope).filter hasAccessors = [] := by
  rw [List.filter_eq_nil_iff]
  intro line mem
  rw [eq_of_mem_lineFor mem, hasAccessors_bracketed quiet]
  decide

/-- With quiet texts from the settings, the lines with accessors before the methods are those of the members. -/
theorem accessors_stateLines (quiet : ∀ text ∈ addedTexts g store d, hasAccessors text = false) :
    (stateLines g store d type).filter hasAccessors = (members g store d).map fun p => propertyLine p (type p) := by
  have trailing : (trailingLines g store d).filter hasAccessors = [] := by
    rw [List.filter_eq_nil_iff]
    intro line mem
    rw [eq_of_mem_lineFor mem, hasAccessors_terminated (quiet _ (by simp [addedTexts]))]
    decide
  have group : ∀ p ∈ members g store d,
      (declarationLines g store p (type p)).filter hasAccessors = [propertyLine p (type p)] := by
    intro p mem
    have asked : textFor store (g.scope .modelProperty p.identity "Attribute") "" ∈ addedTexts g store d :=
      List.mem_cons_of_mem _ (List.mem_cons_of_mem _ (List.mem_map.mpr ⟨p, mem, rfl⟩))
    rw [declarationLines, List.filter_append, accessors_attributeLines (quiet _ asked), List.filter_singleton,
      hasAccessors_propertyLine]
    rfl
  rw [stateLines, List.filter_append, trailing, List.append_nil, List.filter_flatMap, List.map_eq_flatMap]
  exact List.flatMap_congr group

theorem accessors_openingLines (named : IsName d.name) :
    ∀ line ∈ openingLines g store d, hasAccessors line = false := by
  intro line mem
  rcases List.mem_pair.mp mem with rfl | rfl
  · have plain : ∀ visibility ∈ visibilities, (visibility ++ " partial class ").toList.count ';' = 0 := by decide
    refine hasAccessors_eq_false ?_
    rw [String.toList_append, List.count_append, named.count_semicolon, plain _ (visibilityFor_mem g store d)]
    decide
  · exact hasAccessors_eq_false (by decide)

theorem accessors_headLines (named : IsName d.name)
    (quiet : ∀ text ∈ addedTexts g store d, hasAccessors text = false) :
    (headLines g store d).filter hasAccessors = [] := by
  have comment : ∀ line ∈ summary ("This model represents a transmission model for the '" ++ d.name ++
      "' data unit."), hasAccessors line = false := by
    simp only [summary, List.forall_mem_cons]
    refine ⟨hasAccessors_eq_false (by decide), ?_, hasAccessors_eq_false (by decide), by simp⟩
    rw [← String.append_assoc, ← String.append_assoc]
    exact hasAccessors_around named (by decide)
  rw [headLines, List.filter_append, accessors_attributeLines (quiet _ List.mem_cons_self), List.append_nil,
    List.filter_eq_nil_iff]
  intro line mem
  split at mem
  · rw [comment line mem]
    decide
  · cases mem

theorem count_comparison (each : ∀ p ∈ ps, IsName p.name) : (comparison ps).toList.count ';' = 0 := by
  unfold comparison
  split
  · decide
  · refine List.count_eq_zero.mpr fun mem => ?_
    rcases Naming.mem_intercalate mem with mem | ⟨text, memText, mem⟩
    · exact absurd mem (by decide)
    · obtain ⟨p, memP, rfl⟩ := List.mem_map.mp memText
      simp [(each p memP).no_semicolon] at mem

theorem accessors_factories (named : IsName n) : ∀ line ∈ factories n, hasAccessors line = false := by
  simp only [factories, List.forall_mem_cons]
  exact ⟨hasAccessors_around named (by decide), hasAccessors_eq_false (by decide),
    hasAccessors_around named (by decide), hasAccessors_eq_false (by decide),
    hasAccessors_around named (by decide), hasAccessors_eq_false (by decide),
    hasAccessors_eq_false (by decide), hasAccessors_around named (by decide), hasAccessors_around named (by decide),
    hasAccessors_eq_false (by decide), hasAccessors_eq_false (by decide), hasAccessors_eq_false (by decide),
    hasAccessors_eq_false (by decide), hasAccessors_eq_false (by decide), by simp⟩

theorem accessors_copyMethod (named : IsName n) {statements : List String}
    (copies : ∀ line ∈ statements, hasAccessors line = false) :
    ∀ line ∈ copyMethod n statements, hasAccessors line = false := by
  simp only [copyMethod, List.forall_mem_append, List.forall_mem_cons]
  exact ⟨⟨⟨hasAccessors_around named (by decide), hasAccessors_eq_false (by decide), hasAccessors_eq_false (by decide),
    by simp⟩, copies⟩, hasAccessors_eq_false (by decide), by simp⟩

theorem accessors_equalsMethod (named : IsName n) (each : ∀ p ∈ ps, IsName p.name) :
    ∀ line ∈ equalsMethod n ps, hasAccessors line = false := by
  have compares : hasAccessors ("return " ++ comparison ps ++ ";") = false := by
    refine hasAccessors_eq_false ?_
    rw [String.toList_append, String.toList_append, List.count_append, List.count_append, count_comparison each]
    decide
  simp only [equalsMethod, List.forall_mem_cons]
  exact ⟨hasAccessors_eq_false (by decide), hasAccessors_eq_false (by decide), hasAccessors_around named (by decide),
    hasAccessors_eq_false (by decide), hasAccessors_eq_false (by decide), hasAccessors_eq_false (by decide), compares,
    hasAccessors_eq_false (by decide), by simp⟩

theorem accessors_hashMethod (each : ∀ p ∈ ps, IsName p.name) :
    ∀ line ∈ hashMethod ps, hasAccessors line = false := by
  simp only [hashMethod, List.forall_mem_append, List.forall_mem_cons, List.forall_mem_map]
  exact ⟨⟨⟨hasAccessors_eq_false (by decide), hasAccessors_eq_false (by decide), hasAccessors_eq_false (by decide),
    by simp⟩, fun p mem => hasAccessors_around (each p mem) (by decide)⟩, hasAccessors_eq_false (by decide),
    hasAccessors_eq_false (by decide), by simp⟩

/-- Of the lines of the methods only copies can have accessors. -/
theorem accessors_methodLines (named : IsName d.name) (each : ∀ p ∈ ps, IsName p.name)
    (copies : ∀ p ∈ ps, hasAccessors (Mapper.copyOf p (type p)) = false) :
    ∀ line ∈ methodLines d ps type, hasAccessors line = false := by
  have statements : ∀ line ∈ ps.map fun p => Mapper.copyOf p (type p), hasAccessors line = false :=
    List.forall_mem_map.mpr copies
  simp only [methodLines, List.forall_mem_append]
  exact ⟨⟨⟨accessors_factories named, accessors_copyMethod named statements⟩, accessors_equalsMethod named each⟩,
    accessors_hashMethod each⟩

/-- With quiet texts from the settings and quiet copies, all lines of a model with accessors are those of its
members. -/
theorem accessors_modelLines (named : IsName d.name) (each : ∀ p ∈ compared g store d, IsName p.name)
    (quiet : ∀ text ∈ addedTexts g store d, hasAccessors text = false)
    (copies : ∀ p ∈ compared g store d, hasAccessors (Mapper.copyOf p (type p)) = false) :
    (modelLines g store d type).filter hasAccessors = (members g store d).map fun p => propertyLine p (type p) := by
  have none_ {lines : List String} (h : ∀ line ∈ lines, hasAccessors line = false) : lines.filter hasAccessors = [] :=
    List.filter_eq_nil_iff.mpr fun line mem => by simp [h line mem]
  have split : modelLines g store d type = headLines g store d ++ (openingLines g store d ++
      (stateLines g store d type ++ (methodLines d (compared g store d) type ++ ["\x7d"]))) := by
    simp only [modelLines, classLines, stateLines, List.append_assoc]
  rw [split, List.filter_append, accessors_headLines named quiet, List.filter_append,
    none_ (accessors_openingLines named), List.filter_append, accessors_stateLines quiet, List.filter_append,
    none_ (accessors_methodLines named each copies), List.nil_append, List.nil_append, List.nil_append]
  exact (congrArg _ (by decide)).trans (List.append_nil _)

end Scaffold.CSharp
