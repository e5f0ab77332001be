import Scaffold.CSharp.Types
import Scaffold.Generation.Generator

/-!
C# artifacts: a model with its properties, factories, copy and equality, and a part of the same class
that derives it from its base.
-/

namespace Scaffold.CSharp

open Scaffold.Graph

def visibilities : List String :=
  ["public", "internal", "protected", "private", "protected internal"]

def modelUsings : List String :=
  ["using System;", "using System.Collections.Generic;", "using System.Linq;"]

def mapper (g : Generator) (graph : TypeGraph) : Mapper :=
  ⟨graph, g.config.rootNamespace, g.config.modelsFolder⟩

/-- The path of a type's file: the models folder, the namespace as folders, the name. -/
def subPath (c : Config) (d : TypeDescriptor) (ending : String) : Except Misfit String :=
  let folders := String.ofList (d.namespace_.toList.map fun ch => if ch == '.' then '/' else ch)
  Naming.joinGiven [c.modelsFolder, .str folders, .str (d.name ++ ending ++ ".cs")]

/-- The base of a model: that of the nearest ancestor with one. -/
def baseClass (c : Config) (d : TypeDescriptor) : Except Misfit Json := d.baseIn c.modelBaseClasses

def summary (text : String) : List String :=
  ["/// <summary>", "/// " ++ text, "/// </summary>"]

/-- The line that declares a property of a type. -/
def propertyLine (p : PropertyDescriptor) (mapped : CSharpType) : String :=
  "public " ++ mapped.name ++ " " ++ p.name ++ " \x7b get; set; \x7d" ++
    match mapped.initializer with
    | some value => " = " ++ value ++ ";"
    | none => ""

def factories (name : String) : List String := [
  "public static " ++ name ++ " Create()", "\x7b", "return new " ++ name ++ "();", "\x7d",
  "public static " ++ name ++ " Create(object other)", "\x7b",
  "ArgumentNullException.ThrowIfNull(other);", "var result = new " ++ name ++ "();",
  "if (other is " ++ name ++ " model)", "\x7b", "result.CopyProperties(model);", "\x7d",
  "return result;", "\x7d"]

def copyMethod (name : String) (statements : List String) : List String :=
  ["public void CopyProperties(" ++ name ++ " other)", "\x7b",
    "ArgumentNullException.ThrowIfNull(other);"] ++ statements ++ ["\x7d"]

/-- The comparison of some properties. -/
def comparison (ps : List PropertyDescriptor) : String :=
  if ps.isEmpty then "true"
  else " && ".intercalate (ps.map fun p => "Equals(" ++ p.name ++ ", other." ++ p.name ++ ")")

def equalsMethod (name : String) (ps : List PropertyDescriptor) : List String :=
  ["public override bool Equals(object? obj)", "\x7b", "if (obj is not " ++ name ++ " other)",
    "\x7b", "return false;", "\x7d", "return " ++ comparison ps ++ ";", "\x7d"]

def hashMethod (ps : List PropertyDescriptor) : List String :=
  ["public override int GetHashCode()", "\x7b", "var hashCode = new HashCode();"] ++
    ps.map (fun p => "hashCode.Add(" ++ p.name ++ ");") ++
    ["return hashCode.ToHashCode();", "\x7d"]

/-- Is the property part of the model? -/
def isGenerated (g : Generator) (p : PropertyDescriptor) : Building Bool :=
  if p.isNavigation then pure false
  else Building.askFlag (g.scope .modelProperty p.identity "Generate") "True"

/-- The properties of a model. -/
def generatedProperties (g : Generator) (d : TypeDescriptor) : Building (List PropertyDescriptor) :=
  Action.filterEach (isGenerated g) d.properties

/-- The visibility of a model; one that C# does not know is reported and becomes public. -/
def visibility (g : Generator) (d : TypeDescriptor) : Building String := do
  let given ← Building.askText (g.scope .model d.qualifiedName "Visibility") "public"
  if visibilities.contains given then return given
  Building.warn d.qualifiedName ("invalid visibility '" ++ given ++ "'; using public")
  return "public"

/-- Adds the attribute that the settings name. -/
def addAttribute (scope : Settings.Scope) (a : Artifact) : Building Artifact := do
  let given ← Building.askText scope ""
  return if given = "" then a else a.addText ("[" ++ given ++ "]")

/-- Adds a property with its attributes. -/
def addProperty (g : Generator) (m : Mapper) (a : Artifact) (p : PropertyDescriptor) :
    Building Artifact := do
  let a ← g.betweenHooks .modelProperty (.property p)
    (addAttribute (g.scope .modelProperty p.identity "Attribute")) a
  let mapped ← Building.orMisfit (m.mapProperty p)
  return a.addText (propertyLine p mapped)

/-- The lines of a model after its properties. -/
def memberLines (m : Mapper) (d : TypeDescriptor) (ps : List PropertyDescriptor) :
    Except Misfit (List String) := do
  let compared := ps.filter fun p => !p.isVersion
  let statements ← compared.mapM m.copyStatement
  return factories d.name ++ copyMethod d.name statements ++ equalsMethod d.name compared ++
    hashMethod compared ++ ["\x7d"]

/-- Adds a comment, if comments are wanted. -/
def addSummary (c : Config) (text : String) (a : Artifact) : Artifact :=
  if c.addComments.isSet then a.addTexts (summary text) else a

theorem addSummary_eq (c : Config) (text : String) (a : Artifact) :
    addSummary c text a = a.addTexts (if c.addComments.isSet then summary text else []) := by
  unfold addSummary
  split
  · rfl
  · simp [Artifact.addTexts, Artifact.addLines]

/-- The model of an entity or view. -/
def createModel (g : Generator) (graph : TypeGraph) (d : TypeDescriptor) : Building Artifact := do
  let m := mapper g graph
  let a ← g.newArtifact .model d (m.modelFullName d) (subPath g.config d "")
  let visibility ← visibility g d
  let a := addSummary g.config
    ("This model represents a transmission model for the '" ++ d.name ++ "' data unit.") a
  let a ← g.betweenHooks .model (.type d)
    (addAttribute (g.scope .model d.qualifiedName "Attribute")) a
  let a := a.addTexts [visibility ++ " partial class " ++ d.name, "\x7b"]
  let ps ← generatedProperties g d
  let a ← Action.foldEach (addProperty g m) a ps
  let lambda ← Building.askText (g.scope .model d.qualifiedName ItemKind.lambda.name) ""
  let a := if lambda = "" then a else a.addText (lambda ++ ";")
  let members ← Building.orMisfit (memberLines m d ps)
  return a.addTexts members

def inheritanceContext (d : TypeDescriptor) (base : Json) : Template.Context :=
  [("class_name", .str d.name), ("base_class", base)]

/-- The part of the class that derives it from its base. -/
def createInheritance (g : Generator) (graph : TypeGraph) (d : TypeDescriptor) :
    Building Artifact := do
  let m := mapper g graph
  let a ← g.newArtifact .modelInheritance d (m.modelFullName d) (subPath g.config d "Inheritance")
  let a := { a with hasRegions := false }
  let a := addSummary g.config
    ("This part of the class contains the derivation for the '" ++ d.name ++ "'.") a
  g.betweenHooks .modelInheritance (.type d)
    (fun a => do
      let base ← Building.orMisfit (baseClass g.config d)
      let lines ← g.templateLines "csharp/inheritance.cs" (inheritanceContext d base)
      return a.addTexts lines) a

/-- Puts an artifact into the namespace of its type. -/
def envelope (c : Config) (d : TypeDescriptor) (a : Artifact) : Except Misfit Artifact :=
  (Naming.moduleGiven [c.rootNamespace, c.modelsFolder, .str d.namespace_]).map fun namespace_ =>
    a.inNamespace namespace_ (if a.item = .model then modelUsings else [])

/-- The warnings about models without a base. -/
def baseWarnings (c : Config) : List TypeDescriptor → Except Misfit (List String)
  | [] => .ok []
  | d :: rest => do
    let base ← baseClass c d
    return (if base.equals rootBase then
        ["No mapped model base class for " ++ d.name ++ "; deriving from object"] else []) ++
      (← baseWarnings c rest)

end Scaffold.CSharp
