import Scaffold.Config.Options
import Scaffold.Proofs.Generation.Place
import Scaffold.Proofs.Graph.Lookup
import Scaffold.Proofs.Import
import Scaffold.Proofs.Naming.FileItem
import Scaffold.TypeScript.Emission

/-!
Imports and files. A file lies under the source path and a folder, its import under an alias; what follows
is the same on both sides when the names of types and namespaces are identifiers. The import converts the
namespace once more than the file does, which then changes nothing.
-/

namespace Scaffold

open Scaffold.Graph

/-- The name and the parts of the namespace are identifiers. -/
structure Graph.TypeDescriptor.HasIdentifiers (d : TypeDescriptor) : Prop where
  name : Naming.IsIdentifier d.name
  namespace_ : ∀ segment ∈ Naming.segments d.namespace_, Naming.IsIdentifier segment

namespace TypeScript

variable {graph : TypeGraph} {c : Config} {g : Generator} {d t : TypeDescriptor}
  {enums models source folder aliasPath : String}

/-- The folder that a type's own file is in. -/
def folderOf (t : TypeDescriptor) : String :=
  if t.kind = .enumeration then enumsFolder else modelsFolder

/-- The line imports the type from the path of its file: below the alias stands what the file has below the
source path and the folder, but for the extension. -/
def PointsAt (c : Config) (folder aliasPath : String) (t : TypeDescriptor) (line : String) : Prop :=
  ∃ root modulePath, Naming.joinGiven [c.angularSourcePath, .str folder] = .ok root ∧
    line = importLine t.name (aliasPath ++ "/" ++ modulePath) ∧
    subPath c folder t t.name = .ok (root ++ "/" ++ modulePath ++ ".ts")

/-- What stands below the folder on the side of the file, and below the alias on the side of the import. -/
def modulePath (t : TypeDescriptor) : String :=
  Naming.joinPath [Naming.subPath t.namespace_, Naming.fileItem t.name]

theorem importStatement_eq (aliasPart : Naming.IsPart aliasPath) (named : t.HasIdentifiers) :
    importStatement aliasPath t.name (Naming.subPath t.namespace_) =
      importLine t.name (aliasPath ++ "/" ++ modulePath t) := by
  have item := named.name.isPart
  have below : Naming.keptParts [Naming.subPath t.namespace_, Naming.fileItem t.name] ≠ [] :=
    item.keptParts_ne_nil (by simp)
  rw [importStatement, Naming.fileItem_subPath named.namespace_, aliasPart.joinPath_cons below]
  rfl

theorem subPath_eq (located : Naming.pathPart c.angularSourcePath = .ok source)
    (folderPart : Naming.IsPart folder) (named : t.HasIdentifiers) :
    subPath c folder t t.name =
      .ok (Naming.joinPath [source, folder] ++ "/" ++ modulePath t ++ ".ts") := by
  have item := named.name.isPart
  have file : Naming.IsPart (Naming.fileItem t.name ++ ".ts") := by
    refine ⟨?_, ?_, ?_⟩
    · simp
    · intro first
      refine item.first ?_
      rw [String.toList_append, List.head?_append] at first
      cases chars : (Naming.fileItem t.name).toList with
      | nil => exact absurd (String.toList_eq_nil_iff.mp chars) item.nonempty
      | cons _ _ => simpa [chars] using first
    · have last : ".ts".toList.getLast? = some 's' := rfl
      rw [String.toList_append, List.getLast?_append, last]
      simp
  have joined_ := Naming.joinGiven_cons_texts located
    [folder, Naming.subPath t.namespace_, Naming.fileItem t.name ++ ".ts"]
  simp only [List.map_cons, List.map_nil] at joined_
  have above : Naming.keptParts [source, folder] ≠ [] := folderPart.keptParts_ne_nil (by simp)
  have below : Naming.keptParts [Naming.subPath t.namespace_, Naming.fileItem t.name ++ ".ts"] ≠ [] :=
    file.keptParts_ne_nil (by simp)
  have divided := Naming.joinPath_append above below
  have ending := item.joinPath_concat file [Naming.subPath t.namespace_]
  simp only [List.cons_append, List.nil_append] at divided ending
  rw [subPath, joined_, divided, ending]
  simp only [modulePath, String.append_assoc]

theorem folder_isPart : Naming.IsPart enumsFolder ∧ Naming.IsPart modelsFolder := by
  constructor <;> constructor <;> decide

/-- The statement for a type points at its file. -/
theorem pointsAt_of_statement (aliasPart : Naming.IsPart aliasPath)
    (located : Naming.pathPart c.angularSourcePath = .ok source) (folderPart : Naming.IsPart folder)
    (named : t.HasIdentifiers) :
    PointsAt c folder aliasPath t (importStatement aliasPath t.name (Naming.subPath t.namespace_)) := by
  refine ⟨Naming.joinPath [source, folder], modulePath t, ?_, importStatement_eq aliasPart named,
    subPath_eq located folderPart named⟩
  exact Naming.joinGiven_cons_texts located [folder]

/-- The artifacts of a type are at its path in the folder of their kind, if hooks leave them there. -/
theorem createEnum_subPath
    (keep : g.hooks.Keep fun a => subPath g.config enumsFolder d d.name = .ok a.subPath) :
    (createEnum g d).Gives fun a => subPath g.config enumsFolder d d.name = .ok a.subPath :=
  Generator.createEnum_keeps (Artifact.leftByAdding_subPath (subPath g.config enumsFolder d d.name = .ok ·)) keep
    fun _ _ planned => planned

theorem createModel_subPath
    (keep : g.hooks.Keep fun a => subPath g.config modelsFolder d d.name = .ok a.subPath) :
    (createModel g graph d).Gives fun a => subPath g.config modelsFolder d d.name = .ok a.subPath :=
  Generator.createInterface_keeps (Artifact.leftByAdding_subPath (subPath g.config modelsFolder d d.name = .ok ·))
    keep fun _ _ planned => planned

/-- The own model of a service is imported whatever the template's imports are. -/
theorem createService_imports (modelAlias : g.config.modelAlias = .str models)
    (keep : ∀ line, g.hooks.Keep fun a => line ∈ a.imports) :
    (createService g d).Gives fun a =>
      importStatement models d.name (Naming.subPath d.namespace_) ∈ a.imports := by
  unfold createService
  refine Action.Gives.after fun a => Action.Gives.after fun imports => ?_
  rw [modelAlias, importGiven_texts]
  refine Action.Gives.bind (P := (importStatement models d.name (Naming.subPath d.namespace_) = ·))
    (Action.Gives.ofExcept fun line h => Except.ok.inj h) fun own same => ?_
  subst same
  refine Generator.betweenHooks_keeps (keep _) (by simp) fun b kept => ?_
  exact Action.Gives.after fun lines => Action.Gives.ok kept

/-- Imports point at the files that are written: those of the types that a type refers to, and that of a
service's own model. The files are where the artifacts of the types say. -/
theorem imports_point_at_files (enumAlias : c.enumAlias = .str enums)
    (modelAlias : c.modelAlias = .str models) (enumsPart : Naming.IsPart enums)
    (modelsPart : Naming.IsPart models)
    (located : Naming.pathPart c.angularSourcePath = .ok source)
    (named : ∀ t ∈ graph.descriptors, t.HasIdentifiers) :
    (∀ d, ∃ found, Import.resolve graph c d = .ok found ∧
      ∀ i ∈ found, ∃ p ∈ d.properties, ∃ t, graph.resolve? p = some t ∧ i.1 = Import.ofTarget c t ∧
        PointsAt c (folderOf t) (Import.aliasOf enums models t) t i.2) ∧
    (∀ g : Generator, g.config = c → (∀ line, g.hooks.Keep fun a => line ∈ a.imports) →
      ∀ d ∈ graph.descriptors, (createService g d).Gives fun a =>
        ∃ line ∈ a.imports, PointsAt c modelsFolder models d line) ∧
    ∀ g : Generator, g.config = c → (∀ s, g.hooks.Keep fun a => a.subPath = s) → ∀ t,
      ((createEnum g t).Gives fun a => subPath c enumsFolder t t.name = .ok a.subPath) ∧
      (createModel g graph t).Gives fun a => subPath c modelsFolder t t.name = .ok a.subPath := by
  have aliases : Import.Aliases c enums models := by
    constructor
    · rw [enumAlias, Naming.pathPart_str]
    · rw [modelAlias, Naming.pathPart_str]
  obtain ⟨enumsFolder_, modelsFolder_⟩ := folder_isPart
  refine ⟨fun d => ⟨_, Import.resolve_eq aliases, fun i mem => ?_⟩, ?_, ?_⟩
  · obtain ⟨p, memP, t, resolved, rfl⟩ :=
      Import.exists_of_mem_resolve aliases (Import.resolve_eq aliases) mem
    refine ⟨p, memP, t, resolved, rfl, ?_⟩
    have ofT := named t (TypeGraph.mem_of_resolve? resolved)
    unfold Import.statementOf folderOf Import.aliasOf
    split
    · exact pointsAt_of_statement enumsPart located enumsFolder_ ofT
    · exact pointsAt_of_statement modelsPart located modelsFolder_ ofT
  · rintro g rfl keep d mem
    refine (createService_imports modelAlias keep).mono fun a imported => ⟨_, imported, ?_⟩
    exact pointsAt_of_statement modelsPart located modelsFolder_ (named d mem)
  · rintro g rfl keep t
    have at_ : ∀ folder, g.hooks.Keep fun a => subPath g.config folder t t.name = .ok a.subPath :=
      fun folder => .of_subPath keep fun s => subPath g.config folder t t.name = .ok s
    exact ⟨createEnum_subPath (at_ enumsFolder), createModel_subPath (at_ modelsFolder)⟩

/-- A property of an order leads to the file of its enumeration, two folders down. Where there are no hooks
the file is there, and the service of orders imports their own model. -/
theorem imports_point_at_files_order :
    let status : TypeDescriptor :=
      { name := "OrderStatus", kind := .enumeration, namespace_ := "Shop.SalesData" }
    let order : TypeDescriptor :=
      { name := "Order", kind := .entity, namespace_ := "Shop"
        properties := [{ name := "Status", declaringType := "Order", valueKind := .enumeration
                         typeName := "OrderStatus", elementName := some "OrderStatus"
                         elementType := some "Shop.SalesData.OrderStatus" }] }
    ∃ found, Import.resolve (.ofList [order, status]) Config.default order = .ok found ∧
      found.map (·.2) = ["import \x7b OrderStatus \x7d from '@app-enums/shop/sales-data/order-status';"] ∧
      (∀ i ∈ found, PointsAt Config.default enumsFolder "@app-enums" status i.2) ∧
      ∀ g : Generator, g.config = Config.default → g.hooks = .none →
        ((createEnum g status).Gives fun a =>
          subPath Config.default enumsFolder status "OrderStatus" = .ok a.subPath) ∧
        (createService g order).Gives fun a =>
          ∃ line ∈ a.imports, PointsAt Config.default modelsFolder "@app-models" order line := by
  intro status order
  have shop : Naming.IsIdentifier "Shop" := by decide
  have salesData : Naming.IsIdentifier "SalesData" := by decide
  have named : ∀ t ∈ (TypeGraph.ofList [order, status]).descriptors, t.HasIdentifiers := by
    intro t mem
    have one : t = order ∨ t = status := by simpa using TypeGraph.mem_of_mem_ofList mem
    rcases one with rfl | rfl
    · have parts : Naming.segments order.namespace_ = ["Shop"] := by decide +kernel
      exact ⟨by decide, by simp [parts, shop]⟩
    · have parts : Naming.segments status.namespace_ = ["Shop", "SalesData"] := by decide +kernel
      exact ⟨by decide, by simp [parts, shop, salesData]⟩
  have part : ∀ aliasPath : String, aliasPath ≠ "" → '/' ∉ aliasPath.toList → Naming.IsPart aliasPath :=
    fun _ => .of_notMem
  obtain ⟨imports, services, files⟩ := imports_point_at_files (c := Config.default) rfl rfl
    (part _ (by decide) (by decide)) (part _ (by decide) (by decide)) (Naming.pathPart_str _) named
  obtain ⟨found, resolved, points⟩ := imports order
  refine ⟨found, resolved, ?_, fun i mem => ?_, fun g config none_ => ?_⟩
  · have lines : (Import.resolve (.ofList [order, status]) Config.default order).toOption.map
        (fun found => found.map (·.2)) =
        some ["import \x7b OrderStatus \x7d from '@app-enums/shop/sales-data/order-status';"] := by
      decide +kernel
    rw [resolved] at lines
    exact Option.some.inj lines
  · obtain ⟨p, memP, t, target, -, at_⟩ := points i mem
    obtain rfl := List.mem_singleton.mp memP
    obtain rfl : status = t := Option.some.inj target
    exact at_
  · have keep : ∀ P, g.hooks.Keep P := fun P => none_ ▸ Hooks.keep_none
    exact ⟨(files g config (fun _ => keep _) status).1,
      services g config (fun _ => keep _) order List.mem_cons_self⟩

end TypeScript

end Scaffold
