import Scaffold.Proofs.Generation.Planned
import Scaffold.Proofs.Generation.Prior
import Scaffold.Proofs.Naming.FirstLetter
import Scaffold.Proofs.Template.Rendering

/-!
Which types collide. Each file is told by its folders and its name, and these by the item, the namespace and
the name of the type, but for what a file item loses: the case of first letters. In C# nothing is lost, but
one ending is also a name that a type may end in.
-/

namespace Scaffold

open Scaffold.Graph Naming

variable {c : Config} {g : Generator} {graph : TypeGraph} {d e : TypeDescriptor} {item item' : ItemKind}
  {w : Workshop} {project : Path} {root : String}

namespace Graph

/-- The namespaces have as many segments, and these and the names are equal but for the case of their first
letters. -/
def TypeDescriptor.EqualUpToFirst (d e : TypeDescriptor) : Prop :=
  List.Forall₂ Naming.EqualUpToFirst (segments d.namespace_) (segments e.namespace_) ∧
    Naming.EqualUpToFirst d.name e.name

/-- The graph holds types whose files for the target collide. -/
def TypeGraph.Clash (graph : TypeGraph) : Target → Prop
  | .typescript =>
    (∃ d ∈ graph.enumerations, ∃ e ∈ graph.enumerations, d ≠ e ∧ d.EqualUpToFirst e) ∨
      ∃ d ∈ graph.models, ∃ e ∈ graph.models, d ≠ e ∧ d.EqualUpToFirst e
  | .csharp =>
    ∃ d ∈ graph.models, ∃ e ∈ graph.models,
      d.namespace_ = e.namespace_ ∧ e.name = d.name ++ "Inheritance"

/-- No segment of the namespace is empty. -/
def TypeDescriptor.IsSegmented (d : TypeDescriptor) : Prop :=
  d.namespace_ = ".".intercalate (segments d.namespace_)

instance (d : TypeDescriptor) : Decidable d.IsSegmented := inferInstanceAs (Decidable (_ = _))

/-- A type is known by its namespace and its name. -/
theorem TypeGraph.Keyed.eq_of_names (keyed : graph.Keyed) (memD : d ∈ graph.descriptors)
    (memE : e ∈ graph.descriptors) (namespace_ : d.namespace_ = e.namespace_) (name : d.name = e.name) :
    d = e := by
  refine List.inj_on_of_nodup_map keyed.nodup_qualifiedNames memD memE ?_
  simp only [TypeDescriptor.qualifiedName, namespace_, name]

end Graph

namespace Generator

theorem nodup_candidates (keyed : graph.Keyed) (item : ItemKind) : (candidates item graph).Nodup := by
  have ofKind (kind : TypeKind) : (graph.ofKind kind).Nodup := keyed.nodup.filter _
  unfold candidates
  split
  · exact ofKind _
  · refine List.nodup_append.mpr ⟨ofKind _, ofKind _, ?_⟩
    rintro d memD e memE rfl
    have entity := (List.mem_filter.mp memD).2
    have view := (List.mem_filter.mp memE).2
    simp_all

theorem mem_tasks {task : ItemKind × TypeDescriptor} :
    task ∈ g.tasks graph ↔ task.1 ∈ g.target.items ∧ task.2 ∈ candidates task.1 graph := by
  obtain ⟨item, d⟩ := task
  simp [tasks]

/-- Nothing is planned twice. -/
theorem nodup_tasks (keyed : graph.Keyed) : (g.tasks graph).Nodup := by
  refine List.nodup_flatten.mpr ⟨?_, List.pairwise_map.mpr ?_⟩
  · intro group mem
    obtain ⟨item, _, rfl⟩ := List.mem_map.mp mem
    exact (nodup_candidates keyed item).map fun _ _ same => (Prod.mk.inj same).2
  · have items : g.target.items.Nodup := by cases g.target <;> decide
    refine items.imp fun {item item'} other task mem mem' => ?_
    obtain ⟨d, _, rfl⟩ := List.mem_map.mp mem
    obtain ⟨e, _, same⟩ := List.mem_map.mp mem'
    exact other (Prod.mk.inj same).1.symm

/-- In TypeScript two files have one path if they are for one item, and their types are equal up to the
first letters. -/
theorem namesOf_typescript (namedD : d.HasIdentifiers) (namedE : e.HasIdentifiers)
    (mem : item ∈ Target.typescript.items) (mem' : item' ∈ Target.typescript.items) :
    namesOf d item = namesOf e item' ↔ item = item' ∧ d.EqualUpToFirst e := by
  have file (ending : String) (identifier : IsIdentifier (d.name ++ ending))
      (identifier' : IsIdentifier (e.name ++ ending)) :
      fileItem (d.name ++ ending) ++ ".ts" = fileItem (e.name ++ ending) ++ ".ts" ↔
        Naming.EqualUpToFirst d.name e.name := by
    rw [String.append_left_inj, fileItem_eq_iff identifier identifier',
      equalUpToFirst_append namedD.name.nonempty namedE.name.nonempty]
  have plain := file "" (by simpa using namedD.name) (by simpa using namedE.name)
  have service := file "Service" (namedD.name.append isIdentifier_service)
    (namedE.name.append isIdentifier_service)
  have folders := map_fileItem_eq_iff namedD.namespace_ namedE.namespace_
  simp only [String.append_empty] at plain
  simp only [Target.items, List.mem_cons, List.not_mem_nil, or_false] at mem mem'
  rcases mem with rfl | rfl | rfl <;> rcases mem' with rfl | rfl | rfl <;>
    simp [namesOf, TypeDescriptor.EqualUpToFirst, folders, plain, service, List.append_singleton_inj]

/-- What is added to the name of a type in C#. -/
def endingOf : ItemKind → String
  | .modelInheritance => "Inheritance"
  | _ => ""

/-- In C# two files have one path if their types have one namespace, and the names with their endings are
the same. -/
theorem namesOf_csharp (segmentedD : d.IsSegmented) (segmentedE : e.IsSegmented)
    (mem : item ∈ Target.csharp.items) (mem' : item' ∈ Target.csharp.items) :
    namesOf d item = namesOf e item' ↔
      d.namespace_ = e.namespace_ ∧ d.name ++ endingOf item = e.name ++ endingOf item' := by
  have names (d : TypeDescriptor) {item : ItemKind} (mem : item ∈ Target.csharp.items) :
      namesOf d item = segments d.namespace_ ++ [d.name ++ endingOf item ++ ".cs"] := by
    simp only [Target.items, List.mem_cons, List.not_mem_nil, or_false] at mem
    rcases mem with rfl | rfl
    · simp [namesOf, endingOf]
    · rfl
  rw [names d mem, names e mem', List.append_singleton_inj, String.append_left_inj]
  refine and_congr_left fun _ => ⟨fun same => ?_, fun same => by rw [same]⟩
  rw [segmentedD, segmentedE, same]

/-- Two of the planned files have one path. -/
def Doubled (g : Generator) (graph : TypeGraph) : Prop :=
  ∃ x ∈ g.tasks graph, ∃ y ∈ g.tasks graph, x ≠ y ∧ namesOf x.2 x.1 = namesOf y.2 y.1

theorem doubled_typescript (named : ∀ d ∈ graph.descriptors, d.HasIdentifiers)
    (target : g.target = .typescript) : g.Doubled graph ↔ graph.Clash .typescript := by
  have names (x y : ItemKind × TypeDescriptor) (memX : x ∈ g.tasks graph) (memY : y ∈ g.tasks graph) :
      namesOf x.2 x.1 = namesOf y.2 y.1 ↔ x.1 = y.1 ∧ x.2.EqualUpToFirst y.2 := by
    obtain ⟨itemX, candidateX⟩ := mem_tasks.mp memX
    obtain ⟨itemY, candidateY⟩ := mem_tasks.mp memY
    rw [target] at itemX itemY
    exact namesOf_typescript (named _ (mem_descriptors_of_candidate candidateX))
      (named _ (mem_descriptors_of_candidate candidateY)) itemX itemY
  constructor
  · rintro ⟨⟨item, d⟩, memX, ⟨item', e⟩, memY, other, same⟩
    obtain ⟨rfl, equal⟩ := (names _ _ memX memY).mp same
    have different : d ≠ e := fun eq => other (by rw [eq])
    have candidateD := (mem_tasks.mp memX).2
    have candidateE := (mem_tasks.mp memY).2
    by_cases enum : item = .typeScriptEnum
    · simp only [candidates, if_pos enum] at candidateD candidateE
      exact .inl ⟨d, candidateD, e, candidateE, different, equal⟩
    · simp only [candidates, if_neg enum] at candidateD candidateE
      exact .inr ⟨d, candidateD, e, candidateE, different, equal⟩
  · have doubled (item : ItemKind) (mem : item ∈ Target.typescript.items) {d e : TypeDescriptor}
        (memD : d ∈ candidates item graph) (memE : e ∈ candidates item graph) (different : d ≠ e)
        (equal : d.EqualUpToFirst e) : g.Doubled graph := by
      have memX : (item, d) ∈ g.tasks graph := mem_tasks.mpr ⟨target ▸ mem, memD⟩
      have memY : (item, e) ∈ g.tasks graph := mem_tasks.mpr ⟨target ▸ mem, memE⟩
      exact ⟨_, memX, _, memY, by simpa using different, (names _ _ memX memY).mpr ⟨rfl, equal⟩⟩
    rintro (⟨d, memD, e, memE, different, equal⟩ | ⟨d, memD, e, memE, different, equal⟩)
    · exact doubled .typeScriptEnum (by decide) memD memE different equal
    · exact doubled .typeScriptModel (by decide) memD memE different equal

theorem doubled_csharp (keyed : graph.Keyed) (segmented : ∀ d ∈ graph.descriptors, d.IsSegmented)
    (target : g.target = .csharp) : g.Doubled graph ↔ graph.Clash .csharp := by
  have known {item : ItemKind} {d : TypeDescriptor} (mem : (item, d) ∈ g.tasks graph) :
      d ∈ graph.models ∧ d ∈ graph.descriptors ∧ (item = .model ∨ item = .modelInheritance) := by
    obtain ⟨memItem, candidate⟩ := mem_tasks.mp mem
    have items : item = .model ∨ item = .modelInheritance := by simpa [target, Target.items] using memItem
    refine ⟨?_, mem_descriptors_of_candidate candidate, items⟩
    rcases items with rfl | rfl <;> exact candidate
  have names (x y : ItemKind × TypeDescriptor) (memX : x ∈ g.tasks graph) (memY : y ∈ g.tasks graph) :
      namesOf x.2 x.1 = namesOf y.2 y.1 ↔
        x.2.namespace_ = y.2.namespace_ ∧ x.2.name ++ endingOf x.1 = y.2.name ++ endingOf y.1 :=
    namesOf_csharp (segmented _ (known memX).2.1) (segmented _ (known memY).2.1)
      (target ▸ (mem_tasks.mp memX).1) (target ▸ (mem_tasks.mp memY).1)
  constructor
  · rintro ⟨⟨item, d⟩, memX, ⟨item', e⟩, memY, other, same⟩
    obtain ⟨modelD, descriptorD, itemD⟩ := known memX
    obtain ⟨modelE, descriptorE, itemE⟩ := known memY
    obtain ⟨namespace_, file⟩ := (names _ _ memX memY).mp same
    have once {item : ItemKind} (file : d.name ++ endingOf item = e.name ++ endingOf item)
        (other : (item, d) ≠ (item, e)) : graph.Clash .csharp := by
      have name := (String.append_left_inj _).mp file
      exact absurd (by rw [keyed.eq_of_names descriptorD descriptorE namespace_ name]) other
    rcases itemD with rfl | rfl <;> rcases itemE with rfl | rfl
    · exact once file other
    · exact ⟨e, modelE, d, modelD, namespace_.symm, by simpa [endingOf] using file⟩
    · exact ⟨d, modelD, e, modelE, namespace_, by simpa [endingOf] using file.symm⟩
    · exact once file other
  · rintro ⟨d, memD, e, memE, namespace_, name⟩
    have memX : (ItemKind.modelInheritance, d) ∈ g.tasks graph :=
      mem_tasks.mpr ⟨by simp [target, Target.items], memD⟩
    have memY : (ItemKind.model, e) ∈ g.tasks graph := mem_tasks.mpr ⟨by simp [target, Target.items], memE⟩
    refine ⟨_, memX, _, memY, by simp, (names _ _ memX memY).mpr ⟨namespace_, ?_⟩⟩
    simp [endingOf, name]

/-- The files of a target have distinct paths unless types clash. -/
theorem nodup_namesOf_iff (keyed : graph.Keyed) (named : ∀ d ∈ graph.descriptors, d.HasIdentifiers)
    (segmented : ∀ d ∈ graph.descriptors, d.IsSegmented) :
    ((g.tasks graph).map fun task => namesOf task.2 task.1).Nodup ↔ ¬ graph.Clash g.target := by
  have doubled : g.Doubled graph ↔ graph.Clash g.target := by
    cases target : g.target with
    | typescript => exact doubled_typescript named target
    | csharp => exact doubled_csharp keyed segmented target
  rw [List.nodup_map_iff_inj_on (nodup_tasks keyed), ← doubled]
  simp only [Doubled, not_exists, not_and]
  exact forall₄_congr fun x _ y _ => not_imp_not.symm

end Generator

namespace Generation

open Generator Region

/-- For a file that is planned the tree refuses to look for the one that was there before. -/
def SomeLookupRefused (t : Tree) (c : Config) (graph : TypeGraph) (target : Target) : Prop :=
  ∃ item ∈ target.items, item ≠ .modelInheritance ∧ ∃ d ∈ candidates item graph, ∃ planned project,
    plannedPath c d item = .ok planned ∧ c.projectPath target.unit.name = .ok project ∧
      LookupRefused c t (project.join (Path.ofText planned))

theorem exists_forall₂_iff {α β : Type} {R : α → β → Prop} {l : List α} :
    (∃ bs, List.Forall₂ R l bs) ↔ ∀ a ∈ l, ∃ b, R a b := by
  induction l with
  | nil => simp
  | cons a rest ih =>
    rw [List.forall_mem_cons, ← ih]
    constructor
    · rintro ⟨_, _ | ⟨first, others⟩⟩
      exact ⟨⟨_, first⟩, _, others⟩
    · rintro ⟨⟨b, first⟩, bs, others⟩
      exact ⟨b :: bs, .cons first others⟩

/-- All files of a target lie below one folder, through the names of their items and types. -/
theorem exists_base (typed : c.IsTyped) (named : ∀ d ∈ graph.descriptors, d.HasIdentifiers) :
    ∃ project names, c.projectPath g.target.unit.name = .ok project ∧
      ∀ task ∈ g.tasks graph, ∃ planned, plannedPath c task.2 task.1 = .ok planned ∧
        project.join (Path.ofText planned) = ⟨project.anchor, names ++ namesOf task.2 task.1⟩ := by
  obtain ⟨project, path⟩ := Config.projectPath_ok typed.unitFolders g.target.unit.name
  have given : ∃ root, ∀ item ∈ g.target.items, pathPart (rootGiven c item) = .ok root := by
    obtain ⟨folder, eqFolder⟩ := typed.modelsFolder
    obtain ⟨source, eqSource⟩ := typed.angularSourcePath
    cases g.target with
    | csharp => exact ⟨folder, by simp [Target.items, rootGiven, eqFolder, pathPart_str]⟩
    | typescript => exact ⟨source, by simp [Target.items, rootGiven, eqSource, pathPart_str]⟩
  obtain ⟨root, roots⟩ := given
  refine ⟨project, project.parts ++ Path.partsOf root, path, fun task mem => ?_⟩
  obtain ⟨item, candidate⟩ := mem_tasks.mp mem
  obtain ⟨planned, eq⟩ := plannedPath_ok typed task.2 task.1
  obtain ⟨root', located, whole⟩ :=
    ofText_plannedPath (named _ (mem_descriptors_of_candidate candidate)) item eq
  obtain rfl := Except.ok.inj ((roots _ item).symm.trans located)
  exact ⟨planned, eq, by simp only [whole, Path.join, if_true, List.append_assoc]⟩

/-- Where the items of a target are planned for all types, everything is built unless a lookup is refused. -/
theorem built_iff (typed : g.config.IsTyped) (extension : '/' ∉ g.config.customExtension.text.toList)
    (named : ∀ d ∈ graph.descriptors, d.HasIdentifiers) (plain : g.hooks = Hooks.none)
    (renders : g.packages.RendersBuiltins) (builtin : g.templates = ⟨none, Template.builtins⟩) :
    (∀ task ∈ g.tasks graph, ∃ a, (g.build graph task.1 task.2 w).result = .ok a) ↔
      ¬ SomeLookupRefused w.tree g.config graph g.target := by
  obtain ⟨project, names, path, base⟩ := @exists_base g.config g graph typed named
  have one (task : ItemKind × TypeDescriptor) (mem : task ∈ g.tasks graph) {planned : String}
      (eq : plannedPath g.config task.2 task.1 = .ok planned) :
      (∃ a, (g.build graph task.1 task.2 w).result = .ok a) ↔
        (task.1 ≠ .modelInheritance → ¬ LookupRefused g.config w.tree (project.join (Path.ofText planned))) :=
    build_ok_iff typed plain renders builtin
      (named _ (mem_descriptors_of_candidate (mem_tasks.mp mem).2)) extension (mem_tasks.mp mem).1 eq path
  constructor
  · rintro built ⟨item, mem, other, d, candidate, planned, project', eq, path', refused⟩
    obtain rfl := Except.ok.inj (path.symm.trans path')
    have task : (item, d) ∈ g.tasks graph := mem_tasks.mpr ⟨mem, candidate⟩
    exact (one _ task eq).mp (built _ task) other refused
  · intro allowed task mem
    obtain ⟨planned, eq, _⟩ := base task mem
    obtain ⟨item, candidate⟩ := mem_tasks.mp mem
    refine (one task mem eq).mpr fun other refused => allowed ?_
    exact ⟨_, item, other, _, candidate, planned, project, eq, path, refused⟩

/-- What is built for the tasks has distinct paths unless types of the graph clash. -/
theorem located_of_tasks (typed : g.config.IsTyped) (keyed : graph.Keyed)
    (named : ∀ d ∈ graph.descriptors, d.HasIdentifiers) (segmented : ∀ d ∈ graph.descriptors, d.IsSegmented)
    (plain : g.hooks = Hooks.none) {artifacts : List Artifact}
    (built : List.Forall₂ (fun task a => (g.build graph task.1 task.2 w).result = .ok a) (g.tasks graph)
      artifacts) :
    ∃ paths, Located g.config artifacts paths ∧ (paths.Nodup ↔ ¬ graph.Clash g.target) := by
  obtain ⟨project, names, path, base⟩ := @exists_base g.config g graph typed named
  have file (task : ItemKind × TypeDescriptor) (mem : task ∈ g.tasks graph) {a : Artifact}
      (built : (g.build graph task.1 task.2 w).result = .ok a) :
      Output.filePath g.config a = .ok ⟨project.anchor, names ++ namesOf task.2 task.1⟩ := by
    obtain ⟨planned, eq, below⟩ := base task mem
    rw [← below]
    exact filePath_of_build plain eq path built
  refine ⟨(g.tasks graph).map fun task => ⟨project.anchor, names ++ namesOf task.2 task.1⟩, ?_, ?_⟩
  · generalize g.tasks graph = tasks at built file
    induction built with
    | nil => exact .nil
    | cons first _ ih =>
      obtain ⟨here, later⟩ := List.forall_mem_cons.mp file
      exact Located.cons_iff.mpr ⟨here first, ih later⟩
  · rw [← nodup_namesOf_iff keyed named segmented]
    have below : Function.Injective fun more : List String => (⟨project.anchor, names ++ more⟩ : Path) :=
      fun more more' same => List.append_cancel_left (Path.mk.inj same).2
    rw [← List.nodup_map_iff below, List.map_map]
    rfl

/-- Where nothing is set and there are no hooks, a run of one generator collides exactly if types of the graph
clash, and no lookup of a prior file is refused before. -/
theorem collides_iff_clash {ds : List TypeDescriptor} (typed : c.IsTyped)
    (extension : '/' ∉ c.customExtension.text.toList) (named : ∀ d ∈ ds, d.HasIdentifiers)
    (segmented : ∀ d ∈ ds, d.IsSegmented) (config : g.config = c) (plain : g.hooks = Hooks.none)
    (renders : g.packages.RendersBuiltins) (builtin : g.templates = ⟨none, Template.builtins⟩)
    (unset : w.Unset) :
    (∃ collision, (generate (.ofList ds) c [g] w).result = .error collision) ↔
      (TypeGraph.ofList ds).Clash g.target ∧ ¬ SomeLookupRefused w.tree c (.ofList ds) g.target := by
  subst config
  have named (d : TypeDescriptor) (mem : d ∈ (TypeGraph.ofList ds).descriptors) : d.HasIdentifiers :=
    named d (TypeGraph.mem_of_mem_ofList mem)
  have segmented (d : TypeDescriptor) (mem : d ∈ (TypeGraph.ofList ds).descriptors) : d.IsSegmented :=
    segmented d (TypeGraph.mem_of_mem_ofList mem)
  have located {artifacts : List Artifact} := @located_of_tasks g _ w typed (TypeGraph.keyed_ofList ds)
    named segmented plain artifacts
  rw [← built_iff typed extension named plain renders builtin, ← exists_forall₂_iff]
  simp only [collides_unset typed rfl renders builtin unset]
  constructor
  · rintro ⟨collision, artifacts, built, compared⟩
    obtain ⟨paths, located, iff⟩ := located built
    obtain ⟨found, compared', none_iff⟩ := collision?_of_located located
    obtain rfl := Except.ok.inj (compared.symm.trans compared')
    refine ⟨?_, artifacts, built⟩
    by_contra apart
    cases none_iff.mpr (iff.mpr apart)
  · rintro ⟨clash, artifacts, built⟩
    obtain ⟨paths, located, iff⟩ := located built
    obtain ⟨found, compared, none_iff⟩ := collision?_of_located located
    cases found with
    | none => exact absurd clash (iff.mp (none_iff.mp rfl))
    | some collision => exact ⟨collision, artifacts, built, compared⟩

/-- Two enumerations clash in TypeScript, and a model clashes in C# with the derivation of another one. -/
theorem collides_iff_clash_shop :
    let c := { Config.default with outputPath := Path.ofText "out" }
    let types (target : Target) : List TypeDescriptor :=
      if target = .typescript then [
        { name := "Color", kind := .enumeration, namespace_ := "Shop.Items" },
        { name := "color", kind := .enumeration, namespace_ := "shop.Items" }]
      else [
        { name := "Order", kind := .entity, namespace_ := "Shop" },
        { name := "OrderInheritance", kind := .view, namespace_ := "Shop" }]
    let Collides (target : Target) : Prop := ∃ collision,
      (generate (.ofList (types target)) c
        [⟨target.name, target, c, .none, .builtin, ⟨none, Template.builtins⟩⟩]
        { settings := .empty, tree := .empty }).result = .error collision
    let Clash (target : Target) : Prop := (TypeGraph.ofList (types target)).Clash target ∧
      ¬ SomeLookupRefused .empty c (.ofList (types target)) target
    (Collides .typescript ∧ Clash .typescript) ∧ Collides .csharp ∧ Clash .csharp := by
  intro c types Collides Clash
  have collides (target : Target) : Collides target :=
    exists_error_of_isOk (by cases target <;> decide +kernel)
  have names (target : Target) : ∀ d ∈ types target, d.HasIdentifiers ∧ d.IsSegmented := by
    cases target <;> simp only [types, reduceCtorEq, if_true, if_false, List.forall_mem_cons]
    · exact ⟨⟨⟨by decide, by decide +kernel⟩, by decide +kernel⟩,
        ⟨⟨by decide, by decide +kernel⟩, by decide +kernel⟩, by simp⟩
    · exact ⟨⟨⟨by decide, by decide +kernel⟩, by decide +kernel⟩,
        ⟨⟨by decide, by decide +kernel⟩, by decide +kernel⟩, by simp⟩
  have unset : Workshop.Unset { settings := .empty, tree := .empty } := Settings.Resolver.SameAnswers.refl _
  have clash (target : Target) : Clash target :=
    (collides_iff_clash (g := ⟨target.name, target, c, .none, .builtin, ⟨none, Template.builtins⟩⟩)
      (Config.isTyped_default _ _) (by decide) (fun d mem => (names target d mem).1)
      (fun d mem => (names target d mem).2) rfl rfl Packages.builtin_rendersBuiltins rfl unset).mp (collides target)
  exact ⟨⟨collides _, clash _⟩, collides _, clash _⟩

/-- Two enumerations clash, but the extension of sidecars makes names that are too long for the tree, which has
the folder of the enumerations from before. The run ends with that failure, and compares no paths. -/
theorem no_collision_of_long_extension :
    let extension : String := .ofList ('.' :: List.replicate 255 'x')
    let c := { Config.default with outputPath := Path.ofText "out", customExtension := .str extension }
    let upper : TypeDescriptor := { name := "Color", kind := .enumeration }
    let lower : TypeDescriptor := { name := "color", kind := .enumeration }
    let ds := [upper, lower]
    let folders : List Location := [["out"], ["out", "angular"], ["out", "angular", "src"],
      ["out", "angular", "src", "app"], ["out", "angular", "src", "app", "enums"]]
    let t : Tree := ⟨[], folders.map fun folder => (folder, .directory)⟩
    let g : Generator := ⟨"typescript", .typescript, c, .none, .builtin, ⟨none, Template.builtins⟩⟩
    c.IsTyped ∧ '/' ∉ c.customExtension.text.toList ∧ (∀ d ∈ ds, d.HasIdentifiers ∧ d.IsSegmented) ∧
      (TypeGraph.ofList ds).Clash .typescript ∧
        ¬ ∃ collision, (generate (.ofList ds) c [g] { settings := .empty, tree := t }).result = .error collision := by
  intro extension
  have long : 255 < Text.nameSize extension := by
    have := Text.length_le_nameSize ('.' :: List.replicate 255 'x')
    rwa [List.length_cons, List.length_replicate] at this
  have plain : Tree.IsPlain extension := by
    rw [Tree.IsPlain, String.toList_ofList, List.forall_mem_cons]
    refine ⟨by decide, fun ch mem => ?_⟩
    obtain rfl := List.eq_of_mem_replicate mem
    decide
  -- From here on it does not count which extension this is.
  clear_value extension
  intro c upper lower ds folders t g
  have typed : c.IsTyped := Config.isTyped_default _ _
  have slash : '/' ∉ c.customExtension.text.toList := plain.slash_notMem
  have names : ∀ d ∈ ds, d.HasIdentifiers ∧ d.IsSegmented := by
    simp only [ds, List.forall_mem_cons]
    exact ⟨⟨⟨by decide, by decide +kernel⟩, by decide +kernel⟩,
      ⟨⟨by decide, by decide +kernel⟩, by decide +kernel⟩, by simp⟩
  have memUpper : upper ∈ (TypeGraph.ofList ds).enumerations := List.mem_cons_self
  have memLower : lower ∈ (TypeGraph.ofList ds).enumerations := List.mem_cons_of_mem _ List.mem_cons_self
  have clash : (TypeGraph.ofList ds).Clash .typescript := by
    refine .inl ⟨upper, memUpper, lower, memLower, ?_, ?_, ?_⟩
    · intro same
      exact absurd (congrArg TypeDescriptor.name same) (by decide)
    · exact .nil
    · exact ⟨'C', 'c', "olor".toList, by decide, by decide, by decide⟩
  have planned : plannedPath c upper .typeScriptEnum = .ok "src/app/enums/color.ts" :=
    (rfl : _ = plannedPath Config.default { name := "Color", kind := .enumeration } .typeScriptEnum).trans
      (eq_ok_of_toOption (by decide +kernel))
  have path : c.projectPath Target.typescript.unit.name = .ok ⟨.relative, ["out", "angular"]⟩ :=
    (rfl : _ = { Config.default with outputPath := Path.ofText "out" }.projectPath _).trans
      (eq_ok_of_toOption (by decide +kernel))
  have file : Path.join ⟨.relative, ["out", "angular"]⟩ (Path.ofText "src/app/enums/color.ts") =
      ⟨.relative, ["out", "angular", "src", "app", "enums", "color.ts"]⟩ := by decide +kernel
  have gone : t.exists? ⟨.relative, ["out", "angular", "src", "app", "enums", "color.ts"]⟩ = .ok false :=
    eq_ok_of_toOption (by decide +kernel)
  have refused : SomeLookupRefused t c (.ofList ds) .typescript := by
    refine ⟨.typeScriptEnum, by decide, by decide, upper, memUpper, _, _, planned, path, ?_⟩
    rw [file]
    let folderPath : Path := ⟨.relative, ["out", "angular", "src", "app", "enums"]⟩
    have plainFolders : ∀ name ∈ folderPath.parts, Tree.IsPlain name := by decide
    have folder : t.locate folderPath = .ok ["out", "angular", "src", "app", "enums"] :=
      eq_ok_of_toOption (by decide +kernel)
    have there : t.node? ["out", "angular", "src", "app", "enums"] = some .directory := by decide +kernel
    have refused := @lookupRefused_of_extension c t folderPath _ "color" .typescript (by decide) (by decide)
      plainFolders (by decide) plain folder there gone long
    exact refused
  refine ⟨typed, slash, names, clash, ?_⟩
  rintro ⟨collision, collides⟩
  have unset : Workshop.Unset { settings := .empty, tree := t } := Settings.Resolver.SameAnswers.refl _
  obtain ⟨artifacts, built, _⟩ := (collides_unset typed rfl Packages.builtin_rendersBuiltins rfl unset).mp collides
  have named : ∀ d ∈ (TypeGraph.ofList ds).descriptors, d.HasIdentifiers := fun d mem => (names d mem).1
  exact (built_iff (g := g) typed slash named rfl Packages.builtin_rendersBuiltins rfl).mp
    (exists_forall₂_iff.mp ⟨_, built⟩) refused

end Generation

end Scaffold
