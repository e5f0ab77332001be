import Scaffold.Proofs.Generation.Names
import Scaffold.Proofs.Generation.Place
import Scaffold.Proofs.Naming.Parts
import Scaffold.Proofs.TypeScript.ImportPath

/-!
Where artifacts lie. Below the folder that the configuration gives, a file lies in the folders of its item
and its namespace, under the name of its item for the type; none of these names leads up.
-/

namespace Scaffold

open Scaffold.Graph Naming

variable {c : Config} {d : TypeDescriptor} {item : ItemKind} {root s : String}

theorem Naming.joinGiven_cons_eq_ok {given : Json} {parts : List String}
    (h : joinGiven (given :: parts.map .str) = .ok s) :
    ∃ first, pathPart given = .ok first ∧ s = joinPath (first :: parts) := by
  cases part : pathPart given with
  | error e => simp [joinGiven, List.mapM_cons, part, bind, Except.bind, Except.map] at h
  | ok first =>
    rw [joinGiven_cons_texts part] at h
    exact ⟨first, rfl, (Except.ok.inj h).symm⟩

theorem ne_file {stem short : String} (few : short.length < 3) (target : Target) :
    short ≠ stem ++ target.extension := by
  rintro rfl
  have long : 3 ≤ target.extension.length := by cases target <;> decide
  rw [String.length_append] at few
  omega

/-- A file has its name for itself. -/
theorem Path.partsOf_file {stem : String} (plain : '/' ∉ stem.toList) (target : Target) :
    Path.partsOf (stem ++ target.extension) = [stem ++ target.extension] := by
  refine Path.partsOf_of_plain ?_ ?_
  · cases target <;> simp [plain, Target.extension]
  · have nonempty : "" ≠ stem ++ target.extension := ne_file (by decide) target
    have other : "." ≠ stem ++ target.extension := ne_file (by decide) target
    simp [Path.isStep, nonempty.symm, other.symm]

/-- What begins with a stem does not begin with a dot. -/
theorem ne_dotted {stem dotted : String} (some_ : stem ≠ "") (plain : '.' ∉ stem.toList)
    (dot : dotted.toList.head? = some '.') (rest : String) : dotted ≠ stem ++ rest := by
  rintro rfl
  obtain ⟨ch, chs, eq⟩ := List.exists_cons_of_ne_nil fun none_ => some_ (String.toList_eq_nil_iff.mp none_)
  simp only [String.toList_append, eq, List.cons_append, List.head?_cons, Option.some.injEq] at dot
  simp [eq, dot] at plain

theorem Path.stem_file {stem : String} (some_ : stem ≠ "") (target : Target) :
    (Path.splitName (stem ++ target.extension)).1 = stem := by
  have chars : stem.toList ≠ [] := by simpa using some_
  cases target <;> simp [Path.splitName, Target.extension, chars]

/-- A path that is seen from where it is used, and does not lead up. -/
def Path.StaysBelow (s : String) : Prop := (ofText s).anchor = .relative ∧ ".." ∉ partsOf s

theorem Path.StaysBelow.join {s : String} (h : StaysBelow s) (p : Path) :
    p.join (ofText s) = ⟨p.anchor, p.parts ++ partsOf s⟩ := by
  rw [Path.join, if_pos h.1, parts_ofText]

theorem Naming.IsIdentifier.append {name ending : String} (h : IsIdentifier name)
    (h' : IsIdentifier ending) : IsIdentifier (name ++ ending) where
  nonempty := by simp [h.nonempty]
  letters := by
    intro c mem
    rw [String.toList_append, List.mem_append] at mem
    exact mem.elim (h.letters c) (h'.letters c)

theorem isIdentifier_inheritance : IsIdentifier "Inheritance" := by decide

theorem isIdentifier_service : IsIdentifier "Service" := by decide

namespace Generator

/-- The folder that the configuration gives for an item. -/
def rootGiven (c : Config) : ItemKind → Json
  | .model | .modelInheritance => c.modelsFolder
  | _ => c.angularSourcePath

/-- The folders and the file of an item for a type, below the folder that is given. -/
def namesOf (d : TypeDescriptor) : ItemKind → List String
  | .model => segments d.namespace_ ++ [d.name ++ ".cs"]
  | .modelInheritance => segments d.namespace_ ++ [d.name ++ "Inheritance" ++ ".cs"]
  | .typeScriptEnum =>
    "enums" :: (segments d.namespace_).map fileItem ++ [fileItem d.name ++ ".ts"]
  | .typeScriptModel =>
    "models" :: (segments d.namespace_).map fileItem ++ [fileItem d.name ++ ".ts"]
  | .typeScriptService =>
    "services" :: "http" :: (segments d.namespace_).map fileItem ++
      [fileItem (d.name ++ "Service") ++ ".ts"]
  | .modelProperty | .lambda => []

theorem csharp_subPath_parts (named : d.HasIdentifiers) {ending : String} (plain : '/' ∉ ending.toList)
    (planned : CSharp.subPath c d ending = .ok s) :
    ∃ root, pathPart c.modelsFolder = .ok root ∧ Path.ofText s =
      ⟨.relative, Path.partsOf root ++ (segments d.namespace_ ++ [d.name ++ ending ++ ".cs"])⟩ := by
  obtain ⟨root, located, rfl⟩ := @joinGiven_cons_eq_ok _ _ [_, _] planned
  have plainName : '/' ∉ (d.name ++ ending).toList := by simp [named.name.slash_notMem, plain]
  have file := Path.partsOf_file plainName .csharp
  refine ⟨root, located, ?_⟩
  rw [Path.ofText_joinPath]
  simp only [List.flatMap_cons, List.flatMap_nil, partsOf_folders named.namespace_]
  simp only [Target.extension] at file
  rw [file, List.append_nil]

theorem typescript_subPath_parts (named : d.HasIdentifiers) {name folder : String}
    (identifier : IsIdentifier name) (planned : TypeScript.subPath c folder d name = .ok s) :
    ∃ root, pathPart c.angularSourcePath = .ok root ∧ Path.ofText s =
      ⟨.relative, Path.partsOf root ++ (Path.partsOf folder ++
        (segments d.namespace_).map fileItem ++ [fileItem name ++ ".ts"])⟩ := by
  obtain ⟨root, located, rfl⟩ := @joinGiven_cons_eq_ok _ _ [_, _, _] planned
  have file := Path.partsOf_file (slash_notMem_fileItem identifier.ascii identifier.no_slash) .typescript
  refine ⟨root, located, ?_⟩
  rw [Path.ofText_joinPath]
  simp only [List.flatMap_cons, List.flatMap_nil, partsOf_subPath named.namespace_]
  simp only [Target.extension] at file
  rw [file, List.append_nil, List.append_assoc]

/-- The path of an item's file lies below the folder that is given, through the names of the item. -/
theorem ofText_plannedPath (named : d.HasIdentifiers) {target : Target} (mem : item ∈ target.items)
    (planned : plannedPath c d item = .ok s) :
    ∃ root, pathPart (rootGiven c item) = .ok root ∧
      Path.ofText s = ⟨.relative, Path.partsOf root ++ namesOf d item⟩ := by
  cases item with
  | model =>
    have plain : '/' ∉ "".toList := by decide
    have := csharp_subPath_parts named plain planned
    simpa [rootGiven, namesOf] using this
  | modelInheritance => exact csharp_subPath_parts named (by decide) planned
  | typeScriptEnum => exact typescript_subPath_parts named named.name planned
  | typeScriptModel => exact typescript_subPath_parts named named.name planned
  | typeScriptService =>
    exact typescript_subPath_parts named (named.name.append isIdentifier_service) planned
  | modelProperty | lambda => cases target <;> simp [Target.items] at mem

/-- No name leads up. -/
theorem namesOf_straight (named : d.HasIdentifiers) (item : ItemKind) : ".." ∉ namesOf d item := by
  have folder : ".." ∉ segments d.namespace_ := fun mem =>
    (named.namespace_ _ mem).no_dot (by decide)
  have item_ : ".." ∉ (segments d.namespace_).map fileItem := by
    intro mem
    obtain ⟨segment, memSegment, eq⟩ := List.mem_map.mp mem
    refine (named.namespace_ segment memSegment).dot_notMem_fileItem ?_
    rw [eq]
    decide
  have file (stem : String) (target : Target) : ".." ≠ stem ++ target.extension :=
    ne_file (by decide) target
  have cs (stem : String) := file stem .csharp
  have ts (stem : String) := file stem .typescript
  simp only [Target.extension] at cs ts
  cases item <;> simp [namesOf, folder, item_, cs, ts]

/-- Where the folders that are given do not lead up, every planned path stays below where it is seen from. -/
theorem staysBelow_plannedPath (named : d.HasIdentifiers) {target : Target} (mem : item ∈ target.items)
    (straight : ∀ item root, pathPart (rootGiven c item) = .ok root → ".." ∉ Path.partsOf root)
    (planned : plannedPath c d item = .ok s) : Path.StaysBelow s := by
  obtain ⟨root, located, eq⟩ := ofText_plannedPath named mem planned
  rw [Path.StaysBelow, ← Path.parts_ofText, eq, List.mem_append, not_or]
  exact ⟨rfl, straight item root located, namesOf_straight named item⟩

/-- The last name is that of a type with an ending, under the extension of a target. -/
theorem namesOf_file (named : IsIdentifier d.name) {target : Target} (mem : item ∈ target.items) :
    ∃ folders stem, namesOf d item = folders ++ [stem ++ target.extension] ∧ stem ≠ "" ∧
      '.' ∉ stem.toList ∧ '/' ∉ stem.toList := by
  have plain {name : String} (identifier : IsIdentifier name) :
      name ≠ "" ∧ '.' ∉ name.toList ∧ '/' ∉ name.toList :=
    ⟨identifier.nonempty, identifier.no_dot, identifier.slash_notMem⟩
  have converted {name : String} (identifier : IsIdentifier name) :
      fileItem name ≠ "" ∧ '.' ∉ (fileItem name).toList ∧ '/' ∉ (fileItem name).toList :=
    ⟨identifier.isPart.nonempty, identifier.dot_notMem_fileItem,
      slash_notMem_fileItem identifier.ascii identifier.no_slash⟩
  cases target with
  | csharp =>
    cases item with
    | model => exact ⟨_, d.name, rfl, plain named⟩
    | modelInheritance =>
      exact ⟨_, d.name ++ "Inheritance", rfl, plain (named.append isIdentifier_inheritance)⟩
    | _ => simp [Target.items] at mem
  | typescript =>
    cases item with
    | typeScriptEnum => exact ⟨_, fileItem d.name, rfl, converted named⟩
    | typeScriptModel => exact ⟨_, fileItem d.name, rfl, converted named⟩
    | typeScriptService =>
      exact ⟨_, fileItem (d.name ++ "Service"), rfl, converted (named.append isIdentifier_service)⟩
    | _ => simp [Target.items] at mem

/-- Below all folders, also those that are no identifiers, a planned path ends with the name of the file. -/
theorem ofText_plannedPath_file {target : Target} (mem : item ∈ target.items)
    (planned : plannedPath c d item = .ok s) :
    ∃ folders front last, namesOf d item = front ++ [last] ∧
      Path.ofText s = ⟨.relative, folders ++ Path.partsOf last⟩ := by
  have joined (parts : List String) {front : List String} {given : Json} {file : String}
      (names : namesOf d item = front ++ [file])
      (planned : joinGiven (given :: (parts ++ [file]).map .str) = .ok s) :
      ∃ folders front last, namesOf d item = front ++ [last] ∧
        Path.ofText s = ⟨.relative, folders ++ Path.partsOf last⟩ := by
    obtain ⟨root, _, rfl⟩ := joinGiven_cons_eq_ok planned
    refine ⟨(root :: parts).flatMap Path.partsOf, front, file, names, ?_⟩
    rw [Path.ofText_joinPath, ← List.cons_append, List.flatMap_append]
    simp
  cases item with
  | model => exact joined [_] (by rw [namesOf, String.append_empty]) planned
  | modelInheritance => exact joined [_] rfl planned
  | typeScriptEnum => exact joined [_, _] rfl planned
  | typeScriptModel => exact joined [_, _] rfl planned
  | typeScriptService => exact joined [_, _] rfl planned
  | modelProperty | lambda => cases target <;> simp [Target.items] at mem

end Generator

end Scaffold
