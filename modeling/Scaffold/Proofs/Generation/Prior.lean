import Scaffold.Proofs.Generation.Location
import Scaffold.Proofs.Generation.Total
import Scaffold.Proofs.Region.Externalized
import Scaffold.Proofs.Tree.Refusal

/-!
The only thing that can fail a build. Where the options are of their kinds and there are no hooks, an artifact
is built unless the tree refuses to look for the file that was there before.
-/

namespace Scaffold

variable {c : Config} {t : Tree} {p s : Path} {a : Artifact} {project : Path}

theorem Path.ofText_of_plain {name : String} (plain : '/' ∉ name.toList) (step : isStep name = true) :
    ofText name = ⟨.relative, [name]⟩ := by
  have path : (⟨.relative, [name]⟩ : Path).IsPlain := List.forall_mem_singleton.mpr ⟨plain, step⟩
  simpa [text] using path.ofText_text (by simp)

/-- A name without slashes can be given to any path that has one. -/
theorem Path.withName_of_plain {name : String} (there : p.name ≠ "") (plain : '/' ∉ name.toList)
    (step : isStep name = true) : p.withName name = .ok ⟨p.anchor, p.parts.dropLast ++ [name]⟩ := by
  have ends : Text.endsWith "/" name = false := by
    rw [Text.endsWith, Option.isSome_eq_false_iff, Option.isNone_iff_eq_none]
    refine Option.eq_none_iff_forall_ne_some.mpr fun rest eq => plain ?_
    rw [Text.dropSuffix?_eq_some.mp eq]
    exact List.mem_append_right _ (by decide)
  rw [withName, if_neg there]
  simp [ofText_of_plain plain step, ends]

namespace Region

/-- The path of a file or, if that is not there, the path of its sidecar is too long to be looked for. -/
def LookupRefused (c : Config) (t : Tree) (p : Path) : Prop :=
  t.locate p = .error .nameTooLong ∨
    t.exists? p = .ok false ∧ ∃ s, sidecarPath c p = .ok s ∧ t.locate s = .error .nameTooLong

theorem extract_ok_iff (sidecar : sidecarPath c p = .ok s) :
    (∃ found, (extract c t p).result = .ok found) ↔ ¬ LookupRefused c t p := by
  constructor
  · rintro ⟨⟨state, r⟩, extracted⟩
    rcases extract_eq_ok extracted with there | ⟨gone, s', there, sidecar', known⟩
    · have answered := Tree.exists?_ok_iff.mp ⟨true, there⟩
      rintro (refused | ⟨gone, _⟩)
      · exact answered refused
      · exact absurd (Except.ok.inj (there.symm.trans gone)) (by decide)
    · have answered := Tree.exists?_ok_iff.mp ⟨false, gone⟩
      have answered' := Tree.exists?_ok_iff.mp ⟨there, known⟩
      rintro (refused | ⟨_, s'', sidecar'', refused⟩)
      · exact answered refused
      · obtain rfl := Except.ok.inj (sidecar'.symm.trans sidecar'')
        exact answered' refused
  · intro allowed
    obtain ⟨there, known⟩ := Tree.exists?_ok_iff.mpr fun refused => allowed (.inl refused)
    cases there with
    | true =>
      obtain ⟨state, r, extracted, _⟩ := extract_of_there (c := c) known
      exact ⟨_, extracted⟩
    | false =>
      obtain ⟨there, known'⟩ := Tree.exists?_ok_iff.mpr fun refused =>
        allowed (.inr ⟨known, s, sidecar, refused⟩)
      obtain ⟨state, r, extracted, _⟩ := extract_of_gone known sidecar known'
      exact ⟨_, extracted⟩

theorem merge_ok_iff (sidecar : sidecarPath c (a.path project) = .ok s) :
    (∃ m, (merge c t a project).result = .ok m) ↔
      (a.hasRegions = true → ¬ LookupRefused c t (a.path project)) := by
  constructor
  · rintro ⟨m, merged⟩ regions
    obtain ⟨r, _, found⟩ := merge_eq_ok merged
    obtain ⟨state, extracted⟩ := found regions
    exact (extract_ok_iff sidecar).mp ⟨_, extracted⟩
  · intro allowed
    by_cases regions : a.hasRegions = true
    · obtain ⟨⟨state, r⟩, extracted⟩ := (extract_ok_iff sidecar).mpr (allowed regions)
      exact ⟨_, merge_of_extract regions extracted⟩
    · exact ⟨_, by rw [merge, if_neg regions]; rfl⟩

/-- The sidecar of a file that is named for a stem, if the extension of sidecars is part of a name. -/
theorem sidecarPath_file {front : List String} {stem : String} {target : Target}
    (eq : p.parts = front ++ [stem ++ target.extension]) (some_ : stem ≠ "") (plain : '.' ∉ stem.toList)
    (name : '/' ∉ stem.toList) (extension : '/' ∉ c.customExtension.text.toList) :
    sidecarPath c p = .ok ⟨p.anchor, front ++ [stem ++ c.customExtension.text]⟩ := by
  have last : p.name = stem ++ target.extension := by simp [Path.name, eq]
  have there : p.name ≠ "" := by
    rw [last]
    exact (ne_file (by decide) target).symm
  have step : Path.isStep (stem ++ c.customExtension.text) = true := by
    have notDot : "." ≠ stem ++ c.customExtension.text := ne_dotted some_ plain rfl _
    simp [Path.isStep, some_, notDot.symm]
  rw [sidecarPath, Path.stem, last, Path.stem_file some_,
    Path.withName_of_plain there (by simp [name, extension]) step, eq, List.dropLast_concat]

/-- In a directory without the file an extension of sidecars that is too long is refused. -/
theorem lookupRefused_of_extension {at_ : Location} {stem : String} {target : Target}
    (some_ : stem ≠ "") (noDot : '.' ∉ stem.toList)
    (plain : ∀ name ∈ p.parts, Tree.IsPlain name) (plainStem : Tree.IsPlain stem)
    (extension : Tree.IsPlain c.customExtension.text)
    (folder : t.locate p = .ok at_) (there : t.node? at_ = some .directory)
    (gone : t.exists? ⟨p.anchor, p.parts ++ [stem ++ target.extension]⟩ = .ok false)
    (long : Tree.nameLimit < Text.nameSize c.customExtension.text) :
    LookupRefused c t ⟨p.anchor, p.parts ++ [stem ++ target.extension]⟩ := by
  have plainParts : ∀ name ∈ p.parts ++ [stem ++ c.customExtension.text], Tree.IsPlain name :=
    List.forall_mem_append.mpr ⟨plain, by simpa using plainStem.append extension⟩
  have size : Tree.nameLimit < Text.nameSize (stem ++ c.customExtension.text) := by
    rw [Text.nameSize_append]
    omega
  exact .inr ⟨gone, _, sidecarPath_file rfl some_ noDot plainStem.slash_notMem extension.slash_notMem,
    Tree.locate_tooLong plainParts folder there size⟩

end Region

namespace Generator

open Scaffold.Graph Region

variable {g : Generator} {graph : TypeGraph} {item : ItemKind} {d : TypeDescriptor} {w : Workshop}
  {planned : String}

/-- The file of an item for a type has a sidecar. -/
theorem sidecarPath_plannedPath (named : d.HasIdentifiers) {target : Target} (mem : item ∈ target.items)
    (extension : '/' ∉ c.customExtension.text.toList) (eq : plannedPath c d item = .ok planned)
    (project : Path) : ∃ s, sidecarPath c (project.join (Path.ofText planned)) = .ok s := by
  obtain ⟨root, _, whole⟩ := ofText_plannedPath named mem eq
  obtain ⟨folders, stem, names, some_, plain, slash⟩ := namesOf_file named.name mem
  have parts : (project.join (Path.ofText planned)).parts =
      (project.parts ++ Path.partsOf root ++ folders) ++ [stem ++ target.extension] := by
    simp only [whole, names, Path.join, if_true, List.append_assoc]
  exact ⟨_, sidecarPath_file parts some_ plain slash extension⟩

/-- The artifact for an item lies where it was planned, and it is built unless the tree refuses the lookup of
the file there. No file is looked up for the part of a class that derives it. -/
theorem build_ok_iff (typed : g.config.IsTyped) (plain : g.hooks = Hooks.none)
    (renders : g.packages.RendersBuiltins) (builtin : g.templates = ⟨none, Template.builtins⟩)
    (named : d.HasIdentifiers)
    (extension : '/' ∉ g.config.customExtension.text.toList) (mem : item ∈ g.target.items)
    (eq : plannedPath g.config d item = .ok planned) (path : g.projectPath = .ok project) :
    (∃ a, (g.build graph item d w).result = .ok a) ↔
      (item ≠ .modelInheritance → ¬ LookupRefused g.config w.tree (project.join (Path.ofText planned))) := by
  have emits : (g.emit graph item d).Yields (Artifact.IsAt planned (decide (item ≠ .modelInheritance))) :=
    emit_yields typed plain renders builtin mem eq
  obtain ⟨e, emitted, at_, regions⟩ := emits w
  have tree := @tree_emit_of_builtins g graph d renders builtin item w
  have there : e.path project = project.join (Path.ofText planned) := by rw [Artifact.path, at_]
  obtain ⟨s, sidecar⟩ := sidecarPath_plannedPath named mem extension eq project
  rw [← there] at sidecar ⊢
  have merges := merge_ok_iff (t := w.tree) sidecar
  rw [regions, decide_eq_true_eq] at merges
  rw [← merges]
  constructor
  · rintro ⟨a, built⟩
    obtain ⟨e', project', m, emitted', path', merged, _⟩ := build_eq_ok plain built
    obtain rfl := Except.ok.inj (emitted.symm.trans emitted')
    obtain rfl := Except.ok.inj (path.symm.trans path')
    exact ⟨m, tree ▸ merged⟩
  · rintro ⟨m, merged⟩
    rw [← tree] at merged
    obtain ⟨a, finished⟩ := finish_ok typed d m
    exact ⟨a, (build_of_ok plain emitted path merged finished).1⟩

/-- Whatever is built for an item is at its planned path. -/
theorem filePath_of_build (plain : g.hooks = Hooks.none) (eq : plannedPath g.config d item = .ok planned)
    (path : g.projectPath = .ok project) {a : Artifact} (built : (g.build graph item d w).result = .ok a) :
    Output.filePath g.config a = .ok (project.join (Path.ofText planned)) := by
  obtain ⟨e, project', m, emitted, path', merged, finished⟩ := build_eq_ok plain built
  obtain rfl := Except.ok.inj (path.symm.trans path')
  obtain ⟨_, filePath⟩ := filePath_of_finish (emit_gives plain _ _ emitted) path merged finished
  have keep : g.hooks.Keep fun a => plannedPath g.config d item = .ok a.subPath := by
    rw [plain]
    exact Hooks.keep_none
  have at_ := emit_keeps (Artifact.leftByAdding_subPath (plannedPath g.config d item = .ok ·)) keep
    (fun _ _ _ planned => planned) _ _ emitted
  obtain rfl := Except.ok.inj (eq.symm.trans at_)
  exact filePath

end Generator

end Scaffold
