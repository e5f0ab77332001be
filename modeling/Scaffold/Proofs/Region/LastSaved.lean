import Scaffold.Proofs.Region.Externalized

/-!
Files of one folder that differ in their suffix alone have one sidecar. It holds the regions of the last of
them, and those of the others are not kept.
-/

namespace Scaffold.Region

open Scaffold.Tree

variable {c : Config} {t : Tree} {p q s : Path} {at_ : Location}

/-- The regions of the file at a path; none if it cannot be read. -/
def regionsAt (c : Config) (t : Tree) (p : Path) : Regions :=
  match t.fileAt? p with
  | some bytes => regionsIn c bytes
  | none => .none

/-- A file with orderly lines. Its sidecar can be asked for, and carries no regions itself. -/
structure CanSave (c : Config) (t : Tree) (p : Path) : Prop where
  lines : ∃ lines, readLines t p = .ok lines ∧ Orderly c.labels lines
  sidecar : ∃ s, sidecarPath c p = .ok s ∧ Askable s ∧ isCustomizable c s = false

theorem Orderly.apart_parse {l : RegionLabels} {lines : List String} (h : Orderly l lines) :
    (parse l lines).Apart l := by
  intro kind other ne x hx
  rw [h.linesOf_parse] at hx
  exact h.apart kind other ne.symm x (List.mem_filter.mp hx).1

theorem isCustomizable_congr (same : p.name = q.name) : isCustomizable c p = isCustomizable c q := by
  rw [isCustomizable, isCustomizable, Path.suffix, Path.suffix, same]

/-- A sidecar without regions has its place where no file with regions is. -/
theorem sidecarPlace?_ne (sound : t.Sound) (sidecar : sidecarPath c q = .ok s) (other : isCustomizable c s = false)
    (customizable : isCustomizable c p = true) (located : t.locate p = .ok at_) :
    sidecarPlace? c t q ≠ some at_ := by
  intro place
  obtain ⟨_, s', sidecar', located', notDir⟩ := sidecarPlace?_eq_some.mp place
  obtain rfl := Except.ok.inj (sidecar.symm.trans sidecar')
  obtain ⟨_, _, _, eq⟩ := sound.lastName located notDir
  obtain ⟨_, _, _, eq'⟩ := sound.lastName located' notDir
  have name := List.singleton_inj.mp (List.append_inj' (eq.symm.trans eq') rfl).2
  rw [isCustomizable_congr name, other] at customizable
  simp at customizable

theorem CanSave.clear (h : CanSave c t q) (sound : t.Sound) (customizable : isCustomizable c p = true)
    (located : t.locate p = .ok at_) : sidecarPlace? c t q ≠ some at_ := by
  obtain ⟨s, sidecar, _, other⟩ := h.sidecar
  exact sidecarPlace?_ne sound sidecar other customizable located

section

variable {root : Path} {found : List (Path × Node)} (sound : t.Sound) (listed : t.under? root = .ok found)
  (canSave : ∀ p ∈ customizableFiles c t root, CanSave c t p)

include sound listed canSave

theorem saveAll_of_canSave : (∃ saved, (saveAll c root t).result = .ok saved) ∧
    SameDirectories t (saveAll c root t).state ∧ ∀ x, (saveAll c root t).state.node? x =
      match lastSaved? c t (customizableFiles c t root) x with
      | some p => (keptAt? c t p).map .file
      | none => t.node? x := by
  refine saveAll_last sound listed (fun p mem => ?_) fun p customizable _ at_ located q memQ =>
    (canSave q memQ).clear sound customizable located
  obtain ⟨s, sidecar, askable, _⟩ := (canSave p mem).sidecar
  exact ⟨s, sidecar, askable⟩

/-- From a sidecar the regions of the last file that has it are read. -/
theorem regionsAt_last (proper : c.labels.Proper)
    (last : lastSaved? c t (customizableFiles c t root) at_ = some q)
    (located : t.locate s = .ok at_) :
    regionsAt c (saveAll c root t).state s = (regionsAt c t q).filled := by
  obtain ⟨lines, isRead, orderly⟩ := (canSave q (mem_of_lastSaved? last).1).lines
  obtain ⟨bytes, found⟩ := read_of_readLines isRead
  have here : t.fileAt? q = some bytes := fileAt?_eq_some.mpr found
  have apart : (regionsIn c bytes).Apart c.labels := by
    rw [regionsIn_of_readLines found isRead]
    exact orderly.apart_parse
  obtain ⟨-, same, lastKept⟩ := saveAll_of_canSave sound listed canSave
  have node := nodeAt?_of_located (same.keeps.locate located)
  rw [lastKept at_, last] at node
  rw [regionsAt, fileAt?, node, regionsAt, here, ← regionsIn_keptOf? proper apart]
  simp only [keptAt?, here, Option.bind_some]
  cases keptOf? c bytes <;> rfl

/-- Saving what a directory holds runs through. From each sidecar that has a place are read just the regions,
those that are not empty, of the last file with its sidecar there. -/
theorem saveAll_keeps_last (proper : c.labels.Proper) :
    (∃ saved, (saveAll c root t).result = .ok saved) ∧
      ∀ p ∈ customizableFiles c t root, ∀ s at_, sidecarPath c p = .ok s →
        t.locate s = .ok at_ → t.node? at_ ≠ some .directory →
        ∃ q, lastSaved? c t (customizableFiles c t root) at_ = some q ∧
          regionsAt c (saveAll c root t).state s = (regionsAt c t q).filled := by
  refine ⟨(saveAll_of_canSave sound listed canSave).1, fun p mem s at_ sidecar located notDir => ?_⟩
  obtain ⟨lines, isRead, _⟩ := (canSave p mem).lines
  obtain ⟨q, last⟩ := lastSaved?_of_mem mem
    (sidecarPlace?_eq_some.mpr ⟨⟨lines, isRead⟩, s, sidecar, located, notDir⟩)
  exact ⟨q, last, regionsAt_last sound listed canSave proper last located⟩

/-- A file that shares its sidecar with no other keeps its regions. -/
theorem saveAll_keeps_unshared (proper : c.labels.Proper) (mem : p ∈ customizableFiles c t root)
    (sidecar : sidecarPath c p = .ok s) (located : t.locate s = .ok at_)
    (place : sidecarPlace? c t p = some at_)
    (alone : ∀ q ∈ customizableFiles c t root, sidecarPlace? c t q = some at_ → q = p) :
    regionsAt c (saveAll c root t).state s = (regionsAt c t p).filled := by
  obtain ⟨q, last⟩ := lastSaved?_of_mem mem place
  obtain ⟨memQ, placeQ⟩ := mem_of_lastSaved? last
  obtain rfl := alone q memQ placeQ
  exact regionsAt_last sound listed canSave proper last located

end

/-- The lines of a file that is a code region. -/
def sharedLines (custom : List String) : List String := block Config.default.labels .code custom

/-- Two files with one sidecar, of which the first has something to keep. -/
def sharedTree : Tree :=
  let file (custom : List String) : Node := .file (Text.encode (Text.joinLines (sharedLines custom)))
  ((empty.put ["p"] .directory).put ["p", "a.cs"] (file ["  keep();"])).put ["p", "a.ts"] (file [])

def sharedRoot : Path := ⟨.relative, ["p"]⟩

def sharedPath (name : String) : Path := ⟨.relative, ["p", name]⟩

theorem sound_sharedTree : sharedTree.Sound := by decide

theorem located_shared : sharedTree.locate (sharedPath "a.custom") = .ok ["p", "a.custom"] :=
  eq_ok_of_toOption (by decide +kernel)

theorem canSave_shared {name : String} {custom : List String}
    (isRead : (readLines sharedTree (sharedPath name)).toOption = some (sharedLines custom))
    (orderly : Orderly Config.default.labels (sharedLines custom))
    (sidecar : sidecarPath Config.default (sharedPath name) = .ok (sharedPath "a.custom")) :
    CanSave Config.default sharedTree (sharedPath name) where
  lines := ⟨_, eq_ok_of_toOption isRead, orderly⟩
  sidecar := ⟨_, sidecar, askable_of_located located_shared, by decide +kernel⟩

/-- The regions of a file are lost when the next file has the same sidecar and nothing to keep. -/
theorem saveAll_keeps_last_empty :
    (regionsAt Config.default sharedTree (sharedPath "a.cs")).linesOf .code = ["  keep();"] ∧
      ∀ kind, (regionsAt Config.default (saveAll Config.default sharedRoot sharedTree).state
        (sharedPath "a.custom")).linesOf kind = [] := by
  have located : sharedTree.locate sharedRoot = .ok ["p"] := eq_ok_of_toOption (by decide +kernel)
  have listed := sound_sharedTree.under?_eq located (by decide)
  have files : customizableFiles Config.default sharedTree sharedRoot =
      [sharedPath "a.cs", sharedPath "a.ts"] :=
    (customizableFiles_of_listed listed).trans (by decide +kernel)
  have sidecarFirst : sidecarPath Config.default (sharedPath "a.cs") = .ok (sharedPath "a.custom") :=
    eq_ok_of_toOption (by decide +kernel)
  have sidecarLast : sidecarPath Config.default (sharedPath "a.ts") = .ok (sharedPath "a.custom") :=
    eq_ok_of_toOption (by decide +kernel)
  have isReadFirst : (readLines sharedTree (sharedPath "a.cs")).toOption =
      some (sharedLines ["  keep();"]) := by
    decide +kernel
  have isReadLast : (readLines sharedTree (sharedPath "a.ts")).toOption = some (sharedLines []) := by
    decide +kernel
  have orderlyFirst : Orderly Config.default.labels (sharedLines ["  keep();"]) :=
    ⟨by intro kind; cases kind <;> decide +kernel,
      by intro kind other; cases kind <;> cases other <;> decide +kernel⟩
  have orderlyLast : Orderly Config.default.labels (sharedLines []) :=
    ⟨by intro kind; cases kind <;> decide +kernel,
      by intro kind other; cases kind <;> cases other <;> decide +kernel⟩
  have canSave : ∀ p ∈ customizableFiles Config.default sharedTree sharedRoot,
      CanSave Config.default sharedTree p := by
    simp only [files, List.forall_mem_cons]
    exact ⟨canSave_shared isReadFirst orderlyFirst sidecarFirst,
      canSave_shared isReadLast orderlyLast sidecarLast, List.forall_mem_nil _⟩
  obtain ⟨_, kept⟩ := saveAll_keeps_last sound_sharedTree listed canSave Config.default_labels_proper
  obtain ⟨q, last, regions⟩ := kept (sharedPath "a.cs") (by simp [files]) _ _ sidecarFirst located_shared
    (by decide)
  rw [files] at last
  have isLast : lastSaved? Config.default sharedTree [sharedPath "a.cs", sharedPath "a.ts"]
      ["p", "a.custom"] = some (sharedPath "a.ts") := by
    decide +kernel
  obtain rfl := Option.some.inj (isLast.symm.trans last)
  refine ⟨by decide +kernel, fun kind => ?_⟩
  rw [regions, linesOf_filled]
  cases kind <;> decide +kernel

end Scaffold.Region
