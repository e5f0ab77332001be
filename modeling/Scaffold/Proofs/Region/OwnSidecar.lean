import Scaffold.Proofs.Generation.Names
import Scaffold.Proofs.Generation.Prior
import Scaffold.Proofs.Path
import Scaffold.Proofs.Region.LastSaved
import Scaffold.Proofs.Tree.Reached

/-!
Extensions that give every file a sidecar of its own. A dot and what follows it up to no other dot is the suffix of
the sidecar, so the stem is read back from its name: files of one folder with other stems have other sidecars, and no
sidecar is a file with regions.
-/

namespace Scaffold

open Scaffold.Tree

variable {c : Config} {t : Tree} {p q s root : Path} {at_ x : Location} {extension : String}

namespace Region

/-- An extension that starts with a dot, has no other dot and no slash, and is not the suffix of a file with regions. -/
structure Dotted (c : Config) (extension : String) : Prop where
  given : c.customExtension = .str extension
  dotted : ∃ rest, extension.toList = '.' :: rest ∧ '.' ∉ rest ∧ '/' ∉ rest
  apart : Text.lower extension ∉ c.customizableExtensions

/-- An extension for which every file with regions has a sidecar of its own that has none. -/
structure OwnSidecars (c : Config) (extension : String) : Prop extends Dotted c extension where
  /-- It can stand in the name of a file. -/
  written : ∀ ch ∈ extension.toList, ch ≠ '\x00' ∧ (Text.isNameByte ch = true ∨ Text.carried? ch = none)
  /-- The file is listed under that name. -/
  listed : Text.spellsCharacter extension.toList = false
  /-- A dot alone is no suffix. -/
  suffix : extension = "." → "" ∉ c.customizableExtensions

namespace OwnSidecars

variable (own : OwnSidecars c extension)

include own

theorem sidecarPath (some_ : p.name ≠ "") (slash : '/' ∉ p.name.toList) :
    Region.sidecarPath c p = .ok ⟨p.anchor, p.parts.dropLast ++ [p.stem ++ extension]⟩ := by
  obtain ⟨rest, dotted, -, noSlash⟩ := own.dotted
  have stem := Path.stem_ne_nil some_
  have plain : '/' ∉ (p.stem ++ extension).toList := by
    have part : '/' ∉ p.stem.toList := fun mem => slash (by
      rw [← Path.stem_append_suffix p.name, String.toList_append]
      exact List.mem_append_left _ mem)
    simp [dotted, part, noSlash]
  have step : Path.isStep (p.stem ++ extension) = true := by
    have long : 2 ≤ (p.stem ++ extension).toList.length := by
      have := List.length_pos_iff.mpr stem
      simp [dotted, Path.stem]
      omega
    have other (short : String) (length : short.toList.length < 2) : p.stem ++ extension ≠ short :=
      fun same => absurd (same ▸ long) (Nat.not_le.mpr length)
    simp [Path.isStep, other "" (by decide), other "." (by decide)]
  rw [Region.sidecarPath, own.given]
  exact Path.withName_of_plain some_ plain step

theorem name_sidecar (sidecar : Region.sidecarPath c p = .ok s) : s.name = p.stem ++ extension := by
  rw [(sidecarPath_eq_ok sidecar).1, own.given]
  simp [Path.name, Json.text]

/-- The system can be asked for the sidecar of a path that it can be asked for. -/
theorem askable (possible : impossible? p = none) (sidecar : Region.sidecarPath c p = .ok s) : Askable s := by
  obtain ⟨whole, some_⟩ := sidecarPath_eq_ok sidecar
  obtain ⟨halves, null, -, -⟩ := impossible?_eq_none.mp possible
  have names : p.parts = p.parent.parts ++ [p.stem ++ p.suffix] := by
    rw [Path.stem, Path.suffix, Path.stem_append_suffix]
    exact Path.parts_eq some_
  have text : p.text = Path.text ⟨p.anchor, p.parent.parts ++ [p.stem]⟩ ++ p.suffix := by
    rw [← Path.text_append, ← names]
  have textS : s.text = Path.text ⟨p.anchor, p.parent.parts ++ [p.stem]⟩ ++ extension := by
    rw [whole, own.given, ← Path.text_append]
    rfl
  have clean : ∀ ch ∈ s.text.toList, ch ≠ '\x00' ∧ (Text.isNameByte ch = true ∨ Text.carried? ch = none) := by
    intro ch mem
    rw [textS, String.toList_append, List.mem_append] at mem
    rcases mem with mem | mem
    · have mem : ch ∈ p.text.toList := by
        rw [text, String.toList_append]
        exact List.mem_append_left _ mem
      exact ⟨fun same => null (same ▸ mem), Text.firstHalves?_eq_none.mp halves ch mem⟩
    · exact own.written ch mem
  intro obstacle impossible
  have encoded : Text.firstHalves? Text.isNameByte 0 s.text.toList = none :=
    Text.firstHalves?_eq_none.mpr fun ch mem => (clean ch mem).2
  have noNull : '\x00' ∉ s.text.toList := fun mem => (clean _ mem).1 rfl
  simp only [impossible?, Text.chars_eq, encoded] at impossible
  split at impossible
  · rename_i null
    simp [noNull] at null
  · split at impossible
    · obtain rfl := Option.some.inj impossible
      rfl
    · split at impossible
      · obtain rfl := Option.some.inj impossible
        rfl
      · cases impossible

theorem not_isCustomizable (sidecar : Region.sidecarPath c p = .ok s) : isCustomizable c s = false := by
  obtain ⟨rest, dotted, single, -⟩ := own.dotted
  have chars : s.name.toList = p.stem.toList ++ '.' :: rest := by
    rw [own.name_sidecar sidecar, String.toList_append, dotted]
  have suffix : s.suffix = if rest = [] then "" else String.ofList ('.' :: rest) :=
    Path.suffix_of_lastDot (Path.stem_ne_nil (sidecarPath_eq_ok sidecar).2) single chars
  rw [isCustomizable, suffix]
  by_cases none_ : rest = []
  · have lone : extension = "." := by rw [← String.toList_inj, dotted, none_]; rfl
    have lower : Text.lower "" = "" := by decide +kernel
    rw [if_pos none_, lower]
    simpa using own.suffix lone
  · rw [if_neg none_, ← dotted, String.ofList_toList]
    simpa using own.apart

/-- Sidecars at one place are those of one file. -/
theorem eq_of_sidecar (sound : t.Sound) (apart : ∀ p ∈ customizableFiles c t root, ∀ q ∈ customizableFiles c t root,
      p.parent = q.parent → p.stem = q.stem → p = q)
    (memP : p ∈ customizableFiles c t root) (memQ : q ∈ customizableFiles c t root)
    {s' : Path} (sidecar : Region.sidecarPath c p = .ok s) (sidecar' : Region.sidecarPath c q = .ok s')
    (located : t.locate s = .ok x) (located' : t.locate s' = .ok x)
    (notDir : t.node? x ≠ some .directory) : p = q := by
  obtain ⟨fileP, _, above, rest, locatedRoot, _, someP, thereP, rfl⟩ := (mem_customizableFiles sound).mp memP
  obtain ⟨fileQ, _, above', rest', locatedRoot', _, someQ, thereQ, rfl⟩ := (mem_customizableFiles sound).mp memQ
  obtain rfl : above = above' := by simpa [locatedRoot] using locatedRoot'
  obtain ⟨placeP, bytesP, locatedP, nodeP⟩ := isFile_eq_true.mp fileP
  obtain ⟨placeQ, bytesQ, locatedQ, nodeQ⟩ := isFile_eq_true.mp fileQ
  obtain ⟨_, _, _, eqP⟩ := sound.lastName locatedP (by simp [nodeP])
  obtain ⟨_, _, _, eqQ⟩ := sound.lastName locatedQ (by simp [nodeQ])
  have place := place_of_sidecar sound sidecar located notDir
  have place' := place_of_sidecar sound sidecar' located' notDir
  obtain ⟨folder, name⟩ := List.append_inj' (place.symm.trans place') rfl
  -- both files are listed in the folder where the sidecar is
  obtain rfl := (locate_eq_ok locatedP).trans (sound.placeOf_listed locatedRoot thereP)
  obtain rfl := (locate_eq_ok locatedQ).trans (sound.placeOf_listed locatedRoot thereQ)
  obtain ⟨between, above_⟩ := append_eq_concat eqP someP
  rw [← folder, above_, List.append_assoc, List.append_cancel_left_eq] at eqQ
  rw [above_, List.append_assoc, List.append_cancel_left_eq] at eqP
  have parent {rest : Location} {last : String} (eq : rest = between ++ [last]) :
      Path.parent ⟨root.anchor, root.parts ++ rest⟩ = ⟨root.anchor, root.parts ++ between⟩ := by
    rw [eq, Path.parent, ← List.append_assoc, List.dropLast_concat]
  refine apart _ memP _ memQ ((parent eqP).trans (parent eqQ).symm) ?_
  rw [List.singleton_inj, own.name_sidecar sidecar, own.name_sidecar sidecar', ← String.toList_inj,
    String.toList_append, String.toList_append] at name
  exact String.toList_inj.mp (List.append_cancel_right name)

end OwnSidecars

end Region

end Scaffold
