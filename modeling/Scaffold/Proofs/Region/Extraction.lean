import Scaffold.Proofs.Action
import Scaffold.Proofs.Region.Merge
import Scaffold.Proofs.Tree.Changes

/-!
What a merge takes from the tree: the lines of the regions that are found for a path. Trees in which the
same lines are found give the same artifact, but for the state of its merge.
-/

namespace Scaffold

/-- The artifact without the state of its merge. -/
def Artifact.unstated (a : Artifact) : Artifact := { a with state := none }

namespace Artifact

variable (a : Artifact)

@[simp] theorem unit_unstated : a.unstated.unit = a.unit := rfl

@[simp] theorem item_unstated : a.unstated.item = a.item := rfl

@[simp] theorem subPath_unstated : a.unstated.subPath = a.subPath := rfl

@[simp] theorem source_unstated : a.unstated.source = a.source := rfl

@[simp] theorem hasRegions_unstated : a.unstated.hasRegions = a.hasRegions := rfl

@[simp] theorem hasCustomImports_unstated : a.unstated.hasCustomImports = a.hasCustomImports := rfl

end Artifact

namespace Region

variable {c : Config} {t u : Tree} {a m : Artifact} {p project : Path}

theorem extract_labelled {state : RegionState} {r : Regions}
    (h : (extract c t p).result = .ok (state, r)) : r.Labelled c.labels := by
  unfold extract at h
  split at h
  · simp [Outcome.fail] at h
  · simp only [Outcome.ok, Except.ok.injEq, Prod.mk.injEq] at h
    rw [← h.2]
    exact none_labelled c.labels
  · rename_i candidate _
    unfold extractFrom read at h
    cases isRead : readLines t candidate with
    | error e =>
      simp only [isRead, Outcome.fail, Except.ok.injEq, Prod.mk.injEq] at h
      rw [← h.2]
      exact none_labelled c.labels
    | ok lines =>
      simp only [isRead, Except.ok.injEq, Prod.mk.injEq] at h
      rw [← h.2]
      exact parse_labelled c.labels lines

/-- Regions are looked for in the file of a path or in its sidecar. -/
theorem priorPath?_eq_some {candidate : Path} (h : priorPath? c t p = .ok (some candidate)) :
    candidate = p ∨ sidecarPath c p = .ok candidate := by
  simp only [priorPath?, bind, Except.bind, pure, Except.pure] at h
  split at h
  · simp at h
  · split at h
    · simp only [Except.ok.injEq, Option.some.injEq] at h
      exact .inl h.symm
    · split at h
      · simp at h
      · rename_i s side
        split at h
        · simp at h
        · simp only [Except.ok.injEq] at h
          split at h
          · obtain rfl := Option.some.inj h
            exact .inr (mapError_eq_ok.mp side)
          · simp at h

/-- Where there is no file and no sidecar, no line is found. -/
theorem linesOf_extract_of_no_file (here : t.fileAt? p = none)
    (beside : ∀ s, sidecarPath c p = .ok s → t.fileAt? s = none) {state : RegionState} {r : Regions}
    (h : (extract c t p).result = .ok (state, r)) (kind : RegionKind) : r.linesOf kind = [] := by
  have unread : ∀ candidate, t.fileAt? candidate = none → ∃ e, readLines t candidate = .error e := by
    intro candidate none_
    cases found : t.read candidate with
    | error e => exact ⟨.file e, by simp [readLines, readText, found, Except.map]⟩
    | ok bytes => simp [Tree.fileAt?_eq_some.mpr found] at none_
  unfold extract at h
  cases prior : priorPath? c t p with
  | error e => simp [prior, Outcome.fail] at h
  | ok candidate? =>
    cases candidate? with
    | none =>
      simp only [prior, Outcome.ok, Except.ok.injEq, Prod.mk.injEq] at h
      rw [← h.2, linesOf_none]
    | some candidate =>
      have none_ : t.fileAt? candidate = none := by
        rcases priorPath?_eq_some prior with rfl | side
        · exact here
        · exact beside candidate side
      obtain ⟨e, failed⟩ := unread candidate none_
      simp only [prior, extractFrom, read, failed, Outcome.fail, Except.ok.injEq, Prod.mk.injEq] at h
      rw [← h.2, linesOf_none]

/-- Where regions are found for a path in one tree, the same lines are found in another. -/
def SameRegions (c : Config) (t u : Tree) (p : Path) : Prop :=
  ∀ state r, (extract c t p).result = .ok (state, r) →
    ∃ state' r', (extract c u p).result = .ok (state', r') ∧ ∀ kind, r'.linesOf kind = r.linesOf kind

/-- What an artifact is merged to, but for its state. -/
def mergedTo (l : RegionLabels) (a : Artifact) (r : Regions) : Artifact :=
  { a with
    source := if a.hasRegions then spliced l a r else withImports a.imports a.source
    state := none }

theorem unstated_mergeWith (l : RegionLabels) (a : Artifact) (state : RegionState) (r : Regions) :
    (mergeWith l a state r).unstated = { mergedTo l a r with state := none } := by
  unfold mergeWith mergedTo Artifact.unstated
  cases a.hasRegions <;> simp

/-- A merge that succeeds took its regions from the tree, if the artifact has any. -/
theorem merge_eq_ok (h : (merge c t a project).result = .ok m) :
    ∃ r, m.unstated = mergedTo c.labels a r ∧
      (a.hasRegions = true → ∃ state, (extract c t (a.path project)).result = .ok (state, r)) := by
  unfold merge at h
  split at h
  · rename_i regions
    unfold Outcome.bind at h
    cases found : (extract c t (a.path project)).result with
    | error e => simp [found] at h
    | ok pair =>
      obtain ⟨state, r⟩ := pair
      simp only [found, Except.ok.injEq] at h
      subst h
      exact ⟨r, unstated_mergeWith .., fun _ => ⟨state, rfl⟩⟩
  · rename_i regions
    simp only [Outcome.ok, Except.ok.injEq] at h
    subst h
    exact ⟨.none, unstated_mergeWith .., fun h => absurd h regions⟩

theorem merge_of_extract {state : RegionState} {r : Regions} (regions : a.hasRegions = true)
    (h : (extract c t (a.path project)).result = .ok (state, r)) :
    (merge c t a project).result = .ok (mergeWith c.labels a state r) := by
  simp [merge, regions, Outcome.bind, h]

/-- Trees with the same regions for an artifact give the same merge. -/
theorem SameRegions.merge (same : SameRegions c t u (a.path project))
    (h : (merge c t a project).result = .ok m) :
    ∃ m', (Region.merge c u a project).result = .ok m' ∧ m'.unstated = m.unstated := by
  obtain ⟨r, eq, found⟩ := merge_eq_ok h
  by_cases regions : a.hasRegions = true
  · obtain ⟨state, extracted⟩ := found regions
    obtain ⟨state', r', extracted', lines⟩ := same state r extracted
    refine ⟨_, merge_of_extract regions extracted', ?_⟩
    rw [unstated_mergeWith, eq, mergedTo, mergedTo,
      spliced_congr (extract_labelled extracted') (extract_labelled extracted) lines]
  · refine ⟨mergeWith c.labels a .noPriorFile .none, by simp [Region.merge, regions, Outcome.ok], ?_⟩
    rw [unstated_mergeWith, eq]
    simp [mergedTo, regions]

end Region

end Scaffold
