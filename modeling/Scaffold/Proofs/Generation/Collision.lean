import Mathlib.Data.List.Nodup
import Scaffold.Generation.Run
import Scaffold.Proofs.Graph.Lookup

/-!
Collisions. The artifacts of a run are compared by their paths, each with those before it: none is found
exactly if the paths are all there and distinct.
-/

namespace Scaffold.Generation

variable {c : Config} {a b : Artifact} {as : List Artifact} {p : Path} {paths : List Path}
  {seen : List (Path × Artifact)} {found : Option Collision}

/-- The paths of the artifacts, in their order. -/
def Located (c : Config) (as : List Artifact) (paths : List Path) : Prop :=
  as.map (Output.filePath c) = paths.map .ok

namespace Located

theorem nil : Located c [] [] := rfl

theorem cons_iff : Located c (a :: as) (p :: paths) ↔ Output.filePath c a = .ok p ∧ Located c as paths := by
  simp [Located]

theorem of_cons (h : Located c (a :: as) paths) :
    ∃ p rest, paths = p :: rest ∧ Output.filePath c a = .ok p ∧ Located c as rest := by
  cases paths with
  | nil => simp [Located] at h
  | cons p rest => exact ⟨p, rest, rfl, cons_iff.mp h⟩

theorem path (h : Located c as paths) (mem : a ∈ as) : ∃ p ∈ paths, Output.filePath c a = .ok p := by
  have there : Output.filePath c a ∈ paths.map .ok := h ▸ List.mem_map_of_mem mem
  obtain ⟨p, memP, eq⟩ := List.mem_map.mp there
  exact ⟨p, memP, eq.symm⟩

theorem artifact (h : Located c as paths) (mem : p ∈ paths) : ∃ a ∈ as, Output.filePath c a = .ok p := by
  have there : Except.ok p ∈ as.map (Output.filePath c) := h ▸ List.mem_map_of_mem mem
  exact List.mem_map.mp there

theorem unique {paths' : List Path} (h : Located c as paths) (h' : Located c as paths') :
    paths = paths' := by
  have ok : Function.Injective (Except.ok : Path → Except Misfit Path) := fun _ _ => Except.ok.inj
  exact List.map_injective_iff.mpr ok (Eq.trans (Eq.symm h) h')

/-- Where the paths are distinct, an artifact is known by its path. -/
theorem eq_of_path (h : Located c as paths) (distinct : paths.Nodup) (memA : a ∈ as) (memB : b ∈ as)
    (path : Output.filePath c a = .ok p) (path' : Output.filePath c b = .ok p) : a = b := by
  have keys : (as.map (Output.filePath c)).Nodup :=
    h ▸ List.Nodup.map (fun _ _ => Except.ok.inj) distinct
  exact List.inj_on_of_nodup_map keys memA memB (path.trans path'.symm)

end Located

theorem collisionAfter?_cons (path : Output.filePath c a = .ok p) :
    collisionAfter? c seen (a :: as) =
      match Fields.get? seen p with
      | some first => .ok (some ⟨p, first, a⟩)
      | none => collisionAfter? c ((p, a) :: seen) as := by
  simp only [collisionAfter?, path, bind, Except.bind]
  rfl

/-- Among artifacts that have paths there is no collision exactly if the paths are new and distinct. -/
theorem collisionAfter?_of_located (located : Located c as paths) :
    ∃ found, collisionAfter? c seen as = .ok found ∧
      (found = none ↔ paths.Nodup ∧ ∀ p ∈ paths, p ∉ seen.map (·.1)) := by
  induction as generalizing seen paths with
  | nil =>
    obtain rfl := located.unique Located.nil
    exact ⟨none, rfl, by simp⟩
  | cons a as ih =>
    obtain ⟨p, paths, rfl, path, located⟩ := located.of_cons
    rw [collisionAfter?_cons path]
    cases known : Fields.get? seen p with
    | some first =>
      have old : p ∈ seen.map (·.1) := by
        by_contra new
        simp [Fields.get?_eq_none.mpr new] at known
      refine ⟨some ⟨p, first, a⟩, rfl, iff_of_false (by simp) ?_⟩
      rintro ⟨_, new⟩
      exact new p List.mem_cons_self old
    | none =>
      have new := Fields.get?_eq_none.mp known
      obtain ⟨found, compared, iff⟩ := @ih paths ((p, a) :: seen) located
      refine ⟨found, compared, iff.trans ?_⟩
      simp only [List.nodup_cons, List.map_cons, List.mem_cons, not_or, forall_eq_or_imp]
      constructor
      · rintro ⟨distinct, later⟩
        exact ⟨⟨fun mem => (later p mem).1 rfl, distinct⟩, new, fun q mem => (later q mem).2⟩
      · rintro ⟨⟨once, distinct⟩, _, later⟩
        exact ⟨distinct, fun q mem => ⟨fun eq => once (eq ▸ mem), later q mem⟩⟩

theorem collision?_of_located (located : Located c as paths) :
    ∃ found, collision? c as = .ok found ∧ (found = none ↔ paths.Nodup) := by
  obtain ⟨found, compared, iff⟩ := @collisionAfter?_of_located c as paths [] located
  exact ⟨found, compared, iff.trans (by simp)⟩

/-- Where no collision is found, every artifact has a path. -/
theorem located_of_collisionAfter? (h : collisionAfter? c seen as = .ok none) :
    ∃ paths, Located c as paths := by
  induction as generalizing seen with
  | nil => exact ⟨[], .nil⟩
  | cons a rest ih =>
    cases path : Output.filePath c a with
    | error e => simp [collisionAfter?, path, bind, Except.bind] at h
    | ok p =>
      rw [collisionAfter?_cons path] at h
      cases known : Fields.get? seen p with
      | some first => simp [known] at h
      | none =>
        simp only [known] at h
        obtain ⟨paths, located⟩ := ih h
        exact ⟨p :: paths, Located.cons_iff.mpr ⟨path, located⟩⟩

/-- Where no collision is found, the artifacts have distinct paths. -/
theorem collision?_eq_none (h : collision? c as = .ok none) :
    ∃ paths, Located c as paths ∧ paths.Nodup := by
  obtain ⟨paths, located⟩ := located_of_collisionAfter? h
  obtain ⟨found, compared, iff⟩ := collision?_of_located located
  obtain rfl := Except.ok.inj (compared.symm.trans h)
  exact ⟨paths, located, iff.mp rfl⟩

end Scaffold.Generation
