import Scaffold.Output.Cleaning
import Scaffold.Proofs.Action
import Scaffold.Proofs.Tree.Sound

/-!
What a tree holds after it was cleaned: a place is as before, or one of the deleted files was there.
-/

namespace Scaffold

open Scaffold.Tree

variable {c : Config} {t u : Tree} {p root : Path} {at_ : Location} {bytes : ByteArray}

theorem Tree.sameDirectories_erase (file : t.node? at_ = some (.file bytes)) :
    SameDirectories t (t.erase at_) :=
  (ChangedAt.erase (by simp [file])).sameDirectories (by simp [file]) (by simp)

theorem Tree.isFile_eq_true : t.isFile p = true ↔
    ∃ at_ bytes, t.locate p = .ok at_ ∧ t.node? at_ = some (.file bytes) := by
  simp only [isFile, Option.isSome_iff_exists, fileAt?_eq_some, read_eq_ok]
  exact exists_comm

namespace Output

theorem deleteOne_run (located : t.locate p = .ok at_) (file : t.node? at_ = some (.file bytes)) :
    (deleteOne p t).result = .ok p ∧ (deleteOne p t).state = t.erase at_ := by
  have removed : Action.change (·.remove p) t = ⟨[], t.erase at_, .ok ()⟩ :=
    Action.change_of_ok (remove_eq_ok.mpr ⟨at_, bytes, located, file, rfl⟩)
  simp [deleteOne, Action.bind_eq, Action.bind, removed, Action.pure_eq]

/-- Deleting files with places of their own runs through. -/
theorem deleteEach_run {ps : List Path} (files : ∀ p ∈ ps, t.isFile p = true)
    (apart : ps.Pairwise fun p q => t.placeOf p ≠ t.placeOf q) :
    (Action.mapEach deleteOne ps t).result = .ok ps ∧
      SameDirectories t (Action.mapEach deleteOne ps t).state ∧
      ∀ x, (Action.mapEach deleteOne ps t).state.node? x = t.node? x ∧
          (∀ p ∈ ps, t.locate p ≠ .ok x) ∨
        (Action.mapEach deleteOne ps t).state.node? x = none ∧
          ∃ p ∈ ps, t.locate p = .ok x := by
  induction ps generalizing t with
  | nil => exact ⟨rfl, .refl t, fun _ => .inl ⟨rfl, by simp⟩⟩
  | cons p rest ih =>
    obtain ⟨apartHere, apartRest⟩ := List.pairwise_cons.mp apart
    obtain ⟨at_, bytes, located, file⟩ := isFile_eq_true.mp (files p List.mem_cons_self)
    obtain ⟨deleted, state⟩ := deleteOne_run located file
    have same := sameDirectories_erase file
    have ne := ne_nil_of_node? file (by simp)
    have filesRest : ∀ q ∈ rest, (t.erase at_).isFile q = true := by
      intro q hq
      obtain ⟨place, content, locatedQ, fileQ⟩ := isFile_eq_true.mp (files q (List.mem_cons_of_mem p hq))
      refine isFile_eq_true.mpr ⟨place, content, same.keeps.locate locatedQ, ?_⟩
      rw [node?_erase t ne, if_neg, fileQ]
      rintro rfl
      exact apartHere q hq ((locate_eq_ok located).symm.trans (locate_eq_ok locatedQ))
    obtain ⟨more, sameRest, nodes⟩ := ih filesRest apartRest
    rw [← state] at more sameRest nodes same
    obtain ⟨result, stateAll⟩ := Action.mapEach_cons_of_ok deleted more
    rw [stateAll]
    refine ⟨result, same.trans sameRest, fun x => ?_⟩
    have before := node?_erase t ne x
    rw [← state] at before
    rcases nodes x with ⟨kept, others⟩ | ⟨gone, q, hq, locatedQ⟩
    · rw [kept, before]
      by_cases here : x = at_
      · rw [if_pos here, here]
        exact .inr ⟨rfl, p, List.mem_cons_self, located⟩
      · rw [if_neg here]
        refine .inl ⟨rfl, List.forall_mem_cons.mpr ⟨?_, fun q hq found => ?_⟩⟩
        · rw [located]
          exact fun same => here (Except.ok.inj same).symm
        · exact others q hq (same.keeps.locate found)
    · exact .inr ⟨gone, q, List.mem_cons_of_mem p hq, same.symm.keeps.locate locatedQ⟩

/-- What a directory lists is deleted as far as it can be. -/
theorem state_deleteGenerated {found : List (Path × Node)} (listed : t.under? root = .ok found) :
    (deleteGenerated c root t).state =
      (Action.mapEach deleteOne ((found.map (·.1)).filter (isDeletable c t)) t).state := by
  simp only [deleteGenerated, Action.bind_eq, Action.bind, listed, Action.ofExcept]
  cases (Action.mapEach deleteOne ((found.map (·.1)).filter (isDeletable c t)) t).result <;>
    simp [Action.note, Action.pure_eq, Action.ok]

theorem deletable_isFile (found : List (Path × Node)) :
    ∀ p ∈ (found.map (·.1)).filter (isDeletable c t), t.isFile p = true := by
  intro p mem
  have deletable := (List.mem_filter.mp mem).2
  simp only [isDeletable, Bool.and_eq_true, Option.any_eq_true] at deletable
  obtain ⟨bytes, isThere, _⟩ := deletable.2
  simp [isFile, isThere]

/-- What a directory lists has places of its own. -/
theorem deletable_apart (sound : t.Sound) {found : List (Path × Node)} (listed : t.under? root = .ok found) :
    ((found.map (·.1)).filter (isDeletable c t)).Pairwise fun p q => t.placeOf p ≠ t.placeOf q := by
  obtain ⟨nodup, below⟩ := sound.under?_eq_ok listed
  refine (List.Pairwise.filter _ nodup).imp_of_mem fun {p q} hp hq ne same => ne ?_
  obtain ⟨above, rest, located, _, _, there, rfl⟩ := (below p).mp (List.mem_filter.mp hp).1
  obtain ⟨above', rest', located', _, _, there', rfl⟩ := (below q).mp (List.mem_filter.mp hq).1
  obtain rfl : above = above' := by simpa [located] using located'
  rw [sound.placeOf_listed located there, sound.placeOf_listed located there'] at same
  simpa using same

/-- What is listed and can be deleted is deleted, in order. -/
theorem result_deleteGenerated (sound : t.Sound) {found : List (Path × Node)}
    (listed : t.under? root = .ok found) :
    (deleteGenerated c root t).result = .ok ((found.map (·.1)).filter (isDeletable c t)) := by
  obtain ⟨deleted, -⟩ := deleteEach_run (deletable_isFile found) (deletable_apart (c := c) sound listed)
  simp [deleteGenerated, Action.bind_eq, Action.bind, listed, deleted, Action.pure_eq]

/-- After cleaning, a place is as before, or a generated file was there. -/
theorem deleteGenerated_run (sound : t.Sound) :
    (∀ found, t.under? root = .ok found → ∃ deleted, (deleteGenerated c root t).result = .ok deleted) ∧
      SameDirectories t (deleteGenerated c root t).state ∧
      ∀ x, (deleteGenerated c root t).state.node? x = t.node? x ∨
        (deleteGenerated c root t).state.node? x = none ∧
          ∃ found, t.under? root = .ok found ∧ ∃ p ∈ found.map (·.1), isDeletable c t p = true ∧
            t.locate p = .ok x := by
  cases listed : t.under? root with
  | error e =>
    have ended : deleteGenerated c root t = ⟨[], t, .error e⟩ := by
      simp [deleteGenerated, Action.bind_eq, Action.bind, listed, Action.ofExcept]
    rw [ended]
    exact ⟨by simp, .refl t, fun _ => .inl rfl⟩
  | ok found =>
    obtain ⟨-, same, nodes⟩ := deleteEach_run (deletable_isFile found) (deletable_apart (c := c) sound listed)
    rw [state_deleteGenerated listed]
    refine ⟨fun _ _ => ⟨_, result_deleteGenerated sound listed⟩, same, fun x => ?_⟩
    rcases nodes x with ⟨kept, -⟩ | ⟨gone, p, mem, located⟩
    · exact .inl kept
    · obtain ⟨listedP, deletable⟩ := List.mem_filter.mp mem
      exact .inr ⟨gone, found, rfl, p, listedP, deletable, located⟩

end Output

end Scaffold
