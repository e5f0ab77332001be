import Scaffold.Proofs.Generation.Sharing

/-!
What a build records. A build ends with the diagnostics of all its steps, whether it succeeds or not; and these are of
four kinds: a visibility that there is not, a member without a type, and regions without an end or without a place.
-/

namespace Scaffold

variable {g : Generator} {t : Tree} {graph : Graph.TypeGraph} {d : Graph.TypeDescriptor}

namespace Region

variable {c : Config} {a : Artifact} {prior : Regions}

theorem isBuildWarning_of_parse {lines : List String} {source : String} {d : Diagnostic}
    (mem : d ∈ Note.diagnostics (parseNotes c.labels lines source)) : IsBuildWarning d := by
  have unclosed (kind : RegionKind) (mem : d ∈ Note.diagnostics (unclosedNotes c.labels kind lines source)) :
      IsBuildWarning d := by
    unfold unclosedNotes at mem
    split at mem
    · obtain rfl := List.mem_singleton.mp mem
      exact .unclosed
    · cases mem
  rw [parseNotes, Note.diagnostics_append, List.mem_append] at mem
  exact mem.elim (unclosed .imports) (unclosed .code)

theorem isBuildWarning_of_extract {p : Path} {d : Diagnostic} (mem : d ∈ Note.diagnostics (extract c t p).notes) :
    IsBuildWarning d := by
  unfold extract at mem
  split at mem
  · cases mem
  · cases mem
  · rename_i candidate _
    unfold extractFrom read at mem
    cases isRead : readLines t candidate with
    | error e =>
      simp only [isRead] at mem
      cases mem
    | ok lines =>
      simp only [isRead, Note.diagnostics_append, List.mem_append] at mem
      exact mem.elim isBuildWarning_of_parse fun none_ => nomatch none_

theorem isBuildWarning_of_merge {project : Path} {d : Diagnostic}
    (mem : d ∈ Note.diagnostics (merge c t a project).notes) : IsBuildWarning d := by
  have custom (prior : Regions) (mem : d ∈ Note.diagnostics (mergeNotes a prior)) : IsBuildWarning d := by
    unfold mergeNotes at mem
    split at mem
    · split at mem
      · obtain rfl := List.mem_singleton.mp mem
        exact .dropped
      · cases mem
    · cases mem
  unfold merge at mem
  split at mem
  · cases found : (extract c t (a.path project)).result with
    | error e =>
      rw [Outcome.bind, found] at mem
      exact isBuildWarning_of_extract mem
    | ok regions =>
      rw [Outcome.notes_bind found, Note.diagnostics_append, List.mem_append] at mem
      exact mem.elim isBuildWarning_of_extract (custom regions.2)
  · cases mem

end Region

/-- The steps of a generator record warnings of builds alone. -/
theorem Generator.Does.records {α : Type} {x : Building α} (does : g.Does x) : x.Records IsBuildWarning := by
  induction does with
  | ofExcept r => exact .ofExcept r
  | record r => exact .record r
  | warn isWarning => exact .diagnostic isWarning
  | ask _ => exact .of_silent fun w => w.settings.diagnostics_query _
  | prewarm _ => exact .of_silent fun w => w.settings.diagnostics_prewarm _
  | templateLines _ => exact .of_silent fun _ => rfl
  | bind _ _ first next => exact .bind first next

theorem Generator.build_records (item : ItemKind) : (g.build graph item d).Records IsBuildWarning := by
  refine .bind (emit_does item).records fun a => .bind (.ofExcept _) fun project => ?_
  refine .bind (fun w _ => Region.isBuildWarning_of_merge) fun merged => .bind (.ofExcept _) fun a => ?_
  exact .bind (.ofExcept _) fun a => .bind (.record _) fun _ => .ok _

namespace Generation

theorem buildAll_records (config : Config) (gs : List Generator) :
    (buildAll graph config gs).Records IsBuildWarning := by
  refine .bind (.mapEach fun g _ => Generator.prepare_does.records) fun prepared => .bind (.ofExcept _) fun count => ?_
  refine .bind (.mapEach fun job _ => Generator.build_records _) fun artifacts => ?_
  exact .bind (.ofExcept _) fun collision => .ok _

/-- A run over a graph records the warnings of its builds, and nothing else. -/
theorem generate_records (config : Config) (gs : List Generator) :
    (generate graph config gs).Records IsBuildWarning := by
  intro w d mem
  refine buildAll_records config gs w d (?_ : d ∈ Note.diagnostics (buildAll graph config gs w).notes)
  unfold generate at mem
  split at mem
  · cases mem
  · dsimp only at mem
    split at mem
    · simpa [Note.diagnostics, record, Note.diagnostic?] using mem
    · split at mem
      · exact mem
      · simpa [Note.diagnostics, record, Note.diagnostic?] using mem

end Generation

end Scaffold
