import Scaffold.Proofs.Region.Sidecar

/-!
Lines that are written by hand into the files of a tree. A line without a label moves no label, so a region
gains at most that line.
-/

namespace Scaffold.Region

variable {l : RegionLabels} {c : Config} {line : String} {lines more : List String} {first last : Json}

/-- The lines with one more among them. -/
def OneMore (line : String) (lines more : List String) : Prop :=
  ∃ before after, lines = before ++ after ∧ more = before ++ line :: after

theorem OneMore.mem (h : OneMore line lines more) : ∀ x ∈ more, x = line ∨ x ∈ lines := by
  obtain ⟨before, after, rfl, rfl⟩ := h
  simp only [List.mem_append, List.mem_cons]
  grind

theorem splitAtLabel_oneMore (free : holdsLabel first line = false) (h : OneMore line lines more)
    {before after : List String} (split : splitAtLabel first more = some (before, after)) :
    ∃ before' after', splitAtLabel first lines = some (before', after') ∧
      (OneMore line before' before ∧ after' = after ∨ before' = before ∧ OneMore line after' after) := by
  obtain ⟨upper, lower, rfl, rfl⟩ := h
  obtain ⟨label, eq, holds, freeBefore⟩ := splitAtLabel_eq_some.mp split
  rcases List.append_eq_append_iff.mp eq with ⟨rest, rfl, below⟩ | ⟨rest, rfl, above⟩
  · cases rest with
    | nil =>
      obtain ⟨rfl, _⟩ := List.cons.inj below
      simp [free] at holds
    | cons top rest =>
      obtain ⟨rfl, rfl⟩ := List.cons.inj below
      have freeRest : ∀ x ∈ upper ++ rest, holdsLabel first x = false := by
        intro x hx
        apply freeBefore x
        simp only [List.mem_append, List.mem_cons] at hx ⊢
        exact hx.imp id .inr
      exact ⟨upper ++ rest, after, splitAtLabel_eq_some.mpr ⟨label, by simp, holds, freeRest⟩,
        .inl ⟨⟨upper, rest, rfl, rfl⟩, rfl⟩⟩
  · cases rest with
    | nil =>
      obtain ⟨rfl, _⟩ := List.cons.inj above
      simp [free] at holds
    | cons top rest =>
      obtain ⟨rfl, rfl⟩ := List.cons.inj above
      exact ⟨before, rest ++ lower, splitAtLabel_eq_some.mpr ⟨label, by simp, holds, freeBefore⟩,
        .inr ⟨rfl, rest, lower, rfl, rfl⟩⟩

theorem search_oneMore (freeFirst : holdsLabel first line = false) (freeLast : holdsLabel last line = false)
    (h : OneMore line lines more) {inner : List String} (found : search first last more = .found inner) :
    ∃ inner', search first last lines = .found inner' ∧ ∀ x ∈ inner, x = line ∨ x ∈ inner' := by
  cases opened : splitAtLabel first more with
  | none => simp [search, opened] at found
  | some parts =>
    obtain ⟨before, after⟩ := parts
    rw [search_of_split opened] at found
    cases closed : splitAtLabel last after with
    | none => simp [closed] at found
    | some parts =>
      obtain ⟨between, rest⟩ := parts
      rw [closed] at found
      obtain rfl := Search.found.inj found
      obtain ⟨before', after', opened', move⟩ := splitAtLabel_oneMore freeFirst h opened
      rw [search_of_split opened']
      rcases move with ⟨_, rfl⟩ | ⟨_, below⟩
      · rw [closed]
        exact ⟨between, rfl, fun x hx => .inr hx⟩
      · obtain ⟨between', rest', closed', move⟩ := splitAtLabel_oneMore freeLast below closed
        rw [closed']
        rcases move with ⟨inside, _⟩ | ⟨rfl, _⟩
        · exact ⟨between', rfl, inside.mem⟩
        · exact ⟨between', rfl, fun x hx => .inr hx⟩

/-- A region gains at most the line that is put in. -/
theorem linesOf_oneMore (free : isLabelLine l line = false) (h : OneMore line lines more)
    (kind : RegionKind) :
    ∀ x ∈ (parse l more).linesOf kind, x = line ∨ x ∈ (parse l lines).linesOf kind := by
  intro x hx
  have text := (mem_linesOf_parse hx).2.1
  cases found : search (l.beginOf kind) (l.endOf kind) more with
  | absent => simp [linesOf_parse_absent found] at hx
  | unclosed => simp [Regions.linesOf, of_parse, ofKind?, found] at hx
  | found inner =>
    rw [linesOf_parse_found found] at hx
    obtain ⟨inner', found', from_⟩ :=
      search_oneMore (not_holds_of_not_isLabelLine free (l.beginOf_mem_all kind))
        (not_holds_of_not_isLabelLine free (l.endOf_mem_all kind)) h found
    rw [linesOf_parse_found found']
    rcases from_ x (List.mem_filter.mp hx).1 with rfl | mem
    · exact .inl rfl
    · exact .inr (List.mem_filter.mpr ⟨mem, by simp [text]⟩)

theorem Portable.insert {before after : List String}
    (h : Portable c (Text.encode (Text.joinLines (before ++ after))))
    (single : Text.isSingleLine line = true) (free : isLabelLine c.labels line = false) :
    Portable c (Text.encode (Text.joinLines (before ++ line :: after))) := by
  intro kind x hx
  have shape : (before ++ line :: after).flatMap Text.reread =
      before.flatMap Text.reread ++ line :: after.flatMap Text.reread := by
    simp [Text.reread_of_single single]
  rw [linesIn_joinLines (by simp), shape] at hx
  by_cases none_ : before ++ after = []
  · obtain ⟨rfl, rfl⟩ := List.append_eq_nil_iff.mp none_
    have alone := (mem_linesOf_parse hx).1
    obtain rfl := List.mem_singleton.mp alone
    exact free
  · have more : OneMore line ((before ++ after).flatMap Text.reread)
        (before.flatMap Text.reread ++ line :: after.flatMap Text.reread) :=
      ⟨_, _, List.flatMap_append, rfl⟩
    rcases linesOf_oneMore free more kind x hx with rfl | mem
    · exact free
    · exact h kind x (by rwa [linesIn_joinLines none_])

/-- Single lines without a label are put into files of a tree, one after the other. -/
inductive HandWritten (l : RegionLabels) (t : Tree) : Tree → Prop
  | none : HandWritten l t t
  | insert {u : Tree} {at_ : Location} {before after : List String} {line : String} :
      HandWritten l t u →
      u.node? at_ = some (.file (Text.encode (Text.joinLines (before ++ after)))) →
      Text.isSingleLine line = true → isLabelLine l line = false →
      HandWritten l t (u.put at_ (.file (Text.encode (Text.joinLines (before ++ line :: after)))))

/-- A line is put in after some of the lines of a file. -/
theorem HandWritten.insert_after {l : RegionLabels} {t u v : Tree} (h : HandWritten l t u) (at_ : Location)
    (lines : List String) (count : Nat) (line : String)
    (there : u.node? at_ = some (.file (Text.encode (Text.joinLines lines))))
    (put : u.put at_ (.file (Text.encode (Text.joinLines (lines.take count ++ line :: lines.drop count)))) = v)
    (single : Text.isSingleLine line = true) (free : isLabelLine l line = false) : HandWritten l t v := by
  rw [← put]
  refine .insert h ?_ single free
  rwa [List.take_append_drop]

end Scaffold.Region
