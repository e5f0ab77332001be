import Scaffold.Naming.Given
import Scaffold.Naming.Plural
import Scaffold.Proofs.Naming.FileItem
import Scaffold.Proofs.Text.Lines
import Scaffold.Proofs.Text.Marks

/-!
Conversions of names make no marks. Whatever a name becomes on its way into a line, be it its plural, a member, a
file item or a part of a path, its braces and its line ends are those that it had.
-/

namespace Scaffold.Naming

open Text (MarksIn isMark)

variable {c d : Char} {word cs : List Char} {s t : String} {parts : List String}

theorem subset_of_mem_splitOnP {p : Char → Bool} {piece : List Char} (mem : piece ∈ cs.splitOnP p) :
    piece ⊆ cs := by
  induction cs generalizing piece with
  | nil =>
    obtain rfl := List.mem_singleton.mp mem
    exact List.Subset.refl _
  | cons c rest ih =>
    rw [List.splitOnP_cons_eq_if_modifyHead] at mem
    split at mem
    · rcases List.mem_cons.mp mem with rfl | mem
      · exact List.nil_subset _
      · exact List.Subset.trans (ih mem) (List.subset_cons_self c rest)
    · obtain ⟨first, others, eq⟩ := List.exists_cons_of_ne_nil (List.splitOnP_ne_nil p rest)
      rw [eq] at ih mem
      rcases List.mem_cons.mp mem with rfl | mem
      · exact List.cons_subset_cons c (ih List.mem_cons_self)
      · exact List.Subset.trans (ih (List.mem_cons_of_mem _ mem)) (List.subset_cons_self c rest)

theorem subset_of_mem_splitWhere {p : Char → Bool} {piece : String} (mem : piece ∈ Text.splitWhere p s) :
    piece.toList ⊆ s.toList := by
  rw [Text.splitWhere, Text.chars_eq] at mem
  obtain ⟨cs, memPieces, rfl⟩ := List.mem_map.mp mem
  rw [String.toList_ofList]
  exact subset_of_mem_splitOnP memPieces

section Cases

theorem marksIn_lower (s : String) : MarksIn (Text.lower s).toList s.toList := by
  rw [Text.lower, String.toList_ofList]
  exact Text.marksIn_lowerChars _

theorem marksIn_upper (s : String) : MarksIn (Text.upper s).toList s.toList := by
  rw [Text.upper, String.toList_ofList]
  exact Text.marksIn_upperChars _

theorem marksIn_lowerFirst (s : String) : MarksIn (lowerFirst s).toList s.toList := by
  unfold lowerFirst
  cases chars : s.toList with
  | nil => exact .refl []
  | cons c rest =>
    rw [String.toList_ofList]
    exact .append ((Text.marksIn_lowerChars [c]).mono (by simp)) (.of_subset (by simp))

theorem marksIn_upperFirst (s : String) : MarksIn (upperFirst s).toList s.toList := by
  unfold upperFirst
  cases chars : s.toList with
  | nil => exact .refl []
  | cons c rest =>
    rw [String.toList_ofList]
    exact .append ((Text.marksIn_upperChars [c]).mono (by simp)) (.of_subset (by simp))

theorem marksIn_apply (case : NamingCase) (s : String) : MarksIn (case.apply s).toList s.toList := by
  cases case with
  | camel => exact marksIn_lowerFirst s
  | pascal => exact marksIn_upperFirst s
  | unchanged => exact .refl _

theorem marksIn_withoutInterfaceMark (s : String) : MarksIn (withoutInterfaceMark s).toList s.toList := by
  unfold withoutInterfaceMark
  split
  · rename_i c rest chars
    split
    · rw [String.toList_ofList, chars]
      exact .of_subset (by simp)
    · exact .refl _
  · exact .refl _

end Cases

section Paths

theorem marksIn_fileItemAfter (last cs : List Char) : MarksIn (fileItemAfter last cs) cs := by
  induction cs generalizing last with
  | nil => exact .refl []
  | cons c rest ih =>
    have later (last : List Char) : MarksIn (fileItemAfter last rest) (c :: rest) := (ih last).mono (by simp)
    have form : MarksIn (Text.lowerForm c) (c :: rest) := (Text.marksIn_lowerForm c).mono (by simp)
    unfold fileItemAfter
    split
    · have slash : MarksIn ['/'] (c :: rest) := .of_all (by decide)
      exact slash.append (later ['/'])
    · simp only
      split
      · refine .append ?_ (later _)
        split
        · exact form
        · have hyphen : MarksIn ['-'] (c :: rest) := .of_all (by decide)
          exact hyphen.append form
      · exact .append form (later _)

theorem marksIn_fileItem (s : String) : MarksIn (fileItem s).toList s.toList := by
  rw [fileItem, String.toList_ofList]
  cases s.toList with
  | nil => exact .refl []
  | cons c rest =>
    exact .append ((Text.marksIn_lowerForm c).mono (by simp)) ((marksIn_fileItemAfter _ rest).mono (by simp))

theorem marksIn_subPath (s : String) : MarksIn (subPath s).toList s.toList := by
  refine (marksIn_fileItem _).trans fun d mem mark => ?_
  rcases mem_intercalate mem with slash | ⟨segment, memSegments, memD⟩
  · obtain rfl : d = '/' := by simpa using slash
    exact absurd mark (by decide)
  · exact subset_of_mem_splitWhere (List.mem_filter.mp memSegments).1 memD

/-- A mark in a path is one of a part. -/
theorem exists_part_of_mark (mem : d ∈ (joinPath parts).toList) (mark : isMark d = true) :
    ∃ part ∈ parts, d ∈ part.toList := by
  rcases mem_intercalate mem with slash | ⟨kept, memKept, memD⟩
  · obtain rfl : d = '/' := by simpa using slash
    exact absurd mark (by decide)
  · obtain ⟨part, memPart, rfl⟩ := List.mem_map.mp (List.mem_filter.mp memKept).1
    rw [Text.stripChar, String.toList_ofList] at memD
    exact ⟨part, memPart, (Text.trimChars_sublist _ _).subset memD⟩

/-- A mark in a dotted identifier is one of a part. -/
theorem exists_part_of_mark_module (mem : d ∈ (moduleIdentifier parts).toList) (mark : isMark d = true) :
    ∃ part ∈ parts, d ∈ part.toList := by
  rcases mem_intercalate mem with dot | ⟨name, memName, memD⟩
  · obtain rfl : d = '.' := by simpa using dot
    exact absurd mark (by decide)
  · obtain ⟨part, memPart, inPart⟩ := List.mem_flatMap.mp (List.mem_filter.mp memName).1
    exact ⟨part, memPart, subset_of_mem_splitWhere inPart memD⟩

end Paths

section Search

/-- Everything that a match has come by is of the word. -/
structure Progress.Within (word : List Char) (p : Progress) : Prop where
  before : p.before ⊆ word
  rest : p.rest ⊆ word
  groups : ∀ group ∈ p.groups, group.2 ⊆ word

theorem Pattern.outcomes_within (pattern : Pattern) {p q : Progress} (h : p.Within word)
    (mem : q ∈ pattern.outcomes p) : q.Within word := by
  induction pattern generalizing p q with
  | nothing =>
    obtain rfl := List.mem_singleton.mp mem
    exact h
  | char test =>
    simp only [outcomes] at mem
    cases chars : p.rest with
    | nil =>
      rw [chars] at mem
      cases mem
    | cons c rest =>
      have here : c ∈ word := h.rest (by simp [chars])
      have later : rest ⊆ word := fun d memD => h.rest (by simp [chars, memD])
      rw [chars] at mem
      simp only at mem
      split at mem
      · obtain rfl := List.mem_singleton.mp mem
        exact ⟨List.cons_subset.mpr ⟨here, h.before⟩, later, h.groups⟩
      · cases mem
  | seq first second ihFirst ihSecond =>
    obtain ⟨r, memR, mem⟩ := List.mem_flatMap.mp mem
    exact ihSecond (ihFirst h memR) mem
  | alt first second ihFirst ihSecond => exact (List.mem_append.mp mem).elim (ihFirst h) (ihSecond h)
  | group number body ih =>
    obtain ⟨r, memR, rfl⟩ := List.mem_map.mp mem
    have inner := ih h memR
    refine ⟨inner.before, inner.rest, List.forall_mem_cons.mpr ⟨?_, inner.groups⟩⟩
    exact List.Subset.trans (List.take_subset _ _) h.rest
  | wordEdge | start | finish =>
    simp only [outcomes] at mem
    split at mem
    · obtain rfl := List.mem_singleton.mp mem
      exact h
    · cases mem

/-- Everything that was found is of the word. -/
structure Found.Within (word : List Char) (found : Found) : Prop where
  before : found.before ⊆ word
  matched : found.matched ⊆ word
  after : found.after ⊆ word
  groups : ∀ group ∈ found.groups, group.2 ⊆ word

theorem Pattern.searchFrom_within {pattern : Pattern} {before : List Char} {found : Found}
    (h : pattern.searchFrom before cs = some found) (within : before ⊆ word) (rest : cs ⊆ word) :
    found.Within word := by
  induction cs generalizing before with
  | nil =>
    simp only [searchFrom] at h
    split at h
    · rename_i q qs outcomes
      obtain rfl := Option.some.inj h
      have reached : q.Within word :=
        pattern.outcomes_within ⟨within, rest, by simp⟩ (outcomes ▸ List.mem_cons_self)
      exact ⟨within, List.nil_subset _, List.nil_subset _, reached.groups⟩
    · cases h
  | cons c cs ih =>
    simp only [searchFrom] at h
    split at h
    · rename_i q qs outcomes
      obtain rfl := Option.some.inj h
      have reached : q.Within word :=
        pattern.outcomes_within ⟨within, rest, by simp⟩ (outcomes ▸ List.mem_cons_self)
      exact ⟨within, List.Subset.trans (List.take_subset _ _) rest, reached.rest, reached.groups⟩
    · obtain ⟨here, later⟩ := List.cons_subset.mp rest
      exact ih h (List.cons_subset.mpr ⟨here, within⟩) later

end Search

namespace Plural

theorem marksIn_inCaseOf (model t : String) : MarksIn (inCaseOf model t).toList t.toList := by
  unfold inCaseOf
  split
  · exact .refl _
  · split
    · exact marksIn_lower t
    · split
      · exact marksIn_upper t
      · split
        · rename_i m _ c rest _ chars
          split
          · rw [String.toList_ofList, chars]
            exact .append ((Text.marksIn_upperChars [c]).mono (by simp))
              ((Text.marksIn_lowerChars rest).mono (by simp))
          · exact marksIn_lower t
        · exact marksIn_lower t

/-- Does no text of the replacement hold a mark? -/
def Rule.isUnmarked (rule : Rule) : Bool :=
  rule.replacement.all fun
    | .text s => s.toList.all fun c => !isMark c
    | _ => true

theorem rules_unmarked : rules.all Rule.isUnmarked = true := by decide +kernel

theorem irregular_unmarked :
    (irregular.all fun (_, plural) => plural.toList.all fun c => !isMark c) = true := by decide +kernel

theorem marksIn_apply? {rule : Rule} (unmarked : rule.isUnmarked = true) (h : rule.apply? word = some s) :
    MarksIn s.toList word := by
  obtain ⟨found, search, rfl⟩ := Option.map_eq_some_iff.mp h
  have within : found.Within word := Pattern.searchFrom_within search (List.nil_subset _) (List.Subset.refl _)
  have written : MarksIn (rule.replacement.flatMap (Piece.write found)) word := by
    intro d mem mark
    obtain ⟨piece, memPiece, memD⟩ := List.mem_flatMap.mp mem
    have clear := List.all_eq_true.mp unmarked piece memPiece
    cases piece with
    | text t =>
      have : isMark d = false := by simpa using List.all_eq_true.mp clear d memD
      exact absurd mark (by simp [this])
    | group number =>
      simp only [Piece.write] at memD
      cases found_ : found.groups.lookup number with
      | none => simp [found_] at memD
      | some group =>
        obtain ⟨front, back, eq, -⟩ := List.lookup_eq_some_iff.mp found_
        rw [found_, Option.getD_some] at memD
        exact within.groups (number, group) (by simp [eq]) memD
    | whole => exact within.matched memD
  rw [String.toList_ofList]
  refine .append (.append ?_ ((marksIn_inCaseOf _ _).trans ?_)) (.of_subset within.after)
  · exact .of_subset fun d mem => within.before (List.mem_reverse.mp mem)
  · rw [String.toList_ofList]
    exact written

/-- A plural has no mark that the word has not. -/
theorem marksIn_of (s : String) : MarksIn (of s).toList s.toList := by
  unfold of
  split
  · exact .refl _
  · simp only
    split
    · exact (marksIn_inCaseOf _ _).trans (marksIn_lower s)
    · split
      · rename_i plural found
        obtain ⟨front, back, eq, -⟩ := List.lookup_eq_some_iff.mp found
        have mem : (Text.lower s, plural) ∈ irregular := List.mem_reverse.mp (by simp [eq])
        have clear := List.all_eq_true.mp irregular_unmarked _ mem
        exact (marksIn_inCaseOf _ _).trans (.of_unmarked (by simpa using clear))
      · split
        · exact .refl _
        · cases applied : rules.reverse.findSome? fun rule => rule.apply? s.toList with
          | none => exact .refl _
          | some t =>
            obtain ⟨rule, mem, made⟩ := List.exists_of_findSome?_eq_some applied
            exact marksIn_apply? (List.all_eq_true.mp rules_unmarked rule (List.mem_reverse.mp mem)) made

end Plural

end Scaffold.Naming
