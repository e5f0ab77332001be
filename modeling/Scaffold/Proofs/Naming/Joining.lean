import Scaffold.Naming.Case
import Scaffold.Proofs.Text.FileLines

/-!
Paths joined out of parts. Of each part joining keeps what is between its outer slashes, and parts of
slashes only do not count; so paths can be taken apart wherever something is left on both sides.
-/

namespace Scaffold.Naming

/-- What joining keeps of its parts. -/
def keptParts (parts : List String) : List String :=
  (parts.map (Text.stripChar '/')).filter (!·.isEmpty)

theorem keptParts_append (before after : List String) :
    keptParts (before ++ after) = keptParts before ++ keptParts after := by
  simp [keptParts]

/-- A path is that of its first parts and that of its last ones. -/
theorem joinPath_append {before after : List String} (first : keptParts before ≠ [])
    (second : keptParts after ≠ []) :
    joinPath (before ++ after) = joinPath before ++ "/" ++ joinPath after := by
  change "/".intercalate (keptParts (before ++ after)) = _
  rw [keptParts_append, String.intercalate_append_of_ne_nil first second]
  rfl

/-- A part that is kept as it is: not empty, and without a slash at either end. -/
structure IsPart (part : String) : Prop where
  nonempty : part ≠ ""
  first : part.toList.head? ≠ some '/'
  last : part.toList.getLast? ≠ some '/'

namespace IsPart

variable {part : String} {parts : List String}

theorem of_notMem (nonempty : part ≠ "") (h : '/' ∉ part.toList) : IsPart part where
  nonempty := nonempty
  first := fun first => h (List.mem_of_mem_head? (by rw [first]; rfl))
  last := fun last => h (List.mem_of_getLast? last)

theorem stripChar_eq (h : IsPart part) : Text.stripChar '/' part = part := by
  have kept : Text.trimChars (· == '/') part.toList = part.toList := by
    refine Text.trimChars_eq_self (fun c first => ?_) fun c last => ?_
    · exact beq_false_of_ne fun slash => h.first (slash ▸ first)
    · exact beq_false_of_ne fun slash => h.last (slash ▸ last)
  rw [Text.stripChar, kept, String.ofList_toList]

theorem keptParts_eq (h : IsPart part) : keptParts [part] = [part] := by
  simp [keptParts, h.stripChar_eq, h.nonempty]

theorem keptParts_ne_nil (h : IsPart part) (mem : part ∈ parts) : keptParts parts ≠ [] := by
  refine List.ne_nil_of_mem (a := part) ?_
  refine List.mem_filter.mpr ⟨List.mem_map.mpr ⟨part, mem, h.stripChar_eq⟩, ?_⟩
  simp [h.nonempty]

theorem joinPath_singleton (h : IsPart part) : joinPath [part] = part := by
  change "/".intercalate (keptParts [part]) = part
  rw [h.keptParts_eq, String.intercalate_singleton]

/-- A path under a part. -/
theorem joinPath_cons (h : IsPart part) (rest : keptParts parts ≠ []) :
    joinPath (part :: parts) = part ++ "/" ++ joinPath parts := by
  have first : keptParts [part] ≠ [] := h.keptParts_ne_nil List.mem_cons_self
  rw [← List.singleton_append, joinPath_append first rest, h.joinPath_singleton]

/-- A path ends with the end of its last part. -/
theorem joinPath_concat {ending : String} (h : IsPart part) (ended : IsPart (part ++ ending))
    (parts : List String) :
    joinPath (parts ++ [part ++ ending]) = joinPath (parts ++ [part]) ++ ending := by
  have last : ∀ {p}, IsPart p → keptParts [p] ≠ [] := fun h => h.keptParts_ne_nil (by simp)
  by_cases first : keptParts parts = []
  · have alone : ∀ {p}, IsPart p → joinPath (parts ++ [p]) = p := by
      intro p hp
      change "/".intercalate (keptParts (parts ++ [p])) = p
      rw [keptParts_append, first, List.nil_append]
      exact hp.joinPath_singleton
    rw [alone h, alone ended]
  · rw [joinPath_append first (last h), joinPath_append first (last ended), h.joinPath_singleton,
      ended.joinPath_singleton]
    simp only [String.append_assoc]

end IsPart

end Scaffold.Naming
