import Mathlib.Data.List.Find
import Scaffold.Proofs.Json.Fields
import Scaffold.Proofs.Metadata.Bases
import Scaffold.Proofs.Text.Lines

/-!
Types under their own names. A name is cleaned before it is looked for, qualified and short names are one table, and
the first entry wins; so a type that comes earlier in the document, and has the qualified name of another one for
its short name, is found in its place.
-/

namespace Scaffold.Metadata

/-- What is left of a written name without space, brackets for null, question mark and framework prefix. -/
def bareName (written : String) : List Char :=
  let trimmed := Text.trimChars Text.isBlank written.toList
  let inner := ((insideNullable? trimmed).map (Text.trimChars Text.isBlank)).getD trimmed
  let unmarked := (Text.dropSuffix? [ '?' ] inner).getD inner
  (Text.dropPrefix? "System.".toList unmarked).getD unmarked

/-- A name on which cleaning finds nothing to take off, and which is no framework spelling. -/
structure IsClean (name : String) : Prop where
  trimmed : Text.trimChars Text.isBlank name.toList = name.toList
  noBrackets : insideNullable? name.toList = none
  noMark : Text.dropSuffix? [ '?' ] name.toList = none
  noPrefix : Text.dropPrefix? "System.".toList name.toList = none
  noKeyword : keywordNames.lookup name = none

variable {name written clean : String} {cs part : List Char}

theorem cleanName_eq_bareName (written : String) :
    cleanName written =
      (keywordNames.lookup (String.ofList (bareName written))).getD (String.ofList (bareName written)) := by
  unfold cleanName TypeName.ofText bareName
  generalize Text.trimChars Text.isBlank written.toList = trimmed
  cases inside : insideNullable? trimmed with
  | none =>
    cases marked : Text.dropSuffix? [ '?' ] trimmed <;> simp [inside, marked]
  | some inner =>
    cases marked : Text.dropSuffix? [ '?' ] (Text.trimChars Text.isBlank inner) <;> simp [inside, marked]

theorem length_of_insideNullable? (inside : insideNullable? cs = some part) : part.length < cs.length := by
  unfold insideNullable? at inside
  split at inside
  · cases inside
  · rename_i rest opened
    rw [Text.dropPrefix?_eq_some.mp opened, Text.dropSuffix?_eq_some.mp inside, List.length_append,
      List.length_append]
    exact Nat.lt_add_left _ (Nat.lt_succ_self _)

theorem length_of_dropSuffix? (marked : Text.dropSuffix? [ '?' ] cs = some part) :
    part.length < cs.length := by
  rw [Text.dropSuffix?_eq_some.mp marked, List.length_append]
  exact Nat.lt_succ_self _

theorem length_of_dropPrefix? (framework : Text.dropPrefix? "System.".toList cs = some part) :
    part.length < cs.length := by
  rw [Text.dropPrefix?_eq_some.mp framework, List.length_append]
  exact Nat.lt_add_of_pos_left (by decide)

/-- A keyword is another name than the framework spelling, and no longer one. -/
theorem keyword_shorter (keyword : keywordNames.lookup name = some clean) :
    clean ≠ name ∧ clean.toList.length ≤ name.toList.length := by
  have all : ∀ field ∈ keywordNames,
      field.2 ≠ field.1 ∧ field.2.toList.length ≤ field.1.toList.length := by decide +kernel
  exact all _ (Fields.mem_of_get? keyword)

theorem length_getD (found : Option (List Char)) (cs : List Char)
    (shorter : ∀ part, found = some part → part.length < cs.length) :
    (found.getD cs).length ≤ cs.length ∧ (cs.length ≤ (found.getD cs).length → found = none) := by
  cases found with
  | none => exact ⟨Nat.le_refl _, fun _ => rfl⟩
  | some part =>
    have short := shorter part rfl
    exact ⟨Nat.le_of_lt short, fun long => absurd short (Nat.not_lt.mpr long)⟩

/-- Where as much is left as was written, nothing was taken off. -/
theorem nothing_off (long : name.toList.length ≤ (bareName name).length) :
    Text.trimChars Text.isBlank name.toList = name.toList ∧ insideNullable? name.toList = none ∧
      Text.dropSuffix? [ '?' ] name.toList = none ∧
      Text.dropPrefix? "System.".toList name.toList = none := by
  unfold bareName at long
  dsimp only at long
  have trimmed := Text.trimChars_sublist Text.isBlank name.toList
  generalize Text.trimChars Text.isBlank name.toList = first at long trimmed ⊢
  have brackets := length_getD ((insideNullable? first).map (Text.trimChars Text.isBlank)) first <| by
    intro part inside
    obtain ⟨whole, bracketed, rfl⟩ := Option.map_eq_some_iff.mp inside
    have outer := length_of_insideNullable? bracketed
    exact Nat.lt_of_le_of_lt (Text.trimChars_sublist _ whole).length_le outer
  generalize second_eq : ((insideNullable? first).map (Text.trimChars Text.isBlank)).getD first = second
    at long brackets
  have mark := length_getD _ second fun _ => length_of_dropSuffix?
  generalize third_eq : (Text.dropSuffix? [ '?' ] second).getD second = third at long mark
  have framework := length_getD _ third fun _ => length_of_dropPrefix?
  -- No stage has shortened the name, since as much is left in the end as was there first.
  have atMost := trimmed.length_le
  obtain rfl : first = name.toList := trimmed.eq_of_length (by omega)
  have noBrackets := Option.map_eq_none_iff.mp (brackets.2 (by omega))
  rw [noBrackets] at second_eq
  obtain rfl : name.toList = second := second_eq
  have noMark := mark.2 (by omega)
  rw [noMark] at third_eq
  obtain rfl : name.toList = third := third_eq
  exact ⟨rfl, noBrackets, noMark, framework.2 (by omega)⟩

theorem bareName_eq_self (trimmed : Text.trimChars Text.isBlank name.toList = name.toList)
    (noBrackets : insideNullable? name.toList = none)
    (noMark : Text.dropSuffix? [ '?' ] name.toList = none)
    (noPrefix : Text.dropPrefix? "System.".toList name.toList = none) : bareName name = name.toList := by
  simp only [bareName, trimmed, noBrackets, noMark, noPrefix, Option.map_none, Option.getD_none]

/-- Cleaning leaves a name as it is just if it is clean. -/
theorem cleanName_eq_self_iff : cleanName name = name ↔ IsClean name := by
  rw [cleanName_eq_bareName]
  constructor
  · intro same
    have long : name.toList.length ≤ (bareName name).length := by
      cases keyword : keywordNames.lookup (String.ofList (bareName name)) with
      | none =>
        rw [keyword] at same
        have chars : (String.ofList (bareName name)).toList = name.toList := congrArg String.toList same
        exact Nat.le_of_eq (by rw [← chars, String.toList_ofList])
      | some clean =>
        rw [keyword] at same
        obtain rfl : clean = name := same
        have short := (keyword_shorter keyword).2
        rwa [String.toList_ofList] at short
    obtain ⟨trimmed, noBrackets, noMark, noPrefix⟩ := nothing_off long
    rw [bareName_eq_self trimmed noBrackets noMark noPrefix, String.ofList_toList] at same
    refine ⟨trimmed, noBrackets, noMark, noPrefix, Option.eq_none_iff_forall_ne_some.mpr fun clean keyword => ?_⟩
    rw [keyword] at same
    exact (keyword_shorter keyword).1 same
  · intro h
    rw [bareName_eq_self h.trimmed h.noBrackets h.noMark h.noPrefix, String.ofList_toList, h.noKeyword]
    rfl

namespace Provider

variable {p : Provider} {t : RawType} {before after : List RawType}

/-- A type is looked for among those before it, then found if it has the name, and else among those after it. -/
theorem find?_of_split (split : p.types = before ++ t :: after) (given : written ≠ "") :
    p.find? written = (before.find? (RawType.isNamed (cleanName written))).or
      (if t.isNamed (cleanName written) then some t
        else after.find? (RawType.isNamed (cleanName written))) := by
  rw [find?, if_neg given, lookup?, split]
  change (before ++ t :: after).find? (RawType.isNamed (cleanName written)) = _
  rw [List.find?_append, List.find?_cons]
  split <;> simp_all

theorem isNamed_own :
    t.isNamed (cleanName t.qualifiedName) = true ↔
      IsClean t.qualifiedName ∨ t.name = cleanName t.qualifiedName := by
  rw [RawType.isNamed, Bool.or_eq_true, decide_eq_true_iff, decide_eq_true_iff, eq_comm, cleanName_eq_self_iff]

/-- Under a clean qualified name the first earlier type is found that has it for its short name, if there is one. -/
theorem find?_own_clean (split : p.types = before ++ t :: after)
    (own : ∀ u ∈ before, u.qualifiedName ≠ t.qualifiedName) (given : t.qualifiedName ≠ "")
    (clean : IsClean t.qualifiedName) :
    p.find? t.qualifiedName = (before.find? fun u => u.name = t.qualifiedName).or (some t) := by
  have short : before.find? (RawType.isNamed t.qualifiedName) =
      before.find? fun u => u.name = t.qualifiedName :=
    List.find?_congr fun u mem => by simp [RawType.isNamed, own u mem]
  rw [find?_of_split split given, if_pos (isNamed_own.mpr (.inl clean)), cleanName_eq_self_iff.mpr clean, short]

/-- Where no short name has a dot, a type in a namespace is found under its qualified name, if that is clean. -/
theorem find?_own_of_dotless (split : p.types = before ++ t :: after)
    (own : ∀ u ∈ before, u.qualifiedName ≠ t.qualifiedName) (inside : t.namespace_ ≠ "")
    (clean : IsClean t.qualifiedName) (dotless : ∀ u ∈ before, '.' ∉ u.name.toList) :
    p.find? t.qualifiedName = some t := by
  have dotted : '.' ∈ t.qualifiedName.toList := by
    rw [RawType.qualifiedName, qualify, if_neg inside]
    simp
  have given : t.qualifiedName ≠ "" := fun empty => by simp [empty] at dotted
  have none_before : (before.find? fun u => u.name = t.qualifiedName) = none := by
    refine List.find?_eq_none.mpr fun u mem same => dotless u mem ?_
    rwa [of_decide_eq_true same]
  rw [find?_own_clean split own given clean, none_before, Option.none_or]

/-- A type that alone has its qualified name is found under it just if cleaning leaves it a name of the type, and no
earlier type has that name. Else, under a clean name, the first earlier type with that short name is found. -/
theorem own_name_found (split : p.types = before ++ t :: after)
    (own : ∀ u ∈ before ++ after, u.qualifiedName ≠ t.qualifiedName) :
    (p.find? t.qualifiedName = some t ↔ t.qualifiedName ≠ "" ∧
      (IsClean t.qualifiedName ∨ t.name = cleanName t.qualifiedName) ∧
        ∀ u ∈ before, u.isNamed (cleanName t.qualifiedName) = false) ∧
      (t.qualifiedName ≠ "" → IsClean t.qualifiedName →
        p.find? t.qualifiedName = (before.find? fun u => u.name = t.qualifiedName).or (some t)) := by
  obtain ⟨ownBefore, ownAfter⟩ := List.forall_mem_append.mp own
  refine ⟨⟨fun found => ?_, fun ⟨given, named, free⟩ => ?_⟩, find?_own_clean split ownBefore⟩
  · have given : t.qualifiedName ≠ "" := fun empty => by
      rw [find?, if_pos empty] at found
      cases found
    rw [find?_of_split split given] at found
    cases first : before.find? (RawType.isNamed (cleanName t.qualifiedName)) with
    | some u =>
      rw [first] at found
      obtain rfl : u = t := Option.some.inj found
      exact absurd rfl (ownBefore u (List.mem_of_find?_eq_some first))
    | none =>
      rw [first, Option.none_or] at found
      split at found
      · rename_i named
        exact ⟨given, isNamed_own.mp named, by simpa using first⟩
      · exact absurd rfl (ownAfter t (List.mem_of_find?_eq_some found))
  · have none_before : before.find? (RawType.isNamed (cleanName t.qualifiedName)) = none :=
      List.find?_eq_none.mpr fun u mem => by simp [free u mem]
    rw [find?_of_split split given, none_before, Option.none_or, if_pos (isNamed_own.mpr named)]

/-- Of two orders, the one in a namespace and the other in none, the earlier is found under the name of the other. -/
theorem own_name_found_shadowed :
    let order (namespace_ : String) : RawType := ⟨"Order", .entity, namespace_, .null, [], [], .null⟩
    let p : Provider := ⟨[order "Shop", order ""]⟩
    (∀ u ∈ [order "Shop"] ++ [], u.qualifiedName ≠ (order "").qualifiedName) ∧
      p.find? (order "").qualifiedName = some (order "Shop") ∧
        p.find? (order "").qualifiedName ≠ some (order "") := by
  intro order p
  have own : ∀ u ∈ [order "Shop"] ++ [], u.qualifiedName ≠ (order "").qualifiedName := by decide +kernel
  obtain ⟨found, clean⟩ := own_name_found (p := p) rfl own
  have isClean : IsClean (order "").qualifiedName :=
    ⟨by decide +kernel, by decide +kernel, by decide +kernel, by decide +kernel, by decide +kernel⟩
  refine ⟨own, (clean (by decide +kernel) isClean).trans ?_, found.not.mpr fun ⟨_, _, free⟩ => ?_⟩
  · rfl
  · exact absurd (free (order "Shop") List.mem_cons_self) (by decide +kernel)

end Provider

end Scaffold.Metadata
