import Scaffold.Proofs.Metadata.OwnName
import Scaffold.Proofs.Text.FileLines

/-!
The layers of a written name. Cleaning takes white space, brackets for null, a question mark and the framework prefix
off, once each and in this order; so nothing is left to take off just if the layers were written in this order.
-/

namespace Scaffold.Metadata

open Text (isBlank trimChars dropPrefix? dropSuffix?)

variable {core cs inner inside : List Char} {framework marked nullable : Bool} {name written : String}

/-- A name without layers. -/
structure IsBare (cs : List Char) : Prop where
  trimmed : trimChars isBlank cs = cs
  noBrackets : insideNullable? cs = none
  noMark : dropSuffix? ['?'] cs = none
  noPrefix : dropPrefix? "System.".toList cs = none

/-- A text with white space round it. -/
def IsPadded (inner cs : List Char) : Prop :=
  ∃ pre post, cs = pre ++ (inner ++ post) ∧ (∀ c ∈ pre, isBlank c = true) ∧ ∀ c ∈ post, isBlank c = true

/-- A name with the framework prefix before it and the question mark after it, if it has them. -/
def dressed (framework marked : Bool) (core : List Char) : List Char :=
  (if framework then "System.".toList else []) ++ (core ++ if marked then ['?'] else [])

theorem dressed_marked (framework : Bool) (core : List Char) :
    dressed framework true core = dressed framework false core ++ ['?'] := by
  simp only [dressed, Bool.false_eq_true, if_true, if_false, List.append_nil, List.append_assoc]

theorem dressed_framework (core : List Char) : dressed true false core = "System.".toList ++ core := by
  simp only [dressed, Bool.false_eq_true, if_true, if_false, List.append_nil]

theorem dressed_nothing (core : List Char) : dressed false false core = core := by
  simp only [dressed, Bool.false_eq_true, if_false, List.append_nil, List.nil_append]

/-- A text is a name with its layers in order; is the name marked as nullable by them? -/
inductive Spells (core : List Char) : (nullable : Bool) → List Char → Prop
  | plain {framework marked : Bool} {cs : List Char} :
      IsPadded (dressed framework marked core) cs → Spells core marked cs
  | bracketed {framework marked : Bool} {inside cs : List Char} :
      IsPadded (dressed framework marked core) inside →
      IsPadded ("Nullable<".toList ++ (inside ++ ['>'])) cs → Spells core true cs

/-- The keyword for a name, if it is a framework spelling. -/
def keywordOf (core : List Char) : String :=
  (keywordNames.lookup (String.ofList core)).getD (String.ofList core)

theorem ofText_eq (written : String) :
    TypeName.ofText written =
      let trimmed := trimChars isBlank written.toList
      let inner := ((insideNullable? trimmed).map (trimChars isBlank)).getD trimmed
      ⟨keywordOf (bareName written),
        (insideNullable? trimmed).isSome || (dropSuffix? ['?'] inner).isSome⟩ := by
  unfold TypeName.ofText bareName keywordOf
  generalize trimChars isBlank written.toList = trimmed
  cases brackets : insideNullable? trimmed with
  | none => cases mark : dropSuffix? ['?'] trimmed <;> simp [brackets, mark]
  | some inside =>
    cases mark : dropSuffix? ['?'] (trimChars isBlank inside) <;> simp [brackets, mark]

theorem trimChars_of_padded (padded : IsPadded inner cs) : trimChars isBlank cs = trimChars isBlank inner := by
  obtain ⟨pre, post, rfl, before, after⟩ := padded
  exact Text.trimChars_append before after

theorem padded_trimChars (cs : List Char) : IsPadded (trimChars isBlank cs) cs := Text.exists_trimmed isBlank cs

theorem insideNullable?_eq_some :
    insideNullable? cs = some inside ↔ cs = "Nullable<".toList ++ (inside ++ ['>']) := by
  unfold insideNullable?
  split
  · rename_i none_
    simp only [reduceCtorEq, false_iff]
    rintro rfl
    rw [Text.dropPrefix?_eq_some.mpr rfl] at none_
    cases none_
  · rename_i rest opened
    rw [Text.dropPrefix?_eq_some.mp opened, Text.dropSuffix?_eq_some, List.append_cancel_left_eq]

theorem IsBare.append_mark (bare : IsBare core) : trimChars isBlank (core ++ ['?']) = core ++ ['?'] := by
  refine Text.trimChars_eq_self (fun c first => ?_) fun c last => ?_
  · cases core with
    | nil =>
      obtain rfl : '?' = c := Option.some.inj first
      rfl
    | cons d core =>
      obtain rfl : d = c := Option.some.inj first
      exact (Text.ends_of_trimmed bare.trimmed).1 d rfl
  · obtain rfl : '?' = c := by simpa using last
    rfl

/-- A text that a prefix without white space stands before is trimmed if it is so itself, or is empty. -/
theorem trimChars_prefix (trimmed : trimChars isBlank cs = cs) :
    trimChars isBlank ("System.".toList ++ cs) = "System.".toList ++ cs := by
  refine Text.trimChars_eq_self (fun c first => ?_) fun c last => ?_
  · obtain rfl : 'S' = c := by simpa using first
    rfl
  · rw [List.getLast?_append] at last
    cases ending : cs.getLast? with
    | none =>
      obtain rfl : '.' = c := by simpa [ending] using last
      rfl
    | some d =>
      obtain rfl : d = c := by simpa [ending] using last
      exact (Text.ends_of_trimmed trimmed).2 d ending

namespace IsBare

theorem trimmed_dressed (bare : IsBare core) (framework marked : Bool) :
    trimChars isBlank (dressed framework marked core) = dressed framework marked core := by
  have inner : trimChars isBlank (core ++ if marked then ['?'] else []) =
      core ++ if marked then ['?'] else [] := by
    cases marked with
    | false => simpa using bare.trimmed
    | true => exact bare.append_mark
  cases framework with
  | false => exact inner
  | true => exact trimChars_prefix inner

theorem noBrackets_dressed (bare : IsBare core) (framework marked : Bool) :
    insideNullable? (dressed framework marked core) = none := by
  refine Option.eq_none_iff_forall_ne_some.mpr fun inside found => ?_
  have whole := insideNullable?_eq_some.mp found
  cases framework with
  | true => simp [dressed] at whole
  | false =>
    cases marked with
    | true =>
      have ending : (core ++ ['?']).getLast? = ("Nullable<".toList ++ inside ++ ['>']).getLast? := by
        rw [List.append_assoc]
        exact congrArg List.getLast? whole
      rw [List.getLast?_concat, List.getLast?_concat] at ending
      cases ending
    | false =>
      have bracketed : core = "Nullable<".toList ++ (inside ++ ['>']) := (List.append_nil core).symm.trans whole
      cases bare.noBrackets.symm.trans (insideNullable?_eq_some.mpr bracketed)

theorem mark_dressed (bare : IsBare core) (framework marked : Bool) :
    dropSuffix? ['?'] (dressed framework marked core) =
      if marked then some (dressed framework false core) else none := by
  cases marked with
  | true => exact Text.dropSuffix?_eq_some.mpr (dressed_marked framework core)
  | false =>
    refine Option.eq_none_iff_forall_ne_some.mpr fun rest found => ?_
    have whole := Text.dropSuffix?_eq_some.mp found
    have ending := congrArg List.getLast? whole
    simp only [List.getLast?_concat, dressed, Bool.false_eq_true, if_false, List.append_nil] at ending
    rcases List.eq_nil_or_concat core with rfl | ⟨before, last, split⟩
    · cases framework <;> simp at ending
    · rw [split, List.concat_eq_append, ← List.append_assoc, List.getLast?_concat] at ending
      obtain rfl := Option.some.inj ending
      cases bare.noMark.symm.trans (Text.dropSuffix?_eq_some.mpr (split.trans (List.concat_eq_append ..)))

theorem prefix_dressed (bare : IsBare core) (framework : Bool) :
    (dropPrefix? "System.".toList (dressed framework false core)).getD (dressed framework false core) =
      core := by
  cases framework with
  | true => rw [Text.dropPrefix?_eq_some.mpr (dressed_framework core), Option.getD_some]
  | false => rw [dressed_nothing, bare.noPrefix, Option.getD_none]

/-- The question mark and the framework prefix are taken off. -/
theorem stripped_dressed (bare : IsBare core) (framework marked : Bool) :
    (dropPrefix? "System.".toList
      ((dropSuffix? ['?'] (dressed framework marked core)).getD (dressed framework marked core))).getD
        ((dropSuffix? ['?'] (dressed framework marked core)).getD (dressed framework marked core)) = core := by
  rw [bare.mark_dressed]
  cases marked <;> exact bare.prefix_dressed framework

/-- A name with its layers in order is cleaned in one pass. -/
theorem ofText_of_spells (bare : IsBare core) (spelled : Spells core nullable written.toList) :
    TypeName.ofText written = ⟨keywordOf core, nullable⟩ := by
  cases spelled with
  | @plain framework _ _ padded =>
    have first := (trimChars_of_padded padded).trans (bare.trimmed_dressed framework nullable)
    have name : bareName written = core := by
      simp only [bareName, first, bare.noBrackets_dressed, Option.map_none, Option.getD_none,
        bare.stripped_dressed]
    simp only [ofText_eq, name, first, bare.noBrackets_dressed, Option.map_none, Option.getD_none,
      bare.mark_dressed]
    cases nullable <;> rfl
  | @bracketed framework marked inside _ padded outer =>
    have whole : trimChars isBlank ("Nullable<".toList ++ (inside ++ ['>'])) =
        "Nullable<".toList ++ (inside ++ ['>']) := by
      refine Text.trimChars_eq_self (fun c first => ?_) fun c last => ?_
      · obtain rfl : 'N' = c := Option.some.inj first
        rfl
      · rw [← List.append_assoc, List.getLast?_concat] at last
        obtain rfl : '>' = c := Option.some.inj last
        rfl
    have first := (trimChars_of_padded outer).trans whole
    have second := (trimChars_of_padded padded).trans (bare.trimmed_dressed framework marked)
    simp only [ofText_eq, bareName, first, insideNullable?_eq_some.mpr rfl, Option.map_some, Option.getD_some,
      second, bare.stripped_dressed, Option.isSome_some, Bool.true_or]

end IsBare

theorem isClean_iff : IsClean name ↔ IsBare name.toList ∧ keywordNames.lookup name = none :=
  ⟨fun h => ⟨⟨h.trimmed, h.noBrackets, h.noMark, h.noPrefix⟩, h.noKeyword⟩,
    fun ⟨bare, noKeyword⟩ => ⟨bare.trimmed, bare.noBrackets, bare.noMark, bare.noPrefix, noKeyword⟩⟩

/-- Framework spellings carry no layers, and their keywords are clean. -/
theorem keywordNames_bare : ∀ field ∈ keywordNames, IsBare field.1.toList ∧ IsClean field.2 := by
  have all : ∀ field ∈ keywordNames,
      (trimChars isBlank field.1.toList = field.1.toList ∧ insideNullable? field.1.toList = none ∧
        dropSuffix? ['?'] field.1.toList = none ∧ dropPrefix? "System.".toList field.1.toList = none) ∧
      trimChars isBlank field.2.toList = field.2.toList ∧ insideNullable? field.2.toList = none ∧
        dropSuffix? ['?'] field.2.toList = none ∧ dropPrefix? "System.".toList field.2.toList = none ∧
          keywordNames.lookup field.2 = none := by decide +kernel
  intro field mem
  obtain ⟨⟨trimmed, noBrackets, noMark, noPrefix⟩, trimmed', noBrackets', noMark', noPrefix', noKeyword⟩ :=
    all field mem
  exact ⟨⟨trimmed, noBrackets, noMark, noPrefix⟩, ⟨trimmed', noBrackets', noMark', noPrefix', noKeyword⟩⟩

/-- The name that stands for the rest of a written one is clean just if the rest is bare. -/
theorem isClean_keywordOf : IsClean (keywordOf core) ↔ IsBare core := by
  unfold keywordOf
  cases keyword : keywordNames.lookup (String.ofList core) with
  | none => rw [Option.getD_none, isClean_iff, String.toList_ofList, and_iff_left keyword]
  | some word =>
    obtain ⟨bare, clean⟩ := keywordNames_bare _ (Fields.mem_of_get? keyword)
    rw [String.toList_ofList] at bare
    exact iff_of_true clean bare

/-- What is left when a question mark and the framework prefix are taken off was written with them. -/
theorem exists_dressed (cs : List Char) : ∃ framework marked,
    cs = dressed framework marked ((dropPrefix? "System.".toList ((dropSuffix? ['?'] cs).getD cs)).getD
      ((dropSuffix? ['?'] cs).getD cs)) := by
  have framework (cs : List Char) :
      ∃ framework, cs = dressed framework false ((dropPrefix? "System.".toList cs).getD cs) := by
    cases found : dropPrefix? "System.".toList cs with
    | none => exact ⟨false, (dressed_nothing cs).symm⟩
    | some rest => exact ⟨true, (Text.dropPrefix?_eq_some.mp found).trans (dressed_framework rest).symm⟩
  cases found : dropSuffix? ['?'] cs with
  | none =>
    obtain ⟨isThere, eq⟩ := framework cs
    exact ⟨isThere, false, eq⟩
  | some rest =>
    obtain ⟨isThere, eq⟩ := framework rest
    refine ⟨isThere, true, ?_⟩
    calc cs
      _ = rest ++ ['?'] := Text.dropSuffix?_eq_some.mp found
      _ = dressed isThere false ((dropPrefix? "System.".toList rest).getD rest) ++ ['?'] := by rw [← eq]
      _ = _ := (dressed_marked _ _).symm

/-- A text is what cleaning leaves of it, with the layers that were taken off. -/
theorem spells_bareName (written : String) :
    ∃ nullable, Spells (bareName written) nullable written.toList := by
  have outer := padded_trimChars written.toList
  cases found : insideNullable? (trimChars isBlank written.toList) with
  | none =>
    obtain ⟨framework, marked, eq⟩ := exists_dressed (trimChars isBlank written.toList)
    rw [eq] at outer
    refine ⟨marked, ?_⟩
    simpa only [bareName, found, Option.map_none, Option.getD_none] using Spells.plain outer
  | some inside =>
    obtain ⟨framework, marked, eq⟩ := exists_dressed (trimChars isBlank inside)
    have inner := padded_trimChars inside
    rw [eq] at inner
    rw [insideNullable?_eq_some.mp found] at outer
    refine ⟨true, ?_⟩
    simpa only [bareName, found, Option.map_some, Option.getD_some] using Spells.bracketed inner outer

theorem cleanName_eq_keywordOf (written : String) : cleanName written = keywordOf (bareName written) :=
  cleanName_eq_bareName written

/-- A clean name is not marked. -/
theorem ofText_of_clean (clean : IsClean name) : TypeName.ofText name = ⟨name, false⟩ := by
  obtain ⟨bare, noKeyword⟩ := isClean_iff.mp clean
  have plain : Spells name.toList false name.toList :=
    .plain ⟨[], [], by rw [dressed_nothing, List.append_nil, List.nil_append], by simp, by simp⟩
  rw [bare.ofText_of_spells plain, keywordOf, String.ofList_toList, noKeyword, Option.getD_none]

/-- Cleaning a name again finds nothing just if the name was written with its layers in order, each at most once.
Such a name is cleaned of all of them, and is marked just if one of them says so. -/
theorem cleaned_again_same_iff (written : String) :
    (TypeName.ofText (cleanName written) = ⟨cleanName written, false⟩ ↔
      ∃ core nullable, IsBare core ∧ Spells core nullable written.toList) ∧
    ∀ core nullable, IsBare core → Spells core nullable written.toList →
      TypeName.ofText written = ⟨keywordOf core, nullable⟩ := by
  refine ⟨⟨?_, ?_⟩, ?_⟩
  · intro same
    have unchanged : cleanName (cleanName written) = cleanName written := by rw [cleanName, same]
    have bare : IsBare (bareName written) :=
      isClean_keywordOf.mp (cleanName_eq_keywordOf written ▸ cleanName_eq_self_iff.mp unchanged)
    obtain ⟨nullable, spelled⟩ := spells_bareName written
    exact ⟨bareName written, nullable, bare, spelled⟩
  · rintro ⟨core, nullable, bare, spelled⟩
    rw [cleanName, bare.ofText_of_spells spelled]
    exact ofText_of_clean (isClean_keywordOf.mpr bare)
  · intro core nullable bare spelled
    exact bare.ofText_of_spells spelled

/-- Brackets behind the framework prefix are not reached: the number in them is found in a second pass. -/
theorem cleaned_again_same_prefixed :
    TypeName.ofText "System.Nullable<int>" = ⟨"Nullable<int>", false⟩ ∧
      TypeName.ofText "Nullable<int>" = ⟨"int", true⟩ ∧
      (¬ ∃ core nullable, IsBare core ∧ Spells core nullable "System.Nullable<int>".toList) ∧
      Spells "Int32".toList true " Nullable< System.Int32? >".toList ∧
      TypeName.ofText " Nullable< System.Int32? >" = ⟨"int", true⟩ := by
  have first : TypeName.ofText "System.Nullable<int>" = ⟨"Nullable<int>", false⟩ := by decide +kernel
  have second : TypeName.ofText "Nullable<int>" = ⟨"int", true⟩ := by decide +kernel
  have blank : ∀ c ∈ [' '], isBlank c = true := List.forall_mem_singleton.mpr (by decide)
  have spelled : Spells "Int32".toList true " Nullable< System.Int32? >".toList :=
    @Spells.bracketed _ true true " System.Int32? ".toList _ ⟨[' '], [' '], rfl, blank, blank⟩
      ⟨[' '], [], rfl, blank, List.forall_mem_nil _⟩
  have bare : IsBare "Int32".toList := (keywordNames_bare ("Int32", "int") (by decide +kernel)).1
  refine ⟨first, second, fun inOrder => ?_, spelled, ?_⟩
  · have same := (cleaned_again_same_iff "System.Nullable<int>").1.mpr inOrder
    rw [cleanName, first, second] at same
    exact absurd same (by decide)
  · rw [(cleaned_again_same_iff _).2 _ _ bare spelled]
    decide +kernel

end Scaffold.Metadata
