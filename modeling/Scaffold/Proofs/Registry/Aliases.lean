import Mathlib.Data.List.Induction
import Scaffold.Proofs.Registry.Calls

/-!
What listed aliases are resolved to. A primary name hides the alias that it spells, so an alias stands for the
target it is listed for as long as no name is both. A registration can make a name both in two ways: it takes an
alias for its primary name, which nothing checks, or it may replace and takes a primary name for an alias.
-/

namespace Scaffold.Registry

/-- Every alias that is listed for a name is resolved to it. -/
def Faithful (r : Registry) : Prop :=
  ∀ primary ∈ r.names, ∀ nickname ∈ r.aliasesOf primary, r.resolve nickname = .ok primary

/-- No name is a primary name and an alias. -/
def Disjoint (r : Registry) : Prop := List.Disjoint (r.targets.map (·.1)) (r.aliases.map (·.1))

/-- All calls are accepted, one after the other. -/
def Accepts (r : Registry) : List Call → Prop
  | [] => True
  | call :: rest => (call.run r).result = .ok () ∧ (call.run r).state.Accepts rest

instance Accepts.decidable : (r : Registry) → (calls : List Call) → Decidable (r.Accepts calls)
  | _, [] => .isTrue trivial
  | r, call :: rest =>
    have := Accepts.decidable (call.run r).state rest
    inferInstanceAs (Decidable ((call.run r).result = .ok () ∧ (call.run r).state.Accepts rest))

/-- A registration that goes on (its name is free or is to be replaced) takes no alias for its name, and no other
primary name for an alias. -/
def Call.Apart (r : Registry) : Call → Prop
  | .register (.str name) _ aliases replace =>
    Fields.get? r.targets (Text.lower name) = none ∨ replace = true →
      Fields.get? r.aliases (Text.lower name) = none ∧
        ∀ nicknames, aliases.itemsIfSet? = .ok nicknames → ∀ nickname, .str nickname ∈ nicknames →
          Text.lower nickname ≠ Text.lower name → Fields.get? r.targets (Text.lower nickname) = none
  | _ => True

variable {r r' : Registry} {primary name nickname : String} {replace : Bool} {calls : List Call}

theorem mem_aliasesOf : nickname ∈ r.aliasesOf primary ↔ (nickname, Text.lower primary) ∈ r.aliases := by
  rw [aliasesOf, sorted, List.mem_mergeSort]
  simp

/-- A listed alias is resolved to the name that lists it, unless it is a primary name itself. -/
theorem Sound.resolve_alias (h : r.Sound) (listed : primary ∈ r.names)
    (mem : nickname ∈ r.aliasesOf primary) :
    r.resolve nickname = .ok (if nickname ∈ r.names then nickname else primary) := by
  have small : Text.lower primary = primary :=
    h.smallTargets primary (mem_keys.mp (mem_names.mp listed))
  rw [mem_aliasesOf, small] at mem
  have smallNickname : Text.lower nickname = nickname :=
    h.smallAliases nickname (List.mem_map_of_mem mem)
  have owner : Fields.get? r.aliases nickname = some primary := Fields.get?_of_mem h.distinct mem
  simp only [resolve, smallNickname, mem_names, owner]
  split <;> rfl

/-- Listed aliases mean what they say just where no name is a primary name and an alias. -/
theorem Sound.faithful_iff (h : r.Sound) : r.Faithful ↔ r.Disjoint := by
  constructor
  · intro faithful name isTarget isAlias
    obtain ⟨⟨_, owner⟩, mem, rfl⟩ := List.mem_map.mp isAlias
    have listed : owner ∈ r.names := mem_names.mpr (h.registered _ owner mem)
    have small : Text.lower owner = owner := h.smallTargets owner (mem_keys.mp (mem_names.mp listed))
    have ofOwner := mem_aliasesOf.mpr (small.symm ▸ mem)
    have same := (faithful owner listed _ ofOwner).symm.trans (h.resolve_alias listed ofOwner)
    rw [if_pos (mem_names.mpr (mem_keys.mpr isTarget))] at same
    exact h.other _ owner mem (Except.ok.inj same).symm
  · intro disjoint primary listed nickname mem
    rw [h.resolve_alias listed mem, if_neg]
    exact fun isTarget => disjoint (mem_keys.mp (mem_names.mp isTarget))
      (List.mem_map_of_mem (mem_aliasesOf.mp mem))

/-- Aliases are accepted one after the other. -/
theorem addAliases_cons_eq_ok {first : Json} {rest : List Json}
    (accepted : (addAliases primary replace (first :: rest) r).result = .ok ()) :
    ∃ nickname r', first = .str nickname ∧ r.addAlias primary replace nickname = .ok r' ∧
      (addAliases primary replace rest r').result = .ok () ∧
      (addAliases primary replace (first :: rest) r).state =
        (addAliases primary replace rest r').state := by
  obtain ⟨_, taken, goesOn⟩ := Action.bind_eq_ok.mp accepted
  obtain ⟨nickname, isText, added⟩ := exists_of_bind_eq_ok (Action.change_eq_ok taken)
  have text := eq_str_of_asText? (mapError_eq_ok.mp isText)
  exact ⟨nickname, _, text, mapError_eq_ok.mp added, goesOn, Action.state_bind taken⟩

/-- Accepted aliases are added in small letters, but for the primary name itself. -/
theorem keys_addAliases {nicknames : List Json}
    (accepted : (addAliases primary replace nicknames r).result = .ok ()) :
    (addAliases primary replace nicknames r).state.targets = r.targets ∧
      ∀ key, key ∈ (addAliases primary replace nicknames r).state.aliases.map (·.1) ↔
        key ∈ r.aliases.map (·.1) ∨
          key ≠ primary ∧ ∃ nickname, .str nickname ∈ nicknames ∧ Text.lower nickname = key := by
  induction nicknames generalizing r with
  | nil => exact ⟨rfl, fun key => by simp [addAliases]⟩
  | cons first rest ih =>
    obtain ⟨nickname, r', rfl, added, goesOn, state⟩ := addAliases_cons_eq_ok accepted
    obtain ⟨targets, keys⟩ := ih goesOn
    simp only [state, targets, keys, List.mem_cons, Json.str.injEq]
    rcases addAlias_eq_ok.mp added with ⟨itself, rfl⟩ | ⟨other, -, rfl⟩
    · refine ⟨rfl, fun key => or_congr_right (and_congr_right fun notItself => ?_)⟩
      constructor
      · exact fun ⟨text, mem, small⟩ => ⟨text, .inr mem, small⟩
      · rintro ⟨text, rfl | mem, rfl⟩
        · exact absurd itself notItself
        · exact ⟨text, mem, rfl⟩
    · refine ⟨rfl, fun key => ?_⟩
      rw [Fields.mem_keys_put]
      constructor
      · rintro ((known | rfl) | ⟨notItself, text, mem, small⟩)
        · exact .inl known
        · exact .inr ⟨other, nickname, .inl rfl, rfl⟩
        · exact .inr ⟨notItself, text, .inr mem, small⟩
      · rintro (known | ⟨notItself, text, rfl | mem, rfl⟩)
        · exact .inl (.inl known)
        · exact .inl (.inr rfl)
        · exact .inr ⟨notItself, text, mem, rfl⟩

theorem disjoint_unregister (h : r.Disjoint) (name : String) : (r.unregister name).Disjoint :=
  List.disjoint_of_subset_right (List.filter_sublist.map _).subset
    (List.disjoint_of_subset_left (List.filter_sublist.map _).subset h)

/-- A name that is enlisted with its aliases stays apart from them just if it is no alias, and they are no other
primary names. -/
theorem disjoint_enlist_iff (disjoint : r.Disjoint) {target : Target} {nicknames : List Json}
    (accepted : (addAliases primary replace nicknames (r.enlist primary target)).result = .ok ()) :
    (addAliases primary replace nicknames (r.enlist primary target)).state.Disjoint ↔
      Fields.get? r.aliases primary = none ∧ ∀ nickname, .str nickname ∈ nicknames →
        Text.lower nickname ≠ primary → Fields.get? r.targets (Text.lower nickname) = none := by
  obtain ⟨targets, keys⟩ := keys_addAliases accepted
  simp only [Fields.get?_eq_none]
  constructor
  · intro apart
    have isTarget {key : String} (mem : key = primary ∨ key ∈ r.targets.map (·.1)) :
        key ∈ (addAliases primary replace nicknames (r.enlist primary target)).state.targets.map (·.1) := by
      rw [targets]
      exact Fields.mem_keys_put.mpr mem.symm
    refine ⟨fun isAlias => ?_, fun nickname mem other known => ?_⟩
    · exact apart (isTarget (.inl rfl)) ((keys primary).mpr (.inl isAlias))
    · exact apart (isTarget (.inr known)) ((keys _).mpr (.inr ⟨other, nickname, mem, rfl⟩))
  · rintro ⟨free, others⟩ key isTarget isAlias
    rw [targets] at isTarget
    obtain known | rfl := Fields.mem_keys_put.mp isTarget <;>
      obtain old | ⟨other, nickname, mem, rfl⟩ := (keys _).mp isAlias
    · exact disjoint known old
    · exact others nickname mem other known
    · exact free old
    · exact other rfl

/-- An accepted call keeps names and aliases apart just if it takes neither for the other. -/
theorem Call.disjoint_iff (call : Call) (disjoint : r.Disjoint)
    (accepted : (call.run r).result = .ok ()) :
    (call.run r).state.Disjoint ↔ call.Apart r := by
  cases call with
  | unregister name => exact iff_of_true (disjoint_unregister disjoint name) trivial
  | register name target aliases replace =>
    change (Registry.register name target aliases replace r).result = .ok () at accepted
    change (Registry.register name target aliases replace r).state.Disjoint ↔ _
    rcases register_cases name target aliases replace r with
      ⟨e, refused, -⟩ | ⟨text, t, rfl, rfl, ⟨⟨known, rfl⟩, left⟩ | ⟨new, enlists⟩⟩
    · rw [refused] at accepted
      cases accepted
    · rw [left]
      refine iff_of_true disjoint fun new => ?_
      simp [Option.isSome_iff_ne_none.mp known] at new
    · rw [enlists] at accepted ⊢
      obtain ⟨nicknames, items, goesOn⟩ := Action.bind_eq_ok.mp accepted
      rw [Action.state_bind items]
      rw [Action.result_ofExcept, mapError_eq_ok] at items
      simp [disjoint_enlist_iff disjoint goesOn, Call.Apart, new, items]

theorem Accepts.result {before after : List Call} {call : Call}
    (accepted : r.Accepts (before ++ call :: after)) :
    (call.run (r.afterCalls before)).result = .ok () := by
  induction before generalizing r with
  | nil => exact accepted.1
  | cons first rest ih => exact ih accepted.2

theorem afterCalls_concat (before : List Call) (call : Call) :
    r.afterCalls (before ++ [call]) = (call.run (r.afterCalls before)).state := by
  simp [afterCalls]

/-- Names and aliases stay apart along accepted calls just if each call, when it is made, takes neither for the
other. -/
theorem disjoint_along_iff (disjoint : r.Disjoint) (accepted : r.Accepts calls) :
    (∀ before after, calls = before ++ after → (r.afterCalls before).Disjoint) ↔
      ∀ before call after, calls = before ++ call :: after → call.Apart (r.afterCalls before) := by
  constructor
  · rintro stays before call after rfl
    refine (call.disjoint_iff (stays before (call :: after) rfl) accepted.result).mp ?_
    rw [← afterCalls_concat]
    exact stays _ after (by simp)
  · intro apart before
    induction before using List.reverseRecOn with
    | nil => exact fun _ _ => disjoint
    | append_singleton before call ih =>
      rintro after rfl
      rw [List.append_assoc] at ih accepted apart
      rw [afterCalls_concat, call.disjoint_iff (ih _ rfl) accepted.result]
      exact apart before call after rfl

/-- After any calls a listed alias is resolved to the target that lists it, unless it is a primary name itself;
and along accepted calls every listed alias means its target just if each registration, when it is made, takes no
alias for its name and no other primary name for an alias. -/
theorem listed_alias_resolves (calls : List Call) (accepted : empty.Accepts calls) :
    (∀ primary ∈ (empty.afterCalls calls).names,
      ∀ nickname ∈ (empty.afterCalls calls).aliasesOf primary,
        (empty.afterCalls calls).resolve nickname =
          .ok (if nickname ∈ (empty.afterCalls calls).names then nickname else primary)) ∧
      ((∀ before after, calls = before ++ after → (empty.afterCalls before).Faithful) ↔
        ∀ before call after, calls = before ++ call :: after → call.Apart (empty.afterCalls before)) := by
  refine ⟨fun primary listed nickname mem => (sound_afterCalls .empty calls).resolve_alias listed mem, ?_⟩
  rw [← disjoint_along_iff (r := empty) (List.disjoint_nil_left _) accepted]
  exact forall₃_congr fun before _ _ => (sound_afterCalls .empty before).faithful_iff

/-- A primary name may be an alias that is there; the target that it was listed for is not found by it then. -/
theorem listed_alias_resolves_hidden :
    let calls := [Call.register (.str "a") (some .csharp) (.arr [.str "b"]) false,
      .register (.str "b") (some .typescript) .null false]
    empty.Accepts calls ∧
      ¬ ∀ before after, calls = before ++ after → (empty.afterCalls before).Faithful := by
  intro calls
  have accepted : empty.Accepts calls := by decide +kernel
  refine ⟨accepted, (listed_alias_resolves calls accepted).2.not.mpr fun apart => ?_⟩
  have free := (apart [_] _ [] rfl (.inl (by decide +kernel))).1
  exact absurd free (by decide +kernel)

end Scaffold.Registry
