import Scaffold.Proofs.Registry.Calls

/-!
Registrations that are refused. What is no target is refused before anything is changed; an alias is refused when
the name and the aliases that come before it are in already. They stay, so the name is taken from then on, and only
taking it away leads back.
-/

namespace Scaffold.Registry

/-- Why a name cannot have an alias: it is another primary name, or stands for another one. -/
inductive Refuses (r : Registry) (primary nickname : String) : RegistryError → Prop
  | isTarget (other : Text.lower nickname ≠ primary)
      (known : (Fields.get? r.targets (Text.lower nickname)).isSome = true) :
      Refuses r primary nickname (.aliasIsTarget nickname)
  | taken {owner : String} (other : Text.lower nickname ≠ primary)
      (free : Fields.get? r.targets (Text.lower nickname) = none)
      (isAlias : Fields.get? r.aliases (Text.lower nickname) = some owner) (another : owner ≠ primary) :
      Refuses r primary nickname (.aliasTaken nickname owner)

/-- The registry with an alias for a primary name, which is none for itself. -/
def take (primary : String) (r : Registry) (nickname : String) : Registry :=
  if Text.lower nickname = primary then r
  else { r with aliases := Fields.put r.aliases (Text.lower nickname) primary }

/-- The aliases that are taken before the first that is refused. -/
structure StopsAfter (r : Registry) (primary : String) (nicknames : List Json) (before : List String)
    (e : RegistryError) : Prop where
  fine : ∀ nickname ∈ before, ∀ e, ¬ r.Refuses primary nickname e
  refused : ∃ nickname after, nicknames = before.map .str ++ .str nickname :: after ∧ r.Refuses primary nickname e

variable {r s : Registry} {primary nickname other : String} {replace : Bool} {e : RegistryError}
  {nicknames : List Json} {before : List String} {target : Target}

/-- Only without leave to replace an alias is refused. -/
theorem addAlias_eq_error :
    r.addAlias primary replace nickname = .error e ↔ replace = false ∧ r.Refuses primary nickname e := by
  constructor
  · intro refused
    simp only [addAlias] at refused
    split at refused
    · cases refused
    rename_i other
    split at refused
    · cases refused
    rename_i kept
    refine ⟨by simpa using kept, ?_⟩
    split at refused
    · rename_i known
      cases refused
      exact .isTarget other known
    rename_i free
    split at refused
    · rename_i owner isAlias
      split at refused
      · cases refused
      · rename_i another
        cases refused
        exact .taken other (by simpa using free) isAlias another
    · cases refused
  · rintro ⟨rfl, refused⟩
    cases refused with
    | isTarget other known => simp [addAlias, other, known]
    | taken other free isAlias another => simp [addAlias, other, free, isAlias, another]

theorem eq_take_of_addAlias (added : r.addAlias primary replace nickname = .ok s) :
    s = take primary r nickname := by
  rcases addAlias_eq_ok.mp added with ⟨itself, rfl⟩ | ⟨other, -, rfl⟩
  · rw [take, if_pos itself]
  · rw [take, if_neg other]

/-- Without leave to replace an alias is taken if it is not refused. -/
theorem addAlias_eq_take : r.addAlias primary false nickname = .ok s ↔
    (∀ e, ¬ r.Refuses primary nickname e) ∧ s = take primary r nickname := by
  constructor
  · intro added
    refine ⟨fun e refused => ?_, eq_take_of_addAlias added⟩
    rw [addAlias_eq_error.mpr ⟨rfl, refused⟩] at added
    cases added
  · rintro ⟨fine, rfl⟩
    cases added : r.addAlias primary false nickname with
    | error e => exact absurd (addAlias_eq_error.mp added).2 (fine e)
    | ok r' => rw [eq_take_of_addAlias added]

theorem targets_foldl_take (before : List String) :
    (before.foldl (take primary) r).targets = r.targets := by
  induction before generalizing r with
  | nil => rfl
  | cons first rest ih =>
    rw [List.foldl_cons, ih, take]
    split <;> rfl

/-- Whether an alias is refused is seen where it is looked up. -/
theorem Refuses.mono (refused : r.Refuses primary nickname e)
    (targets : Text.lower nickname ≠ primary →
      Fields.get? s.targets (Text.lower nickname) = Fields.get? r.targets (Text.lower nickname))
    (aliases : ∀ owner, owner ≠ primary → Fields.get? r.aliases (Text.lower nickname) = some owner →
      Fields.get? s.aliases (Text.lower nickname) = some owner) :
    s.Refuses primary nickname e := by
  cases refused with
  | isTarget other known => exact .isTarget other (targets other ▸ known)
  | taken other free isAlias another =>
    exact .taken other ((targets other).trans free) (aliases _ another isAlias) another

/-- That a name is enlisted changes nothing for its aliases. -/
theorem refuses_enlist :
    (r.enlist primary target).Refuses primary nickname e ↔ r.Refuses primary nickname e := by
  have elsewhere (other : Text.lower nickname ≠ primary) :
      Fields.get? (r.enlist primary target).targets (Text.lower nickname) =
        Fields.get? r.targets (Text.lower nickname) := by
    rw [enlist, Fields.get?_put, if_neg other]
  exact ⟨fun refused => refused.mono (fun other => (elsewhere other).symm) fun _ _ => id,
    fun refused => refused.mono elsewhere fun _ _ => id⟩

/-- Aliases of one name do not stand in each other's way. -/
theorem refuses_take (fine : ∀ e, ¬ r.Refuses primary other e) :
    (take primary r other).Refuses primary nickname e ↔ r.Refuses primary nickname e := by
  unfold take
  split
  · rfl
  rename_i notItself
  constructor
  · intro refused
    refine refused.mono (fun _ => rfl) fun owner another isAlias => ?_
    rw [Fields.get?_put] at isAlias
    split at isAlias
    · exact absurd (Option.some.inj isAlias).symm another
    · exact isAlias
  · intro refused
    cases refused with
    | isTarget notName known => exact .isTarget notName known
    | taken notName free isAlias another =>
      refine .taken notName free ?_ another
      rw [Fields.get?_put, if_neg]
      · exact isAlias
      · -- the one that is taken already would have been refused itself
        exact fun same => fine _ (.taken notItself (same ▸ free) (same ▸ isAlias) another)

theorem fine_take (fine : ∀ nickname ∈ other :: before, ∀ e, ¬ r.Refuses primary nickname e) :
    ∀ nickname ∈ before, ∀ e, ¬ (take primary r other).Refuses primary nickname e := by
  intro nickname mem e
  rw [refuses_take (fine other List.mem_cons_self)]
  exact fine nickname (List.mem_cons_of_mem _ mem) e

/-- The first alias is taken and the others after it, or it is refused and nothing is changed. -/
theorem addAliases_text (rest : List Json) :
    addAliases primary replace (.str nickname :: rest) r =
      match r.addAlias primary replace nickname with
      | .ok r' => addAliases primary replace rest r'
      | .error e => ⟨[], r, .error (.refused e)⟩ := by
  cases added : r.addAlias primary replace nickname <;>
    simp [addAliases, Action.bind, Action.change, Json.asText?, bind, Except.bind, added]

/-- What is no text is not refused, but no alias at all. -/
theorem addAliases_notText {first : Json} {rest : List Json} {what : Misfit}
    (notText : first.asText? "lower" = .error what) :
    addAliases primary replace (first :: rest) r = ⟨[], r, .error (.misfit what)⟩ := by
  simp [addAliases, Action.bind, Action.change, notText, bind, Except.bind]

/-- A refused list of aliases has a first alias that is refused. -/
theorem exists_stopsAfter
    (refused : (addAliases primary replace nicknames r).result = .error (.refused e)) :
    replace = false ∧ ∃ before, r.StopsAfter primary nicknames before e := by
  induction nicknames generalizing r with
  | nil => cases refused
  | cons first rest ih =>
    cases text : first.asText? "lower" with
    | error what =>
      rw [addAliases_notText text] at refused
      cases refused
    | ok nickname =>
      obtain rfl := eq_str_of_asText? text
      rw [addAliases_text] at refused
      split at refused
      · rename_i r' added
        obtain ⟨rfl, before, fine, here⟩ := ih refused
        obtain ⟨accepted, rfl⟩ := addAlias_eq_take.mp added
        simp only [refuses_take accepted] at fine here
        obtain ⟨stop, after, rfl, refusedStop⟩ := here
        exact ⟨rfl, nickname :: before, List.forall_mem_cons.mpr ⟨accepted, fine⟩, stop, after, rfl,
          refusedStop⟩
      · rename_i e' added
        obtain ⟨rfl, first⟩ := addAlias_eq_error.mp added
        obtain rfl : e' = e := RegisterError.refused.inj (Except.error.inj refused)
        exact ⟨rfl, [], fun _ mem => (List.not_mem_nil mem).elim, nickname, rest, rfl, first⟩

/-- The aliases before the first that is refused are taken. -/
theorem StopsAfter.addAliases (stops : r.StopsAfter primary nicknames before e) :
    addAliases primary false nicknames r =
      ⟨[], before.foldl (take primary) r, .error (.refused e)⟩ := by
  obtain ⟨fine, nickname, after, rfl, refused⟩ := stops
  induction before generalizing r with
  | nil =>
    rw [List.map_nil, List.nil_append, addAliases_text, addAlias_eq_error.mpr ⟨rfl, refused⟩]
    rfl
  | cons first rest ih =>
    have fineFirst := fine first List.mem_cons_self
    rw [List.map_cons, List.cons_append, addAliases_text, addAlias_eq_take.mpr ⟨fineFirst, rfl⟩]
    exact ih (fine_take fine) ((refuses_take fineFirst).mpr refused)

theorem stopsAfter_enlist :
    (r.enlist primary target).StopsAfter primary nicknames before e ↔
      r.StopsAfter primary nicknames before e := by
  constructor <;> rintro ⟨fine, refused⟩ <;>
    exact ⟨by simpa only [refuses_enlist] using fine, by simpa only [refuses_enlist] using refused⟩

/-- A name that is enlisted and taken away again leaves a registry as it was. -/
theorem Sound.unregister_enlist (h : r.Sound) (small : Text.lower primary = primary)
    (new : Fields.get? r.targets primary = none) : (r.enlist primary target).unregister primary = r := by
  have targets : Fields.erase (Fields.put r.targets primary target) primary = r.targets := by
    rw [Fields.erase_put, Fields.erase_of_new (Fields.get?_eq_none.mp new)]
  have aliases : (r.aliases.filter fun field => field.2 != primary) = r.aliases := by
    refine List.filter_eq_self.mpr fun field mem => bne_iff_ne.mpr ?_
    rintro rfl
    have registered := h.registered field.1 field.2 mem
    rw [new] at registered
    cases registered
  rw [Registry.unregister, small]
  exact congrArg₂ Registry.mk targets aliases

/-- An alias that was not refused goes with its name. -/
theorem unregister_take (small : Text.lower primary = primary)
    (fine : ∀ e, ¬ r.Refuses primary nickname e) :
    (take primary r nickname).unregister primary = r.unregister primary := by
  unfold take
  split
  · rfl
  rename_i other
  have own (owner : String) (isAlias : Fields.get? r.aliases (Text.lower nickname) = some owner) :
      (owner != primary) = false := by
    by_contra another
    rw [Bool.not_eq_false, bne_iff_ne] at another
    cases isTarget : Fields.get? r.targets (Text.lower nickname) with
    | none => exact fine _ (.taken other isTarget isAlias another)
    | some target => exact fine _ (.isTarget other (by rw [isTarget]; rfl))
  rw [Registry.unregister, Registry.unregister, small]
  exact congrArg _ (Fields.filter_put_of_dropped (q := (· != primary)) (by simp) own)

theorem unregister_foldl_take (small : Text.lower primary = primary)
    (fine : ∀ nickname ∈ before, ∀ e, ¬ r.Refuses primary nickname e) :
    (before.foldl (take primary) r).unregister primary = r.unregister primary := by
  induction before generalizing r with
  | nil => rfl
  | cons first rest ih =>
    exact (ih (fine_take fine)).trans (unregister_take small (fine first List.mem_cons_self))

/-- A registration is refused for what is no target, or for an alias of a name that was free. -/
theorem register_eq_refused {name aliases : Json} {target : Option Target}
    (refused : (register name target aliases replace r).result = .error (.refused e)) :
    target = none ∧ (register name target aliases replace r).state = r ∨
      ∃ text t nicknames before, name = .str text ∧ target = some t ∧ replace = false ∧
        Fields.get? r.targets (Text.lower text) = none ∧ aliases.itemsIfSet? = .ok nicknames ∧
        r.StopsAfter (Text.lower text) nicknames before e ∧
        (register name target aliases replace r).state =
          before.foldl (take (Text.lower text)) (r.enlist (Text.lower text) t) := by
  rcases register_cases name target aliases replace r with
    ⟨_, ended, rfl | ⟨what, rfl⟩⟩ | ⟨text, t, rfl, rfl, ⟨-, left⟩ | ⟨new, enlists⟩⟩
  · exact .inl ⟨rfl, by rw [ended]⟩
  · rw [ended] at refused
    cases refused
  · rw [left] at refused
    cases refused
  · rw [enlists] at refused ⊢
    cases items : aliases.itemsIfSet? with
    | error what =>
      rw [items] at refused
      cases refused
    | ok nicknames =>
      rw [items, mapError_ok, Action.ofExcept_bind] at refused
      rw [mapError_ok, Action.ofExcept_bind]
      obtain ⟨rfl, before, stops⟩ := exists_stopsAfter refused
      refine .inr ⟨text, t, nicknames, before, rfl, rfl, rfl, by simpa using new, rfl,
        stopsAfter_enlist.mp stops, ?_⟩
      rw [stops.addAliases]

/-- After any calls, a registration that is refused leaves the registry as it was just if it is given no target.
Else the name, which was free, and the aliases before the first that is refused have been taken in: the name is passed
over from then on, whatever is registered for it without leave to replace, and to take it away leads back. -/
theorem refused_registration_stays (calls : List Call) (name : Json) (target : Option Target)
    (aliases : Json) (replace : Bool) (e : RegistryError)
    (refused : (register name target aliases replace (empty.afterCalls calls)).result =
      .error (.refused e)) :
    let r := empty.afterCalls calls
    let left := (register name target aliases replace r).state
    (left = r ↔ target = none) ∧
      ∀ t, target = some t → ∃ text nicknames before, name = .str text ∧ replace = false ∧
        Text.lower text ∉ r.names ∧ aliases.itemsIfSet? = .ok nicknames ∧
        r.StopsAfter (Text.lower text) nicknames before e ∧
        left = before.foldl (take (Text.lower text)) (r.enlist (Text.lower text) t) ∧
        (∀ t' aliases', register name (some t') aliases' false left = ⟨[], left, .ok ()⟩) ∧
        left.unregister text = r := by
  intro r left
  have sound : r.Sound := sound_afterCalls .empty calls
  rcases register_eq_refused refused with
    ⟨rfl, same⟩ | ⟨text, t, nicknames, before, rfl, rfl, rfl, free, items, stops, state⟩
  · refine ⟨iff_of_true same rfl, fun t given => ?_⟩
    cases given
  have enlisted : (Fields.get? left.targets (Text.lower text)).isSome = true := by
    rw [show left = _ from state, targets_foldl_take, enlist, Fields.get?_put, if_pos rfl]
    rfl
  have small : Text.lower (Text.lower text) = Text.lower text := Text.lower_lower text
  refine ⟨iff_of_false (fun same => ?_) (Option.some_ne_none t), fun t' given => ?_⟩
  · rw [same, free] at enlisted
    cases enlisted
  obtain rfl := Option.some.inj given
  refine ⟨text, nicknames, before, rfl, rfl, ?_, items, stops, state, ?_, ?_⟩
  · rw [mem_names, free]
    exact Bool.false_ne_true
  · exact fun t' aliases' => register_known enlisted
  · have back : left.unregister (Text.lower text) = r := by
      rw [show left = _ from state,
        unregister_foldl_take small fun nickname mem e => refuses_enlist.not.mpr (stops.fine nickname mem e),
        sound.unregister_enlist small free]
    rwa [Registry.unregister, small] at back

/-- Of two aliases the first is in when the second is refused, and so is the name. -/
theorem refused_registration_stays_web :
    let r := empty.afterCalls [.register (.str "csharp") (some .csharp) .null false]
    let web := register (.str "web") (some .typescript) (.arr [.str "www", .str "csharp"]) false r
    web.result = .error (.refused (.aliasIsTarget "csharp")) ∧
      web.state = ⟨[("csharp", .csharp), ("web", .typescript)], [("www", "web")]⟩ ∧ web.state ≠ r ∧
      web.state.unregister "web" = r := by
  intro r web
  have refused : web.result = .error (.refused (.aliasIsTarget "csharp")) := by decide +kernel
  obtain ⟨changed, rest⟩ := refused_registration_stays _ _ _ _ _ _ refused
  obtain ⟨text, _, _, isText, -, -, -, -, -, -, back⟩ := rest .typescript rfl
  obtain rfl : "web" = text := Json.str.inj isText
  exact ⟨refused, by decide +kernel, changed.not.mpr (Option.some_ne_none _), back⟩

end Scaffold.Registry
