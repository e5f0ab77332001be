import Scaffold.Proofs.Action
import Scaffold.Proofs.Json.Fields
import Scaffold.Proofs.Outcome
import Scaffold.Proofs.Text.Case
import Scaffold.Registry

/-!
Registries after any calls. Every alias stands for a primary name that is registered, whatever calls went
before, those that were refused half way among them; so no look-up dangles.
-/

namespace Scaffold.Registry

/-- A call that changes a registry. -/
inductive Call where
  | register (name : Json) (target : Option Target) (aliases : Json) (replace : Bool)
  | unregister (name : String)

def Call.run : Call → Action Registry RegisterError Unit
  | .register name target aliases replace => Registry.register name target aliases replace
  | .unregister name => Action.change fun r => .ok (r.unregister name)

/-- The registry after some calls; a call that is refused leaves what it has changed before. -/
def afterCalls (r : Registry) (calls : List Call) : Registry :=
  calls.foldl (fun r call => (call.run r).state) r

/-- The registry with a target under a primary name. -/
def enlist (r : Registry) (primary : String) (target : Target) : Registry :=
  { r with targets := Fields.put r.targets primary target }

variable {r r' : Registry} {primary name nickname : String} {target : Target} {aliases : Json}
  {replace : Bool}

theorem eq_str_of_asText? {v : Json} {ability text : String} (isText : v.asText? ability = .ok text) :
    v = .str text := by
  cases v <;> simp_all [Json.asText?]

/-- What is no target is refused. -/
theorem register_none (name aliases : Json) (replace : Bool) (r : Registry) :
    register name none aliases replace r = ⟨[], r, .error (.refused .notGenerator)⟩ := rfl

/-- What is no text names nothing. -/
theorem register_notText {name : Json} {what : Misfit} (notText : name.asText? "lower" = .error what) :
    register name (some target) aliases replace r = ⟨[], r, .error (.misfit what)⟩ := by
  simp only [register, notText]
  rfl

/-- A name that is taken is left alone. -/
theorem register_known (known : (Fields.get? r.targets (Text.lower name)).isSome = true) :
    register (.str name) (some target) aliases false r = ⟨[], r, .ok ()⟩ := by
  simp only [register, Action.bind_eq, Action.pure_eq, Json.asText?, mapError_ok, Action.ofExcept_bind]
  change Action.bind _ _ r = _
  simp [Action.bind, known, Action.ok]

/-- A name that is free, or is to be replaced, is enlisted before its aliases are looked at. -/
theorem register_new (new : Fields.get? r.targets (Text.lower name) = none ∨ replace = true) :
    register (.str name) (some target) aliases replace r =
      (Action.ofExcept (aliases.itemsIfSet?.mapError .misfit)).bind
        (addAliases (Text.lower name) replace) (r.enlist (Text.lower name) target) := by
  have goesOn : ((Fields.get? r.targets (Text.lower name)).isSome && !replace) = false := by
    rcases new with free | rfl
    · simp [free]
    · simp
  simp only [register, Action.bind_eq, Action.pure_eq, Json.asText?, mapError_ok, Action.ofExcept_bind]
  change Action.bind _ _ r = _
  simp [Action.bind, goesOn, Action.change, enlist]

/-- What a registration does: it ends at once, leaves a name alone that is taken, or enlists the name before it looks
at its aliases. -/
theorem register_cases (name : Json) (target : Option Target) (aliases : Json) (replace : Bool)
    (r : Registry) :
    (∃ e, register name target aliases replace r = ⟨[], r, .error e⟩ ∧
        (target = none ∨ ∃ what, e = .misfit what)) ∨
      ∃ text t, name = .str text ∧ target = some t ∧
        (((Fields.get? r.targets (Text.lower text)).isSome = true ∧ replace = false) ∧
            register name target aliases replace r = ⟨[], r, .ok ()⟩ ∨
          (Fields.get? r.targets (Text.lower text) = none ∨ replace = true) ∧
            register name target aliases replace r =
              (Action.ofExcept (aliases.itemsIfSet?.mapError .misfit)).bind
                (addAliases (Text.lower text) replace) (r.enlist (Text.lower text) t)) := by
  cases target with
  | none => exact .inl ⟨_, register_none name aliases replace r, .inl rfl⟩
  | some t =>
    cases name with
    | str text =>
      refine .inr ⟨text, t, rfl, rfl, ?_⟩
      by_cases new : Fields.get? r.targets (Text.lower text) = none ∨ replace = true
      · exact .inr ⟨new, register_new new⟩
      · rw [not_or, ← ne_eq, ← Option.isSome_iff_ne_none, Bool.not_eq_true] at new
        obtain ⟨known, rfl⟩ := new
        exact .inl ⟨⟨known, rfl⟩, register_known known⟩
    | _ => exact .inl ⟨_, register_notText rfl, .inr ⟨_, rfl⟩⟩

/-- An alias is taken in: not for the name itself, and without leave to replace only if it is no primary name and
stands for no other one. -/
theorem addAlias_eq_ok : r.addAlias primary replace nickname = .ok r' ↔
    Text.lower nickname = primary ∧ r' = r ∨
      Text.lower nickname ≠ primary ∧
        (replace = true ∨ Fields.get? r.targets (Text.lower nickname) = none ∧
          ∀ owner, Fields.get? r.aliases (Text.lower nickname) = some owner → owner = primary) ∧
        r' = { r with aliases := Fields.put r.aliases (Text.lower nickname) primary } := by
  have inj (x : Registry) : Except.ok (ε := RegistryError) x = .ok r' ↔ r' = x :=
    ⟨fun same => (Except.ok.inj same).symm, fun same => same ▸ rfl⟩
  simp only [addAlias]
  by_cases itself : Text.lower nickname = primary
  · simp [itself, inj]
  cases replace with
  | true => simp [itself, inj]
  | false =>
    cases isTarget : Fields.get? r.targets (Text.lower nickname) with
    | some target => simp [itself]
    | none =>
      cases isAlias : Fields.get? r.aliases (Text.lower nickname) with
      | none => simp [itself, inj]
      | some owner => by_cases own : owner = primary <;> simp [itself, own, inj]

/-- Names and aliases are in small letters, each alias is there once, and it stands for another name, which is
registered. -/
structure Sound (r : Registry) : Prop where
  smallTargets : ∀ name ∈ r.targets.map (·.1), Text.lower name = name
  smallAliases : ∀ nickname ∈ r.aliases.map (·.1), Text.lower nickname = nickname
  distinct : (r.aliases.map (·.1)).Nodup
  registered : ∀ nickname owner, (nickname, owner) ∈ r.aliases →
    (Fields.get? r.targets owner).isSome = true
  other : ∀ nickname owner, (nickname, owner) ∈ r.aliases → nickname ≠ owner

namespace Sound

theorem empty : Registry.empty.Sound where
  smallTargets := by simp [Registry.empty]
  smallAliases := by simp [Registry.empty]
  distinct := List.nodup_nil
  registered := by simp [Registry.empty]
  other := by simp [Registry.empty]

theorem enlist (h : r.Sound) (small : Text.lower primary = primary) (target : Target) :
    (r.enlist primary target).Sound where
  smallTargets := by
    intro name mem
    rcases Fields.mem_keys_put.mp mem with known | rfl
    · exact h.smallTargets name known
    · exact small
  smallAliases := h.smallAliases
  distinct := h.distinct
  registered nickname owner mem := by
    rw [Registry.enlist, Fields.get?_put]
    split
    · rfl
    · exact h.registered nickname owner mem
  other := h.other

theorem addAlias (h : r.Sound) (there : (Fields.get? r.targets primary).isSome = true)
    (added : r.addAlias primary replace nickname = .ok r') : r'.Sound := by
  rcases addAlias_eq_ok.mp added with ⟨_, rfl⟩ | ⟨notItself, _, rfl⟩
  · exact h
  refine ⟨h.smallTargets, fun name mem => ?_, Fields.nodup_put h.distinct _ _, ?_, ?_⟩
  · rcases Fields.mem_keys_put.mp mem with known | rfl
    · exact h.smallAliases name known
    · exact Text.lower_lower nickname
  · intro name owner mem
    rcases Fields.mem_put mem with known | new
    · exact h.registered name owner known
    · rw [(Prod.mk.inj new).2]
      exact there
  · intro name owner mem
    rcases Fields.mem_put mem with known | new
    · exact h.other name owner known
    · rw [(Prod.mk.inj new).1, (Prod.mk.inj new).2]
      exact notItself

theorem unregister (h : r.Sound) (name : String) : (r.unregister name).Sound where
  smallTargets := by
    intro key mem
    obtain ⟨field, kept, rfl⟩ := List.mem_map.mp mem
    exact h.smallTargets _ (List.mem_map_of_mem (List.mem_of_mem_filter kept))
  smallAliases := by
    intro key mem
    obtain ⟨field, kept, rfl⟩ := List.mem_map.mp mem
    exact h.smallAliases _ (List.mem_map_of_mem (List.mem_of_mem_filter kept))
  distinct := h.distinct.sublist (List.filter_sublist.map _)
  registered nickname owner mem := by
    obtain ⟨mem, kept⟩ := List.mem_filter.mp mem
    rw [Registry.unregister, Fields.get?_erase, if_neg (by simpa using kept)]
    exact h.registered nickname owner mem
  other nickname owner mem := h.other nickname owner (List.mem_of_mem_filter mem)

end Sound

/-- Aliases are taken in one by one, and what a refused one leaves is sound as well. -/
theorem preserves_addAliases (primary : String) (replace : Bool) (nicknames : List Json) :
    (addAliases primary replace nicknames).Preserves fun r =>
      r.Sound ∧ (Fields.get? r.targets primary).isSome = true := by
  induction nicknames with
  | nil => exact .ok ()
  | cons nickname rest ih =>
    refine .bind (.change fun r r' added h => ?_) fun _ => ih
    obtain ⟨text, _, added⟩ := exists_of_bind_eq_ok added
    rw [mapError_eq_ok] at added
    refine ⟨h.1.addAlias h.2 added, ?_⟩
    rcases addAlias_eq_ok.mp added with ⟨_, rfl⟩ | ⟨_, _, rfl⟩
    · exact h.2
    · exact h.2

/-- Whatever a call ends with, it leaves a sound registry. -/
theorem Call.preserves_sound (call : Call) : call.run.Preserves Sound := by
  intro r h
  cases call with
  | unregister name => exact h.unregister name
  | register name target aliases replace =>
    change (Registry.register name target aliases replace r).state.Sound
    rcases register_cases name target aliases replace r with
      ⟨e, refused, -⟩ | ⟨text, t, -, -, ⟨-, left⟩ | ⟨-, enlists⟩⟩
    · exact refused ▸ h
    · exact left ▸ h
    · rw [enlists]
      have loop := Action.Preserves.bind (.ofExcept (aliases.itemsIfSet?.mapError RegisterError.misfit))
        fun nicknames => preserves_addAliases (Text.lower text) replace nicknames
      refine (loop _ ⟨h.enlist (Text.lower_lower text) t, ?_⟩).1
      rw [Registry.enlist, Fields.get?_put, if_pos rfl]
      rfl

theorem sound_afterCalls (h : r.Sound) (calls : List Call) : (r.afterCalls calls).Sound := by
  induction calls generalizing r with
  | nil => exact h
  | cons call rest ih => exact ih (call.preserves_sound r h)

theorem mem_keys : (Fields.get? r.targets name).isSome = true ↔ name ∈ r.targets.map (·.1) := by
  rw [Option.isSome_iff_ne_none, ne_eq, Fields.get?_eq_none, not_not]

theorem mem_names : name ∈ r.names ↔ (Fields.get? r.targets name).isSome = true := by
  rw [names, sorted, List.mem_mergeSort, mem_keys]

/-- Exactly the supported names are resolved. -/
theorem isSupported_iff_resolve {r : Registry} {name : String} :
    r.isSupported name = true ↔ ∃ primary, r.resolve name = .ok primary := by
  simp only [isSupported, resolve]
  cases Fields.get? r.targets (Text.lower name) <;>
    cases Fields.get? r.aliases (Text.lower name) <;> simp

/-- What a name is resolved to is registered. -/
theorem Sound.isSome_of_resolve (h : r.Sound) (resolved : r.resolve name = .ok primary) :
    (Fields.get? r.targets primary).isSome = true := by
  simp only [resolve] at resolved
  cases isTarget : Fields.get? r.targets (Text.lower name) with
  | some target =>
    rw [isTarget] at resolved
    rw [← Except.ok.inj resolved, isTarget]
    rfl
  | none =>
    cases isAlias : Fields.get? r.aliases (Text.lower name) with
    | none => simp [isTarget, isAlias] at resolved
    | some owner =>
      simp only [isTarget, isAlias, Option.isSome_none, Bool.false_eq_true, if_false] at resolved
      exact Except.ok.inj resolved ▸ h.registered _ owner (Fields.mem_of_get? isAlias)

/-- After any calls, refused ones among them, exactly the supported names are resolved, each to a primary name
that is listed and has a target. -/
theorem lookups_never_dangle (calls : List Call) (name : String) :
    let r := empty.afterCalls calls
    (r.isSupported name = true ↔ ∃ primary, r.resolve name = .ok primary) ∧
      ∀ primary, r.resolve name = .ok primary →
        primary ∈ r.names ∧
          ∃ target, Fields.get? r.targets primary = some target ∧ r.target name = .ok target := by
  intro r
  have sound : r.Sound := sound_afterCalls .empty calls
  have leads (primary : String) (resolved : r.resolve name = .ok primary) :
      (Fields.get? r.targets primary).isSome = true := sound.isSome_of_resolve resolved
  refine ⟨isSupported_iff_resolve, fun primary resolved => ⟨mem_names.mpr (leads primary resolved), ?_⟩⟩
  obtain ⟨target, there⟩ := Option.isSome_iff_exists.mp (leads primary resolved)
  exact ⟨target, there, by simp [Registry.target, resolved, there]⟩

/-- Of the aliases of a registration that is refused half way the earlier one stands for its target, until that
is taken away. -/
theorem lookups_never_dangle_refused :
    let calls := [Call.register (.str "A") (some .csharp) (.arr [.str "x"]) false,
      .register (.str "B") (some .typescript) (.arr [.str "y", .str "x"]) false, .unregister "a"]
    ∃ primary, (empty.afterCalls calls).resolve "Y" = .ok primary ∧
      primary ∈ (empty.afterCalls calls).names ∧
        ∃ target, Fields.get? (empty.afterCalls calls).targets primary = some target ∧
          (empty.afterCalls calls).target "Y" = .ok target := by
  intro calls
  have supported : (empty.afterCalls calls).isSupported "Y" = true := by decide +kernel
  obtain ⟨primary, resolved⟩ := (lookups_never_dangle calls "Y").1.mp supported
  exact ⟨primary, resolved, (lookups_never_dangle calls "Y").2 primary resolved⟩

end Scaffold.Registry
