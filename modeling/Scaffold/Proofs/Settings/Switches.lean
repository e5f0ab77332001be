import Scaffold.Proofs.Json.Fields
import Scaffold.Proofs.Outcome
import Scaffold.Proofs.Settings.Answers

/-!
Switches: flags that are on or off by default. Asked for an item with the switch for all items as its default, a
switch is as the first entry says that reads as a flag; an entry that does not is passed over like one that is
missing. What was answered before does not count, since it was answered alike.
-/

namespace Scaffold.Settings

/-- The flag that an entry of exactly this scope reads as. -/
def Store.entryFlag? (s : Store) (scope : Scope) : Option Bool :=
  (s.lookup? scope).bind fun text => (readFlag text).toOption

/-- The first flag among the entries for a scope: that for the item, then that for all items. -/
def Store.flag? (s : Store) (scope : Scope) : Option Bool :=
  [scope, scope.forAll].findSome? s.entryFlag?

/-- The flag that the text for a scope reads as. If the item has an entry, no other text counts. -/
def Store.textFlag? (s : Store) (scope : Scope) : Option Bool :=
  (s.value? scope).bind fun text => (readFlag text).toOption

variable {store : Store} {r : Resolver} {q : Query} {scope : Scope} {b : Bool}

/-- Of two texts the first one counts, and failing to read it the answer of the second: that is the first of the two
that can be read. -/
theorem getD_of_first (own all : Option String) (read : String → Option Bool) (b : Bool) :
    ((own.orElse fun _ => all).bind read).getD ((all.bind read).getD b) =
      ((own.bind read).or (all.bind read)).getD b := by
  cases own with
  | none => cases all with
    | none => rfl
    | some text => cases h : read text <;> simp [h]
  | some text => cases h : read text <;> simp [h]

/-- Asked with the answer for all items as default, the text for the item decides as the first entry does that
reads as a flag. -/
theorem Store.textFlag?_getD (s : Store) (scope : Scope) (b : Bool) :
    (s.textFlag? scope).getD ((s.textFlag? scope.forAll).getD b) = (s.flag? scope).getD b := by
  have first : s.flag? scope = (s.entryFlag? scope).or (s.entryFlag? scope.forAll) := by
    rw [flag?, List.findSome?_cons, List.findSome?_cons, List.findSome?_nil]
    cases s.entryFlag? scope <;> cases s.entryFlag? scope.forAll <;> rfl
  have forAll : s.textFlag? scope.forAll = s.entryFlag? scope.forAll := by
    have same : scope.forAll.forAll = scope.forAll := rfl
    rw [textFlag?, value?, entryFlag?, same]
    cases s.lookup? scope.forAll <;> rfl
  rw [first, forAll]
  exact getD_of_first _ _ _ b

/-- An entry for the type that cannot be read gives way to the one for all types. -/
example :
    let scope (identity : String) : Scope := ⟨"Models", "Entity", identity, .text "Generate"⟩
    let store : Store := ⟨[(scope "Shop.Order", "perhaps"), (scope allItems, " Off ")]⟩
    store.flag? (scope "Shop.Order") = some false ∧ store.textFlag? (scope "Shop.Order") = none := by
  decide +kernel

/-- A query for a flag that is `b` by default, whatever else is said in it. -/
structure Query.IsSwitch (q : Query) (b : Bool) : Prop where
  type : q.type = .flag
  default : q.default.text = (Json.bool b).text

theorem readFlag_text (b : Bool) : readFlag (Json.bool b).text = .ok b := by
  apply eq_ok_of_toOption
  cases b <;> decide +kernel

theorem read_flag_text (b : Bool) : ValueType.read (Json.bool b).text .flag = .ok (.bool b) := by
  rw [ValueType.read, readFlag_text]
  rfl

theorem text_bool_inj {b b' : Bool} (h : (Json.bool b).text = (Json.bool b').text) : b = b' := by
  have read := (readFlag_text b).symm.trans ((congrArg readFlag h).trans (readFlag_text b'))
  exact Except.ok.inj read

theorem Query.IsSwitch.fallback (h : q.IsSwitch b) : q.fallback.1 = .bool b := by
  rw [Query.fallback, h.type, h.default, read_flag_text]
  split
  · rename_i isFlag
    have same := h.default
    cases given : q.default with
    | bool b' =>
      rw [given] at same
      rw [text_bool_inj same]
    | _ =>
      rw [given] at isFlag
      cases isFlag
  · rfl

/-- What a switch is without any memory. -/
theorem Query.IsSwitch.evaluate (h : q.IsSwitch b) (store : Store) :
    (q.evaluate store).1 = .bool ((store.textFlag? q.scope).getD b) := by
  rw [Query.evaluate, Store.textFlag?, h.type, h.default]
  cases store.value? q.scope with
  | none =>
    rw [Option.getD_none, read_flag_text]
    rfl
  | some text =>
    rw [Option.getD_some, Option.bind_some, ValueType.read]
    cases readFlag text with
    | ok value => rfl
    | error e => exact h.fallback

namespace Resolver

/-- The resolver reads the store, and what it remembers of switches is what they are without memory. -/
structure KnowsSwitches (store : Store) (r : Resolver) : Prop where
  stored : r.store = store
  remembered : ∀ scope b value, Fields.get? r.cache ⟨scope, (Json.bool b).text, .flag⟩ = some value →
    value = .bool ((store.textFlag? scope).getD b)

namespace KnowsSwitches

theorem ofStore (store : Store) : (Resolver.ofStore store).KnowsSwitches store where
  stored := rfl
  remembered := by rintro _ _ _ ⟨⟩

theorem answer (h : r.KnowsSwitches store) (isSwitch : q.IsSwitch b) :
    r.answer q = .bool ((store.textFlag? q.scope).getD b) := by
  have key : q.cacheKey = ⟨q.scope, (Json.bool b).text, .flag⟩ := by
    rw [Query.cacheKey, isSwitch.type, isSwitch.default]
  rw [answer_eq, key, h.stored, isSwitch.evaluate]
  cases known : Fields.get? r.cache ⟨q.scope, (Json.bool b).text, .flag⟩ with
  | none => rfl
  | some value => exact h.remembered q.scope b value known

/-- Whatever is asked, no switch is remembered otherwise. -/
theorem query (h : r.KnowsSwitches store) (q : Query) : (r.query q).2.2.KnowsSwitches store where
  stored := (r.store_query q).trans h.stored
  remembered := by
    intro scope b value
    unfold Resolver.query
    cases known : Fields.get? r.cache q.cacheKey with
    | some _ => exact h.remembered scope b value
    | none =>
      simp only [Fields.get?_put]
      split
      · rename_i same
        obtain ⟨rfl, default, type⟩ := CacheKey.mk.inj same
        have isSwitch : q.IsSwitch b := ⟨type.symm, default.symm⟩
        rw [h.stored, isSwitch.evaluate]
        exact fun found => (Option.some.inj found).symm
      · exact h.remembered scope b value

theorem prewarm (h : r.KnowsSwitches store) (qs : List Query) : (r.prewarm qs).2.KnowsSwitches store := by
  induction qs generalizing r with
  | nil => exact h
  | cons q rest ih => exact ih (h.query q)

end KnowsSwitches

end Resolver

end Scaffold.Settings
