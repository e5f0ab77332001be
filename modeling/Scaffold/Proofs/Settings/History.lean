import Mathlib.Data.List.DropRight
import Scaffold.Proofs.Settings.Answers

/-!
What a resolver answers after a history of writes and questions. A write is not seen by what was answered
before it: an answer rests on the store as it was when its question first came up since the memory was last
cleared.
-/

namespace Scaffold.Settings

/-- What can happen to a resolver and to the store that it reads. -/
inductive Event where
  | set (scope : Scope) (value : String)
  | query (q : Query)
  | prewarm (qs : List Query)
  | clear

namespace Event

def queries : Event → List Query
  | .query q => [q]
  | .prewarm qs => qs
  | .set .. | .clear => []

/-- Is something asked that is remembered under a key? -/
def asks (key : CacheKey) (e : Event) : Bool := e.queries.any fun q => q.cacheKey = key

def isClear : Event → Bool
  | .clear => true
  | _ => false

def isWrite : Event → Bool
  | .set .. => true
  | _ => false

/-- The events since the memory was last cleared. -/
def sinceClear (history : List Event) : List Event := history.rtakeWhile fun e => !e.isClear

/-- The events up to the last clearing of the memory. -/
def uptoClear (history : List Event) : List Event := history.rdropWhile fun e => !e.isClear

/-- The events before a key was first asked for since the last clearing; all of them if it was not. -/
def beforeAsked (key : CacheKey) (history : List Event) : List Event :=
  uptoClear history ++ (sinceClear history).takeWhile fun e => !e.asks key

end Event

open Event

/-- The store after the writes among some events. -/
def Store.after (s : Store) : List Event → Store
  | [] => s
  | .set scope value :: rest => (s.set scope value).after rest
  | .query _ :: rest | .prewarm _ :: rest | .clear :: rest => s.after rest

namespace Resolver

/-- The resolver after an event. -/
def after (r : Resolver) : Event → Resolver
  | .set scope value => r.set scope value
  | .query q => (r.query q).2.2
  | .prewarm qs => (r.prewarm qs).2
  | .clear => r.clear

def afterAll (r : Resolver) (history : List Event) : Resolver := history.foldl after r

end Resolver

/-- The answer to a query without any memory: the entry for the item, or else the one for all items, or else
the default is read as a value of the type; what cannot be read gives way to the default as a value of the
type, or else to the default as it is. -/
def Query.direct (q : Query) (s : Store) : Json :=
  let stored := (s.lookup? q.scope).orElse fun _ => s.lookup? q.scope.forAll
  match q.type.read (stored.getD q.default.text) with
  | .ok value => value
  | .error _ => (q.type.read q.default.text).toOption.getD q.default

variable {q asked : Query} {store : Store} {history : List Event} {e : Event} {key : CacheKey}
  {r : Resolver}

theorem Query.evaluate_eq_direct (text : q.HasTextDefault) : (q.evaluate store).1 = q.direct store := by
  have fallback : q.fallback.1 = (q.type.read q.default.text).toOption.getD q.default := by
    obtain ⟨scope, default, type, key⟩ := q
    obtain ⟨text, rfl : default = .str text⟩ := text
    cases type with
    | text => rfl
    | _ =>
      simp only [Query.fallback, ValueType.holds, Json.text, Bool.false_eq_true, if_false]
      cases ValueType.read text _ <;> rfl
  simp only [evaluate, direct, Store.value?]
  cases q.type.read _ with
  | ok value => rfl
  | error e => exact fallback

namespace Event

theorem sinceClear_concat (history : List Event) (e : Event) :
    sinceClear (history ++ [e]) = if e.isClear then [] else sinceClear history ++ [e] := by
  rw [sinceClear, List.rtakeWhile_concat]
  cases e.isClear <;> rfl

theorem uptoClear_append_sinceClear (history : List Event) :
    uptoClear history ++ sinceClear history = history :=
  List.rdropWhile_append_rtakeWhile

/-- What was not asked for since the last clearing was not asked for before the history ends. -/
theorem beforeAsked_of_unasked (h : (sinceClear history).any (asks key) = false) :
    beforeAsked key history = history := by
  have all : ∀ e ∈ sinceClear history, (!e.asks key) = true := by simpa using h
  rw [beforeAsked, List.takeWhile_eq_self_iff.mpr all, uptoClear_append_sinceClear]

/-- What was first asked for before an event or in it was first asked for then, whatever comes later. -/
theorem beforeAsked_concat (other : e.isClear = false)
    (h : ((sinceClear history).any (asks key) || e.asks key) = true) :
    beforeAsked key (history ++ [e]) = beforeAsked key history := by
  have upto : uptoClear (history ++ [e]) = uptoClear history :=
    List.rdropWhile_concat_pos _ _ _ (by simp [other])
  have same : (sinceClear history ++ [e]).takeWhile (fun e => !e.asks key) =
      (sinceClear history).takeWhile fun e => !e.asks key := by
    rw [List.takeWhile_append]
    split
    · rename_i whole
      have unasked : (sinceClear history).any (asks key) = false := by
        simpa using (List.takeWhile_prefix _).eq_of_length whole
      rw [unasked, Bool.false_or] at h
      simp [h, (List.takeWhile_prefix _).eq_of_length whole]
    · rfl
  rw [beforeAsked, upto, sinceClear_concat, other, if_neg Bool.false_ne_true, same, beforeAsked]

end Event

theorem Store.after_append (s : Store) (events more : List Event) :
    s.after (events ++ more) = (s.after events).after more := by
  induction events generalizing s with
  | nil => rfl
  | cons e rest ih => cases e <;> exact ih _

theorem Store.after_of_unwritten (s : Store) {events : List Event}
    (h : ∀ e ∈ events, e.isWrite = false) : s.after events = s := by
  induction events with
  | nil => rfl
  | cons e rest ih =>
    obtain ⟨first, later⟩ := List.forall_mem_cons.mp h
    cases e with
    | set => cases first
    | _ => exact ih later

namespace Resolver

theorem store_after (r : Resolver) (e : Event) : (r.after e).store = r.store.after [e] := by
  cases e with
  | set | clear => rfl
  | query q => exact r.store_query q
  | prewarm qs => exact r.store_prewarm qs

/-- What is asked is remembered with the answer that it has anyway. -/
theorem get?_cache_query (text : q.HasTextDefault) (textAsked : asked.HasTextDefault) :
    Fields.get? (r.query asked).2.2.cache q.cacheKey =
      if asked.cacheKey = q.cacheKey then some (r.answer q) else Fields.get? r.cache q.cacheKey := by
  rw [answer_eq, query]
  by_cases same : asked.cacheKey = q.cacheKey
  · rw [if_pos same, same, Query.evaluate_congr text textAsked same.symm]
    cases known : Fields.get? r.cache q.cacheKey with
    | some value => exact known
    | none => simp [Fields.get?_put]
  · rw [if_neg same]
    cases Fields.get? r.cache asked.cacheKey with
    | some value => rfl
    | none => simp [Fields.get?_put, Ne.symm same]

theorem prewarm_cons (r : Resolver) (q : Query) (rest : List Query) :
    (r.prewarm (q :: rest)).2 = ((r.query q).2.2.prewarm rest).2 := rfl

theorem get?_cache_prewarm {qs : List Query} (text : q.HasTextDefault)
    (texts : ∀ asked ∈ qs, asked.HasTextDefault) :
    Fields.get? (r.prewarm qs).2.cache q.cacheKey =
      if qs.any (·.cacheKey = q.cacheKey) then some (r.answer q) else Fields.get? r.cache q.cacheKey := by
  induction qs generalizing r with
  | nil => rfl
  | cons asked rest ih =>
    obtain ⟨textAsked, textRest⟩ := List.forall_mem_cons.mp texts
    rw [prewarm_cons, ih textRest, answer_query text textAsked, get?_cache_query text textAsked, List.any_cons]
    by_cases same : asked.cacheKey = q.cacheKey <;> simp [same]

/-- The step of a history: what an event asks for is remembered, and all else stays as it was unless the
memory is cleared. -/
theorem get?_cache_after (text : q.HasTextDefault) (texts : ∀ asked ∈ e.queries, asked.HasTextDefault)
    (other : e.isClear = false) :
    Fields.get? (r.after e).cache q.cacheKey =
      if e.asks q.cacheKey then some (r.answer q) else Fields.get? r.cache q.cacheKey := by
  cases e with
  | set => rfl
  | clear => cases other
  | query asked =>
    have textAsked := texts asked List.mem_cons_self
    rw [after, get?_cache_query text textAsked]
    simp [asks, queries]
  | prewarm qs => exact get?_cache_prewarm text texts

/-- After a history the store holds what was written, and what was asked for since the last clearing is
remembered as it was when it was first asked for. -/
structure Remembers (store : Store) (history : List Event) (q : Query) (r : Resolver) : Prop where
  stored : r.store = store.after history
  remembered : Fields.get? r.cache q.cacheKey =
    if (sinceClear history).any (asks q.cacheKey) then
      some (q.direct (store.after (beforeAsked q.cacheKey history)))
    else none

theorem Remembers.answer (text : q.HasTextDefault) (h : Remembers store history q r) :
    r.answer q = q.direct (store.after (beforeAsked q.cacheKey history)) := by
  rw [answer_eq, h.remembered, h.stored, Query.evaluate_eq_direct text]
  cases asked : (sinceClear history).any (asks q.cacheKey) with
  | true => rfl
  | false => rw [beforeAsked_of_unasked asked]; rfl

theorem Remembers.after (text : q.HasTextDefault) (texts : ∀ asked ∈ e.queries, asked.HasTextDefault)
    (h : Remembers store history q r) : Remembers store (history ++ [e]) q (r.after e) where
  stored := by rw [store_after, h.stored, Store.after_append]
  remembered := by
    cases clear : e.isClear with
    | true =>
      cases e with
      | clear =>
        rw [sinceClear_concat]
        rfl
      | _ => cases clear
    | false =>
      rw [get?_cache_after text texts clear, h.answer text, h.remembered, sinceClear_concat, clear,
        if_neg Bool.false_ne_true, List.any_append, List.any_cons, List.any_nil, Bool.or_false]
      cases asked : (sinceClear history).any (asks q.cacheKey) || e.asks q.cacheKey with
      | true =>
        rw [beforeAsked_concat clear asked]
        split <;> simp_all
      | false =>
        rw [Bool.or_eq_false_iff] at asked
        simp [asked]

theorem remembers_afterAll (store : Store) (text : q.HasTextDefault)
    (texts : ∀ e ∈ history, ∀ asked ∈ e.queries, asked.HasTextDefault) :
    Remembers store history q ((ofStore store).afterAll history) := by
  induction history using List.reverseRecOn with
  | nil => exact ⟨rfl, rfl⟩
  | append_singleton earlier e ih =>
    rw [afterAll, List.foldl_append]
    have textsE := texts e (by simp)
    exact (ih fun e' mem => texts e' (by simp [mem])).after text textsE

/-- After any history of writes, queries and clearings a query is answered as it is without memory on the
store as it was when it was first asked for since the last clearing. So unless something was written since
then, it is answered as by a fresh resolver on the current store. -/
theorem query_answers_as_first_asked (store : Store)
    (texts : ∀ e ∈ history, ∀ asked ∈ e.queries, asked.HasTextDefault) (text : q.HasTextDefault) :
    let r := (ofStore store).afterAll history
    (r.query q).1 = q.direct (store.after (beforeAsked q.cacheKey history)) ∧
      ((∀ e ∈ (sinceClear history).dropWhile (fun e => !e.asks q.cacheKey), e.isWrite = false) →
        (r.query q).1 = ((ofStore (store.after history)).query q).1) := by
  intro r
  have answered : (r.query q).1 = q.direct (store.after (beforeAsked q.cacheKey history)) :=
    (remembers_afterAll store text texts).answer text
  refine ⟨answered, fun unwritten => ?_⟩
  have whole : history = beforeAsked q.cacheKey history ++
      (sinceClear history).dropWhile fun e => !e.asks q.cacheKey := by
    rw [beforeAsked, List.append_assoc, List.takeWhile_append_dropWhile, uptoClear_append_sinceClear]
  have current : store.after history = store.after (beforeAsked q.cacheKey history) := by
    conv_lhs => rw [whole, Store.after_append, Store.after_of_unwritten _ unwritten]
  have fresh : ((ofStore (store.after history)).query q).1 = q.direct (store.after history) :=
    Query.evaluate_eq_direct text
  rw [answered, fresh, current]

/-- A flag is asked for by its default, then switched off for all items, first by a word that is no flag: the
first answer stays until the memory is cleared. -/
theorem query_answers_as_first_asked_off :
    let q : Query :=
      { scope := ⟨"WebApi", "Model", "Order", .text "Generate"⟩, default := .str "True", type := .flag }
    let asked := [.set q.scope.forAll "perhaps", .prewarm [q], .set q.scope.forAll "Off"]
    (((ofStore .empty).afterAll asked).query q).1 = .bool true ∧
      (((ofStore .empty).afterAll (asked ++ [.clear])).query q).1 = .bool false ∧
      (((ofStore .empty).afterAll (asked ++ [.clear])).query q).1 =
        ((ofStore (Store.empty.after asked)).query q).1 := by
  intro q asked
  have text : q.HasTextDefault := ⟨"True", rfl⟩
  have texts : ∀ e ∈ asked ++ [.clear], ∀ asked ∈ e.queries, asked.HasTextDefault := by
    simp [asked, queries, text]
  have words : readFlag "perhaps" = .error (.notFlag "perhaps") ∧ readFlag "Off" = .ok false ∧
      readFlag "True" = .ok true := by decide +kernel
  obtain ⟨before, _⟩ := query_answers_as_first_asked .empty
    (fun e mem => texts e (List.mem_append_left _ mem)) text
  obtain ⟨cleared, fresh⟩ := query_answers_as_first_asked .empty texts text
  have first : beforeAsked q.cacheKey asked = [.set q.scope.forAll "perhaps"] := rfl
  have later : beforeAsked q.cacheKey (asked ++ [.clear]) = asked ++ [.clear] := rfl
  have direct (s : Store) (word : String) (stored : s.value? q.scope = some word) :
      q.direct s = .bool ((readFlag word).toOption.getD true) := by
    have raw : (s.lookup? q.scope).orElse (fun _ => s.lookup? q.scope.forAll) = some word := stored
    rw [Query.direct, raw]
    simp only [q, ValueType.read, Option.getD_some, Json.text, words]
    cases readFlag word <;> rfl
  refine ⟨before.trans ?_, cleared.trans ?_, fresh (by rintro _ ⟨⟩)⟩
  · rw [first, direct _ "perhaps" (by decide +kernel), words.1]
    rfl
  · rw [later, direct _ "Off" (by decide +kernel), words.2.1]
    rfl

end Resolver

end Scaffold.Settings
