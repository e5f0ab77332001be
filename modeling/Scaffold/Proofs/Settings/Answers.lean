import Scaffold.Settings.Resolver

/-!
What a resolver answers. It remembers its answers, but it never answers otherwise for that: of the
queries whose defaults are texts, those with one key in the memory have one answer.
-/

namespace Scaffold.Settings

variable {q asked : Query} {store : Store} {r r' r'' : Resolver}

/-- A query whose default is a text. -/
def Query.HasTextDefault (q : Query) : Prop := ∃ text, q.default = .str text

/-- With texts as defaults, nothing but the key of the memory counts for an answer. -/
theorem Query.evaluate_congr (text : q.HasTextDefault) (textAsked : asked.HasTextDefault)
    (same : q.cacheKey = asked.cacheKey) : (q.evaluate store).1 = (asked.evaluate store).1 := by
  obtain ⟨scope, default, type, written⟩ := q
  obtain ⟨scope', default', type', written'⟩ := asked
  obtain ⟨text, rfl : default = .str text⟩ := text
  obtain ⟨text', rfl : default' = .str text'⟩ := textAsked
  simp only [cacheKey, Json.text, CacheKey.mk.injEq] at same
  obtain ⟨rfl, rfl, rfl⟩ := same
  simp only [evaluate, fallback]
  cases type.read ((store.value? scope).getD (Json.str text).text) <;> rfl

/-- What cannot be read is in the log, and is not a diagnostic. -/
theorem Query.diagnostics_evaluate (q : Query) (store : Store) :
    Note.diagnostics (q.evaluate store).2 = [] := by
  have fallback : Note.diagnostics q.fallback.2 = [] := by
    unfold Query.fallback
    split
    · rfl
    · split <;> rfl
  unfold evaluate
  split
  · rfl
  · exact fallback

namespace Resolver

theorem diagnostics_query (r : Resolver) (q : Query) : Note.diagnostics (r.query q).2.1 = [] := by
  unfold query
  split
  · rfl
  · exact q.diagnostics_evaluate r.store

theorem diagnostics_prewarm (r : Resolver) (qs : List Query) : Note.diagnostics (r.prewarm qs).1 = [] := by
  induction qs generalizing r with
  | nil => rfl
  | cons q rest ih =>
    rw [prewarm, Note.diagnostics_append, r.diagnostics_query, ih]
    rfl

theorem store_query (r : Resolver) (q : Query) : (r.query q).2.2.store = r.store := by
  unfold query
  split <;> rfl

theorem store_prewarm (r : Resolver) (qs : List Query) : (r.prewarm qs).2.store = r.store := by
  induction qs generalizing r with
  | nil => rfl
  | cons q rest ih => exact (ih _).trans (r.store_query q)

/-- The answer to a query. -/
def answer (r : Resolver) (q : Query) : Json := (r.query q).1

theorem answer_eq (r : Resolver) (q : Query) :
    r.answer q = (Fields.get? r.cache q.cacheKey).getD (q.evaluate r.store).1 := by
  unfold answer query
  cases Fields.get? r.cache q.cacheKey <;> rfl

/-- A query that was asked is answered as before, and so is every other one. -/
theorem answer_query (text : q.HasTextDefault) (textAsked : asked.HasTextDefault) :
    (r.query asked).2.2.answer q = r.answer q := by
  rw [answer_eq, answer_eq, query]
  cases known : Fields.get? r.cache asked.cacheKey with
  | some value => rfl
  | none =>
    simp only [Fields.get?_put]
    split
    · rename_i same
      rw [same, known]
      exact (Query.evaluate_congr text textAsked same).symm
    · rfl

/-- Two resolvers answer alike every query whose default is a text. -/
def SameAnswers (r r' : Resolver) : Prop := ∀ q : Query, q.HasTextDefault → r.answer q = r'.answer q

namespace SameAnswers

theorem refl (r : Resolver) : r.SameAnswers r := fun _ _ => rfl

theorem symm (h : r.SameAnswers r') : r'.SameAnswers r := fun q text => (h q text).symm

theorem trans (h : r.SameAnswers r') (h' : r'.SameAnswers r'') : r.SameAnswers r'' :=
  fun q text => (h q text).trans (h' q text)

theorem query (text : asked.HasTextDefault) : r.SameAnswers (r.query asked).2.2 :=
  fun _ textOther => (answer_query textOther text).symm

theorem prewarm {qs : List Query} (text : ∀ q ∈ qs, q.HasTextDefault) :
    r.SameAnswers (r.prewarm qs).2 := by
  induction qs generalizing r with
  | nil => exact refl r
  | cons q rest ih =>
    exact (query (text q List.mem_cons_self)).trans
      (ih fun q' mem => text q' (List.mem_cons_of_mem _ mem))

end SameAnswers

end Resolver

end Scaffold.Settings
