import Scaffold.Generation.Generator
import Scaffold.Proofs.Action
import Scaffold.Proofs.Settings.Switches

/-!
What a build is told by the settings. As long as the resolver answers as the store does, each text and each switch
that a step asks for is what the store has for it, and the resolver goes on to answer so.
-/

namespace Scaffold

namespace Settings

open Resolver (SameAnswers)

variable {store : Store} {r : Resolver} {q : Query} {b : Bool}

/-- The resolver answers as one does that reads the store and was asked nothing yet. -/
def Resolver.AgreesWith (store : Store) (r : Resolver) : Prop := (Resolver.ofStore store).SameAnswers r

namespace Resolver.AgreesWith

theorem ofStore (store : Store) : (Resolver.ofStore store).AgreesWith store := SameAnswers.refl _

theorem query (h : r.AgreesWith store) (text : q.HasTextDefault) : (r.query q).2.2.AgreesWith store :=
  h.trans (SameAnswers.query text)

theorem prewarm (h : r.AgreesWith store) {qs : List Query} (texts : ∀ q ∈ qs, q.HasTextDefault) :
    (r.prewarm qs).2.AgreesWith store := h.trans (SameAnswers.prewarm texts)

theorem answer (h : r.AgreesWith store) (text : q.HasTextDefault) : r.answer q = (q.evaluate store).1 := by
  have fresh : (Resolver.ofStore store).answer q = (q.evaluate store).1 := by
    rw [answer_eq]
    rfl
  exact (h q text).symm.trans fresh

end Resolver.AgreesWith

end Settings

open Settings
open Settings.Resolver (AgreesWith)

variable {store : Store}

/-- The settings of the workshop answer as the store does. -/
def Workshop.Reads (store : Store) (w : Workshop) : Prop := w.settings.AgreesWith store

namespace Building

/-- A question has one answer as long as the resolver is so that it gives it, and stays so. -/
theorem ask_always {I : Resolver → Prop} {q : Query} {value : Json}
    (answer : ∀ {r : Resolver}, I r → r.answer q = value) (keep : ∀ {r : Resolver}, I r → I (r.query q).2.2) :
    (ask q).Always (I ·.settings) value := by
  intro w holds
  have answered : (w.settings.query q).1 = value := answer holds
  unfold ask
  exact ⟨congrArg Except.ok answered, keep holds⟩

/-- A question is answered from the store, and the next one will be, too. -/
theorem ask_reads {q : Query} (text : q.HasTextDefault) :
    (ask q).Always (Workshop.Reads store) (q.evaluate store).1 :=
  ask_always (I := AgreesWith store) (·.answer text) (·.query text)

/-- A text is that for the scope, or else the default. -/
theorem askText_always (scope : Scope) (default : String) :
    (askText scope default).Always (Workshop.Reads store) ((store.value? scope).getD default) := by
  let q : Query := { scope, default := .str default, type := .text }
  have asked : (ask q).Always (Workshop.Reads store) (q.evaluate store).1 := ask_reads ⟨default, rfl⟩
  exact .bind asked (.ok _)

/-- A switch is as the text for its scope says; without one that can be read it is as by default. -/
theorem askSwitch_always (scope : Scope) (b : Bool) :
    (askFlag scope (Json.bool b).text).Always (Workshop.Reads store)
      ((store.textFlag? scope).getD b) := by
  let q : Query := { scope, default := .str (Json.bool b).text, type := .flag }
  have isSwitch : q.IsSwitch b := ⟨rfl, rfl⟩
  have asked : (ask q).Always (Workshop.Reads store) (q.evaluate store).1 := ask_reads ⟨_, rfl⟩
  rw [isSwitch.evaluate] at asked
  exact .bind asked (.ok _)

end Building

end Scaffold
