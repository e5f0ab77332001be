import Scaffold.Generation.Plan
import Scaffold.Proofs.Generation.Asked
import Scaffold.Template.Placeholder

/-!
What is planned. An item is planned for a type if its switch is on: the first entry that reads as a flag, be it for
the type or for all types, and on without any. The two queries that this comes from, one inside the other, agree
with it whatever was answered ahead.
-/

namespace Scaffold

open Scaffold.Graph Settings
open Settings.Resolver (KnowsSwitches)

variable {g : Generator} {graph : TypeGraph} {store : Store} {item : ItemKind} {d : TypeDescriptor}

/-- A switch is as the text for its scope says, and the memory stays true. -/
theorem Building.askFlag_always (scope : Scope) (b : Bool) :
    (askFlag scope (Json.bool b).text).Always (KnowsSwitches store ·.settings)
      ((store.textFlag? scope).getD b) := by
  let q : Query := { scope, default := .str (Json.bool b).text, type := .flag }
  have asked : (ask q).Always (KnowsSwitches store ·.settings) (.bool ((store.textFlag? scope).getD b)) :=
    ask_always (I := KnowsSwitches store) (·.answer ⟨rfl, rfl⟩) (·.query q)
  exact .bind asked (.ok _)

namespace Generator

/-- The switch of an item for a type: the first entry that reads as a flag, and on without any. -/
def gate (g : Generator) (store : Store) (item : ItemKind) (d : TypeDescriptor) : Bool :=
  (store.flag? (g.scope item d.qualifiedName generateKey)).getD true

/-- The switch for one type is asked for with the switch for all types as its default. -/
theorem isOn_always : (g.isOn item d).Always (KnowsSwitches store ·.settings) (g.gate store item d) := by
  let scope := g.scope item d.qualifiedName generateKey
  have forAll : (g.isOnForAll item).Always (KnowsSwitches store ·.settings)
      ((store.textFlag? scope.forAll).getD true) := Building.askFlag_always scope.forAll true
  have own := @Building.askFlag_always store scope ((store.textFlag? scope.forAll).getD true)
  rw [Store.textFlag?_getD] at own
  exact .bind forAll own

theorem isPlanned_always :
    (g.isPlanned item d).Always (KnowsSwitches store ·.settings) (g.gate store item d) := by
  refine .bind isOn_always ?_
  cases g.gate store item d with
  | true => exact .ok true
  | false =>
    let note := debugNote ("Skipping " ++ item.name ++ " for " ++ d.name ++ " (disabled)")
    change ((Action.note note).bind fun _ => Action.ok false).Always _ _
    exact .bind (.note note) (.ok false)

theorem plan_always : (g.plan graph).Always (KnowsSwitches store ·.settings)
    (g.target.items.flatMap fun item =>
      ((candidates item graph).filter (g.gate store item)).map (item, ·)) :=
  .bind (.mapEach fun _ _ => .bind (.filterEach fun _ _ => isPlanned_always) (.ok _)) (.ok _)

/-- Planned are the items in the order of the target, each for the types that it may be for in their order: those
for which the first entry that reads as a flag, that for the type or else that for all types, says so, or for which
there is none. This goes for every store, whatever was answered ahead, and also for a type that is called like all
of them. -/
theorem planned_by_first_flag (g : Generator) (graph : TypeGraph) (store : Store) (tree : Tree)
    (uses : List Template.Use) (ahead : List Query) :
    (g.plan graph ⟨((Resolver.ofStore store).prewarm ahead).2, tree, uses⟩).result =
      .ok (g.target.items.flatMap fun item =>
        ((if item = .typeScriptEnum then graph.enumerations else graph.models).filter fun d =>
          ([d.qualifiedName, "All"].findSome? fun identity =>
            store.entryFlag? ⟨g.target.unit.name, item.name, identity, .text "Generate"⟩).getD true).map
          (item, ·)) :=
  (plan_always _ ((KnowsSwitches.ofStore store).prewarm ahead)).1

/-- The enumeration is off as the entry for all types says, since its own one cannot be read; the model is on, since
neither of its entries can. Its service is off by its own entry, which comes before that for all types. -/
theorem planned_by_first_flag_unreadable :
    let scope (item : ItemKind) (identity : String) : Scope :=
      ⟨UnitKind.angularApp.name, item.name, identity, .text "Generate"⟩
    let store : Store := ⟨[
      (scope .typeScriptEnum "Shop.Color", "perhaps"), (scope .typeScriptEnum "All", " Off "),
      (scope .typeScriptModel "Shop.Order", "2"), (scope .typeScriptModel "All", ""),
      (scope .typeScriptService "Shop.Order", "no"), (scope .typeScriptService "All", "yes")]⟩
    let color : TypeDescriptor := { name := "Color", kind := .enumeration, namespace_ := "Shop" }
    let order : TypeDescriptor := { name := "Order", kind := .entity, namespace_ := "Shop" }
    let g : Generator := ⟨"ts", .typescript, .default, .none, .builtin, ⟨none, Template.builtins⟩⟩
    ∀ ahead, ∃ tasks,
      (g.plan (.ofList [color, order]) ⟨((Resolver.ofStore store).prewarm ahead).2, .empty, []⟩).result =
          .ok tasks ∧
        tasks.map (fun task => (task.1, task.2.qualifiedName)) = [(.typeScriptModel, "Shop.Order")] := by
  intro scope store color order g ahead
  exact ⟨_, planned_by_first_flag g _ store _ _ ahead, by decide +kernel⟩

end Generator

end Scaffold
