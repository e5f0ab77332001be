import Mathlib.Data.List.Nodup
import Scaffold.Graph.Basic
import Scaffold.Proofs.Json.Fields

/-!
Looking types up in a graph. What is found is a descriptor of the graph, and a graph made of a list holds
nothing else than the list.
-/

namespace Scaffold

namespace Graph.TypeGraph

variable {g : TypeGraph} {d : TypeDescriptor} {ds : List TypeDescriptor} {key : String}

theorem mem_enumerations : d ∈ g.enumerations ↔ d ∈ g.descriptors ∧ d.kind = .enumeration := by
  simp [enumerations, ofKind]

theorem mem_models : d ∈ g.models ↔ d ∈ g.descriptors ∧ d.kind ≠ .enumeration := by
  simp only [models, ofKind, List.mem_append, List.mem_filter, decide_eq_true_eq]
  cases d.kind <;> simp

theorem mem_of_get? {key : String} (h : g.get? key = some d) : d ∈ g.descriptors := by
  unfold get? at h
  split at h
  · cases h
  · have found : ∃ key, Fields.get? g.byQualifiedName key = some d := by
      cases direct : Fields.get? g.byQualifiedName key with
      | some e =>
        rw [direct] at h
        exact ⟨key, by rw [direct]; exact h⟩
      | none =>
        rw [direct] at h
        obtain ⟨name, _, found⟩ := Option.bind_eq_some_iff.mp h
        exact ⟨name, found⟩
    obtain ⟨name, found⟩ := found
    exact List.mem_map.mpr ⟨_, Fields.mem_of_get? found, rfl⟩

theorem mem_of_resolve? {p : PropertyDescriptor} (h : g.resolve? p = some d) : d ∈ g.descriptors := by
  obtain ⟨key, _, found⟩ := Option.bind_eq_some_iff.mp h
  exact mem_of_get? found

theorem mem_of_mem_add {e : TypeDescriptor} (h : e ∈ (g.add d).descriptors) :
    e ∈ g.descriptors ∨ e = d := by
  obtain ⟨field, mem, rfl⟩ := List.mem_map.mp h
  rcases Fields.mem_put mem with mem | rfl
  · exact .inl (List.mem_map.mpr ⟨field, mem, rfl⟩)
  · exact .inr rfl

theorem mem_of_mem_addAll {ds : List TypeDescriptor} (h : d ∈ (ds.foldl add g).descriptors) :
    d ∈ g.descriptors ∨ d ∈ ds := by
  induction ds generalizing g with
  | nil => exact .inl h
  | cons e rest ih =>
    rcases ih h with mem | mem
    · exact (mem_of_mem_add mem).imp_right fun eq => List.mem_cons.mpr (.inl eq)
    · exact .inr (List.mem_cons_of_mem _ mem)

/-- Each descriptor is held once, under its qualified name. -/
structure Keyed (g : TypeGraph) : Prop where
  names : ∀ field ∈ g.byQualifiedName, field.2.qualifiedName = field.1
  distinct : (g.byQualifiedName.map (·.1)).Nodup

theorem Keyed.add (h : g.Keyed) (d : TypeDescriptor) : (g.add d).Keyed where
  names := by
    intro field mem
    rcases Fields.mem_put mem with mem | rfl
    · exact h.names field mem
    · rfl
  distinct := Fields.nodup_put h.distinct _ _

theorem keyed_ofList (ds : List TypeDescriptor) : (ofList ds).Keyed := by
  have all (g : TypeGraph) (h : g.Keyed) : (ds.foldl TypeGraph.add g).Keyed := by
    induction ds generalizing g with
    | nil => exact h
    | cons d rest ih => exact ih _ (h.add d)
  exact all empty ⟨by simp [empty], by simp [empty]⟩

theorem Keyed.qualifiedNames_eq (h : g.Keyed) :
    g.descriptors.map TypeDescriptor.qualifiedName = g.byQualifiedName.map (·.1) := by
  rw [descriptors, List.map_map]
  exact List.map_congr_left h.names

/-- No two descriptors of a graph have one qualified name. -/
theorem Keyed.nodup_qualifiedNames (h : g.Keyed) :
    (g.descriptors.map TypeDescriptor.qualifiedName).Nodup :=
  h.qualifiedNames_eq ▸ h.distinct

theorem Keyed.nodup (h : g.Keyed) : g.descriptors.Nodup := .of_map _ h.nodup_qualifiedNames

theorem mem_of_mem_ofList {ds : List TypeDescriptor} (h : d ∈ (ofList ds).descriptors) : d ∈ ds :=
  (mem_of_mem_addAll h).resolve_left List.not_mem_nil

/-- A graph of a list sets each type in turn under its qualified name. -/
theorem byQualifiedName_ofList (ds : List TypeDescriptor) :
    (ofList ds).byQualifiedName = Fields.merge [] (ds.map fun d => (d.qualifiedName, d)) := by
  have from_ (g : TypeGraph) : (ds.foldl add g).byQualifiedName =
      Fields.merge g.byQualifiedName (ds.map fun d => (d.qualifiedName, d)) := by
    induction ds generalizing g with
    | nil => rfl
    | cons d rest ih => exact ih (g.add d)
  exact from_ empty

/-- The keys of a graph are the qualified names of the list, each where it comes first. -/
theorem keys_ofList (ds : List TypeDescriptor) :
    (ofList ds).byQualifiedName.map (·.1) = (ds.map (·.qualifiedName)).eraseDups := by
  rw [byQualifiedName_ofList, Fields.keys_nil_merge, List.map_map]
  rfl

theorem mem_keys_ofList :
    key ∈ (ofList ds).byQualifiedName.map (·.1) ↔ key ∈ ds.map (·.qualifiedName) := by
  rw [keys_ofList, List.mem_eraseDups]

/-- A qualified name is the key of a type that has it. -/
theorem qualifiedName_of_get? (h : Fields.get? (ofList ds).byQualifiedName key = some d) :
    d.qualifiedName = key :=
  (keyed_ofList ds).names _ (Fields.mem_of_get? h)

theorem exists_get? (mem : key ∈ ds.map (·.qualifiedName)) :
    ∃ d, Fields.get? (ofList ds).byQualifiedName key = some d := by
  apply Option.ne_none_iff_exists'.mp
  intro none_
  exact Fields.get?_eq_none.mp none_ (mem_keys_ofList.mpr mem)

/-- A type of a graph is found under its qualified name. -/
theorem Keyed.get?_qualifiedName (keyed : g.Keyed) (mem : d ∈ g.descriptors)
    (named : d.qualifiedName ≠ "") : g.get? d.qualifiedName = some d := by
  obtain ⟨field, memField, rfl⟩ := List.mem_map.mp mem
  rw [get?, if_neg named, keyed.names field memField, Fields.get?_of_mem keyed.distinct memField]
  rfl

/-- A graph with its types changed, under the keys that they have. -/
def mapTypes (h : TypeDescriptor → TypeDescriptor) (g : TypeGraph) : TypeGraph :=
  { g with byQualifiedName := g.byQualifiedName.map fun (key, d) => (key, h d) }

/-- A change that leaves the names may come before or after the types are put in a graph. -/
theorem mapTypes_ofList {h : TypeDescriptor → TypeDescriptor} (name : ∀ d, (h d).name = d.name)
    (qualified : ∀ d, (h d).qualifiedName = d.qualifiedName) (ds : List TypeDescriptor) :
    (ofList ds).mapTypes h = ofList (ds.map h) := by
  have from_ (g : TypeGraph) : (ds.foldl TypeGraph.add g).mapTypes h =
      (ds.map h).foldl TypeGraph.add (g.mapTypes h) := by
    induction ds generalizing g with
    | nil => rfl
    | cons d rest ih =>
      have step : (g.add d).mapTypes h = (g.mapTypes h).add (h d) := by
        simp only [TypeGraph.add, mapTypes, Fields.map_put, name, qualified]
      rw [List.foldl_cons, ih, step, List.map_cons, List.foldl_cons]
  exact from_ empty

theorem get?_mapTypes (h : TypeDescriptor → TypeDescriptor) (g : TypeGraph) (key : String) :
    (g.mapTypes h).get? key = (g.get? key).map h := by
  have found := Fields.get?_map h g.byQualifiedName
  unfold get? mapTypes
  split
  · rfl
  · rw [found]
    cases Fields.get? g.byQualifiedName key with
    | some d => rfl
    | none =>
      cases Fields.get? g.byShortName key with
      | none => rfl
      | some qualified => exact found qualified

end Graph.TypeGraph

end Scaffold
