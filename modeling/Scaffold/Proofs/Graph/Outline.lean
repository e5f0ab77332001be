import Mathlib.Data.List.Forall2
import Scaffold.Proofs.Graph.Extracted
import Scaffold.Proofs.Metadata.Bases

/-!
Graphs of documents that differ in the content of one type. What a descriptor says of its own type comes
from the way up to its bases; of all other types it says only what they are called. So two such graphs are
called alike in all their descriptors, and hold equal ones wherever the way up does not pass the change.
-/

namespace Scaffold

/-- If something is found at every item, what is collected is found item by item. -/
theorem Outcome.forall₂_of_collect {ε α β : Type} {f : α → Outcome ε (Option β)} {l : List α}
    {bs : List β} (all : ∀ a ∈ l, (f a).result ≠ .ok none) (h : (collect f l).result = .ok bs) :
    List.Forall₂ (fun a b => (f a).result = .ok (some b)) l bs := by
  induction l generalizing bs with
  | nil =>
    obtain rfl := Except.ok.inj h
    exact .nil
  | cons a rest ih =>
    obtain ⟨found, first, h⟩ := bind_eq_ok.mp h
    obtain ⟨more, others, h⟩ := bind_eq_ok.mp h
    obtain rfl := Except.ok.inj h
    cases found with
    | none => exact absurd first (all a List.mem_cons_self)
    | some b => exact .cons first (ih (fun x hx => all x (List.mem_cons_of_mem _ hx)) others)

/-- To every item of the first list an item of the second is related. -/
theorem exists_of_forall₂ {α β : Type} {R : α → β → Prop} {l : List α} {bs : List β}
    (h : List.Forall₂ R l bs) {a : α} (mem : a ∈ l) : ∃ b ∈ bs, R a b := by
  induction h with
  | nil => cases mem
  | cons first _ ih =>
    rcases List.mem_cons.mp mem with rfl | mem
    · exact ⟨_, List.mem_cons_self, first⟩
    · obtain ⟨b, memB, related⟩ := ih mem
      exact ⟨b, List.mem_cons_of_mem _ memB, related⟩

theorem Metadata.qualify_ne_empty {namespace_ name : String} (named : name ≠ "") :
    qualify namespace_ name ≠ "" := by
  unfold qualify
  split
  · exact named
  · simp [named]

namespace Graph

open Metadata

variable {p q : Provider} {i k : Nat} {t original changed : RawType} {accepts : RawType → Bool}
  {versions : List Json} {accepted accepted' : List RawType} {written : String}

/-- A filter that takes the change as it took the original takes the same outlines. -/
theorem outlines_filter_set {l : List RawType} {keep : RawType → Bool} (before : l[i]? = some original)
    (outline : changed.outline = original.outline) (same : keep changed = keep original) :
    ((l.set i changed).filter keep).map RawType.outline = (l.filter keep).map RawType.outline := by
  induction l generalizing i with
  | nil => rfl
  | cons t rest ih =>
    cases i with
    | zero =>
      obtain rfl : t = original := by simpa using before
      simp only [List.set_cons_zero, List.filter_cons, same]
      split <;> simp [outline]
    | succ i =>
      have := ih (i := i) (by simpa using before)
      simp only [List.set_cons_succ, List.filter_cons]
      split <;> simp [this]

theorem outlines_candidates (change : p.Changed q i original changed)
    (same : accepts changed = accepts original) :
    (candidates q accepts).map RawType.outline = (candidates p accepts).map RawType.outline := by
  have kind : changed.kind = original.kind := by
    have kinds := congrArg RawType.kind change.outline
    exact kinds
  have ofKind (kind' : RawKind) : ((q.ofKind kind').filter accepts).map RawType.outline =
      ((p.ofKind kind').filter accepts).map RawType.outline := by
    rw [Provider.ofKind, Provider.ofKind, List.filter_filter, List.filter_filter, change.types]
    exact outlines_filter_set change.before change.outline (by rw [same, kind])
  simp only [candidates, Provider.generated, List.filter_append, List.map_append, ofKind]

/-- What a name refers to is told by the outlines of the accepted types. -/
theorem elementType?_outlines
    (outlines : accepted'.map RawType.outline = accepted.map RawType.outline) (written : String) :
    elementType? accepted' written = elementType? accepted written := by
  have any (l : List RawType) (clean : String) : (l.any fun t => t.qualifiedName = clean) =
      (l.map RawType.outline).any fun t => t.qualifiedName = clean := by
    rw [List.any_map]
    rfl
  have find (l : List RawType) (clean : String) :
      (l.find? fun t => t.name = clean).map (·.qualifiedName) =
        ((l.map RawType.outline).find? fun t => t.name = clean).map (·.qualifiedName) := by
    rw [List.find?_map, Option.map_map]
    rfl
  simp only [elementType?, elementKey?, any accepted', any accepted, find accepted', find accepted,
    outlines]

theorem classify_outlines (outlines : accepted'.map RawType.outline = accepted.map RawType.outline)
    (declared : Provider.Declared) :
    classify accepted' versions declared = classify accepted versions declared := by
  simp only [classify, classifyCollection, elementType?_outlines outlines]

/-- A type whose way up does not pass the change is described alike. -/
theorem describe_changed (change : p.Changed q i original changed) (here : p.types[k]? = some t)
    (apart : ¬ Relation.ReflTransGen p.IsBase k i)
    (outlines : accepted'.map RawType.outline = accepted.map RawType.outline) :
    describe q accepted' versions t = describe p accepted versions t := by
  have property : describeProperty accepted' versions t = describeProperty accepted versions t := by
    funext declared
    simp only [describeProperty, classify_outlines outlines]
  simp only [describe, describeProperties, change.ancestors here apart, change.properties here apart,
    property]

/-- A descriptor without what it says of its type: what is left is what the type is called and its kind. -/
def TypeDescriptor.outline (d : TypeDescriptor) : TypeDescriptor :=
  { name := d.name, kind := d.kind, namespace_ := d.namespace_ }

@[simp] theorem TypeDescriptor.name_outline (d : TypeDescriptor) : d.outline.name = d.name := rfl

@[simp] theorem TypeDescriptor.kind_outline (d : TypeDescriptor) : d.outline.kind = d.kind := rfl

@[simp] theorem TypeDescriptor.namespace_outline (d : TypeDescriptor) :
    d.outline.namespace_ = d.namespace_ := rfl

@[simp] theorem TypeDescriptor.qualifiedName_outline (d : TypeDescriptor) :
    d.outline.qualifiedName = d.qualifiedName := rfl

/-- What the descriptor of a raw type is called. -/
def calledAs (t : RawType) : TypeDescriptor :=
  { name := t.name, kind := (TypeKind.ofRaw? t.kind).getD .entity, namespace_ := t.namespace_ }

theorem mem_candidates : t ∈ candidates p accepts ↔
    t ∈ p.types ∧ t.kind ≠ .abstraction ∧ accepts t = true := by
  simp only [candidates, Provider.generated, Provider.ofKind, List.mem_filter, List.mem_append,
    decide_eq_true_eq]
  cases t.kind <;> simp

theorem describe_ne_none (mem : t ∈ candidates p accepts) :
    (describe p accepted versions t).result ≠ .ok none := by
  obtain ⟨_, kind, _⟩ := mem_candidates.mp mem
  have isKind : ∃ kind, TypeKind.ofRaw? t.kind = some kind := by
    cases raw : t.kind with
    | abstraction => exact absurd raw kind
    | entity | view | enumeration => exact ⟨_, rfl⟩
  obtain ⟨kind, isKind⟩ := isKind
  intro none_
  unfold describe at none_
  rw [isKind] at none_
  obtain ⟨_, _, none_⟩ := Outcome.bind_eq_ok.mp none_
  obtain ⟨_, _, none_⟩ := Outcome.bind_eq_ok.mp none_
  cases none_

/-- A graph of a document is made of the descriptions of its accepted types, one for each. -/
theorem extract_eq_ok {g : TypeGraph} (h : (extract p versions accepts).result = .ok g) :
    ∃ ds, g = TypeGraph.ofList ds ∧ List.Forall₂
      (fun t d => (describe p (candidates p accepts) versions t).result = .ok (some d))
      (candidates p accepts) ds := by
  obtain ⟨ds, described, h⟩ := Outcome.bind_eq_ok.mp h
  obtain ⟨_, _, h⟩ := Outcome.bind_eq_ok.mp h
  exact ⟨ds, (Except.ok.inj h).symm,
    Outcome.forall₂_of_collect (fun _ mem => describe_ne_none mem) described⟩

theorem outlines_described {ts : List RawType} {ds : List TypeDescriptor}
    (h : List.Forall₂ (fun t d => (describe p accepted versions t).result = .ok (some d)) ts ds) :
    ds.map TypeDescriptor.outline = ts.map calledAs := by
  induction h with
  | nil => rfl
  | cons described _ ih =>
    obtain ⟨kind, name, namespace_, _⟩ := describe_eq_ok described
    simp [TypeDescriptor.outline, calledAs, kind, name, namespace_, ih]

/-- Descriptions have the qualified names of what they describe. -/
theorem qualifiedNames_described {ts : List RawType} {ds : List TypeDescriptor}
    (h : List.Forall₂ (fun t d => (describe p accepted versions t).result = .ok (some d)) ts ds) :
    ds.map (·.qualifiedName) = ts.map (·.qualifiedName) := by
  have outlines := congrArg (List.map (·.qualifiedName)) (outlines_described h)
  rwa [List.map_map, List.map_map] at outlines

namespace TypeGraph

variable {g : TypeGraph} {d : TypeDescriptor}

/-- A graph without what its descriptors say of their types. -/
def outline (g : TypeGraph) : TypeGraph :=
  { g with byQualifiedName := g.byQualifiedName.map fun (key, d) => (key, d.outline) }

theorem outline_ofList (ds : List TypeDescriptor) :
    (ofList ds).outline = ofList (ds.map TypeDescriptor.outline) :=
  mapTypes_ofList TypeDescriptor.name_outline TypeDescriptor.qualifiedName_outline ds

theorem get?_outline (g : TypeGraph) (key : String) :
    g.outline.get? key = (g.get? key).map TypeDescriptor.outline :=
  get?_mapTypes TypeDescriptor.outline g key

theorem resolve?_outline (g : TypeGraph) (q : PropertyDescriptor) :
    g.outline.resolve? q = (g.resolve? q).map TypeDescriptor.outline := by
  cases type : q.elementType <;> simp [resolve?, type, get?_outline]

/-- Of types with names of their own each is found under its name. -/
theorem get?_ofList {ds : List TypeDescriptor} (distinct : (ds.map (·.qualifiedName)).Nodup)
    (mem : d ∈ ds) (named : d.qualifiedName ≠ "") : (ofList ds).get? d.qualifiedName = some d := by
  obtain ⟨e, found⟩ := exists_get? (List.mem_map_of_mem (f := (·.qualifiedName)) mem)
  have memE : e ∈ (ofList ds).descriptors := List.mem_map.mpr ⟨_, Fields.mem_of_get? found, rfl⟩
  obtain rfl : e = d :=
    List.inj_on_of_nodup_map distinct (mem_of_mem_ofList memE) mem (qualifiedName_of_get? found)
  exact (keyed_ofList ds).get?_qualifiedName memE named

end TypeGraph

/-- Graphs of documents that differ in the content of one type have the same outline. -/
theorem outline_changed {g g' : TypeGraph} (change : p.Changed q i original changed)
    (same : accepts changed = accepts original) (extracted : (extract p versions accepts).result = .ok g)
    (extracted' : (extract q versions accepts).result = .ok g') : g'.outline = g.outline := by
  obtain ⟨ds, rfl, described⟩ := extract_eq_ok extracted
  obtain ⟨ds', rfl, described'⟩ := extract_eq_ok extracted'
  have called (ts : List RawType) : ts.map calledAs = (ts.map RawType.outline).map calledAs := by
    rw [List.map_map]
    rfl
  rw [TypeGraph.outline_ofList, TypeGraph.outline_ofList, outlines_described described,
    outlines_described described', called (candidates q accepts), called (candidates p accepts),
    outlines_candidates change same]

/-- What is described in a graph is found there under its name. -/
theorem get?_of_described {g : TypeGraph} (extracted : (extract p versions accepts).result = .ok g)
    (distinct : ((candidates p accepts).map (·.qualifiedName)).Nodup) (mem : t ∈ candidates p accepts)
    (named : t.name ≠ "") : ∃ d,
      (describe p (candidates p accepts) versions t).result = .ok (some d) ∧
        g.get? t.qualifiedName = some d := by
  obtain ⟨ds, rfl, described⟩ := extract_eq_ok extracted
  obtain ⟨d, memD, isDescribed⟩ := exists_of_forall₂ described mem
  have key := qualifiedName_of_describe isDescribed
  rw [← qualifiedNames_described described] at distinct
  refine ⟨d, isDescribed, ?_⟩
  rw [← key]
  exact TypeGraph.get?_ofList distinct memD (by rw [key]; exact qualify_ne_empty named)

end Graph

end Scaffold
