import Mathlib.Logic.Relation
import Scaffold.Metadata.Provider

/-!
Documents that differ in the content of one type. A type is found by its names and passed on the way up by
its base, which are not content; so the walk from a type differs only if it passes the changed type itself.
-/

namespace Scaffold.Metadata

variable {p q : Provider} {i k : Nat} {t original changed start : RawType} {written : String}

/-- A type without its content: what is left are its names, its kind and its base. -/
def RawType.outline (t : RawType) : RawType :=
  { t with properties := [], members := [], description := .null }

@[simp] theorem RawType.name_outline (t : RawType) : t.outline.name = t.name := rfl

@[simp] theorem RawType.kind_outline (t : RawType) : t.outline.kind = t.kind := rfl

@[simp] theorem RawType.qualifiedName_outline (t : RawType) :
    t.outline.qualifiedName = t.qualifiedName := rfl

/-- Is this the qualified or the short name of the type? -/
def RawType.isNamed (clean : String) (t : RawType) : Bool := t.qualifiedName = clean || t.name = clean

theorem RawType.isNamed_outline (clean : String) (t : RawType) :
    t.outline.isNamed clean = t.isNamed clean := rfl

namespace Provider

/-- The second provider has another type at one place, with the same outline. -/
structure Changed (p q : Provider) (i : Nat) (original changed : RawType) : Prop where
  before : p.types[i]? = some original
  types : q.types = p.types.set i changed
  outline : changed.outline = original.outline

/-- The place of the type that a written name refers to. -/
def findPlace? (p : Provider) (written : String) : Option Nat :=
  if written = "" then none else p.types.findIdx? (RawType.isNamed (cleanName written))

theorem find?_eq_place : p.find? written = (p.findPlace? written).bind (p.types[·]?) := by
  unfold find? findPlace? lookup?
  split
  · rfl
  · exact List.find?_eq_bind_findIdx?_getElem?

/-- The second place has the type that the first one names as its base. -/
def IsBase (p : Provider) (k j : Nat) : Prop :=
  ∃ t written, p.types[k]? = some t ∧ t.baseName? = .ok (some written) ∧
    p.findPlace? written = some j

namespace Changed

theorem outlines (change : Changed p q i original changed) :
    q.types.map RawType.outline = p.types.map RawType.outline := by
  obtain ⟨inside, rfl⟩ := List.getElem?_eq_some_iff.mp change.before
  have insideMap : i < (p.types.map RawType.outline).length := by simpa
  have here : (p.types[i]).outline = (p.types.map RawType.outline)[i] := by simp
  rw [change.types, List.map_set, change.outline, here, List.set_getElem_self]

theorem length (change : Changed p q i original changed) : q.types.length = p.types.length := by
  rw [change.types, List.length_set]

theorem other (change : Changed p q i original changed) (ne : k ≠ i) : q.types[k]? = p.types[k]? := by
  rw [change.types, List.getElem?_set_ne (Ne.symm ne)]

/-- Names are found at the same places. -/
theorem findPlace? (change : Changed p q i original changed) (written : String) :
    q.findPlace? written = p.findPlace? written := by
  have places (l : List RawType) : l.findIdx? (RawType.isNamed (cleanName written)) =
      (l.map RawType.outline).findIdx? (RawType.isNamed (cleanName written)) := by
    simp only [List.findIdx?_map, Function.comp_def, RawType.isNamed_outline]
  rw [Provider.findPlace?, Provider.findPlace?, places q.types, places p.types, change.outlines]

/-- The base of a type is the same one, and no nearer to the change. -/
theorem find? (change : Changed p q i original changed) (here : p.types[k]? = some t)
    (apart : ¬ Relation.ReflTransGen p.IsBase k i) (base : t.baseName? = .ok (some written)) :
    q.find? written = p.find? written ∧ ∀ u, p.find? written = some u →
      ∃ j, p.types[j]? = some u ∧ ¬ Relation.ReflTransGen p.IsBase j i := by
  rw [find?_eq_place, find?_eq_place, change.findPlace? written]
  cases place : p.findPlace? written with
  | none => exact ⟨rfl, by simp⟩
  | some j =>
    have isBase : p.IsBase k j := ⟨t, written, here, base, place⟩
    have later : ¬ Relation.ReflTransGen p.IsBase j i := fun way => apart (.head isBase way)
    refine ⟨change.other ?_, fun u found => ⟨j, found, later⟩⟩
    rintro rfl
    exact later .refl

theorem ancestorsFrom (change : Changed p q i original changed) {fuel : Nat} {seen : List String}
    (here : p.types[k]? = some t) (apart : ¬ Relation.ReflTransGen p.IsBase k i) :
    q.ancestorsFrom start fuel seen t = p.ancestorsFrom start fuel seen t := by
  induction fuel generalizing k t seen with
  | zero => rfl
  | succ fuel ih =>
    unfold Provider.ancestorsFrom
    cases base : t.baseName? with
    | error e => rfl
    | ok name =>
      cases name with
      | none => rfl
      | some written =>
        obtain ⟨same, further⟩ := change.find? here apart base
        simp only [same]
        cases found : p.find? written with
        | none => rfl
        | some u =>
          obtain ⟨j, there, apart⟩ := further u found
          simp only [ih there apart]

theorem basesFrom (change : Changed p q i original changed) {fuel : Nat} {seen : List String}
    (here : p.types[k]? = some t) (apart : ¬ Relation.ReflTransGen p.IsBase k i) :
    q.basesFrom fuel seen t = p.basesFrom fuel seen t := by
  induction fuel generalizing k t seen with
  | zero => rfl
  | succ fuel ih =>
    unfold Provider.basesFrom
    cases base : t.baseName? with
    | error e => rfl
    | ok name =>
      cases name with
      | none => rfl
      | some written =>
        obtain ⟨same, further⟩ := change.find? here apart base
        simp only [same]
        cases found : p.find? written with
        | none => rfl
        | some u =>
          obtain ⟨j, there, apart⟩ := further u found
          simp only [ih there apart]

/-- Where the way up does not pass the change, the names on it are the same. -/
theorem ancestors (change : Changed p q i original changed) (here : p.types[k]? = some t)
    (apart : ¬ Relation.ReflTransGen p.IsBase k i) : q.ancestors t = p.ancestors t := by
  rw [Provider.ancestors, Provider.ancestors, change.length, change.ancestorsFrom here apart]

/-- Where the way up does not pass the change, the properties that are collected on it are the same. -/
theorem properties (change : Changed p q i original changed) (here : p.types[k]? = some t)
    (apart : ¬ Relation.ReflTransGen p.IsBase k i) : q.properties t = p.properties t := by
  have bases : q.bases t = p.bases t := by
    rw [Provider.bases, Provider.bases, change.length, change.basesFrom here apart]
  rw [Provider.properties, Provider.properties, bases]

end Changed

end Provider

end Scaffold.Metadata
