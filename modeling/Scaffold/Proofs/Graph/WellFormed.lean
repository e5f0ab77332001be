import Scaffold.Proofs.Graph.Linking
import Scaffold.Proofs.Json.Fields

/-!
Well-formed documents. Where names of bases, owners and elements are texts, or say nothing, every accepted
type can be described, so that an extraction goes through.
-/

namespace Scaffold

/-- A value that is a text if it says something. -/
def Json.IsTextIfSet (v : Json) : Prop := v.isSet = true → ∃ s, v = .str s

namespace Metadata

/-- What a property says of its owner and its elements are texts. -/
structure RawProperty.IsWellFormed (q : RawProperty) : Prop where
  declaredOn : q.declaredOn.IsTextIfSet
  elementType : q.elementType.IsTextIfSet
  genericArguments : ∀ argument ∈ q.genericArguments, argument.IsTextIfSet

/-- The base of a type is a text or missing, and its properties are well-formed. -/
structure RawType.IsWellFormed (t : RawType) : Prop where
  base : t.base = .null ∨ ∃ s, t.base = .str s
  properties : ∀ q ∈ t.properties, q.IsWellFormed

theorem RawType.IsWellFormed.baseName? {t : RawType} (h : t.IsWellFormed) :
    ∃ name, t.baseName? = .ok name := by
  unfold RawType.baseName?
  rcases h.base with base | ⟨s, base⟩ <;> rw [base] <;> exact ⟨_, rfl⟩

namespace Provider

variable {p : Provider} {t owner : RawType} {known : List (String × Declared)} {written : String}

/-- All types of the document are well-formed. -/
def IsWellFormed (p : Provider) : Prop := ∀ t ∈ p.types, t.IsWellFormed

theorem mem_of_find? (h : p.find? written = some t) : t ∈ p.types := by
  unfold find? at h
  split at h
  · cases h
  · exact List.mem_of_find?_eq_some h

theorem IsWellFormed.ancestorsFrom (h : p.IsWellFormed) (start : RawType) (fuel : Nat)
    (seen : List String) (mem : t ∈ p.types) :
    ∃ names, (p.ancestorsFrom start fuel seen t).result = .ok names := by
  induction fuel generalizing seen t with
  | zero => exact ⟨_, rfl⟩
  | succ fuel ih =>
    obtain ⟨name, base⟩ := (h t mem).baseName?
    unfold Provider.ancestorsFrom
    cases name with
    | none => exact ⟨[], by rw [base]; rfl⟩
    | some written =>
      simp only [base]
      cases found : p.find? written with
      | none => exact ⟨_, rfl⟩
      | some next =>
        simp only
        split
        · exact ⟨_, rfl⟩
        · obtain ⟨names, above⟩ := ih (next.qualifiedName :: seen) (mem_of_find? found)
          exact ⟨_, Outcome.bind_eq_ok.mpr ⟨names, above, rfl⟩⟩

theorem mem_of_mem_basesFrom {fuel : Nat} {seen : List String} {base : RawType}
    (mem : base ∈ p.basesFrom fuel seen t) : base ∈ p.types := by
  induction fuel generalizing seen t with
  | zero => cases mem
  | succ fuel ih =>
    unfold basesFrom at mem
    split at mem
    · split at mem
      · cases mem
      · rename_i found
        split at mem
        · cases mem
        · rcases List.mem_cons.mp mem with rfl | mem
          · exact mem_of_find? found
          · exact ih mem
    · cases mem

theorem declaringName_ok {property : RawProperty} (h : property.declaredOn.IsTextIfSet) :
    ∃ name, declaringName owner property = .ok name := by
  unfold declaringName
  split
  · rename_i isSet
    obtain ⟨s, text⟩ := h isSet
    rw [text]
    exact ⟨_, rfl⟩
  · exact ⟨_, rfl⟩

/-- The properties that are collected are well-formed. -/
def AllWellFormed (known : List (String × Declared)) : Prop :=
  ∀ field ∈ known, field.2.property.IsWellFormed

theorem AllWellFormed.addProperties (all : AllWellFormed known) {properties : List RawProperty}
    (h : ∀ q ∈ properties, q.IsWellFormed) :
    ∃ known', addProperties owner known properties = .ok known' ∧ AllWellFormed known' := by
  induction properties generalizing known with
  | nil => exact ⟨known, rfl, all⟩
  | cons property rest ih =>
    obtain ⟨here, later⟩ := List.forall_mem_cons.mp h
    obtain ⟨name, declared⟩ : ∃ name, declaringName owner property = .ok name :=
      declaringName_ok here.declaredOn
    have more : AllWellFormed (Fields.put known property.name ⟨name, property⟩) := by
      intro field mem
      rcases Fields.mem_put mem with mem | rfl
      · exact all field mem
      · exact here
    obtain ⟨known', added, all'⟩ := ih more later
    exact ⟨known', by rw [Provider.addProperties, declared]; exact added, all'⟩

theorem AllWellFormed.addOwners (all : AllWellFormed known) {owners : List RawType}
    (h : ∀ t ∈ owners, t.IsWellFormed) :
    ∃ known', addOwners known owners = .ok known' ∧ AllWellFormed known' := by
  induction owners generalizing known with
  | nil => exact ⟨known, rfl, all⟩
  | cons owner rest ih =>
    obtain ⟨here, later⟩ := List.forall_mem_cons.mp h
    obtain ⟨more, added, allMore⟩ : ∃ more,
        Provider.addProperties owner known owner.properties = .ok more ∧ AllWellFormed more :=
      all.addProperties here.properties
    obtain ⟨known', addedAll, all'⟩ := ih allMore later
    exact ⟨known', by rw [Provider.addOwners, added]; exact addedAll, all'⟩

theorem IsWellFormed.properties (h : p.IsWellFormed) (mem : t ∈ p.types) :
    ∃ collected, p.properties t = .ok collected ∧ ∀ c ∈ collected, c.property.IsWellFormed := by
  have chain : ∀ u ∈ (t :: p.bases t).reverse, u.IsWellFormed := by
    intro u memU
    rcases List.mem_cons.mp (List.mem_reverse.mp memU) with rfl | memU
    · exact h u mem
    · exact h u (mem_of_mem_basesFrom memU)
  have none_ : AllWellFormed [] := by simp [AllWellFormed]
  obtain ⟨known, added, all⟩ := none_.addOwners chain
  refine ⟨known.map (·.2), by rw [Provider.properties, added]; rfl, ?_⟩
  intro c memC
  obtain ⟨field, memF, rfl⟩ := List.mem_map.mp memC
  exact all field memF

end Provider

end Metadata

namespace Graph

open Metadata

variable {p : Provider} {versions : List Json} {accepts : RawType → Bool} {t : RawType}

/-- The first argument of a list stands in for an element that is not given. -/
theorem elementOf_isText {property : RawProperty} {element : Json} (h : property.IsWellFormed)
    (eq : elementOf property = .ok element) : ∃ s, element = .str s := by
  have first : (property.genericArguments.headD .null).IsTextIfSet := by
    cases arguments : property.genericArguments with
    | nil => exact fun isSet => absurd isSet (by decide)
    | cons argument rest => exact h.genericArguments argument (by simp [arguments])
  unfold elementOf at eq
  by_cases own : (property.elementType.isSet || !property.isGenericList) = true
  · simp only [if_pos own] at eq
    split at eq
    · cases eq
    split at eq
    · rename_i isSet
      obtain rfl := Except.ok.inj eq
      exact h.elementType isSet
    · cases eq
  · simp only [if_neg own] at eq
    split at eq
    · cases eq
    split at eq
    · rename_i isSet
      obtain rfl := Except.ok.inj eq
      exact first isSet
    · cases eq

theorem classify_ok {accepted : List RawType} {declared : Provider.Declared}
    (h : declared.property.IsWellFormed) : ∃ found, classify accepted versions declared = .ok found := by
  have collection (common : PropertyDescriptor) :
      ∃ found, classifyCollection accepted declared.property common = .ok found := by
    unfold classifyCollection
    cases element : elementOf declared.property with
    | error why => exact ⟨_, rfl⟩
    | ok v =>
      obtain ⟨s, rfl⟩ := elementOf_isText h element
      exact ⟨_, rfl⟩
  unfold classify
  simp only
  split
  · exact ⟨_, rfl⟩
  split
  · exact collection _
  repeat' split
  all_goals exact ⟨_, rfl⟩

/-- A type of a well-formed document can be sketched. -/
theorem canSketch (h : p.IsWellFormed) (mem : t ∈ p.types) : CanSketch p versions t := by
  have property (c : Provider.Declared) (wellFormed : c.property.IsWellFormed) :
      ∃ found, (describeProperty [] versions t c).result = .ok found := by
    obtain ⟨found, classified⟩ : ∃ found, classify [] versions c = .ok found := classify_ok wellFormed
    unfold describeProperty
    rw [classified]
    cases found <;> exact ⟨_, rfl⟩
  obtain ⟨ancestors, above⟩ := h.ancestorsFrom t (p.types.length + 1) [t.qualifiedName] mem
  have properties : ∃ qs, (describeProperties p [] versions t).result = .ok qs := by
    unfold describeProperties
    split
    · exact ⟨_, rfl⟩
    · obtain ⟨collected, all, wellFormed⟩ := h.properties mem
      have found := Outcome.collect_eq_ok_iff.mpr ⟨fun c memC => property c (wellFormed c memC), rfl⟩
      exact ⟨_, Outcome.bind_eq_ok.mpr ⟨collected, all, found⟩⟩
  obtain ⟨qs, described⟩ := properties
  unfold CanSketch describe
  split
  · exact ⟨_, rfl⟩
  · exact ⟨_, Outcome.bind_eq_ok.mpr ⟨ancestors, above, Outcome.bind_eq_ok.mpr ⟨qs, described, rfl⟩⟩⟩

/-- A well-formed document has a graph, whatever is accepted. -/
theorem extract_ok (h : p.IsWellFormed) (versions : List Json) (accepts : RawType → Bool) :
    ∃ g, (extract p versions accepts).result = .ok g :=
  ⟨_, extract_eq_ok_iff.mpr ⟨fun _ mem => canSketch h (mem_types_of_mem_candidates mem), rfl⟩⟩

end Graph

end Scaffold
