import Scaffold.Proofs.Graph.Linking
import Scaffold.Proofs.Json.Fields

/-!
What becomes of the properties of a type. Those that are collected from the type and its bases have names of
their own. Each that is of a known shape is described, and each other one is reported, once.
-/

namespace Scaffold

/-- Every item of a list is answered by one item of either of two others, all in their order. -/
inductive Divided {α β γ : Type} (kept : α → β → Prop) (left : α → γ → Prop) :
    List α → List β → List γ → Prop
  | nil : Divided kept left [] [] []
  | keep {a : α} {b : β} {as : List α} {bs : List β} {cs : List γ} :
      kept a b → Divided kept left as bs cs → Divided kept left (a :: as) (b :: bs) cs
  | leave {a : α} {c : γ} {as : List α} {bs : List β} {cs : List γ} :
      left a c → Divided kept left as bs cs → Divided kept left (a :: as) bs (c :: cs)

theorem Divided.exists_of_mem {α β γ : Type} {kept : α → β → Prop} {left : α → γ → Prop} {as : List α} {bs : List β}
    {cs : List γ} {b : β} (h : Divided kept left as bs cs) (mem : b ∈ bs) : ∃ a ∈ as, kept a b := by
  induction h with
  | nil => cases mem
  | keep here _ ih =>
    rcases List.mem_cons.mp mem with rfl | mem
    · exact ⟨_, List.mem_cons_self, here⟩
    · exact (ih mem).imp fun a found => ⟨List.mem_cons_of_mem _ found.1, found.2⟩
  | leave _ _ ih => exact (ih mem).imp fun a found => ⟨List.mem_cons_of_mem _ found.1, found.2⟩

namespace Metadata.Provider

variable {p : Provider} {t : RawType} {known known' : List (String × Declared)}

/-- Properties are kept once under each name. -/
structure Named (known : List (String × Declared)) : Prop where
  names : ∀ field ∈ known, field.2.property.name = field.1
  distinct : (known.map (·.1)).Nodup

theorem Named.addProperties (named : Named known) {owner : RawType} {properties : List RawProperty}
    (h : addProperties owner known properties = .ok known') : Named known' := by
  induction properties generalizing known with
  | nil =>
    obtain rfl := Except.ok.inj h
    exact named
  | cons property rest ih =>
    obtain ⟨declaring, _, h⟩ := exists_of_bind_eq_ok h
    apply ih _ h
    constructor
    · intro field mem
      rcases Fields.mem_put mem with mem | rfl
      · exact named.names field mem
      · rfl
    · exact Fields.nodup_put named.distinct _ _

theorem Named.addOwners (named : Named known) {owners : List RawType}
    (h : addOwners known owners = .ok known') : Named known' := by
  induction owners generalizing known with
  | nil =>
    obtain rfl := Except.ok.inj h
    exact named
  | cons owner rest ih =>
    obtain ⟨more, added, h⟩ := exists_of_bind_eq_ok h
    exact ih (named.addProperties added) h

/-- Of several declarations of a property one is collected. -/
theorem nodup_properties {collected : List Declared} (h : p.properties t = .ok collected) :
    (collected.map (·.property.name)).Nodup := by
  unfold properties at h
  cases added : addOwners [] (t :: p.bases t).reverse with
  | error misfit =>
    rw [added] at h
    cases h
  | ok known =>
    rw [added] at h
    obtain rfl := Except.ok.inj h
    have named := Named.addOwners ⟨by simp, by simp⟩ added
    rw [List.map_map]
    have names : known.map ((·.property.name) ∘ (·.2)) = known.map (·.1) :=
      List.map_congr_left named.names
    exact names ▸ named.distinct

/-- The way up to the bases records no diagnostics. -/
theorem diagnostics_ancestorsFrom (start : RawType) (fuel : Nat) (seen : List String) (t : RawType) :
    Note.diagnostics (p.ancestorsFrom start fuel seen t).notes = [] := by
  induction fuel generalizing seen t with
  | zero => rfl
  | succ fuel ih =>
    unfold ancestorsFrom
    split
    · rfl
    · rfl
    split
    · rfl
    split
    · rfl
    rename_i base _ _
    have further := ih (base.qualifiedName :: seen) base
    cases above : (p.ancestorsFrom start fuel (base.qualifiedName :: seen) base).result with
    | error misfit => simpa [Outcome.bind, above] using further
    | ok names => simpa [Outcome.bind, above, Outcome.ok] using further

end Metadata.Provider

namespace Graph

open Metadata

variable {p : Provider} {accepted : List RawType} {versions : List Json} {accepts : RawType → Bool}
  {t : RawType} {g : TypeGraph} {d : TypeDescriptor} {declared : Provider.Declared}
  {collected : List Provider.Declared} {qs : List PropertyDescriptor}

/-- A value that is not a reference, by its type's name. -/
def isValueName (name : String) : Bool :=
  dateTimeNames.contains name || guidNames.contains name || primitiveNames.contains name

/-- Why a property is of no known shape. Known are enumerations, collections with one element, values and
numbers, and references without type arguments. -/
def anomaly? (property : RawProperty) : Option Anomaly :=
  if property.isEnum then none
  else if property.isArray || property.isGenericList then
    match elementOf property with
    | .error why => some why
    | .ok _ => none
  else if isValueName (cleanName property.typeName) || property.isNumeric ||
      (property.isClass || property.isInterface) && property.genericArguments.isEmpty then none
  else some .unrecognized

/-- The report of a property that is of no known shape. -/
def report? (t : RawType) (declared : Provider.Declared) : Option Diagnostic :=
  (anomaly? declared.property).map fun why =>
    ⟨.str (t.name ++ "." ++ declared.property.name),
      why.message ++ " (" ++ declared.property.typeName ++ "); property skipped"⟩

/-- A property of a known shape is described under its name and that of its owner. -/
def IsDescribed (declared : Provider.Declared) (q : PropertyDescriptor) : Prop :=
  anomaly? declared.property = none ∧ q.name = declared.property.name ∧
    q.declaringType = declared.declaring

/-- What is reported of a type, property by property. Enumerations have none, and bases that are not
generated are left alone. -/
def reports (p : Provider) (t : RawType) : List Diagnostic :=
  match t.kind with
  | .entity | .view => ((p.properties t).toOption.getD []).filterMap (report? t)
  | .enumeration | .abstraction => []

theorem classifyCollection_cases {common : PropertyDescriptor} {property : RawProperty}
    {found : Except Anomaly PropertyDescriptor}
    (h : classifyCollection accepted property common = .ok found) :
    (∃ q element, found = .ok q ∧ elementOf property = .ok element ∧ q.name = common.name ∧
      q.declaringType = common.declaringType) ∨
      ∃ why, found = .error why ∧ elementOf property = .error why := by
  unfold classifyCollection at h
  split at h
  · rename_i why none_
    exact .inr ⟨why, (Except.ok.inj h).symm, none_⟩
  · rename_i written element
    exact .inl ⟨_, _, (Except.ok.inj h).symm, element, rfl, rfl⟩
  · cases h

/-- What a classification ends with is told by the shape of the property alone. -/
theorem classify_cases {found : Except Anomaly PropertyDescriptor}
    (h : classify accepted versions declared = .ok found) :
    (∃ q, found = .ok q ∧ IsDescribed declared q) ∨
      ∃ why, found = .error why ∧ anomaly? declared.property = some why := by
  unfold classify at h
  simp only at h
  unfold IsDescribed anomaly? isValueName
  split at h
  · rename_i isEnum
    exact .inl ⟨_, (Except.ok.inj h).symm, if_pos isEnum, rfl, rfl⟩
  rename_i noEnum
  rw [if_neg noEnum]
  split at h
  · rename_i isCollection
    rw [if_pos isCollection]
    rcases classifyCollection_cases h with ⟨q, element, rfl, some_, names⟩ | ⟨why, rfl, none_⟩
    · exact .inl ⟨q, rfl, by rw [some_], names⟩
    · exact .inr ⟨why, rfl, by rw [none_]⟩
  rename_i noCollection
  rw [if_neg noCollection]
  -- What is left are values, whose kinds are told apart by their names, and references.
  split at h
  · exact .inl ⟨_, (Except.ok.inj h).symm, if_pos (by simp_all [cleanName, commonDescriptor]), rfl, rfl⟩
  split at h
  · exact .inl ⟨_, (Except.ok.inj h).symm, if_pos (by simp_all [cleanName, commonDescriptor]), rfl, rfl⟩
  split at h
  · exact .inl ⟨_, (Except.ok.inj h).symm, if_pos (by simp_all [cleanName, commonDescriptor]), rfl, rfl⟩
  split at h
  · exact .inl ⟨_, (Except.ok.inj h).symm, if_pos (by simp_all [cleanName, commonDescriptor]), rfl, rfl⟩
  · exact .inr ⟨_, (Except.ok.inj h).symm, if_neg (by simp_all [cleanName, commonDescriptor])⟩

/-- A property is described without a note, or its report is the one note. -/
theorem describeProperty_cases {found : Option PropertyDescriptor}
    (h : (describeProperty accepted versions t declared).result = .ok found) :
    (∃ q, found = some q ∧ IsDescribed declared q ∧ report? t declared = none ∧
      (describeProperty accepted versions t declared).notes = []) ∨
      ∃ d, found = none ∧ report? t declared = some d ∧
        (describeProperty accepted versions t declared).notes = [.diagnostic d] := by
  unfold describeProperty at h ⊢
  cases classified : classify accepted versions declared with
  | error misfit =>
    rw [classified] at h
    cases h
  | ok shape =>
    rw [classified] at h
    rcases classify_cases classified with ⟨q, rfl, described⟩ | ⟨why, rfl, unknown⟩
    · obtain rfl := Except.ok.inj h
      exact .inl ⟨q, rfl, described, by simp [report?, described.1], rfl⟩
    · obtain rfl := Except.ok.inj h
      exact .inr ⟨_, rfl, by rw [report?, unknown]; rfl, rfl⟩

/-- Of collected properties each is described or reported, and nothing else is recorded. -/
theorem divided_collect
    (h : (Outcome.collect (describeProperty accepted versions t) collected).result = .ok qs) :
    Divided IsDescribed (fun declared d => report? t declared = some d) collected qs
        (collected.filterMap (report? t)) ∧
      Note.diagnostics (Outcome.collect (describeProperty accepted versions t) collected).notes =
        collected.filterMap (report? t) := by
  induction collected generalizing qs with
  | nil =>
    obtain rfl := Except.ok.inj h
    exact ⟨.nil, rfl⟩
  | cons declared rest ih =>
    obtain ⟨found, first, h⟩ := Outcome.bind_eq_ok.mp h
    obtain ⟨more, others, h⟩ := Outcome.bind_eq_ok.mp h
    obtain rfl : found.toList ++ more = qs := Except.ok.inj h
    obtain ⟨divided, recorded⟩ := ih others
    rw [Outcome.collect, Outcome.notes_bind first, Outcome.notes_bind others, Note.diagnostics_append,
      Note.diagnostics_append, recorded]
    rcases describeProperty_cases first with ⟨q, rfl, described, silent, notes⟩ | ⟨d, rfl, reported, notes⟩
    · rw [notes, List.filterMap_cons_none silent]
      exact ⟨.keep described divided, List.append_nil _⟩
    · rw [notes, List.filterMap_cons_some reported]
      exact ⟨.leave reported divided, congrArg (d :: ·) (List.append_nil _)⟩

/-- Where the properties of a type can be described, each that is collected is described or reported. -/
theorem divided_describeProperties (model : t.kind ≠ .enumeration)
    (h : (describeProperties p accepted versions t).result = .ok qs) :
    ∃ collected, p.properties t = .ok collected ∧
      Divided IsDescribed (fun declared d => report? t declared = some d) collected qs
        (collected.filterMap (report? t)) ∧
      Note.diagnostics (describeProperties p accepted versions t).notes =
        collected.filterMap (report? t) := by
  unfold describeProperties at h ⊢
  rw [if_neg model] at h ⊢
  obtain ⟨collected, all, h⟩ := Outcome.bind_eq_ok.mp h
  obtain ⟨divided, recorded⟩ := divided_collect h
  refine ⟨collected, all, divided, ?_⟩
  rw [Outcome.notes_bind all]
  exact recorded

theorem reports_of_properties (described : t.kind = .entity ∨ t.kind = .view)
    (collected_ : p.properties t = .ok collected) :
    reports p t = collected.filterMap (report? t) := by
  unfold reports
  rw [collected_]
  rcases described with kind | kind <;> rw [kind] <;> rfl

/-- Of the properties of a type that is described each is described or reported. -/
theorem divided_describe (h : (describe p accepted versions t).result = .ok (some d)) :
    Note.diagnostics (describe p accepted versions t).notes = reports p t ∧
      (t.kind ≠ .enumeration → ∃ collected, p.properties t = .ok collected ∧
        Divided IsDescribed (fun declared report => report? t declared = some report) collected
          d.properties (reports p t)) := by
  obtain ⟨isKind, _, _, properties⟩ := describe_eq_ok h
  have recorded : Note.diagnostics (describe p accepted versions t).notes =
      Note.diagnostics (describeProperties p accepted versions t).notes := by
    unfold describe at h ⊢
    rw [isKind] at h ⊢
    obtain ⟨ancestors, above, h⟩ := Outcome.bind_eq_ok.mp h
    simp only [Outcome.notes_bind above, Outcome.notes_bind properties, Note.diagnostics_append]
    rw [Provider.ancestors, Provider.diagnostics_ancestorsFrom]
    exact List.append_nil _
  by_cases isEnum : t.kind = .enumeration
  · refine ⟨?_, fun model => absurd isEnum model⟩
    rw [recorded, describeProperties, if_pos isEnum, reports, isEnum]
    rfl
  · obtain ⟨collected, collected_, divided, notes⟩ := divided_describeProperties isEnum properties
    have model : t.kind = .entity ∨ t.kind = .view := by
      cases kind : t.kind <;> simp_all [TypeKind.ofRaw?]
    rw [recorded, notes, reports_of_properties model collected_]
    exact ⟨rfl, fun _ => ⟨collected, collected_, divided⟩⟩

/-- An extraction records the reports of the accepted types, type by type. -/
theorem diagnostics_extracted (extracted : (extract p versions accepts).result = .ok g) :
    Note.diagnostics (extract p versions accepts).notes =
      (candidates p accepts).flatMap (reports p) := by
  obtain ⟨all, _⟩ := extract_eq_ok_iff.mp extracted
  rw [diagnostics_extract all]
  apply List.flatMap_congr
  intro t mem
  obtain ⟨found, described⟩ := all t mem
  cases found with
  | none => exact absurd described (describe_ne_none mem)
  | some d => exact (divided_describe described).1

end Graph

end Scaffold
