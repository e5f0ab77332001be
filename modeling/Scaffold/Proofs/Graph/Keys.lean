import Mathlib.Data.List.Pairwise
import Scaffold.Graph.Extraction
import Scaffold.Proofs.Graph.Lookup
import Scaffold.Proofs.Metadata.Bases

/-!
Lists of which no two different items share a key. There is only one item that a key can mean, so a look-up
depends neither on the order of the list nor on what else is in it.

What a key means in the graph of a list: the qualified name of a type if it is one, else that of the first type
with this short name. Where no two types share a key it is the one type that the key names, so that the graph
holds the types of the list, whatever their order.
-/

namespace Scaffold

/-- No key names two different items of a list. -/
def KeysApart {α : Type} (named : String → α → Bool) (l : List α) : Prop :=
  ∀ a ∈ l, ∀ b ∈ l, ∀ key, named key a = true → named key b = true → a = b

namespace KeysApart

variable {α : Type} {named : String → α → Bool} {l l' : List α} {key : String} {a : α}

theorem subset (apart : KeysApart named l) (sub : ∀ a ∈ l', a ∈ l) : KeysApart named l' :=
  fun a memA b memB key => apart a (sub a memA) b (sub b memB) key

/-- What a key finds is what it names. -/
theorem find?_eq_some_iff (apart : KeysApart named l) :
    l.find? (named key) = some a ↔ a ∈ l ∧ named key a = true := by
  constructor
  · intro found
    exact ⟨List.mem_of_find?_eq_some found, List.find?_some found⟩
  · rintro ⟨mem, isNamed⟩
    obtain ⟨b, found⟩ := Option.isSome_iff_exists.mp (List.find?_isSome.mpr ⟨a, mem, isNamed⟩)
    rw [found, apart a mem b (List.mem_of_find?_eq_some found) key isNamed (List.find?_some found)]

/-- Lists of the same items find the same. -/
theorem find?_congr (apart : KeysApart named l) (same : ∀ a, a ∈ l' ↔ a ∈ l) (key : String) :
    l'.find? (named key) = l.find? (named key) := by
  have apart' := apart.subset fun a => (same a).mp
  ext a
  rw [apart'.find?_eq_some_iff, apart.find?_eq_some_iff, same a]

/-- What is found in a part of a list is what is found in the whole, if it is in the part. -/
theorem find?_filter (apart : KeysApart named l) (keep : α → Bool) (key : String) :
    (l.filter keep).find? (named key) = (l.find? (named key)).filter keep := by
  have part : KeysApart named (l.filter keep) := by
    apply apart.subset
    intro a mem
    exact (List.mem_filter.mp mem).1
  ext a
  rw [part.find?_eq_some_iff, Option.filter_eq_some_iff, apart.find?_eq_some_iff, List.mem_filter]
  exact and_right_comm

end KeysApart

namespace Metadata.Provider

variable {p q : Provider} {t : RawType}

/-- In another order the types are found by the same names. -/
theorem find?_of_perm (perm : q.types.Perm p.types) (apart : KeysApart RawType.isNamed p.types) :
    q.find? = p.find? := by
  funext written
  unfold find? lookup?
  split
  · rfl
  · exact apart.find?_congr (fun t => perm.mem_iff) (cleanName written)

theorem ancestorsFrom_congr (found : q.find? = p.find?) (start : RawType) (fuel : Nat)
    (seen : List String) (t : RawType) :
    q.ancestorsFrom start fuel seen t = p.ancestorsFrom start fuel seen t := by
  induction fuel generalizing seen t with
  | zero => rfl
  | succ fuel ih => simp only [ancestorsFrom, found, ih]

theorem basesFrom_congr (found : q.find? = p.find?) (fuel : Nat) (seen : List String) (t : RawType) :
    q.basesFrom fuel seen t = p.basesFrom fuel seen t := by
  induction fuel generalizing seen t with
  | zero => rfl
  | succ fuel ih => simp only [basesFrom, found, ih]

/-- The names above a type do not depend on the order of the types. -/
theorem ancestors_of_perm (perm : q.types.Perm p.types) (apart : KeysApart RawType.isNamed p.types) :
    q.ancestors t = p.ancestors t := by
  rw [ancestors, ancestors, perm.length_eq, ancestorsFrom_congr (find?_of_perm perm apart)]

/-- The properties of a type do not depend on the order of the types. -/
theorem properties_of_perm (perm : q.types.Perm p.types) (apart : KeysApart RawType.isNamed p.types) :
    q.properties t = p.properties t := by
  rw [properties, properties, bases, bases, perm.length_eq,
    basesFrom_congr (find?_of_perm perm apart)]

end Metadata.Provider

end Scaffold

namespace Scaffold.Graph

/-- What a key means among types, given by their short and qualified names. -/
def keyAmong (names : List (String × String)) (key : String) : Option String :=
  if key = "" then none
  else if names.any (·.2 = key) then some key
  else (names.find? (·.1 = key)).map (·.2)

theorem keyAmong_map {α : Type} (name qualified : α → String) (l : List α) (key : String) :
    keyAmong (l.map fun a => (name a, qualified a)) key =
      if key = "" then none
      else if l.any (qualified · = key) then some key
      else (l.find? (name · = key)).map qualified := by
  unfold keyAmong
  rw [List.any_map, List.find?_map, Option.map_map]
  rfl

/-- A key that means something is a name of the type that it means. -/
theorem mem_of_keyAmong {names : List (String × String)} {key found : String}
    (h : keyAmong names key = some found) :
    key ≠ "" ∧ ∃ pair ∈ names, pair.2 = found ∧ (pair.2 = key ∨ pair.1 = key) := by
  unfold keyAmong at h
  split at h
  · cases h
  rename_i said
  refine ⟨said, ?_⟩
  split at h
  · rename_i isKey
    obtain ⟨pair, mem, same⟩ := List.any_eq_true.mp isKey
    have qualified : pair.2 = key := of_decide_eq_true same
    exact ⟨pair, mem, qualified.trans (Option.some.inj h), .inl qualified⟩
  · obtain ⟨pair, first, same⟩ := Option.map_eq_some_iff.mp h
    exact ⟨pair, List.mem_of_find?_eq_some first, same,
      .inr (by simpa using List.find?_some first)⟩

/-- A name means something. -/
theorem exists_keyAmong {names : List (String × String)} {key : String} (said : key ≠ "")
    {pair : String × String} (mem : pair ∈ names) (isName : pair.2 = key ∨ pair.1 = key) :
    ∃ found, keyAmong names key = some found := by
  unfold keyAmong
  rw [if_neg said]
  split
  · exact ⟨key, rfl⟩
  · rename_i notKey
    have short : pair.1 = key := isName.resolve_left fun qualified =>
      notKey (List.any_eq_true.mpr ⟨pair, mem, decide_eq_true qualified⟩)
    have isSome : (names.find? (·.1 = key)).isSome := List.find?_isSome.mpr ⟨pair, mem, by simpa using short⟩
    obtain ⟨first, found⟩ := Option.isSome_iff_exists.mp isSome
    exact ⟨first.2, by rw [found]; rfl⟩

/-- The short and the qualified name. -/
def TypeDescriptor.names (d : TypeDescriptor) : String × String := (d.name, d.qualifiedName)

/-- The short and the qualified name. -/
def rawNames (t : Metadata.RawType) : String × String := (t.name, t.qualifiedName)

/-- A name refers to what it means among the accepted types. -/
theorem elementKey?_eq (accepted : List Metadata.RawType) (key : String) :
    elementKey? accepted key = keyAmong (accepted.map rawNames) key :=
  (keyAmong_map Metadata.RawType.name Metadata.RawType.qualifiedName accepted key).symm

theorem isNamed_iff_rawNames {t : Metadata.RawType} {key : String} :
    t.isNamed key = true ↔ (rawNames t).2 = key ∨ (rawNames t).1 = key := by
  simp [Metadata.RawType.isNamed, rawNames]

/-- Types of which no two have a name in common have their keys apart. -/
theorem keysApart_of_names {l : List Metadata.RawType}
    (h : (l.map rawNames).Pairwise fun a b => ∀ key ∈ [a.1, a.2], key ∉ [b.1, b.2]) :
    KeysApart Metadata.RawType.isNamed l := by
  let SharesNone (t u : Metadata.RawType) : Prop :=
    ∀ key, t.isNamed key = true → u.isNamed key = true → t = u
  have symmetric : Std.Symm SharesNone := ⟨fun t u none_ key isU isT => (none_ key isT isU).symm⟩
  have pairs : l.Pairwise SharesNone := by
    apply (List.pairwise_map.mp h).imp
    intro t u disjoint key isT isU
    have names (v : Metadata.RawType) (isV : v.isNamed key = true) :
        key ∈ [(rawNames v).1, (rawNames v).2] := by
      rcases isNamed_iff_rawNames.mp isV with rfl | rfl <;> simp
    exact absurd (names u isU) (disjoint key (names t isT))
  exact List.Pairwise.forall_of_forall (fun t _ key _ _ => rfl) pairs

/-- Where keys are apart, a name refers to the one accepted type that it names. -/
theorem elementKey?_eq_some_iff {accepted : List Metadata.RawType}
    (apart : KeysApart Metadata.RawType.isNamed accepted) {key found : String} :
    elementKey? accepted key = some found ↔
      key ≠ "" ∧ ∃ t ∈ accepted, t.qualifiedName = found ∧ t.isNamed key = true := by
  have means {found : String} (h : elementKey? accepted key = some found) :
      key ≠ "" ∧ ∃ t ∈ accepted, t.qualifiedName = found ∧ t.isNamed key = true := by
    obtain ⟨said, pair, mem, same, isName⟩ := mem_of_keyAmong (elementKey?_eq accepted key ▸ h)
    obtain ⟨t, memT, rfl⟩ := List.mem_map.mp mem
    exact ⟨said, t, memT, same, isNamed_iff_rawNames.mpr isName⟩
  constructor
  · exact means
  · rintro ⟨said, t, mem, rfl, isNamed⟩
    obtain ⟨found, h⟩ :=
      exists_keyAmong said (List.mem_map_of_mem (f := rawNames) mem) (isNamed_iff_rawNames.mp isNamed)
    rw [← elementKey?_eq] at h
    obtain ⟨_, u, memU, rfl, isNamedU⟩ := means h
    rw [h, apart t mem u memU key isNamed isNamedU]

/-- Is this the qualified or the short name of the type? -/
def TypeDescriptor.isNamed (key : String) (d : TypeDescriptor) : Bool :=
  d.qualifiedName = key || d.name = key

namespace TypeGraph

variable {ds ds' : List TypeDescriptor} {d : TypeDescriptor} {key : String}

/-- A short name stands for the first type that has it. -/
theorem get?_byShortName_ofList (ds : List TypeDescriptor) (key : String) :
    Fields.get? (ofList ds).byShortName key = (ds.find? (·.name = key)).map (·.qualifiedName) := by
  have from_ (g : TypeGraph) : Fields.get? (ds.foldl add g).byShortName key =
      (Fields.get? g.byShortName key).or ((ds.find? (·.name = key)).map (·.qualifiedName)) := by
    induction ds generalizing g with
    | nil => simp
    | cons e rest ih =>
      rw [List.foldl_cons, ih, add, List.find?_cons]
      by_cases same : e.name = key
      · subst same
        cases known : Fields.get? g.byShortName e.name <;> simp [known, Fields.get?_put]
      · cases Fields.get? g.byShortName e.name <;> simp [same, Ne.symm same, Fields.get?_put]
  exact from_ empty

/-- What a key means, by the qualified name of the type that is found. -/
theorem qualifiedName_get?_ofList (ds : List TypeDescriptor) (key : String) :
    ((ofList ds).get? key).map (·.qualifiedName) = keyAmong (ds.map (·.names)) key := by
  refine Eq.trans ?_ (keyAmong_map TypeDescriptor.name TypeDescriptor.qualifiedName ds key).symm
  unfold get?
  split
  · rfl
  split
  · rename_i isKey
    obtain ⟨d, found⟩ := exists_get? (by simpa using isKey)
    rw [found, ← qualifiedName_of_get? found]
    rfl
  · rename_i isKey
    have absent : Fields.get? (ofList ds).byQualifiedName key = none :=
      Fields.get?_eq_none.mpr fun mem => isKey (by simpa using mem_keys_ofList.mp mem)
    rw [absent, get?_byShortName_ofList]
    cases first : ds.find? (·.name = key) with
    | none => rfl
    | some e =>
      have mem := List.mem_map_of_mem (f := (·.qualifiedName)) (List.mem_of_find?_eq_some first)
      obtain ⟨d, found⟩ := exists_get? mem
      simp [found, qualifiedName_of_get? found]

theorem isNamed_iff : d.isNamed key = true ↔ d.qualifiedName = key ∨ d.name = key := by
  simp [TypeDescriptor.isNamed]

/-- Where keys are apart, what a key finds is a type that it names. -/
theorem isNamed_of_get? (apart : KeysApart TypeDescriptor.isNamed ds) (h : (ofList ds).get? key = some d) :
    d ∈ ds ∧ d.isNamed key = true := by
  have mem : d ∈ ds := mem_of_mem_ofList (mem_of_get? h)
  have means := qualifiedName_get?_ofList ds key
  rw [h, Option.map_some] at means
  obtain ⟨_, pair, memPair, same, isName⟩ := mem_of_keyAmong means.symm
  obtain ⟨e, memE, rfl⟩ := List.mem_map.mp memPair
  -- What the key means has the qualified name of what is found, so that it is the same type.
  obtain rfl : e = d := apart e memE d mem d.qualifiedName (isNamed_iff.mpr (.inl same))
    (isNamed_iff.mpr (.inl rfl))
  exact ⟨mem, isNamed_iff.mpr isName⟩

theorem exists_get?_of_isNamed (said : key ≠ "") (mem : d ∈ ds) (isNamed : d.isNamed key = true) :
    ∃ e, (ofList ds).get? key = some e := by
  obtain ⟨found, means⟩ :=
    exists_keyAmong said (List.mem_map_of_mem (f := (·.names)) mem) (isNamed_iff.mp isNamed)
  rw [← qualifiedName_get?_ofList] at means
  obtain ⟨e, found, _⟩ := Option.map_eq_some_iff.mp means
  exact ⟨e, found⟩

/-- Where keys are apart, a key finds the one type that it names. -/
theorem get?_ofList_of_apart (apart : KeysApart TypeDescriptor.isNamed ds) (key : String) :
    (ofList ds).get? key = if key = "" then none else ds.find? (TypeDescriptor.isNamed key) := by
  split
  · rename_i empty_
    rw [get?, if_pos empty_]
  · rename_i said
    ext d
    rw [apart.find?_eq_some_iff]
    constructor
    · exact isNamed_of_get? apart
    · rintro ⟨mem, isNamed⟩
      obtain ⟨e, found⟩ := exists_get?_of_isNamed said mem isNamed
      obtain ⟨memE, isNamedE⟩ := isNamed_of_get? apart found
      rw [found, apart d mem e memE key isNamed isNamedE]

/-- Where keys are apart, the graph holds just the types of the list. -/
theorem mem_descriptors_ofList (apart : KeysApart TypeDescriptor.isNamed ds) :
    d ∈ (ofList ds).descriptors ↔ d ∈ ds := by
  refine ⟨mem_of_mem_ofList, ?_⟩
  intro mem
  obtain ⟨e, found⟩ := exists_get? (List.mem_map_of_mem (f := (·.qualifiedName)) mem)
  have memE : e ∈ (ofList ds).descriptors := List.mem_map.mpr ⟨_, Fields.mem_of_get? found, rfl⟩
  have same : d = e := apart d mem e (mem_of_mem_ofList memE) d.qualifiedName
    (isNamed_iff.mpr (.inl rfl)) (isNamed_iff.mpr (.inl (qualifiedName_of_get? found)))
  exact same ▸ memE

end TypeGraph

end Scaffold.Graph
