import Scaffold.Proofs.Metadata.WayUp
import Scaffold.Proofs.Graph.Reports

/-!
The properties of a type and its bases. They stand in the order in which the chain, read from the furthest
base on, names them first; and each is the declaration that is nearest to the type.
-/

namespace Scaffold.Metadata

/-- The names of the base and of the owners of properties are texts, where there are any. -/
structure RawType.HasTexts (t : RawType) : Prop where
  base : t.HasTextBase
  owners : ∀ q ∈ t.properties, q.declaredOn.IsTextIfSet

namespace Provider

variable {p : Provider} {t owner : RawType} {chain : List RawType} {c : Declared} {q : RawProperty}

/-- The type that a property of an owner counts as declared on. -/
def ownerName (owner : RawType) (q : RawProperty) : String :=
  (declaringName owner q).toOption.getD owner.name

theorem declaringName_eq_ok (texts : q.declaredOn.IsTextIfSet) :
    declaringName owner q = .ok (ownerName owner q) := by
  obtain ⟨name, declared⟩ : ∃ name, declaringName owner q = .ok name := declaringName_ok texts
  rw [ownerName, declared]
  rfl

/-- The properties of a type, by their names. -/
def declarations (owner : RawType) : List (String × Declared) :=
  owner.properties.map fun q => (q.name, ⟨ownerName owner q, q⟩)

theorem addProperties_eq_ok {qs : List RawProperty} (texts : ∀ q ∈ qs, q.declaredOn.IsTextIfSet)
    (known : List (String × Declared)) :
    addProperties owner known qs =
      .ok (Fields.merge known (qs.map fun q => (q.name, ⟨ownerName owner q, q⟩))) := by
  induction qs generalizing known with
  | nil => rfl
  | cons q rest ih =>
    obtain ⟨here, later⟩ := List.forall_mem_cons.mp texts
    rw [addProperties, declaringName_eq_ok here]
    exact ih later _

theorem addOwners_eq_ok {owners : List RawType} (texts : ∀ owner ∈ owners, owner.HasTexts)
    (known : List (String × Declared)) :
    addOwners known owners = .ok (Fields.merge known (owners.flatMap declarations)) := by
  induction owners generalizing known with
  | nil => rfl
  | cons owner rest ih =>
    obtain ⟨here, later⟩ := List.forall_mem_cons.mp texts
    have added : addProperties owner known owner.properties = .ok (Fields.merge known (declarations owner)) :=
      addProperties_eq_ok here.owners known
    rw [addOwners, added, List.flatMap_cons, Fields.merge_append]
    exact ih later _

/-- A declaration is the nearest one of its name on a chain of types, and the last one within its type. -/
inductive Nearest : List RawType → Declared → Prop
  | here {owner : RawType} {further : List RawType} {c : Declared} {first last : List RawProperty} :
      owner.properties = first ++ c.property :: last → (∀ q ∈ last, q.name ≠ c.property.name) →
      declaringName owner c.property = .ok c.declaring → Nearest (owner :: further) c
  | further {owner : RawType} {further : List RawType} {c : Declared} :
      (∀ q ∈ owner.properties, q.name ≠ c.property.name) → Nearest further c → Nearest (owner :: further) c

/-- What comes last when the chain is read from its far end is nearest. -/
theorem nearest_of_lookup {name : String} (texts : ∀ u ∈ chain, u.HasTexts)
    (found : (chain.flatMap fun u => (declarations u).reverse).lookup name = some c) :
    c.property.name = name ∧ Nearest chain c := by
  induction chain with
  | nil => cases found
  | cons owner further ih =>
    obtain ⟨here, later⟩ := List.forall_mem_cons.mp texts
    rw [List.flatMap_cons, List.lookup_append] at found
    cases own : (declarations owner).reverse.lookup name with
    | some declared =>
      obtain rfl : declared = c := by simpa [own] using found
      obtain ⟨last, first, halves, other⟩ := List.lookup_eq_some_iff.mp own
      have order : declarations owner = first.reverse ++ (name, declared) :: last.reverse := by
        rw [← List.reverse_reverse (declarations owner), halves]
        simp
      obtain ⟨before, rest, whole, -, atRest⟩ := List.map_eq_append_iff.mp order
      obtain ⟨q, after, rfl, entry, atAfter⟩ := List.map_eq_cons_iff.mp atRest
      obtain ⟨rfl, rfl⟩ := Prod.mk.inj entry
      have texts : q.declaredOn.IsTextIfSet := here.owners q (by simp [whole])
      refine ⟨rfl, .here whole (fun u mem => ?_) (declaringName_eq_ok texts)⟩
      have declared : (u.name, ⟨ownerName owner u, u⟩) ∈ last.reverse :=
        atAfter ▸ List.mem_map.mpr ⟨u, mem, rfl⟩
      exact (bne_iff_ne.mp (other _ (List.mem_reverse.mp declared))).symm
    | none =>
      rw [own, Option.none_or] at found
      obtain ⟨rfl, nearest⟩ := ih later found
      refine ⟨rfl, .further (fun q mem same => ?_) nearest⟩
      have declared : (q.name, ⟨ownerName owner q, q⟩) ∈ (declarations owner).reverse :=
        List.mem_reverse.mpr (List.mem_map.mpr ⟨q, mem, rfl⟩)
      have other := List.lookup_eq_none_iff.mp own _ declared
      exact bne_iff_ne.mp other same.symm

/-- The names of properties, in the order in which a chain that is read from its far end has them first. -/
def namesOn (chain : List RawType) : List String :=
  (chain.reverse.flatMap fun u => u.properties.map (·.name)).eraseDups

/-- Each name on the chain is collected once, in its place, with the nearest declaration. -/
theorem properties_eq_ok (texts : ∀ u ∈ t :: p.bases t, u.HasTexts) :
    ∃ collected, p.properties t = .ok collected ∧
      collected.map (·.property.name) = namesOn (t :: p.bases t) ∧
      ∀ c ∈ collected, Nearest (t :: p.bases t) c := by
  let chain := t :: p.bases t
  let known := Fields.merge [] (chain.reverse.flatMap declarations)
  have added : addOwners [] chain.reverse = .ok known :=
    addOwners_eq_ok (fun u mem => texts u (List.mem_reverse.mp mem)) []
  have named : Named known := Named.addOwners ⟨by simp, by simp⟩ added
  refine ⟨known.map (·.2), by rw [properties, added]; rfl, ?_, fun c mem => ?_⟩
  · calc (known.map (·.2)).map (·.property.name)
      _ = known.map (·.1) := by rw [List.map_map]; exact List.map_congr_left named.names
      _ = namesOn chain := by
        rw [Fields.keys_nil_merge, List.map_flatMap]
        simp [namesOn, declarations, Function.comp_def]
  · obtain ⟨⟨name, _⟩, memKnown, rfl⟩ := List.mem_map.mp mem
    have found := Fields.get?_of_mem named.distinct memKnown
    rw [Fields.get?_nil_merge, List.reverse_flatMap, List.reverse_reverse] at found
    exact (nearest_of_lookup texts found).2

/-- The way up for the names of the bases and the one for the properties come to an end, at the same bases. No
type is passed twice. The names of the bases stand nearest first, after them the one that is not known; each
property is collected once, as the nearest base declares it. -/
theorem walks_agree (texts : ∀ u ∈ t :: p.types, u.HasTexts) :
    ∃ ending collected,
      p.WayUp [t.qualifiedName] t (p.bases t) ending ∧
      ((t :: p.bases t).map (·.qualifiedName)).Nodup ∧
      (∀ fuel, p.types.length < fuel →
        p.basesFrom fuel [t.qualifiedName] t = p.bases t ∧
        p.ancestorsFrom t fuel [t.qualifiedName] t = p.ancestors t) ∧
      p.ancestors t = ⟨ending.notes t, .ok ((p.bases t).map (·.name) ++ ending.names)⟩ ∧
      p.properties t = .ok collected ∧
      (collected.map (·.property.name)).Nodup ∧
      collected.map (·.property.name) = namesOn (t :: p.bases t) ∧
      ∀ c ∈ collected, Nearest (t :: p.bases t) c := by
  obtain ⟨here, others⟩ := List.forall_mem_cons.mp texts
  obtain ⟨bases, ending, way⟩ := exists_wayUp (fun u mem => (others u mem).base) [t.qualifiedName] here.base
  have enough {fuel : Nat} (large : p.types.length < fuel) : bases.length < fuel :=
    Nat.lt_of_le_of_lt way.length_le large
  have same : p.bases t = bases := way.basesFrom (enough (Nat.lt_succ_self _))
  have above : p.ancestors t = ⟨ending.notes t, .ok (bases.map (·.name) ++ ending.names)⟩ :=
    way.ancestorsFrom t (enough (Nat.lt_succ_self _))
  have onChain : ∀ u ∈ t :: p.bases t, u.HasTexts := by
    rw [same]
    exact List.forall_mem_cons.mpr ⟨here, fun u mem => others u (way.mem u mem)⟩
  obtain ⟨collected, all, names, nearest⟩ := properties_eq_ok onChain
  refine ⟨ending, collected, same ▸ way, ?_, fun fuel large => ⟨?_, ?_⟩, same ▸ above, all,
    nodup_properties all, names, nearest⟩
  · rw [same]
    refine List.nodup_cons.mpr ⟨fun mem => ?_, way.distinct⟩
    obtain ⟨base, memBase, name⟩ := List.mem_map.mp mem
    exact way.unseen base memBase (name ▸ List.mem_singleton_self _)
  · rw [same]
    exact way.basesFrom (enough large)
  · rw [above]
    exact way.ancestorsFrom t (enough large)

/-- A type with a base and properties of these names. -/
def withBase (name namespace_ base : String) (names : List String) : RawType :=
  ⟨name, .entity, namespace_, .str base, names.map property, [], .null⟩
where
  property (name : String) : RawProperty :=
    ⟨name, "int", .null, false, false, false, true, false, false, false, .null, false, [], false⟩

theorem hasTexts_withBase (name namespace_ base : String) (names : List String) :
    (withBase name namespace_ base names).HasTexts := by
  refine ⟨.inr ⟨base, rfl⟩, fun q mem isSet => ?_⟩
  obtain ⟨name, -, rfl⟩ := List.mem_map.mp mem
  cases isSet

/-- The bases go round in a circle, and properties are declared again. -/
theorem walks_agree_circle :
    let a := withBase "A" "" "B" ["X", "Id", "X"]
    let p : Provider := ⟨[a, withBase "B" "" " n.C? " ["Name", "Note"], withBase "C" "n" "A" ["Id", "Name"]]⟩
    (∀ u ∈ a :: p.types, u.HasTexts) ∧ p.ancestors a = ⟨[cycleNote a a], .ok ["B", "C"]⟩ ∧
      ∃ collected, p.properties a = .ok collected ∧
        collected.map (·.property.name) = ["Id", "Name", "Note", "X"] ∧
        ∀ c ∈ collected, Nearest (a :: p.bases a) c := by
  intro a p
  have texts : ∀ u ∈ a :: p.types, u.HasTexts := by
    simp [a, p, hasTexts_withBase]
  obtain ⟨ending, collected, way, distinct, settled, above, all, once, names, nearest⟩ := walks_agree texts
  exact ⟨texts, rfl, collected, all, names.trans (by decide +kernel), nearest⟩

end Provider

end Scaffold.Metadata
