import Scaffold.Proofs.Graph.WellFormed

/-!
The way up from a type to its bases. It passes no type twice, so it comes to an end whatever the bases are,
and what is found on it does not depend on how many steps are allowed.
-/

namespace Scaffold.Metadata

/-- How the way up ends: where no base is named, at a base that is not known, or at one passed before. -/
inductive WayEnd where
  | noBase
  | unknown (written : String)
  | passed (base : RawType)

/-- The name that the end adds to those of the bases. -/
def WayEnd.names : WayEnd → List String
  | .unknown written => [cleanName written]
  | .noBase | .passed _ => []

def WayEnd.notes (start : RawType) : WayEnd → List Note
  | .passed base => [Provider.cycleNote start base]
  | .noBase | .unknown _ => []

/-- The base of a type, if it has one, is written as a text. -/
def RawType.HasTextBase (t : RawType) : Prop := t.base = .null ∨ ∃ written, t.base = .str written

namespace Provider

/-- The way up from a type, base by base, with the qualified names that were seen before. No number of steps
is set. -/
inductive WayUp (p : Provider) : List String → RawType → List RawType → WayEnd → Prop
  | noBase {seen : List String} {t : RawType} :
      t.base = .null ∨ t.base = .str "" → WayUp p seen t [] .noBase
  | unknown {seen : List String} {t : RawType} {written : String} :
      t.base = .str written → written ≠ "" → p.find? written = none → WayUp p seen t [] (.unknown written)
  | passed {seen : List String} {t base : RawType} {written : String} :
      t.base = .str written → p.find? written = some base → base.qualifiedName ∈ seen →
      WayUp p seen t [] (.passed base)
  | climb {seen : List String} {t base : RawType} {written : String} {bases : List RawType} {ending : WayEnd} :
      t.base = .str written → p.find? written = some base → base.qualifiedName ∉ seen →
      WayUp p (base.qualifiedName :: seen) base bases ending → WayUp p seen t (base :: bases) ending

variable {p : Provider} {seen : List String} {t base : RawType} {bases : List RawType} {ending : WayEnd}

theorem find?_empty (p : Provider) : p.find? "" = none := rfl

namespace WayUp

theorem mem (way : p.WayUp seen t bases ending) : ∀ base ∈ bases, base ∈ p.types := by
  induction way with
  | noBase | unknown | passed => simp
  | climb _ found _ _ ih => exact List.forall_mem_cons.mpr ⟨mem_of_find? found, ih⟩

theorem unseen (way : p.WayUp seen t bases ending) : ∀ base ∈ bases, base.qualifiedName ∉ seen := by
  induction way with
  | noBase | unknown | passed => simp
  | climb _ _ new _ ih =>
    refine List.forall_mem_cons.mpr ⟨new, fun base mem before => ?_⟩
    exact ih base mem (List.mem_cons_of_mem _ before)

/-- No base is passed twice. -/
theorem distinct (way : p.WayUp seen t bases ending) : (bases.map (·.qualifiedName)).Nodup := by
  induction way with
  | noBase | unknown | passed => exact List.nodup_nil
  | climb _ _ _ further ih =>
    refine List.nodup_cons.mpr ⟨fun mem => ?_, ih⟩
    obtain ⟨base, memBase, same⟩ := List.mem_map.mp mem
    exact further.unseen base memBase (same ▸ List.mem_cons_self)

/-- There are no more bases on the way than types. -/
theorem length_le (way : p.WayUp seen t bases ending) : bases.length ≤ p.types.length :=
  (way.distinct.of_map _).length_le_of_subset way.mem

theorem basesFrom (way : p.WayUp seen t bases ending) {fuel : Nat} (enough : bases.length < fuel) :
    p.basesFrom fuel seen t = bases := by
  induction way generalizing fuel with
  | noBase base =>
    cases fuel <;> rcases base with base | base <;> simp [Provider.basesFrom, RawType.baseName?, base, find?_empty]
  | unknown base _ found => cases fuel <;> simp [Provider.basesFrom, RawType.baseName?, base, found]
  | passed base found before => cases fuel <;> simp [Provider.basesFrom, RawType.baseName?, base, found, before]
  | climb base found new _ ih =>
    obtain ⟨fuel, rfl⟩ := Nat.exists_eq_succ_of_ne_zero (Nat.ne_zero_of_lt enough)
    have further := ih (Nat.lt_of_succ_lt_succ enough)
    simp [Provider.basesFrom, RawType.baseName?, base, found, new, further]

theorem ancestorsFrom (way : p.WayUp seen t bases ending) (start : RawType) {fuel : Nat}
    (enough : bases.length < fuel) :
    p.ancestorsFrom start fuel seen t = ⟨ending.notes start, .ok (bases.map (·.name) ++ ending.names)⟩ := by
  induction way generalizing fuel with
  | noBase base =>
    obtain ⟨fuel, rfl⟩ := Nat.exists_eq_succ_of_ne_zero (Nat.ne_zero_of_lt enough)
    rcases base with base | base <;>
      simp [Provider.ancestorsFrom, RawType.baseName?, base, find?_empty, Outcome.ok, WayEnd.notes, WayEnd.names]
  | unknown base some_ found =>
    obtain ⟨fuel, rfl⟩ := Nat.exists_eq_succ_of_ne_zero (Nat.ne_zero_of_lt enough)
    simp [Provider.ancestorsFrom, RawType.baseName?, base, some_, found, Outcome.ok, WayEnd.notes, WayEnd.names]
  | passed base found before =>
    obtain ⟨fuel, rfl⟩ := Nat.exists_eq_succ_of_ne_zero (Nat.ne_zero_of_lt enough)
    simp [Provider.ancestorsFrom, RawType.baseName?, base, found, before, Outcome.ok, Outcome.bind,
      Outcome.note, WayEnd.notes, WayEnd.names]
  | climb base found new _ ih =>
    obtain ⟨fuel, rfl⟩ := Nat.exists_eq_succ_of_ne_zero (Nat.ne_zero_of_lt enough)
    have above := ih (Nat.lt_of_succ_lt_succ enough)
    simp [Provider.ancestorsFrom, RawType.baseName?, base, found, new, above, Outcome.ok, Outcome.bind]

end WayUp

/-- The types whose qualified names were not seen before. -/
def unseen (p : Provider) (seen : List String) : List RawType := p.types.filter (·.qualifiedName ∉ seen)

/-- With every base that is passed fewer types are left. -/
theorem length_unseen_lt (mem : base ∈ p.types) (new : base.qualifiedName ∉ seen) :
    (p.unseen (base.qualifiedName :: seen)).length < (p.unseen seen).length := by
  have fewer : p.unseen (base.qualifiedName :: seen) =
      (p.unseen seen).filter (·.qualifiedName ≠ base.qualifiedName) := by
    simp [unseen, List.filter_filter]
  rw [fewer, List.length_filter_lt_length_iff_exists]
  exact ⟨base, List.mem_filter.mpr ⟨mem, by simpa using new⟩, by simp⟩

/-- The way up comes to an end. -/
theorem exists_wayUp (texts : ∀ u ∈ p.types, u.HasTextBase) (seen : List String) (text : t.HasTextBase) :
    ∃ bases ending, p.WayUp seen t bases ending := by
  induction left : (p.unseen seen).length using Nat.strongRecOn generalizing seen t with
  | _ count ih =>
    rcases text with none_ | ⟨written, base⟩
    · exact ⟨[], .noBase, .noBase (.inl none_)⟩
    cases found : p.find? written with
    | none =>
      by_cases empty : written = ""
      · exact ⟨[], .noBase, .noBase (.inr (empty ▸ base))⟩
      · exact ⟨[], .unknown written, .unknown base empty found⟩
    | some next =>
      by_cases before : next.qualifiedName ∈ seen
      · exact ⟨[], .passed next, .passed base found before⟩
      · have mem := mem_of_find? found
        have fewer := length_unseen_lt mem before
        obtain ⟨bases, ending, way⟩ := ih _ (left ▸ fewer) _ (texts next mem) rfl
        exact ⟨next :: bases, ending, .climb base found before way⟩

end Provider

end Scaffold.Metadata
