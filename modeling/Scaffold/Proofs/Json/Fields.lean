import Mathlib.Data.List.Induction
import Scaffold.Json.Fields

/-!
Fields by their keys. Where each key is there once, a key has the value of the one field that it is in; and
setting and erasing fields keep it so.
-/

namespace Scaffold.Fields

variable {κ α : Type} [DecidableEq κ] {fields : List (κ × α)} {key other : κ} {value : α}

theorem get?_cons (k : κ) (v : α) (rest : List (κ × α)) :
    get? ((k, v) :: rest) key = if key = k then some v else get? rest key := by
  by_cases same : key = k
  · simp [get?, same]
  · simp [get?, List.lookup_cons, same, beq_eq_false_iff_ne.mpr same]

theorem mem_of_get? (h : get? fields key = some value) : (key, value) ∈ fields := by
  induction fields with
  | nil => cases h
  | cons field rest ih =>
    obtain ⟨k, v⟩ := field
    rw [get?_cons] at h
    split at h
    · rename_i same
      rw [same, Option.some.inj h]
      exact List.mem_cons_self
    · exact List.mem_cons_of_mem _ (ih h)

/-- Nothing is found under a key that is not there. -/
theorem get?_eq_none : get? fields key = none ↔ key ∉ fields.map (·.1) := by
  rw [get?, List.lookup_eq_none_iff]
  simp only [bne_iff_ne, List.mem_map, not_exists, not_and]
  exact forall₂_congr fun field _ => ne_comm

theorem mem_put {field : κ × α} (h : field ∈ put fields key value) :
    field ∈ fields ∨ field = (key, value) := by
  induction fields with
  | nil => exact .inr (List.mem_singleton.mp h)
  | cons first rest ih =>
    obtain ⟨k, v⟩ := first
    unfold put at h
    split at h
    · rename_i same
      obtain rfl : k = key := by simpa using same
      exact (List.mem_cons.mp h).elim .inr fun mem => .inl (List.mem_cons_of_mem _ mem)
    · rcases List.mem_cons.mp h with rfl | mem
      · exact .inl List.mem_cons_self
      · exact (ih mem).imp_left (List.mem_cons_of_mem _)

/-- A new field comes at the end. -/
theorem put_eq_append (new : key ∉ fields.map (·.1)) (value : α) :
    put fields key value = fields ++ [(key, value)] := by
  induction fields with
  | nil => rfl
  | cons field rest ih =>
    obtain ⟨k, v⟩ := field
    obtain ⟨other, newRest⟩ := not_or.mp fun known => new (List.mem_cons.mpr known)
    rw [put, if_neg (by simpa using Ne.symm other), ih newRest, List.cons_append]

/-- Setting a field adds its key at the end, unless it is there. -/
theorem keys_put (fields : List (κ × α)) (key : κ) (value : α) :
    (put fields key value).map (·.1) =
      if key ∈ fields.map (·.1) then fields.map (·.1) else fields.map (·.1) ++ [key] := by
  induction fields with
  | nil => rfl
  | cons field rest ih =>
    obtain ⟨k, v⟩ := field
    unfold put
    by_cases same : k = key
    · simp [same]
    · simp only [beq_iff_eq, same, if_false, List.map_cons, ih, List.mem_cons, Ne.symm same, false_or]
      split <;> rfl

theorem mem_keys_put : other ∈ (put fields key value).map (·.1) ↔
    other ∈ fields.map (·.1) ∨ other = key := by
  rw [keys_put]
  split
  · exact ⟨.inl, fun mem => mem.elim id fun same => same ▸ ‹_›⟩
  · rw [List.mem_append, List.mem_singleton]

theorem get?_of_mem (distinct : (fields.map (·.1)).Nodup) (mem : (key, value) ∈ fields) :
    get? fields key = some value := by
  induction fields with
  | nil => cases mem
  | cons field rest ih =>
    obtain ⟨k, v⟩ := field
    obtain ⟨fresh, distinctRest⟩ := List.nodup_cons.mp distinct
    rcases List.mem_cons.mp mem with here | later
    · obtain ⟨rfl, rfl⟩ := Prod.mk.inj here
      rw [get?_cons, if_pos rfl]
    · have other : key ≠ k := by
        rintro rfl
        exact fresh (List.mem_map.mpr ⟨_, later, rfl⟩)
      rw [get?_cons, if_neg other, ih distinctRest later]

theorem nodup_put (distinct : (fields.map (·.1)).Nodup) (key : κ) (value : α) :
    ((put fields key value).map (·.1)).Nodup := by
  rw [keys_put]
  split
  · exact distinct
  · rename_i new
    refine List.nodup_append.mpr ⟨distinct, by simp, fun k mem k' mem' => ?_⟩
    rw [List.mem_singleton.mp mem']
    exact fun same => new (same ▸ mem)

theorem get?_erase (fields : List (κ × α)) (key other : κ) :
    get? (erase fields key) other = if other = key then none else get? fields other := by
  induction fields with
  | nil => simp [erase, get?]
  | cons field rest ih =>
    obtain ⟨k, v⟩ := field
    by_cases same : k = key
    · have gone : erase ((k, v) :: rest) key = erase rest key := by simp [erase, same]
      rw [gone, ih, get?_cons, same]
      split <;> simp_all
    · have kept : erase ((k, v) :: rest) key = (k, v) :: erase rest key := by simp [erase, same]
      rw [kept, get?_cons, get?_cons, ih]
      split
      · rename_i found
        rw [if_neg (found ▸ same)]
      · rfl

/-- The fields that come later win. -/
theorem get?_merge (old : List (κ × α)) {new : List (κ × α)} (distinct : (new.map (·.1)).Nodup) (key : κ) :
    get? (merge old new) key = (get? new key).or (get? old key) := by
  induction new generalizing old with
  | nil => rfl
  | cons field rest ih =>
    obtain ⟨k, v⟩ := field
    obtain ⟨fresh, distinctRest⟩ := List.nodup_cons.mp distinct
    change get? (merge (put old k v) rest) key = _
    rw [ih (put old k v) distinctRest, get?_put, get?_cons]
    split
    · rename_i same
      rw [get?_eq_none.mpr (same ▸ fresh)]
      rfl
    · rfl

/-- Fields of new keys come at the end. -/
theorem merge_eq_append {old new : List (κ × α)} (distinct : ((old ++ new).map (·.1)).Nodup) :
    merge old new = old ++ new := by
  induction new generalizing old with
  | nil => exact (List.append_nil old).symm
  | cons field rest ih =>
    have shifted : old ++ field :: rest = old ++ [field] ++ rest := by simp
    have fresh : field.1 ∉ old.map (·.1) := by
      rw [List.map_append] at distinct
      exact fun known => (List.nodup_append.mp distinct).2.2 _ known _ List.mem_cons_self rfl
    change merge (put old field.1 field.2) rest = _
    rw [put_eq_append fresh, shifted, ih (shifted ▸ distinct)]

theorem nil_merge (distinct : (fields.map (·.1)).Nodup) : merge [] fields = fields :=
  merge_eq_append distinct

theorem merge_append (old new more : List (κ × α)) :
    merge old (new ++ more) = merge (merge old new) more := List.foldl_append

/-- Keys stand in the order in which they were set first. -/
theorem keys_nil_merge (new : List (κ × α)) :
    (merge [] new).map (·.1) = (new.map (·.1)).eraseDups := by
  induction new using List.reverseRecOn with
  | nil => rfl
  | append_singleton set field ih =>
    have step : merge [] (set ++ [field]) = put (merge [] set) field.1 field.2 := merge_append [] set [field]
    rw [step, keys_put, ih, List.map_append, List.eraseDups_append]
    by_cases known : field.1 ∈ set.map (·.1)
    · rw [if_pos (List.mem_eraseDups.mpr known)]
      simp [known, List.removeAll]
    · rw [if_neg (known ∘ List.mem_eraseDups.mp)]
      simp [known, List.removeAll, List.eraseDups_cons]

/-- A key has the value that was set last. -/
theorem get?_nil_merge (new : List (κ × α)) (key : κ) : get? (merge [] new) key = new.reverse.lookup key := by
  induction new using List.reverseRecOn with
  | nil => rfl
  | append_singleton set field ih =>
    have step : merge [] (set ++ [field]) = put (merge [] set) field.1 field.2 := merge_append [] set [field]
    rw [step, get?_put, ih, List.reverse_concat]
    exact (get?_cons field.1 field.2 set.reverse).symm

/-- Changing all values leaves each field in its place. -/
theorem map_put {β : Type} (h : α → β) (fields : List (κ × α)) (key : κ) (value : α) :
    (put fields key value).map (fun (k, v) => (k, h v)) =
      put (fields.map fun (k, v) => (k, h v)) key (h value) := by
  induction fields with
  | nil => rfl
  | cons field rest ih =>
    simp only [put, List.map_cons]
    split <;> simp [ih]

theorem get?_map {β : Type} (h : α → β) (fields : List (κ × α)) (key : κ) :
    get? (fields.map fun (k, v) => (k, h v)) key = (get? fields key).map h := by
  induction fields with
  | nil => rfl
  | cons field rest ih =>
    rw [List.map_cons, get?_cons, get?_cons, ih, apply_ite (Option.map h)]
    rfl

/-- Where items are fields under keys of their own, a look-up is a search. -/
theorem get?_map_key {β : Type} (keyOf : β → κ) (items : List β) (key : κ) :
    get? (items.map fun item => (keyOf item, item)) key = items.find? fun item => keyOf item = key := by
  induction items with
  | nil => rfl
  | cons item rest ih =>
    rw [List.map_cons, get?_cons, ih, List.find?_cons]
    by_cases here : keyOf item = key
    · simp [here]
    · simp [here, Ne.symm here]

variable (p : κ → Bool)

theorem filter_put (fields : List (κ × α)) (key : κ) (value : α) :
    (put fields key value).filter (fun field => p field.1) =
      if p key then put (fields.filter fun field => p field.1) key value
      else fields.filter fun field => p field.1 := by
  induction fields with
  | nil => by_cases kept : p key <;> simp [put, kept]
  | cons field rest ih =>
    obtain ⟨k, v⟩ := field
    by_cases same : k = key
    · subst same
      by_cases kept : p k <;> simp [put, kept]
    · by_cases kept : p key <;> by_cases here : p k <;> simp_all [put]

theorem erase_put (fields : List (κ × α)) (key : κ) (value : α) :
    erase (put fields key value) key = erase fields key :=
  (filter_put (· != key) fields key value).trans (if_neg (by simp))

theorem erase_of_new (new : key ∉ fields.map (·.1)) : erase fields key = fields := by
  refine List.filter_eq_self.mpr fun field mem => bne_iff_ne.mpr ?_
  rintro rfl
  exact new (List.mem_map_of_mem mem)

/-- A value that is not kept may be set where none is that is kept. -/
theorem filter_put_of_dropped {q : α → Bool} (dropped : q value = false)
    (old : ∀ v, get? fields key = some v → q v = false) :
    (put fields key value).filter (fun field => q field.2) = fields.filter fun field => q field.2 := by
  induction fields with
  | nil => simp [put, dropped]
  | cons field rest ih =>
    obtain ⟨k, v⟩ := field
    by_cases same : k = key
    · have droppedHere : q v = false := old v (by rw [get?_cons, if_pos same.symm])
      simp [put, same, dropped, droppedHere]
    · have later := ih fun v found => old v (by rwa [get?_cons, if_neg (Ne.symm same)])
      simp only [put, beq_iff_eq, same, if_false, List.filter_cons, later]

/-- What is kept of the fields of a merge is the merge of what is kept. -/
theorem filter_merge (old new : List (κ × α)) :
    (merge old new).filter (fun field => p field.1) =
      merge (old.filter fun field => p field.1) (new.filter fun field => p field.1) := by
  induction new generalizing old with
  | nil => rfl
  | cons field rest ih =>
    have step : (merge old (field :: rest)).filter (fun field => p field.1) =
        merge ((put old field.1 field.2).filter fun field => p field.1)
          (rest.filter fun field => p field.1) := ih (put old field.1 field.2)
    rw [step, filter_put]
    by_cases kept : p field.1
    · rw [if_pos kept, List.filter_cons_of_pos (p := fun field : κ × α => p field.1) kept]
      rfl
    · rw [if_neg kept, List.filter_cons_of_neg (p := fun field : κ × α => p field.1) kept]

end Scaffold.Fields
