import Scaffold.Outcome

/-!
Results and outcomes step by step: what a sequence ends with, and where the parts of a collected list come
from.
-/

namespace Scaffold

theorem exists_ok_of_any {ε α : Type} {x : Except ε α} {check : α → Bool}
    (h : x.toOption.any check = true) : ∃ a, x = .ok a ∧ check a = true := by
  cases x with
  | error e => simp [Except.toOption] at h
  | ok a => exact ⟨a, rfl, by simpa [Except.toOption] using h⟩

theorem eq_ok_of_toOption {ε α : Type} {x : Except ε α} {a : α} (h : x.toOption = some a) :
    x = .ok a := by
  cases x with
  | error e => simp [Except.toOption] at h
  | ok b => simpa [Except.toOption] using h

theorem exists_error_of_isOk {ε α : Type} {x : Except ε α} (h : x.isOk = false) : ∃ e, x = .error e := by
  cases x with
  | error e => exact ⟨e, rfl⟩
  | ok a => cases h

theorem exists_of_bind_eq_ok {ε α β : Type} {x : Except ε α} {f : α → Except ε β} {b : β}
    (h : x >>= f = .ok b) : ∃ a, x = .ok a ∧ f a = .ok b := by
  cases x with
  | error e => cases h
  | ok a => exact ⟨a, rfl, h⟩

theorem exists_of_map_eq_ok {ε α β : Type} {x : Except ε α} {f : α → β} {b : β} (h : x.map f = .ok b) :
    ∃ a, x = .ok a ∧ f a = b := by
  cases x with
  | error e => cases h
  | ok a => exact ⟨a, rfl, Except.ok.inj h⟩

/-- What is made of a list is made of its items. -/
theorem exists_of_mem_mapM {ε α β : Type} {f : α → Except ε β} {l : List α} {bs : List β} {b : β}
    (h : l.mapM f = .ok bs) (mem : b ∈ bs) : ∃ a ∈ l, f a = .ok b := by
  induction l generalizing bs with
  | nil =>
    obtain rfl := Except.ok.inj h
    cases mem
  | cons a rest ih =>
    rw [List.mapM_cons] at h
    obtain ⟨first, made, h⟩ := exists_of_bind_eq_ok h
    obtain ⟨more, others, h⟩ := exists_of_bind_eq_ok h
    obtain rfl := Except.ok.inj h
    rcases List.mem_cons.mp mem with rfl | mem
    · exact ⟨a, List.mem_cons_self, made⟩
    · obtain ⟨a', memA, made'⟩ := ih others mem
      exact ⟨a', List.mem_cons_of_mem _ memA, made'⟩

/-- Of every item of a list that something is made of something is made. -/
theorem exists_mem_of_mapM {ε α β : Type} {f : α → Except ε β} {l : List α} {bs : List β} {a : α}
    (h : l.mapM f = .ok bs) (mem : a ∈ l) : ∃ b ∈ bs, f a = .ok b := by
  induction l generalizing bs with
  | nil => cases mem
  | cons a rest ih =>
    rw [List.mapM_cons] at h
    obtain ⟨first, made, h⟩ := exists_of_bind_eq_ok h
    obtain ⟨more, others, h⟩ := exists_of_bind_eq_ok h
    obtain rfl := Except.ok.inj h
    rcases List.mem_cons.mp mem with rfl | mem
    · exact ⟨first, List.mem_cons_self, made⟩
    · obtain ⟨b, memB, made'⟩ := ih others mem
      exact ⟨b, List.mem_cons_of_mem _ memB, made'⟩

/-- A list of which every item is made is made item by item. -/
theorem mapM_eq_ok_map {ε α β : Type} {f : α → Except ε β} {g : α → β} {l : List α}
    (h : ∀ a ∈ l, f a = .ok (g a)) : l.mapM f = .ok (l.map g) := by
  induction l with
  | nil => rfl
  | cons a rest ih =>
    obtain ⟨here, later⟩ := List.forall_mem_cons.mp h
    rw [List.mapM_cons, here, ih later]
    rfl

/-- What can be made of every item can be made of the list. -/
theorem exists_mapM_eq_ok {ε α β : Type} {f : α → Except ε β} {l : List α}
    (h : ∀ a ∈ l, ∃ b, f a = .ok b) : ∃ bs, l.mapM f = .ok bs := by
  induction l with
  | nil => exact ⟨[], rfl⟩
  | cons a rest ih =>
    obtain ⟨here, later⟩ := List.forall_mem_cons.mp h
    obtain ⟨b, first⟩ := here
    obtain ⟨bs, others⟩ := ih later
    exact ⟨b :: bs, by rw [List.mapM_cons, first, others]; rfl⟩

namespace Outcome

variable {ε α β : Type} {x : Outcome ε α} {f : α → Outcome ε β} {b : β}

theorem bind_eq_ok :
    (x.bind f).result = .ok b ↔ ∃ a, x.result = .ok a ∧ (f a).result = .ok b := by
  unfold bind
  cases x.result <;> simp

theorem result_ofExcept {r : Except ε α} : (ofExcept r).result = r := rfl

/-- What is collected was found at an item of the list. -/
theorem exists_of_mem_collect {f : α → Outcome ε (Option β)} {l : List α} {bs : List β}
    (h : (collect f l).result = .ok bs) (mem : b ∈ bs) : ∃ a ∈ l, (f a).result = .ok (some b) := by
  induction l generalizing bs with
  | nil =>
    obtain rfl : [] = bs := Except.ok.inj h
    cases mem
  | cons a rest ih =>
    obtain ⟨found, first, h⟩ := bind_eq_ok.mp h
    obtain ⟨more, others, h⟩ := bind_eq_ok.mp h
    obtain rfl : found.toList ++ more = bs := Except.ok.inj h
    rcases List.mem_append.mp mem with here | there
    · obtain rfl : found = some b := by simpa using here
      exact ⟨a, List.mem_cons_self, first⟩
    · obtain ⟨a', memRest, eq⟩ := ih others there
      exact ⟨a', List.mem_cons_of_mem _ memRest, eq⟩

theorem notes_bind {a : α} (h : x.result = .ok a) : (x.bind f).notes = x.notes ++ (f a).notes := by
  simp [bind, h]

/-- What was found, if the search went through and there was something. -/
def found? (x : Outcome ε (Option β)) : Option β := x.result.toOption.join

/-- The same outcome with what was made of its result. -/
def map (h : α → β) (x : Outcome ε α) : Outcome ε β := ⟨x.notes, x.result.map h⟩

theorem map_bind {γ : Type} (h : β → γ) : (x.bind f).map h = x.bind fun a => (f a).map h := by
  unfold bind map
  cases x.result <;> rfl

theorem bind_map {γ : Type} (h : α → γ) (k : γ → Outcome ε β) :
    (x.map h).bind k = x.bind fun a => k (h a) := by
  unfold bind map
  cases x.result <;> rfl

variable {l : List α} {bs : List β} {search : α → Outcome ε (Option β)}

/-- A collection goes through if every search does, and holds what they found. -/
theorem collect_eq_ok_iff : (collect search l).result = .ok bs ↔
    (∀ a ∈ l, ∃ found, (search a).result = .ok found) ∧ bs = l.filterMap fun a => (search a).found? := by
  induction l generalizing bs with
  | nil => simp [collect, ok, eq_comm]
  | cons a rest ih =>
    have here (found : Option β) (first : (search a).result = .ok found) :
        (a :: rest).filterMap (fun a => (search a).found?) =
          found.toList ++ rest.filterMap fun a => (search a).found? := by
      have eq : (search a).found? = found := by simp [found?, first, Except.toOption]
      cases found <;> simp [eq]
    rw [collect, bind_eq_ok, List.forall_mem_cons]
    constructor
    · rintro ⟨found, first, h⟩
      obtain ⟨more, others, h⟩ := bind_eq_ok.mp h
      obtain ⟨all, rfl⟩ := ih.mp others
      rw [here found first]
      exact ⟨⟨⟨found, first⟩, all⟩, (Except.ok.inj h).symm⟩
    · rintro ⟨⟨⟨found, first⟩, all⟩, rfl⟩
      rw [here found first]
      exact ⟨found, first, bind_eq_ok.mpr ⟨_, ih.mpr ⟨all, rfl⟩, rfl⟩⟩

/-- Where every search goes through, the notes of all of them are kept. -/
theorem notes_collect (all : ∀ a ∈ l, ∃ found, (search a).result = .ok found) :
    (collect search l).notes = l.flatMap fun a => (search a).notes := by
  induction l with
  | nil => rfl
  | cons a rest ih =>
    obtain ⟨⟨found, first⟩, others⟩ := List.forall_mem_cons.mp all
    have later := collect_eq_ok_iff.mpr ⟨others, rfl⟩
    rw [collect, notes_bind first, notes_bind later, ih others, List.flatMap_cons]
    simp [ok]

/-- What is made of each thing found is made of the collection. -/
theorem collect_map {γ : Type} (h : β → γ) (search : α → Outcome ε (Option β)) (l : List α) :
    collect (fun a => (search a).map (Option.map h)) l = (collect search l).map (List.map h) := by
  induction l with
  | nil => rfl
  | cons a rest ih =>
    rw [collect, collect, ih]
    simp only [map_bind, bind_map]
    congr 1
    funext found
    congr 1
    funext more
    cases found <;> rfl

end Outcome

end Scaffold
