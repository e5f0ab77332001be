import Scaffold.Proofs.Text.Marks

/-!
The depth of braces. A text is level if at every depth it never falls below the one it starts at and ends there;
texts without braces are level, and so are level texts one after the other and within braces. Where a text is divided
into lines does not change its depth.
-/

namespace Scaffold.Text

variable {cs ds : List Char} {c : Char} {k m n : Nat} {lines more : List String} {s t : String}

/-- The depth after a text; none if it falls below zero on the way. -/
def braceDepth : Nat → List Char → Option Nat
  | n, [] => some n
  | n, c :: rest =>
    if c = '\x7b' then braceDepth (n + 1) rest
    else if c = '\x7d' then
      match n with
      | 0 => none
      | n + 1 => braceDepth n rest
    else braceDepth n rest

theorem braceDepth_cons (opens : c ≠ '\x7b') (closes : c ≠ '\x7d') (n : Nat) (rest : List Char) :
    braceDepth n (c :: rest) = braceDepth n rest := by
  cases n <;> simp [braceDepth, opens, closes]

theorem braceDepth_append (n : Nat) (cs ds : List Char) :
    braceDepth n (cs ++ ds) = (braceDepth n cs).bind (braceDepth · ds) := by
  induction cs generalizing n with
  | nil => rfl
  | cons c rest ih =>
    rw [List.cons_append]
    by_cases opens : c = '\x7b'
    · subst opens
      exact ih (n + 1)
    by_cases closes : c = '\x7d'
    · subst closes
      cases n with
      | zero => rfl
      | succ n => exact ih n
    · rw [braceDepth_cons opens closes, braceDepth_cons opens closes, ih]

/-- What starts deeper stays as much deeper. -/
theorem braceDepth_add (h : braceDepth m cs = some k) (n : Nat) : braceDepth (n + m) cs = some (n + k) := by
  induction cs generalizing m with
  | nil =>
    obtain rfl := Option.some.inj h
    rfl
  | cons c rest ih =>
    by_cases opens : c = '\x7b'
    · subst opens
      exact ih h
    by_cases closes : c = '\x7d'
    · subst closes
      cases m with
      | zero => cases h
      | succ m => exact ih h
    · rw [braceDepth_cons opens closes] at h ⊢
      exact ih h

/-- The text stays at or above the depth that it starts at, and ends there. -/
def Level (cs : List Char) : Prop := ∀ n, braceDepth n cs = some n

theorem level_iff : Level cs ↔ braceDepth 0 cs = some 0 :=
  ⟨fun h => h 0, fun h n => by simpa using braceDepth_add h n⟩

instance (cs : List Char) : Decidable (Level cs) := decidable_of_iff _ level_iff.symm

/-- A text without braces. -/
def Braceless (cs : List Char) : Prop := '\x7b' ∉ cs ∧ '\x7d' ∉ cs

instance (cs : List Char) : Decidable (Braceless cs) := inferInstanceAs (Decidable (_ ∧ _))

namespace Braceless

theorem of_marksIn (h : MarksIn ds cs) (braceless : Braceless cs) : Braceless ds :=
  ⟨fun mem => braceless.1 (h _ mem (by decide)), fun mem => braceless.2 (h _ mem (by decide))⟩

theorem of_unmarked (h : ∀ c ∈ cs, isMark c = false) : Braceless cs :=
  ⟨fun mem => absurd (h _ mem) (by decide), fun mem => absurd (h _ mem) (by decide)⟩

theorem append (h : Braceless cs) (h' : Braceless ds) : Braceless (cs ++ ds) :=
  ⟨by simp [h.1, h'.1], by simp [h.2, h'.2]⟩

theorem concat (h : Braceless s.toList) (h' : Braceless t.toList) : Braceless (s ++ t).toList := by
  rw [String.toList_append]
  exact h.append h'

theorem between {u : String} (h : Braceless t.toList) (front : Braceless s.toList) (back : Braceless u.toList) :
    Braceless (s ++ t ++ u).toList := (front.concat h).concat back

theorem of_subset (sub : ds ⊆ cs) (braceless : Braceless cs) : Braceless ds :=
  ⟨fun mem => braceless.1 (sub mem), fun mem => braceless.2 (sub mem)⟩

theorem level (h : Braceless cs) : Level cs := by
  intro n
  induction cs with
  | nil => rfl
  | cons c rest ih =>
    have opens : c ≠ '\x7b' := fun eq => h.1 (by simp [eq])
    have closes : c ≠ '\x7d' := fun eq => h.2 (by simp [eq])
    rw [braceDepth_cons opens closes]
    exact ih (h.of_subset (List.subset_cons_self c rest))

end Braceless

namespace Level

theorem nil : Level [] := fun _ => rfl

theorem append (h : Level cs) (h' : Level ds) : Level (cs ++ ds) := by
  intro n
  rw [braceDepth_append, h]
  exact h' n

/-- A level text after one that opens a brace and before one that closes it. -/
theorem between {es : List Char} (h : Level ds) (opens : braceDepth 0 cs = some 1) (closes : braceDepth 1 es = some 0) :
    Level (cs ++ (ds ++ es)) := by
  intro n
  have opened : braceDepth n cs = some (n + 1) := braceDepth_add opens n
  rw [braceDepth_append, opened, Option.bind_some, braceDepth_append, h]
  exact braceDepth_add closes n

end Level

/-- Level texts one after the other. -/
theorem level_concat (h : Level s.toList) (h' : Level t.toList) : Level (s ++ t).toList := by
  rw [String.toList_append]
  exact h.append h'

/-- The characters of some lines, one after the other. -/
def charsOf (lines : List String) : List Char := lines.flatMap String.toList

@[simp] theorem charsOf_nil : charsOf [] = [] := rfl

@[simp] theorem charsOf_cons (line : String) (rest : List String) :
    charsOf (line :: rest) = line.toList ++ charsOf rest := rfl

@[simp] theorem charsOf_singleton (line : String) : charsOf [line] = line.toList := by simp

@[simp] theorem charsOf_append (lines more : List String) :
    charsOf (lines ++ more) = charsOf lines ++ charsOf more := List.flatMap_append

namespace Level

theorem of_lines (h : ∀ line ∈ lines, Level line.toList) : Level (charsOf lines) := by
  induction lines with
  | nil => exact nil
  | cons line rest ih =>
    obtain ⟨here, later⟩ := List.forall_mem_cons.mp h
    exact here.append (ih later)

theorem concat (h : Level (charsOf lines)) (h' : Level (charsOf more)) : Level (charsOf (lines ++ more)) := by
  rw [charsOf_append]
  exact h.append h'

theorem flatMap {α : Type} {l : List α} {f : α → List String} (h : ∀ a ∈ l, Level (charsOf (f a))) :
    Level (charsOf (l.flatMap f)) := by
  induction l with
  | nil => exact nil
  | cons a rest ih =>
    obtain ⟨here, later⟩ := List.forall_mem_cons.mp h
    exact here.concat (ih later)

/-- A level line above others. -/
theorem cons {line : String} (h : Level line.toList) (h' : Level (charsOf lines)) : Level (charsOf (line :: lines)) :=
  h.append h'

end Level

section Lines

theorem braceDepth_openLine (n : Nat) (lines : List String) :
    braceDepth n (charsOf ("\x7b" :: lines)) = braceDepth (n + 1) (charsOf lines) := by
  rw [charsOf_cons, braceDepth_append]
  rfl

theorem braceDepth_closeLine (n : Nat) (lines : List String) :
    braceDepth (n + 1) (charsOf ("\x7d" :: lines)) = braceDepth n (charsOf lines) := by
  rw [charsOf_cons, braceDepth_append]
  rfl

/-- A level line changes nothing about what comes after it. -/
theorem braceDepth_line {line : String} (h : Level line.toList) (n : Nat) (lines : List String) :
    braceDepth n (charsOf (line :: lines)) = braceDepth n (charsOf lines) := by
  rw [charsOf_cons, braceDepth_append, h]
  rfl

theorem braceDepth_lines (h : Level (charsOf lines)) (n : Nat) (more : List String) :
    braceDepth n (charsOf (lines ++ more)) = braceDepth n (charsOf more) := by
  rw [charsOf_append, braceDepth_append, h]
  rfl

theorem braceDepth_filter {keep : Char → Bool} (opens : keep '\x7b' = true) (closes : keep '\x7d' = true) (n : Nat)
    (cs : List Char) : braceDepth n (cs.filter keep) = braceDepth n cs := by
  induction cs generalizing n with
  | nil => rfl
  | cons c rest ih =>
    by_cases isOpen : c = '\x7b'
    · subst isOpen
      rw [List.filter_cons_of_pos opens]
      exact ih (n + 1)
    by_cases isClose : c = '\x7d'
    · subst isClose
      rw [List.filter_cons_of_pos closes]
      cases n with
      | zero => rfl
      | succ n => exact ih n
    · rw [braceDepth_cons isOpen isClose, List.filter_cons]
      split
      · rw [braceDepth_cons isOpen isClose, ih]
      · exact ih n

/-- A level text changes nothing about what comes after it. -/
theorem braceDepth_concat (h : Level s.toList) (n : Nat) (t : String) :
    braceDepth n (s ++ t).toList = braceDepth n t.toList := by
  rw [String.toList_append, braceDepth_append, h]
  rfl

/-- The lines of a text have its depth. -/
theorem braceDepth_splitLines (n : Nat) (s : String) :
    braceDepth n (charsOf (splitLines s)) = braceDepth n s.toList := by
  have chars : charsOf (splitLines s) = (linesOf s.toList).flatten := by
    simp [charsOf, splitLines_eq, List.flatMap_map]
  rw [chars, flatten_linesOf, braceDepth_filter (by decide) (by decide)]

/-- The depth after the first lines of a file; none if it falls below zero within them. -/
def depthAfter (lines : List String) : Option Nat := braceDepth 0 (charsOf lines)

theorem depthAfter_append (h : depthAfter lines = some n) (more : List String) :
    depthAfter (lines ++ more) = braceDepth n (charsOf more) := by
  unfold depthAfter at h ⊢
  rw [charsOf_append, braceDepth_append, h]
  rfl

theorem depthAfter_level (h : depthAfter lines = some n) (level : Level (charsOf more)) :
    depthAfter (lines ++ more) = some n := (depthAfter_append h more).trans (level n)

theorem braceDepth_flatMap_splitLines (n : Nat) (lines : List String) :
    braceDepth n (charsOf (lines.flatMap splitLines)) = braceDepth n (charsOf lines) := by
  induction lines generalizing n with
  | nil => rfl
  | cons line rest ih =>
    rw [List.flatMap_cons, charsOf_append, braceDepth_append, braceDepth_splitLines, charsOf_cons, braceDepth_append]
    exact Option.bind_congr fun m _ => ih m

/-- If a text starts with a level line and has no braces after it, each of its lines is level. -/
theorem level_of_mem_splitLines (single : isSingleLine s = true) (h : Level s.toList) (rest : Braceless t.toList)
    {line : String} (mem : line ∈ splitLines (s ++ t)) : Level line.toList := by
  rw [splitLines_eq] at mem
  obtain ⟨cs, memLines, rfl⟩ := List.mem_map.mp mem
  rw [String.toList_ofList]
  by_cases empty : (s ++ t).toList = []
  · rw [empty] at memLines
    cases memLines
  rw [String.toList_append] at empty memLines
  obtain ⟨first, later, lines, inFirst, inLater⟩ := linesOf_append_of_single (forall_not_boundary single) empty
  rw [lines] at memLines
  rcases List.mem_cons.mp memLines with rfl | memLater
  · exact h.append (rest.of_subset inFirst).level
  · exact (rest.of_subset (inLater cs memLater)).level

/-- A body with its header, and what is above it. -/
structure IsBody (front header inside : List String) : Prop where
  front : Level (charsOf front)
  header : braceDepth 0 (charsOf header) = some 1
  inside : Level (charsOf inside)

/-- The depth from landmark to landmark, where a level region stands before the line that closes a body. -/
theorem IsBody.depths {front header inside above region below : List String} (body : IsBody front header inside)
    (start : depthAfter above = some n) (level : Level (charsOf region)) (label : Level s.toList)
    (ending : braceDepth n (charsOf below) = some 0) :
    let begun := above ++ front ++ header ++ inside
    let closed := begun ++ region ++ [s, "\x7d"]
    depthAfter (above ++ front) = some n ∧ depthAfter (above ++ front ++ header) = some (n + 1) ∧
      depthAfter begun = some (n + 1) ∧ depthAfter (begun ++ region) = some (n + 1) ∧
      depthAfter closed = some n ∧ depthAfter (closed ++ below) = some 0 := by
  have atHeader := depthAfter_level start body.front
  have opened : depthAfter (above ++ front ++ header) = some (n + 1) :=
    (depthAfter_append atHeader header).trans (braceDepth_add body.header n)
  have atRegion := depthAfter_level opened body.inside
  have atLabel := depthAfter_level atRegion level
  have closed : depthAfter (above ++ front ++ header ++ inside ++ region ++ [s, "\x7d"]) = some n := by
    rw [depthAfter_append atLabel, braceDepth_line label, braceDepth_closeLine]
    rfl
  exact ⟨atHeader, opened, atRegion, atLabel, closed, (depthAfter_append closed below).trans ending⟩

end Lines

end Scaffold.Text
