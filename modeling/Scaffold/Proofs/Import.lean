import Scaffold.Import
import Scaffold.Proofs.Outcome

/-!
The imports of a type: its properties lead to other types, and of each import statement the first stays.
When the aliases can be parts of a path, every statement can be written. A statement tells the name that it
imports, unless the name itself holds what stands after it.
-/

namespace Scaffold

section Firsts

variable {α β : Type} [DecidableEq β] {f : α → β} {a b : α} {l : List α}

/-- The first items of each image. -/
def firstsBy (f : α → β) : List α → List α
  | [] => []
  | a :: rest => a :: (firstsBy f rest).filter fun b => f b ≠ f a

/-- The one item is met in the list before the other. -/
def MetBefore (l : List α) (a b : α) : Prop :=
  ∃ before after, l = before ++ a :: after ∧ b ∉ before ∧ b ≠ a

theorem MetBefore.mem (h : MetBefore l a b) : a ∈ l := by
  obtain ⟨before, after, rfl, -⟩ := h
  simp

theorem metBefore_cons {x : α} : MetBefore (x :: l) a b ↔ b ≠ x ∧ (a = x ∨ MetBefore l a b) := by
  constructor
  · rintro ⟨before, after, eq, new, other⟩
    cases before with
    | nil =>
      obtain ⟨rfl, rfl⟩ := List.cons.inj eq
      exact ⟨other, .inl rfl⟩
    | cons y before =>
      obtain ⟨rfl, rfl⟩ := List.cons.inj eq
      exact ⟨List.ne_of_not_mem_cons new,
        .inr ⟨before, after, rfl, List.not_mem_of_not_mem_cons new, other⟩⟩
  · rintro ⟨ne, rfl | ⟨before, after, rfl, new, other⟩⟩
    · exact ⟨[], l, rfl, List.not_mem_nil, ne⟩
    · exact ⟨x :: before, after, rfl, List.not_mem_cons_of_ne_of_not_mem ne new, other⟩

/-- In the images of a list an item is met where the first one with it as image is. -/
theorem metBefore_filterMap {γ : Type} {h : γ → Option α} {l : List γ} :
    MetBefore (l.filterMap h) a b ↔ ∃ before c after, l = before ++ c :: after ∧ h c = some a ∧
      ∀ x ∈ before ++ [c], h x ≠ some b := by
  constructor
  · rintro ⟨before, after, eq, new, other⟩
    obtain ⟨first, rest, rfl, rfl, tail⟩ := List.filterMap_eq_append_iff.mp eq
    obtain ⟨skipped, c, last, rfl, none_, image, -⟩ := List.filterMap_eq_cons_iff.mp tail
    refine ⟨first ++ skipped, c, last, by simp, image, fun x mem => ?_⟩
    rcases List.mem_append.mp mem with mem | mem
    · rcases List.mem_append.mp mem with mem | mem
      · exact fun isB => new (List.mem_filterMap.mpr ⟨x, mem, isB⟩)
      · simp [none_ x mem]
    · obtain rfl := List.mem_singleton.mp mem
      rw [image]
      exact fun same => other (Option.some.inj same).symm
  · rintro ⟨before, c, after, rfl, image, new⟩
    refine ⟨before.filterMap h, after.filterMap h, by simp [image], ?_, ?_⟩
    · intro mem
      obtain ⟨x, memX, isB⟩ := List.mem_filterMap.mp mem
      exact new x (List.mem_append_left _ memX) isB
    · rintro rfl
      exact new c (by simp) image

/-- An item stays if none before it has its image. -/
theorem mem_firstsBy : a ∈ firstsBy f l ↔ a ∈ l ∧ ∀ b, MetBefore l b a → f b ≠ f a := by
  induction l with
  | nil => simp [firstsBy]
  | cons x rest ih =>
    simp only [firstsBy, List.mem_cons, List.mem_filter, ih, decide_eq_true_eq, metBefore_cons]
    constructor
    · rintro (rfl | ⟨⟨mem, first⟩, ne⟩)
      · exact ⟨.inl rfl, fun b met => absurd rfl met.1⟩
      · refine ⟨.inr mem, fun b met => ?_⟩
        rcases met.2 with rfl | met
        · exact Ne.symm ne
        · exact first b met
    · rintro ⟨mem, first⟩
      by_cases same : a = x
      · exact .inl same
      · refine .inr ⟨⟨mem.resolve_left same, fun b met => first b ⟨same, .inr met⟩⟩, ?_⟩
        exact Ne.symm (first x ⟨same, .inl rfl⟩)

/-- Every image has a first item. -/
theorem exists_mem_firstsBy (mem : a ∈ l) : ∃ b ∈ firstsBy f l, f b = f a := by
  induction l with
  | nil => cases mem
  | cons x rest ih =>
    by_cases same : f x = f a
    · exact ⟨x, List.mem_cons_self, same⟩
    · have later : a ∈ rest := (List.mem_cons.mp mem).resolve_left fun eq => same (by rw [eq])
      obtain ⟨b, first, image⟩ := ih later
      have other : f b ≠ f x := fun eq => same (eq.symm.trans image)
      exact ⟨b, List.mem_cons_of_mem _ (List.mem_filter.mpr ⟨first, decide_eq_true other⟩), image⟩

/-- The first items stay in their order. -/
theorem pairwise_firstsBy : (firstsBy f l).Pairwise (MetBefore l) := by
  induction l with
  | nil => exact .nil
  | cons x rest ih =>
    have other : ∀ b ∈ (firstsBy f rest).filter (fun b => f b ≠ f x), b ≠ x := by
      intro b mem same
      have ne := (List.mem_filter.mp mem).2
      simp [same] at ne
    refine .cons (fun b mem => metBefore_cons.mpr ⟨other b mem, .inl rfl⟩) ?_
    refine List.Pairwise.imp_of_mem (fun _ mem met => ?_) (ih.filter _)
    exact metBefore_cons.mpr ⟨other _ mem, .inr met⟩

end Firsts

section Separators

variable {z : Char} {front first second rest rest' : List Char}

/-- What stands before the first of a character is given by the whole text. -/
theorem eq_of_first (inFirst : z ∉ first) (inSecond : z ∉ second)
    (same : first ++ z :: rest = second ++ z :: rest') : first = second := by
  induction first generalizing second with
  | nil =>
    cases second with
    | nil => rfl
    | cons c second =>
      obtain ⟨rfl, -⟩ := List.cons.inj same
      exact absurd List.mem_cons_self inSecond
  | cons c first ih =>
    cases second with
    | nil =>
      obtain ⟨rfl, -⟩ := List.cons.inj same
      exact absurd List.mem_cons_self inFirst
    | cons c' second =>
      obtain ⟨rfl, tail⟩ := List.cons.inj same
      rw [ih (List.not_mem_of_not_mem_cons inFirst) (List.not_mem_of_not_mem_cons inSecond) tail]

/-- A separator whose last character is in it once does not begin inside itself; so a text that ends later
than another one, both before the separator, has the separator in it. -/
theorem eq_nil_of_separated (once : z ∉ front) {more : List Char}
    (none_ : ¬ (front ++ [z]) <:+: first ++ more)
    (same : front ++ [z] ++ rest = more ++ (front ++ [z] ++ rest')) : more = [] := by
  rcases List.append_eq_append_iff.mp same with ⟨left, eq, -⟩ | ⟨left, eq, tail⟩
  · exact absurd ⟨first, left, by simp [eq]⟩ none_
  · rcases List.eq_nil_or_concat left with rfl | ⟨before, last, rfl⟩
    · exact absurd ⟨first, [], by simp [eq]⟩ none_
    · rw [List.concat_eq_append, ← List.append_assoc] at eq
      obtain ⟨inFront, lastEq⟩ := List.append_inj' eq rfl
      obtain rfl : z = last := by simpa using lastEq
      have early : z ∉ before := fun mem => once (by simp [inFront, mem])
      have all : front = before := eq_of_first once early (by simpa using tail)
      have length : front.length = more.length + before.length := by simp [inFront]
      rw [all] at length
      exact List.length_eq_zero_iff.mp (by omega)

/-- Texts without a separator that go on alike after it are the same. -/
theorem eq_of_separated (once : z ∉ front) (inFirst : ¬ (front ++ [z]) <:+: first)
    (inSecond : ¬ (front ++ [z]) <:+: second)
    (same : first ++ (front ++ [z] ++ rest) = second ++ (front ++ [z] ++ rest')) : first = second := by
  rcases List.append_eq_append_iff.mp same with ⟨more, rfl, tail⟩ | ⟨more, rfl, tail⟩
  · rw [eq_nil_of_separated once inSecond tail, List.append_nil]
  · rw [eq_nil_of_separated once inFirst tail, List.append_nil]

end Separators

namespace Import

open Scaffold.Graph

variable {g : TypeGraph} {c : Config} {d t : TypeDescriptor} {p : PropertyDescriptor}
  {enums models : String}

theorem distinctStatements_map {α : Type} (h : α → Import × String) (l : List α) :
    distinctStatements (l.map h) = (firstsBy (fun a => (h a).2) l).map h := by
  induction l with
  | nil => rfl
  | cons a rest ih =>
    simp only [List.map_cons, distinctStatements, firstsBy, ih, List.filter_map]
    rfl

/-- The type that a property makes an artifact import. -/
def target? (g : TypeGraph) (p : PropertyDescriptor) : Option TypeDescriptor :=
  if refers p.valueKind then
    (g.resolve? p).filter fun t => t.kind = .enumeration || !p.isInterface
  else none

theorem ofProperty?_eq : ofProperty? g c p = (target? g p).map (ofTarget c) := by
  unfold ofProperty? target?
  split
  · cases resolved : g.resolve? p with
    | none => rfl
    | some t => cases keep : t.kind == .enumeration || !p.isInterface <;> simp_all [Option.filter]
  · rfl

theorem target?_eq_some (h : target? g p = some t) : g.resolve? p = some t := by
  unfold target? at h
  split at h
  · exact (Option.filter_eq_some_iff.mp h).1
  · cases h

/-- The types that an artifact imports, as often as its properties refer to them. -/
def targets (g : TypeGraph) (d : TypeDescriptor) : List TypeDescriptor :=
  (d.properties.filterMap (target? g)).filter fun t => t.name ≠ d.name

/-- The name holds what stands after it in a statement. -/
def HoldsSeparator (name : String) : Prop := " \x7d from '".toList <:+: name.toList

theorem importLine_inj {name name' module_ module' : String} (plain : ¬ HoldsSeparator name)
    (plain' : ¬ HoldsSeparator name') (same : importLine name module_ = importLine name' module') :
    name = name' := by
  have separator : " \x7d from '".toList = " \x7d from ".toList ++ ['\''] := rfl
  unfold HoldsSeparator at plain plain'
  rw [separator] at plain plain'
  have chars := congrArg String.toList same
  simp only [importLine, String.toList_append, List.append_assoc, List.append_cancel_left_eq,
    separator] at chars
  rw [← List.append_assoc _ ['\''], ← List.append_assoc _ ['\'']] at chars
  exact String.toList_injective (eq_of_separated (by decide) plain plain' chars)

theorem mem_of_mem_distinctStatements {i : Import × String} {l : List (Import × String)}
    (mem : i ∈ distinctStatements l) : i ∈ l := by
  induction l with
  | nil => exact mem
  | cons first rest ih =>
    rcases List.mem_cons.mp mem with rfl | mem
    · exact List.mem_cons_self
    · exact List.mem_cons_of_mem _ (ih (List.mem_filter.mp mem).1)

/-- An import line that can be written is one of a name, which is a text, from its file item below the folder. -/
theorem exists_importLine_of_given {aliasPath name subPath : Json} {line : String}
    (h : importGiven aliasPath name subPath = .ok line) :
    ∃ n folder module_, name = .str n ∧ importFolder subPath = .ok folder ∧
      Naming.joinGiven [aliasPath, .str folder, .str (Naming.fileItem n)] = .ok module_ ∧
      line = importLine n module_ := by
  obtain ⟨folder, ofSubPath, h⟩ := exists_of_bind_eq_ok h
  obtain ⟨file, ofName, h⟩ := exists_of_bind_eq_ok h
  obtain ⟨module_, joined, written⟩ := exists_of_bind_eq_ok h
  cases name with
  | str n =>
    obtain rfl := Except.ok.inj ofName
    exact ⟨n, folder, module_, rfl, ofSubPath, joined, (Except.ok.inj written).symm⟩
  | _ => cases written

/-- Each statement is that of a type that a property leads to. -/
theorem exists_of_mem_statements {lines : List String} {line : String} (h : statements g c d = .ok lines)
    (mem : line ∈ lines) : ∃ p ∈ d.properties, ∃ t, g.resolve? p = some t ∧ (ofTarget c t).statement = .ok line := by
  obtain ⟨found, resolved, rfl⟩ := exists_of_map_eq_ok h
  obtain ⟨all, made, rfl⟩ := exists_of_map_eq_ok resolved
  obtain ⟨i, memI, rfl⟩ := List.mem_map.mp mem
  obtain ⟨reference, memReference, isStated⟩ := exists_of_mem_mapM made (mem_of_mem_distinctStatements memI)
  obtain ⟨p, memP, of⟩ := List.mem_filterMap.mp (List.mem_filter.mp memReference).1
  obtain ⟨line, written, rfl⟩ := exists_of_map_eq_ok isStated
  rw [ofProperty?_eq] at of
  obtain ⟨t, target, rfl⟩ := Option.map_eq_some_iff.mp of
  exact ⟨p, memP, t, target?_eq_some target, written⟩

/-- The texts that the aliases are in paths. -/
structure Aliases (c : Config) (enums models : String) : Prop where
  enums : Naming.pathPart c.enumAlias = .ok enums
  models : Naming.pathPart c.modelAlias = .ok models

/-- The alias of a type's kind. -/
def aliasOf (enums models : String) (t : TypeDescriptor) : String :=
  if t.kind = .enumeration then enums else models

/-- The statement that imports a type. -/
def statementOf (enums models : String) (t : TypeDescriptor) : String :=
  importStatement (aliasOf enums models t) t.name (Naming.subPath t.namespace_)

theorem importGiven_of_part {given : Json} {aliasPath : String}
    (part : Naming.pathPart given = .ok aliasPath) (name subPath : String) :
    importGiven given (.str name) (.str subPath) = .ok (importStatement aliasPath name subPath) := by
  have parts := Naming.joinGiven_cons_texts part [Naming.fileItem subPath, Naming.fileItem name]
  simp only [List.map_cons, List.map_nil] at parts
  simp only [importGiven, importFolder_text, Naming.fileItemOf, bind, Except.bind, parts]
  rfl

theorem statement_ofTarget (aliases : Aliases c enums models) (t : TypeDescriptor) :
    (ofTarget c t).statement = .ok (statementOf enums models t) := by
  unfold ofTarget statementOf aliasOf statement
  split
  · exact importGiven_of_part aliases.enums _ _
  · exact importGiven_of_part aliases.models _ _

@[simp] theorem ofTarget_name (c : Config) (t : TypeDescriptor) : (ofTarget c t).name = t.name := by
  unfold ofTarget
  split <;> rfl

/-- The references of a type: the first of its targets under each statement. -/
theorem resolve_eq (aliases : Aliases c enums models) :
    resolve g c d = .ok ((firstsBy (statementOf enums models) (targets g d)).map
      fun t => (ofTarget c t, statementOf enums models t)) := by
  have refs : (d.properties.filterMap (ofProperty? g c)).filter (fun i => i.name ≠ d.name) =
      (targets g d).map (ofTarget c) := by
    simp only [targets, funext fun p => ofProperty?_eq (g := g) (c := c) (p := p),
      ← List.map_filterMap, List.filter_map, Function.comp_def, ofTarget_name]
  have stated_ : ∀ l : List TypeDescriptor, (l.map (ofTarget c)).mapM stated =
      .ok (l.map fun t => (ofTarget c t, statementOf enums models t)) := by
    intro l
    induction l with
    | nil => rfl
    | cons t rest ih =>
      simp [List.mapM_cons, stated, statement_ofTarget aliases, ih, bind, Except.bind, pure,
        Except.pure, Except.map]
  rw [resolve, refs, stated_]
  exact congrArg Except.ok (distinctStatements_map _ _)

/-- What a property leads to is what is imported. -/
theorem exists_of_mem_resolve (aliases : Aliases c enums models) {found : List (Import × String)}
    (h : resolve g c d = .ok found) {i : Import × String} (mem : i ∈ found) :
    ∃ p ∈ d.properties, ∃ t, g.resolve? p = some t ∧
      i = (ofTarget c t, statementOf enums models t) := by
  rw [resolve_eq aliases] at h
  obtain rfl := Except.ok.inj h
  obtain ⟨t, first, rfl⟩ := List.mem_map.mp mem
  have met : t ∈ targets g d := (mem_firstsBy.mp first).1
  obtain ⟨p, memP, target⟩ := List.mem_filterMap.mp (List.mem_filter.mp met).1
  exact ⟨p, memP, t, target?_eq_some target, rfl⟩

end Import

end Scaffold
