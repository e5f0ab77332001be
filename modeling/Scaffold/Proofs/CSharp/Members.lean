import Scaffold.Proofs.CSharp.Accessors
import Scaffold.Proofs.Generation.Total
import Scaffold.Template.Placeholder

/-!
The members of a C# model, read back from its lines. What is declared before the methods are the members, and what is
copied, compared and hashed are the same of them in the same order.
-/

namespace Scaffold.CSharp

open Scaffold.Graph Settings

variable {g : Generator} {graph : TypeGraph} {d : TypeDescriptor} {store : Store} {w : Workshop} {a : Artifact}
  {type : PropertyDescriptor → CSharpType} {ps : List PropertyDescriptor} {n mark : String}

/-- The lines after one line and before the next of the other kind. -/
def between (first last : String) (lines : List String) : List String :=
  ((lines.dropWhile (· ≠ first)).drop 1).takeWhile (· ≠ last)

/-- The line with which the methods of a model begin. -/
def factoryHeader (name : String) : String := "public static " ++ name ++ " Create()"

def copyHeader (name : String) : String := "public void CopyProperties(" ++ name ++ " other)"

def equalsHeader : String := "public override bool Equals(object? obj)"

def hashHeader : String := "public override int GetHashCode()"

/-- The lines with accessors in a class, before its methods. -/
def declaredLines (name : String) (lines : List String) : List String :=
  (between "\x7b" (factoryHeader name) lines).filter hasAccessors

/-- The name that follows a mark at the start of a word. -/
def nameAfter? (mark word : String) : Option String :=
  (Text.dropPrefix? mark.toList word.toList).map fun rest => .ofList (rest.takeWhile (· ∉ separators))

/-- The names that follow a mark in the words of a line. -/
def namesAfter (mark line : String) : List String := (Text.splitOn ' ' line).filterMap (nameAfter? mark)

/-- What a line assigns to. -/
def assigned? (line : String) : Option String :=
  match Text.splitOn ' ' line with
  | name :: "=" :: _ => some name
  | _ => none

/-- What a copy of a model takes over from the other one. -/
def copiedNames (name : String) (lines : List String) : List String :=
  (between (copyHeader name) "\x7d" lines).filterMap assigned?

/-- What follows a mark in the comparison of two models. -/
def comparedNames (mark : String) (lines : List String) : List String :=
  (between equalsHeader hashHeader lines).flatMap (namesAfter mark)

/-- What goes into the hash code of a model. -/
def hashedNames (lines : List String) : List String :=
  (between hashHeader "\x7d" lines).flatMap (namesAfter "hashCode.Add(")

section Words

theorem words_append (s t : String) : Text.splitOn ' ' (s ++ " " ++ t) = Text.splitOn ' ' s ++ Text.splitOn ' ' t := by
  have chars : (s ++ " " ++ t).toList = s.toList ++ ' ' :: t.toList := by simp
  rw [Text.splitOn_eq, Text.splitOn_eq, Text.splitOn_eq, chars, List.splitOnP_append_cons _ _ (by decide),
    List.map_append]

theorem words_eq_singleton {s : String} (h : ' ' ∉ s.toList) : Text.splitOn ' ' s = [s] := by
  have one : s.toList.splitOnP (· == ' ') = [s.toList] :=
    List.splitOnP_eq_singleton fun c mem => by simpa using fun eq : c = ' ' => h (eq ▸ mem)
  rw [Text.splitOn_eq, one, List.map_singleton, String.ofList_toList]

theorem namesAfter_append (mark s t : String) :
    namesAfter mark (s ++ " " ++ t) = namesAfter mark s ++ namesAfter mark t := by
  rw [namesAfter, words_append, List.filterMap_append]
  rfl

theorem namesAfter_word {s : String} (h : ' ' ∉ s.toList) : namesAfter mark s = (nameAfter? mark s).toList := by
  rw [namesAfter, words_eq_singleton h]
  cases eq : nameAfter? mark s <;> simp [eq]

/-- The name ends where a separator stands. -/
theorem nameAfter?_mark (named : IsName n) {c : Char} (stop : c ∈ separators) (rest : List Char) {word : String}
    (eq : word.toList = mark.toList ++ (n.toList ++ c :: rest)) : nameAfter? mark word = some n := by
  have front : (n.toList ++ c :: rest).takeWhile (· ∉ separators) = n.toList := by
    rw [List.takeWhile_append_of_pos fun c mem => by simpa using named c mem, List.takeWhile_cons]
    simp [stop]
  rw [nameAfter?, Text.dropPrefix?_eq_some.mpr eq, Option.map_some, front, String.ofList_toList]

theorem nameAfter?_eq_none {word : String} (h : ¬ mark.toList <+: word.toList) : nameAfter? mark word = none := by
  rw [nameAfter?, Option.map_eq_none_iff]
  cases eq : Text.dropPrefix? mark.toList word.toList with
  | none => rfl
  | some rest => exact absurd ⟨rest, (Text.dropPrefix?_eq_some.mp eq).symm⟩ h

theorem IsName.no_space (named : IsName n) : ' ' ∉ n.toList := fun mem => named _ mem (by decide)

end Words

section Sections

theorem between_eq {first last : String} {above inside below : List String} (fresh : first ∉ above)
    (open_ : last ∉ inside) : between first last (above ++ first :: (inside ++ last :: below)) = inside := by
  have reached : (above ++ first :: (inside ++ last :: below)).dropWhile (· ≠ first) =
      first :: (inside ++ last :: below) := by
    rw [List.dropWhile_append_of_pos fun line mem => by simpa using fun eq : line = first => fresh (eq ▸ mem)]
    simp
  rw [between, reached, List.drop_one, List.tail_cons,
    List.takeWhile_append_of_pos fun line mem => by simpa using fun eq : line = last => open_ (eq ▸ mem)]
  simp

/-- Does the line look like one that a method begins with? -/
def opensMethod (line : String) : Bool := line.toList.head? == some 'p' && line.toList.getLast? == some ')'

theorem notMem_of_opensMethod {header : String} (opens : opensMethod header = true) {lines : List String}
    (h : ∀ line ∈ lines, opensMethod line = false) : header ∉ lines :=
  fun mem => Bool.false_ne_true ((h header mem).symm.trans opens)

theorem opensMethod_attribute {scope : Scope} : ∀ l ∈ attributeLines store scope, opensMethod l = false := by
  intro l mem
  obtain ⟨rest, rfl⟩ := exists_of_mem_attributeLines mem
  simp [opensMethod]

theorem opensMethod_head : ∀ l ∈ headLines g store d, opensMethod l = false := by
  intro l mem
  rcases exists_of_mem_headLines mem with ⟨rest, rfl⟩ | ⟨rest, rfl⟩
  · simp [opensMethod]
  · simp [opensMethod]

theorem opensMethod_append {t : String} {c : Char} (last : t.toList.getLast? = some c) (other : c ≠ ')')
    (s : String) : opensMethod (s ++ t) = false := by
  simp [opensMethod, List.getLast?_append, last, other]

theorem opensMethod_opening (named : IsName d.name) : ∀ l ∈ openingLines g store d, opensMethod l = false := by
  intro l mem
  rcases List.mem_pair.mp mem with rfl | rfl
  · cases last : d.name.toList.getLast? with
    | some c => exact opensMethod_append last (fun eq => named c (List.mem_of_getLast? last) (eq ▸ by decide)) _
    | none =>
      rw [String.append_assoc]
      exact opensMethod_append (c := ' ') (by simp [List.getLast?_eq_none_iff.mp last]) (by decide) _
  · decide

theorem opensMethod_propertyLine (p : PropertyDescriptor) (type : CSharpType) :
    opensMethod (propertyLine p type) = false := by
  unfold propertyLine
  cases type.initializer with
  | none =>
    rw [String.append_assoc]
    exact opensMethod_append (c := '\x7d') (by simp) (by decide) _
  | some value =>
    simp only
    rw [← String.append_assoc]
    exact opensMethod_append (c := ';') (by simp) (by decide) _

/-- All lines of a model before its methods. -/
def frontLines (g : Generator) (store : Store) (d : TypeDescriptor) (type : PropertyDescriptor → CSharpType) :
    List String :=
  headLines g store d ++ openingLines g store d ++ stateLines g store d type

/-- No method begins before those of the model. -/
theorem opensMethod_front (named : IsName d.name) :
    ∀ l ∈ frontLines g store d type, opensMethod l = false := by
  intro l mem
  rcases List.mem_append.mp mem with mem | mem
  · exact (List.mem_append.mp mem).elim (opensMethod_head l) (opensMethod_opening named l)
  · rcases List.mem_append.mp mem with mem | mem
    · obtain ⟨p, -, mem⟩ := List.mem_flatMap.mp mem
      rcases List.mem_append.mp mem with mem | mem
      · exact opensMethod_attribute l mem
      · exact List.mem_singleton.mp mem ▸ opensMethod_propertyLine p _
    · rw [eq_of_mem_lineFor mem]
      exact opensMethod_append (c := ';') (by simp) (by decide) _

theorem ne_of_getElem? {header line : String} {i : Nat} {c : Char} (at_ : header.toList[i]? = some c)
    (h : line.toList[i]? ≠ some c) : header ≠ line :=
  fun eq => h (eq ▸ at_)

theorem notMem_of_getElem? {header : String} {lines : List String} {i : Nat} {c : Char}
    (at_ : header.toList[i]? = some c) (h : ∀ line ∈ lines, line.toList[i]? ≠ some c) : header ∉ lines :=
  fun mem => h header mem at_

theorem factories_getElem? : ∀ line ∈ factories n, line.toList[7]? ≠ some 'v' ∧ line.toList[7]? ≠ some 'o' := by
  simp [factories]

theorem opensMethod_copyOf (p : PropertyDescriptor) (type : CSharpType) :
    opensMethod (Mapper.copyOf p type) = false := by
  obtain ⟨rest, eq⟩ := exists_copyOf_eq p type
  rw [eq]
  exact opensMethod_append (c := ';') (by simp [List.getLast?_cons, List.getLast?_append]) (by decide) _

end Sections

section Read

/-- The first words of a copy are the name and the sign of an assignment. -/
theorem assigned?_copyOf {p : PropertyDescriptor} (named : IsName p.name) (type : CSharpType) :
    assigned? (Mapper.copyOf p type) = some p.name := by
  obtain ⟨rest, eq⟩ := exists_copyOf_eq p type
  rw [assigned?, eq, words_append, words_append, words_eq_singleton named.no_space,
    words_eq_singleton (s := "=") (by decide)]
  rfl

/-- One comparison is two words, one for each side. -/
theorem namesAfter_one {p : PropertyDescriptor} (named : IsName p.name) (side : mark ∈ ["Equals(", "other."])
    (rest : String) (space : ' ' ∉ rest.toList) :
    namesAfter mark ("Equals(" ++ p.name ++ ", other." ++ p.name ++ ")" ++ rest) = [p.name] := by
  have whole : "Equals(" ++ p.name ++ ", other." ++ p.name ++ ")" ++ rest =
      ("Equals(" ++ p.name ++ ",") ++ " " ++ ("other." ++ p.name ++ ")" ++ rest) := by
    rw [← String.toList_inj]
    simp
  have noSpace : ' ' ∉ ("Equals(" ++ p.name ++ ",").toList := by simp [named.no_space]
  have noSpace' : ' ' ∉ ("other." ++ p.name ++ ")" ++ rest).toList := by simp [named.no_space, space]
  rw [whole, namesAfter_append, namesAfter_word noSpace, namesAfter_word noSpace']
  rcases List.mem_pair.mp side with rfl | rfl
  · have own : nameAfter? "Equals(" ("Equals(" ++ p.name ++ ",") = some p.name :=
      nameAfter?_mark named (c := ',') (by decide) [] (by simp)
    have other : nameAfter? "Equals(" ("other." ++ p.name ++ ")" ++ rest) = none := nameAfter?_eq_none (by simp)
    rw [own, other]
    rfl
  · have own : nameAfter? "other." ("Equals(" ++ p.name ++ ",") = none := nameAfter?_eq_none (by simp)
    have other : nameAfter? "other." ("other." ++ p.name ++ ")" ++ rest) = some p.name :=
      nameAfter?_mark named (c := ')') (by decide) rest.toList (by simp)
    rw [own, other]
    rfl

theorem namesAfter_plain (side : mark ∈ ["Equals(", "other."]) :
    ∀ s ∈ ["return", "true;", "&&"], namesAfter mark s = [] := by
  revert mark
  decide

theorem namesAfter_joined (side : mark ∈ ["Equals(", "other."]) {p : PropertyDescriptor}
    (named : ∀ q ∈ p :: ps, IsName q.name) :
    namesAfter mark (comparison (p :: ps) ++ ";") = (p :: ps).map (·.name) := by
  induction ps generalizing p with
  | nil =>
    have one : comparison [p] = "Equals(" ++ p.name ++ ", other." ++ p.name ++ ")" :=
      String.intercalate_singleton (s := " && ")
    rw [one]
    exact namesAfter_one (named p (by simp)) side ";" (by decide)
  | cons q rest ih =>
    obtain ⟨here, later⟩ := List.forall_mem_cons.mp named
    have step : comparison (p :: q :: rest) ++ ";" =
        ("Equals(" ++ p.name ++ ", other." ++ p.name ++ ")" ++ "") ++ " " ++
          ("&&" ++ " " ++ (comparison (q :: rest) ++ ";")) := by
      have joined : comparison (p :: q :: rest) = "Equals(" ++ p.name ++ ", other." ++ p.name ++ ")" ++ " && " ++
          comparison (q :: rest) := String.intercalate_cons_cons
      rw [joined, ← String.toList_inj]
      simp
    rw [step, namesAfter_append, namesAfter_append, namesAfter_one here side "" (by decide),
      namesAfter_plain side "&&" (by decide), ih later]
    rfl

/-- The line with the comparison names each property on both sides. -/
theorem namesAfter_comparison (side : mark ∈ ["Equals(", "other."]) (named : ∀ p ∈ ps, IsName p.name) :
    namesAfter mark ("return " ++ comparison ps ++ ";") = ps.map (·.name) := by
  have first : "return " ++ comparison ps ++ ";" = "return" ++ " " ++ (comparison ps ++ ";") := by
    rw [← String.toList_inj]
    simp
  rw [first, namesAfter_append, namesAfter_plain side "return" (by decide), List.nil_append]
  cases ps with
  | nil => exact namesAfter_plain side "true;" (by decide)
  | cons p rest => exact namesAfter_joined side named

/-- The line that casts the other object names nothing. -/
theorem namesAfter_cast (side : mark ∈ ["Equals(", "other."]) (named : IsName n) :
    namesAfter mark ("if (obj is not " ++ n ++ " other)") = [] := by
  have split : "if (obj is not " ++ n ++ " other)" = "if (obj is not" ++ " " ++ (n ++ " " ++ "other)") := by
    rw [← String.toList_inj]
    simp
  have rest : ∀ s ∈ ["if (obj is not", "other)"], namesAfter mark s = [] := by
    revert mark
    decide
  have type : nameAfter? mark n = none := by
    refine nameAfter?_eq_none fun pre => ?_
    have last : mark.toList.getLast? = some '(' ∨ mark.toList.getLast? = some '.' := by
      rcases List.mem_pair.mp side with rfl | rfl <;> decide
    rcases last with last | last
    · exact named _ (pre.subset (List.mem_of_getLast? last)) (by decide)
    · exact named _ (pre.subset (List.mem_of_getLast? last)) (by decide)
  rw [split, namesAfter_append, namesAfter_append, namesAfter_word named.no_space, type, rest _ (by simp),
    rest _ (by simp)]
  rfl

theorem namesAfter_add (named : IsName n) : namesAfter "hashCode.Add(" ("hashCode.Add(" ++ n ++ ");") = [n] := by
  rw [namesAfter_word (by simp [named.no_space]), nameAfter?_mark named (c := ')') (by decide) [';'] (by simp)]
  rfl

/-- No brace stands alone before the one that opens the class. -/
theorem brace_notMem_head :
    "\x7b" ∉ headLines g store d ++ [visibilityFor g store d ++ " partial class " ++ d.name] := by
  have long : 2 ≤ (" partial class ").toList.length := by decide
  have brace : "\x7b".toList.length = 1 := by decide
  rw [List.mem_append, List.mem_singleton, not_or]
  refine ⟨fun mem => ?_, fun eq => ?_⟩
  · rcases exists_of_mem_headLines mem with ⟨rest, eq⟩ | ⟨rest, eq⟩
    · exact ne_of_getElem? (i := 0) (c := '\x7b') (by decide) (by simp) eq
    · exact ne_of_getElem? (i := 0) (c := '\x7b') (by decide) (by simp) eq
  · rw [eq] at brace
    simp only [String.toList_append, List.length_append] at brace
    omega

/-- With quiet texts from the settings, declared are the members, in their order. -/
theorem declaredLines_modelLines (named : IsName d.name)
    (quiet : ∀ text ∈ addedTexts g store d, hasAccessors text = false) :
    declaredLines d.name (modelLines g store d type) = (members g store d).map fun p => propertyLine p (type p) := by
  have split : modelLines g store d type =
      (headLines g store d ++ [visibilityFor g store d ++ " partial class " ++ d.name]) ++ "\x7b" ::
        (stateLines g store d type ++ factoryHeader d.name ::
          ((factories d.name).drop 1 ++
            copyMethod d.name ((compared g store d).map fun p => Mapper.copyOf p (type p)) ++
            equalsMethod d.name (compared g store d) ++ hashMethod (compared g store d) ++ ["\x7d"])) := by
    unfold modelLines stateLines classLines methodLines factories factoryHeader openingLines
    simp
  have opens : opensMethod (factoryHeader d.name) = true := by
    unfold factoryHeader
    simp [opensMethod, List.getLast?_cons, List.getLast?_append]
  have later : factoryHeader d.name ∉ stateLines g store d type :=
    notMem_of_opensMethod opens fun l mem => opensMethod_front named l (List.mem_append_right _ mem)
  rw [declaredLines, split, between_eq brace_notMem_head later, accessors_stateLines quiet]

theorem copyHeader_notMem (named : IsName d.name) :
    copyHeader d.name ∉ frontLines g store d type ++ factories d.name := by
  have opens : opensMethod (copyHeader d.name) = true := by
    unfold copyHeader
    simp [opensMethod, List.getLast?_cons, List.getLast?_append]
  have seventh : (copyHeader d.name).toList[7]? = some 'v' := by
    unfold copyHeader
    simp
  rw [List.mem_append, not_or]
  exact ⟨notMem_of_opensMethod opens (opensMethod_front named),
    notMem_of_getElem? seventh fun l mem => (factories_getElem? l mem).1⟩

theorem copiedNames_modelLines (named : IsName d.name) (each : ∀ p ∈ compared g store d, IsName p.name) :
    copiedNames d.name (modelLines g store d type) = (compared g store d).map (·.name) := by
  let statements := (compared g store d).map fun p => Mapper.copyOf p (type p)
  have split : modelLines g store d type = (frontLines g store d type ++ factories d.name) ++ copyHeader d.name ::
      (("\x7b" :: "ArgumentNullException.ThrowIfNull(other);" :: statements) ++ "\x7d" ::
          (equalsMethod d.name (compared g store d) ++ hashMethod (compared g store d) ++ ["\x7d"])) := by
    unfold modelLines frontLines stateLines classLines methodLines copyMethod copyHeader
    simp [statements]
  have assigns : ∀ p ∈ compared g store d, assigned? (Mapper.copyOf p (type p)) = some p.name :=
    fun p mem => assigned?_copyOf (each p mem) _
  have none_ : ∀ l ∈ ["\x7b", "\x7d", "ArgumentNullException.ThrowIfNull(other);"], assigned? l = none := by decide
  have stays : "\x7d" ∉ "\x7b" :: "ArgumentNullException.ThrowIfNull(other);" :: statements := by
    simp only [List.mem_cons, not_or]
    refine ⟨by decide, by decide, fun mem => ?_⟩
    obtain ⟨p, memP, eq⟩ := List.mem_map.mp mem
    have := assigns p memP
    rw [eq, none_ _ (by simp)] at this
    cases this
  have read : statements.filterMap assigned? = (compared g store d).map (·.name) := by
    rw [List.filterMap_map, ← List.filterMap_eq_map]
    exact List.filterMap_congr assigns
  rw [copiedNames, split, between_eq (copyHeader_notMem named) stays, List.filterMap_cons_none (none_ _ (by simp)),
    List.filterMap_cons_none (none_ _ (by simp)), read]

/-- The methods that override come after the one that copies. -/
theorem notMem_of_overrides (named : IsName d.name) {header : String} (opens : opensMethod header = true)
    (seventh : header.toList[7]? = some 'o') :
    header ∉ frontLines g store d type ++ factories d.name ++
      copyMethod d.name ((compared g store d).map fun p => Mapper.copyOf p (type p)) := by
  have other {l : String} (h : opensMethod l = false) : header ≠ l := fun eq => by
    rw [eq, h] at opens
    cases opens
  have copies : header ∉ copyMethod d.name ((compared g store d).map fun p => Mapper.copyOf p (type p)) := by
    simp only [copyMethod, List.mem_append, List.mem_cons, List.not_mem_nil, or_false, not_or]
    refine ⟨⟨⟨fun eq => ?_, other (by decide), other (by decide)⟩, fun mem => ?_⟩, other (by decide)⟩
    · rw [eq] at seventh
      simp at seventh
    · obtain ⟨p, -, eq⟩ := List.mem_map.mp mem
      exact other (opensMethod_copyOf p (type p)) eq.symm
  rw [List.mem_append, List.mem_append, not_or, not_or]
  exact ⟨⟨notMem_of_opensMethod opens (opensMethod_front named),
    notMem_of_getElem? seventh fun l mem => (factories_getElem? l mem).2⟩, copies⟩

theorem hashHeader_notMem_equalsMethod : hashHeader ∉ equalsMethod n ps := by
  have cast : hashHeader ≠ "if (obj is not " ++ n ++ " other)" :=
    ne_of_getElem? (i := 0) (c := 'p') (by decide) (by simp)
  have result : hashHeader ≠ "return " ++ comparison ps ++ ";" :=
    ne_of_getElem? (i := 0) (c := 'p') (by decide) (by simp)
  simp only [equalsMethod, List.mem_cons, List.not_mem_nil, or_false, not_or]
  exact ⟨by decide, by decide, cast, by decide, by decide, by decide, result, by decide⟩

theorem comparedNames_modelLines (side : mark ∈ ["Equals(", "other."]) (named : IsName d.name)
    (each : ∀ p ∈ compared g store d, IsName p.name) :
    comparedNames mark (modelLines g store d type) = (compared g store d).map (·.name) := by
  let body := ["\x7b", "if (obj is not " ++ d.name ++ " other)", "\x7b", "return false;", "\x7d",
    "return " ++ comparison (compared g store d) ++ ";", "\x7d"]
  have split : modelLines g store d type = (frontLines g store d type ++ factories d.name ++
      copyMethod d.name ((compared g store d).map fun p => Mapper.copyOf p (type p))) ++ equalsHeader ::
        (body ++ hashHeader :: ((hashMethod (compared g store d)).drop 1 ++ ["\x7d"])) := by
    unfold modelLines frontLines stateLines classLines methodLines equalsMethod hashMethod equalsHeader hashHeader
    simp [body]
  have stays : hashHeader ∉ body := fun mem => hashHeader_notMem_equalsMethod (List.mem_cons_of_mem _ mem)
  have plain : ∀ s ∈ ["\x7b", "\x7d", "return false;"], namesAfter mark s = [] := by
    revert mark
    decide
  rw [comparedNames, split, between_eq (notMem_of_overrides named (by decide) (by decide)) stays]
  simp [body, plain, namesAfter_cast side named, namesAfter_comparison side each]

theorem hashedNames_modelLines (named : IsName d.name) (each : ∀ p ∈ compared g store d, IsName p.name) :
    hashedNames (modelLines g store d type) = (compared g store d).map (·.name) := by
  let body := "\x7b" :: "var hashCode = new HashCode();" ::
    ((compared g store d).map (fun p => "hashCode.Add(" ++ p.name ++ ");") ++ ["return hashCode.ToHashCode();"])
  have split : modelLines g store d type = (frontLines g store d type ++ factories d.name ++
      copyMethod d.name ((compared g store d).map fun p => Mapper.copyOf p (type p)) ++
        equalsMethod d.name (compared g store d)) ++ hashHeader :: (body ++ "\x7d" :: ["\x7d"]) := by
    unfold modelLines frontLines stateLines classLines methodLines hashMethod hashHeader
    simp [body]
  have fresh : hashHeader ∉ frontLines g store d type ++ factories d.name ++
      copyMethod d.name ((compared g store d).map fun p => Mapper.copyOf p (type p)) ++
        equalsMethod d.name (compared g store d) := by
    rw [List.mem_append, not_or]
    exact ⟨notMem_of_overrides named (by decide) (by decide), hashHeader_notMem_equalsMethod⟩
  have stays : "\x7d" ∉ body := by
    simp only [body, List.mem_cons, List.mem_append, List.not_mem_nil, or_false, not_or]
    refine ⟨by decide, by decide, fun mem => ?_, by decide⟩
    obtain ⟨p, -, eq⟩ := List.mem_map.mp mem
    exact absurd eq.symm (ne_of_getElem? (i := 0) (c := '\x7d') (by decide) (by simp))
  have adds : ((compared g store d).map fun p => "hashCode.Add(" ++ p.name ++ ");").flatMap
      (namesAfter "hashCode.Add(") = (compared g store d).map (·.name) := by
    rw [List.flatMap_map, List.map_eq_flatMap]
    exact List.flatMap_congr fun p mem => namesAfter_add (each p mem)
  have plain : ∀ s ∈ ["\x7b", "var hashCode = new HashCode();", "return hashCode.ToHashCode();"],
      namesAfter "hashCode.Add(" s = [] := by decide
  rw [hashedNames, split, between_eq fresh stays]
  simp only [body, List.flatMap_cons, List.flatMap_append, List.flatMap_nil, adds]
  rw [plain _ (by simp), plain _ (by simp), plain _ (by simp)]
  simp

end Read

/-- What a model takes over from another object, what it compares, on either side, and what it hashes are its members
that are no versions, in the order of the type. If no text that the settings put into the model has accessors, the
lines with accessors before the methods are those of its members, in the same order; and if no copy has accessors by
the name of a type either, no other line of the model has. -/
theorem same_members (plain : g.hooks = Hooks.none) (reads : w.Reads store) (named : IsName d.name)
    (each : ∀ p ∈ d.properties, IsName p.name) :
    (g.config.IsTyped → ∃ a, (createModel g graph d w).result = .ok a) ∧
      ∀ a, (createModel g graph d w).result = .ok a →
        ∃ lines : List String, ∃ type : PropertyDescriptor → CSharpType, a.source = lines.map .str ∧
          (∀ p ∈ members g store d, (mapper g graph).mapProperty p = .ok (type p)) ∧
          ((∀ text ∈ addedTexts g store d, hasAccessors text = false) →
            declaredLines d.name lines = (members g store d).map (fun p => propertyLine p (type p)) ∧
            ((∀ p ∈ compared g store d, hasAccessors (Mapper.copyOf p (type p)) = false) →
              lines.filter hasAccessors = (members g store d).map fun p => propertyLine p (type p))) ∧
          copiedNames d.name lines = (compared g store d).map (·.name) ∧
          comparedNames "Equals(" lines = (compared g store d).map (·.name) ∧
          comparedNames "other." lines = (compared g store d).map (·.name) ∧
          hashedNames lines = (compared g store d).map (·.name) := by
  have eachCompared : ∀ p ∈ compared g store d, IsName p.name :=
    fun p mem => each p (List.mem_filter.mp (List.mem_filter.mp mem).1).1
  constructor
  · intro typed
    obtain ⟨s, planned⟩ := Generator.plannedPath_ok typed d .model
    have yields : (createModel g graph d).Yields (Artifact.IsAt s true) := createModel_yields typed plain planned
    obtain ⟨a, made, -⟩ := yields w
    exact ⟨a, made⟩
  · intro a made
    obtain ⟨type, typed, source, -⟩ := createModel_eq_ok plain reads made
    exact ⟨_, type, source, typed,
      fun quiet => ⟨declaredLines_modelLines named quiet, accessors_modelLines named eachCompared quiet⟩,
      copiedNames_modelLines named eachCompared, comparedNames_modelLines (by simp) named eachCompared,
      comparedNames_modelLines (by simp) named eachCompared, hashedNames_modelLines named eachCompared⟩

/-- The switch for all properties is off. One property is switched on, one has a switch that cannot be read, and two
have none, one of which is a navigation. The settings add an attribute and an expression, both without accessors. -/
theorem same_members_order :
    let property (name : String) (declaring : String) : PropertyDescriptor :=
      { name, declaringType := declaring, valueKind := .scalar, typeName := "int", isNumeric := true }
    let d : TypeDescriptor :=
      { name := "Order", kind := .entity, namespace_ := "Shop", baseName := some "Base", ancestors := ["Base"]
        properties := [{ property "Version" "Base" with isVersion := true }, property "Total" "Order",
          property "Count" "Order", property "Notes" "Order", { property "Next" "Order" with isNavigation := true }] }
    let scope (identity : String) : Scope := ⟨"WebApi", "ModelProperty", identity, .text "Generate"⟩
    let store : Store := ⟨[(scope allItems, "off"), (scope "Base.Version", "on"), (scope "Order.Total", " Yes "),
      (scope "Order.Notes", "perhaps"), (scope "Order.Next", "on"),
      (⟨"WebApi", "ModelProperty", "Order.Total", .text "Attribute"⟩, "Range(0, 9)"),
      (⟨"WebApi", "Model", "Shop.Order", .text "Lambda"⟩, "public int Twice => Total * 2")]⟩
    let g : Generator := ⟨"csharp", .csharp, Config.default, .none, .builtin, ⟨none, Template.builtins⟩⟩
    let names := ["Total", "Notes"]
    let declared := ["public int Version \x7b get; set; \x7d", "public int Total \x7b get; set; \x7d",
      "public int Notes \x7b get; set; \x7d"]
    g.hooks = Hooks.none ∧ (⟨Resolver.ofStore store, .empty, []⟩ : Workshop).Reads store ∧ IsName d.name ∧
      (∀ p ∈ d.properties, IsName p.name) ∧
      ∃ a, ∃ lines : List String, (createModel g (.ofList [d]) d ⟨Resolver.ofStore store, .empty, []⟩).result = .ok a ∧
        a.source = lines.map .str ∧ declaredLines d.name lines = declared ∧ lines.filter hasAccessors = declared ∧
        copiedNames d.name lines = names ∧ comparedNames "Equals(" lines = names ∧
        comparedNames "other." lines = names ∧ hashedNames lines = names := by
  intro property d scope store g names declared
  have reads : (⟨Resolver.ofStore store, .empty, []⟩ : Workshop).Reads store := Resolver.AgreesWith.ofStore store
  have named : IsName d.name := by decide +kernel
  have each : ∀ p ∈ d.properties, IsName p.name := by decide +kernel
  have switched : members g store d = [{ property "Version" "Base" with isVersion := true }, property "Total" "Order",
      property "Notes" "Order"] := by decide +kernel
  have rest : (compared g store d).map (·.name) = names := by decide +kernel
  have quiet : ∀ text ∈ addedTexts g store d, hasAccessors text = false := by decide +kernel
  have noHooks : g.hooks = Hooks.none := rfl
  obtain ⟨made, shape⟩ := same_members noHooks reads named each
  obtain ⟨a, made⟩ := made (Config.isTyped_default _ _)
  obtain ⟨lines, type, source, typed, accessors, copied, left, right, hashed⟩ := shape a made
  obtain ⟨before, everywhere⟩ := accessors quiet
  rw [rest] at copied left right hashed
  have integer : ∀ p ∈ members g store d, type p = Mapper.plainType p := by
    intro p mem
    have scalar : ∀ p ∈ members g store d, p.valueKind = .scalar := by
      rw [switched]
      decide
    have plain := typed p mem
    rw [Mapper.mapProperty, scalar p mem] at plain
    exact (Except.ok.inj plain).symm
  have written : (members g store d).map (fun p => propertyLine p (type p)) = declared := by
    rw [List.map_congr_left fun p mem => congrArg (propertyLine p) (integer p mem), switched]
    decide +kernel
  have copies : ∀ p ∈ compared g store d, hasAccessors (Mapper.copyOf p (type p)) = false := by
    have plain : ∀ p ∈ compared g store d, hasAccessors (Mapper.copyOf p (Mapper.plainType p)) = false := by
      decide +kernel
    exact fun p mem => integer p (List.mem_filter.mp mem).1 ▸ plain p mem
  exact ⟨rfl, reads, named, each, a, lines, made, source, before.trans written, (everywhere copies).trans written,
    copied, left, right, hashed⟩

/-- The expression that the settings have for an order is itself a property of the name of its one member, so its
model has two such lines. -/
theorem declared_twice_by_expression :
    let document : Json := .obj [("types", .arr [
      .obj [("name", .str "Order"), ("kind", .str "entity"), ("properties", .arr [
        .obj [("name", .str "Total"), ("type", .str "int")]])]])]
    let store : Store :=
      ⟨[(⟨"WebApi", "Model", "Order", .text "Lambda"⟩, "public int Total \x7b get; set; \x7d")]⟩
    let g : Generator := ⟨"csharp", .csharp, Config.default, .none, .builtin, ⟨none, Template.builtins⟩⟩
    ∃ graph, (extractDocument document [] fun _ => true).result = .ok graph ∧
      ∃ d ∈ graph.descriptors, IsName d.name ∧ (∀ p ∈ d.properties, IsName p.name) ∧
        (members g store d).map (·.name) = ["Total"] ∧
        ∃ a, (createModel g graph d ⟨Resolver.ofStore store, .empty, []⟩).result = .ok a ∧
          (a.source.map Json.text).filter hasAccessors =
            ["public int Total \x7b get; set; \x7d", "public int Total \x7b get; set; \x7d;"] := by
  intro document store g
  have checked : (extractDocument document [] fun _ => true).result.toOption.any (fun graph =>
      graph.descriptors.any fun d => decide (IsName d.name) && decide (∀ p ∈ d.properties, IsName p.name) &&
        decide ((members g store d).map (·.name) = ["Total"]) &&
        (createModel g graph d ⟨Resolver.ofStore store, .empty, []⟩).result.toOption.any fun a =>
          decide ((a.source.map Json.text).filter hasAccessors =
            ["public int Total \x7b get; set; \x7d", "public int Total \x7b get; set; \x7d;"])) = true := by
    decide +kernel
  obtain ⟨graph, extracted, checked⟩ := exists_ok_of_any checked
  simp only [Bool.and_eq_true, decide_eq_true_eq, List.any_eq_true] at checked
  obtain ⟨d, mem, ⟨⟨named, each⟩, one⟩, isMade⟩ := checked
  obtain ⟨a, made, two⟩ := exists_ok_of_any isMade
  exact ⟨graph, extracted, d, mem, named, each, one, a, made, of_decide_eq_true two⟩

end Scaffold.CSharp
