import Scaffold.Proofs.Json.Number
import Scaffold.Proofs.Json.Quoted

/-!
Values in a file. What is written for a value that can be read at all is read back as that value.
-/

namespace Scaffold.Json

open Decimal

/-- The characters of a file that is written in pieces. -/
def written (pieces : List String) : List Char := pieces.flatMap String.toList

variable {depth indent fuel : Nat} {v item : Json} {rest cs : List Char} {l more : List Json}

theorem written_append (ps qs : List String) : written (ps ++ qs) = written ps ++ written qs :=
  List.flatMap_append

theorem written_cons (p : String) (ps : List String) : written (p :: ps) = p.toList ++ written ps := rfl

theorem written_leadBy (before : String) (ps : List String) :
    written (leadBy before ps) = before.toList ++ written ps := by
  unfold leadBy
  split
  · simp [written]
  · rfl

theorem written_itemPieces (indent : Nat) (before : String) (item : Json) (more : List Json) :
    written (itemPieces indent before (item :: more)) =
      before.toList ++ (written (pieces (indent + 1) item) ++
        written (itemPieces indent ("," ++ newLine (indent + 1)) more)) := by
  rw [itemPieces, written_append, written_leadBy, List.append_assoc]

theorem written_fieldPieces (indent : Nat) (before key : String) (value : Json) (more : List (String × Json)) :
    written (fieldPieces indent before ((key, value) :: more)) =
      before.toList ++ ('"' :: (key.toList.flatMap escapedChar ++ '"' :: ':' :: ' ' ::
        (written (pieces (indent + 1) value) ++
          written (fieldPieces indent ("," ++ newLine (indent + 1)) more)))) := by
  simp [fieldPieces, written_append, written_cons, textForm]

/-- What comes before the items stands before their text. -/
theorem written_itemPieces_lead (indent : Nat) (before : String) (some_ : l ≠ []) :
    written (itemPieces indent before l) = before.toList ++ written (itemPieces indent "" l) := by
  cases l with
  | nil => exact absurd rfl some_
  | cons item more =>
    rw [written_itemPieces, written_itemPieces]
    rfl

theorem written_fieldPieces_lead (indent : Nat) (before : String) {fields : List (String × Json)}
    (some_ : fields ≠ []) :
    written (fieldPieces indent before fields) = before.toList ++ written (fieldPieces indent "" fields) := by
  cases fields with
  | nil => exact absurd rfl some_
  | cons field more =>
    rw [written_fieldPieces, written_fieldPieces]
    rfl

theorem written_str (indent : Nat) (s : String) :
    written (pieces indent (.str s)) = '"' :: (s.toList.flatMap escapedChar ++ ['"']) := by
  simp [pieces, written, textForm]

theorem written_arr (indent : Nat) (some_ : l ≠ []) :
    written (pieces indent (.arr l)) = '[' :: ((newLine (indent + 1)).toList ++
      (written (itemPieces indent "" l) ++ ((newLine indent).toList ++ [']']))) := by
  rw [pieces, written_append, written_itemPieces_lead _ _ some_]
  · simp [written]
  · exact some_

theorem written_obj (indent : Nat) {fields : List (String × Json)} (some_ : fields ≠ []) :
    written (pieces indent (.obj fields)) = '\x7b' :: ((newLine (indent + 1)).toList ++
      (written (fieldPieces indent "" fields) ++ ((newLine indent).toList ++ ['\x7d']))) := by
  rw [pieces, written_append, written_fieldPieces_lead _ _ some_]
  · simp [written]
  · exact some_

/-- What is no text and no container is read as it is. -/
theorem value_of_scalar {read : Json × List Char} (h : scalar cs = .ok read) (fuel depth : Nat) :
    value (fuel + 1) depth cs = .ok read := by
  have quote (tail : List Char) : cs ≠ '"' :: tail := by
    rintro rfl
    cases h
  have bracket (tail : List Char) : cs ≠ '[' :: tail := by
    rintro rfl
    cases h
  have brace (tail : List Char) : cs ≠ '\x7b' :: tail := by
    rintro rfl
    cases h
  rw [value.eq_7 depth cs fuel quote (fun tail same _ => bracket tail same) (fun tail same _ => brace tail same)
    (fun tail _ same _ => bracket tail same) fun tail _ same _ => brace tail same, h]

/-- No value begins with a space, a closing bracket or a byte order mark. -/
theorem value_error {c : Char} (none_ : c ∈ [' ', '\t', '\n', '\r', ']', '\uFEFF']) (tail : List Char) :
    value fuel depth (c :: tail) = .error (.complaint .value (tail.length + 1)) := by
  cases fuel with
  | zero => rfl
  | succ fuel =>
    simp only [List.mem_cons, List.not_mem_nil, or_false] at none_
    rcases none_ with rfl | rfl | rfl | rfl | rfl | rfl <;> rfl

theorem value_head {read : Json × List Char} (h : value fuel depth cs = .ok read) :
    ∃ c tail, cs = c :: tail ∧ isSpace c = false ∧ c ≠ ']' ∧ c ≠ '\uFEFF' := by
  cases cs with
  | nil => cases fuel <;> cases h
  | cons c tail =>
    refine ⟨c, tail, rfl, ?_, ?_, ?_⟩
    · by_contra space
      simp only [isSpace, Bool.not_eq_false, Bool.or_eq_true, beq_iff_eq] at space
      rw [value_error (by rcases space with ((rfl | rfl) | rfl) | rfl <;> simp)] at h
      cases h
    · rintro rfl
      rw [value_error (by simp)] at h
      cases h
    · rintro rfl
      rw [value_error (by simp)] at h
      cases h

/-- The value is read back wherever it stands, if what follows does not go on with it. -/
def ReadsBack (depth : Nat) (v : Json) : Prop :=
  -- a step down into a list or an object takes fuel for its bracket and for its first item
  ∀ indent fuel rest, 2 * (written (pieces indent v)).length ≤ fuel → Stops rest →
    value fuel depth (written (pieces indent v) ++ rest) = .ok (v, rest)

theorem skipSpace_newLine (indent : Nat) (cs : List Char) :
    skipSpace ((newLine indent).toList ++ cs) = skipSpace cs := by
  rw [newLine, String.toList_ofList, skipSpace, List.dropWhile_append_of_pos]
  · rfl
  · intro c mem
    rcases List.mem_cons.mp mem with rfl | blank
    · rfl
    · rw [List.eq_of_mem_replicate blank]
      rfl

theorem skipSpace_of_head {c : Char} (visible : isSpace c = false) (cs : List Char) :
    skipSpace (c :: cs) = c :: cs := by
  simp [skipSpace, visible]

theorem stops_newLine (indent : Nat) (cs : List Char) : Stops ((newLine indent).toList ++ cs) := by
  intro c mem
  obtain rfl : '\n' = c := by simpa [newLine] using mem
  exact ⟨rfl, by decide, by decide, by decide⟩

theorem stops_comma (cs : List Char) : Stops (',' :: cs) := by
  intro c mem
  obtain rfl := Option.some.inj mem
  exact ⟨rfl, by decide, by decide, by decide⟩

theorem toList_separator (indent : Nat) :
    ("," ++ newLine indent).toList = ',' :: (newLine indent).toList := by simp

/-- An item is followed by a comma or a new line. -/
theorem stops_items (indent : Nat) (more : List Json) (cs : List Char) :
    Stops (written (itemPieces indent ("," ++ newLine (indent + 1)) more) ++ ((newLine indent).toList ++ cs)) := by
  by_cases last : more = []
  · rw [last]
    exact stops_newLine indent cs
  · rw [written_itemPieces_lead _ _ last, toList_separator]
    exact stops_comma _

theorem stops_fields (indent : Nat) (more : List (String × Json)) (cs : List Char) :
    Stops (written (fieldPieces indent ("," ++ newLine (indent + 1)) more) ++ ((newLine indent).toList ++ cs)) := by
  by_cases last : more = []
  · rw [last]
    exact stops_newLine indent cs
  · rw [written_fieldPieces_lead _ _ last, toList_separator]
    exact stops_comma _

/-- The text of the items begins with no space and no closing bracket. -/
theorem items_head (each : ∀ item ∈ l, ReadsBack depth item) (some_ : l ≠ []) (indent : Nat) (cs : List Char) :
    ∃ c tail, written (itemPieces indent "" l) ++ ((newLine indent).toList ++ cs) = c :: tail ∧
      isSpace c = false ∧ c ≠ ']' ∧ c ≠ '\uFEFF' := by
  obtain ⟨item, more, rfl⟩ := List.exists_cons_of_ne_nil some_
  rw [written_itemPieces, String.toList_empty, List.nil_append, List.append_assoc]
  exact value_head (each item List.mem_cons_self _ _ _ (Nat.le_refl _) (stops_items indent more cs))

/-- The items of a list are read back. -/
theorem items_written (each : ∀ item ∈ l, ReadsBack depth item) (some_ : l ≠ []) (indent : Nat)
    (enough : 2 * (written (itemPieces indent "" l)).length < fuel) :
    items fuel depth (written (itemPieces indent "" l) ++ ((newLine indent).toList ++ ']' :: rest)) =
      .ok (l, rest) := by
  induction l generalizing fuel with
  | nil => exact absurd rfl some_
  | cons item more ih =>
    obtain ⟨fuel, rfl⟩ := Nat.exists_eq_add_one_of_ne_zero (Nat.ne_zero_of_lt enough)
    have eachMore : ∀ item ∈ more, ReadsBack depth item := fun item mem => each item (List.mem_cons_of_mem _ mem)
    rw [written_itemPieces, String.toList_empty, List.nil_append] at enough ⊢
    rw [List.length_append] at enough
    rw [items.eq_2, List.append_assoc,
      each item List.mem_cons_self _ _ _ (by omega) (stops_items indent more (']' :: rest))]
    simp only [bind, Except.bind]
    by_cases last : more = []
    · rw [last, itemPieces, show written [] = [] from rfl, List.nil_append, skipSpace_newLine,
        skipSpace_of_head (c := ']') rfl]
      rfl
    · rw [written_itemPieces_lead _ _ last, toList_separator, List.length_append, List.length_cons] at enough
      rw [written_itemPieces_lead _ _ last, toList_separator, List.cons_append, List.cons_append,
        skipSpace_of_head (c := ',') rfl]
      simp only
      obtain ⟨c, tail, form, visible, -⟩ := items_head eachMore last indent (']' :: rest)
      rw [List.append_assoc, skipSpace_newLine, form, skipSpace_of_head visible, ← form,
        ih eachMore last (by omega)]
      rfl

theorem fields_head {fields : List (String × Json)} (some_ : fields ≠ []) (indent : Nat) (cs : List Char) :
    ∃ tail, written (fieldPieces indent "" fields) ++ ((newLine indent).toList ++ cs) = '"' :: tail := by
  obtain ⟨⟨key, value⟩, more, rfl⟩ := List.exists_cons_of_ne_nil some_
  rw [written_fieldPieces]
  exact ⟨_, rfl⟩

/-- One field is read: its key, its value, and whether there are more. -/
theorem fields_field {before : List (String × Json)} {key : String} {text after : List Char}
    (read : value fuel depth text = .ok (item, after)) :
    fields (fuel + 1) depth before ('"' :: (key.toList.flatMap escapedChar ++ '"' :: ':' :: ' ' :: text)) =
      match skipSpace after with
      | '\x7d' :: rest => .ok (Fields.put before key item, rest)
      | ',' :: rest => fields fuel depth (Fields.put before key item) (skipSpace rest)
      | rest => .error (.complaint .comma rest.length) := by
  obtain ⟨c, tail, form, visible, -⟩ := value_head read
  have space : skipSpace (' ' :: text) = text := by
    rw [form]
    exact skipSpace_of_head visible tail
  rw [fields.eq_2, stringAfterQuote_escaped]
  simp only [bind, Except.bind]
  rw [skipSpace_of_head (c := ':') rfl]
  simp only [space, read]
  rfl

/-- The fields of an object are read back and added to those before. -/
theorem fields_written {l before : List (String × Json)} (each : ∀ field ∈ l, ReadsBack depth field.2)
    (some_ : l ≠ []) (distinct : ((before ++ l).map (·.1)).Nodup) (indent : Nat)
    (enough : 2 * (written (fieldPieces indent "" l)).length < fuel) :
    fields fuel depth before (written (fieldPieces indent "" l) ++ ((newLine indent).toList ++ '\x7d' :: rest)) =
      .ok (before ++ l, rest) := by
  induction l generalizing fuel before with
  | nil => exact absurd rfl some_
  | cons field more ih =>
    obtain ⟨key, item⟩ := field
    obtain ⟨fuel, rfl⟩ := Nat.exists_eq_add_one_of_ne_zero (Nat.ne_zero_of_lt enough)
    obtain ⟨first, eachMore⟩ : ReadsBack depth item ∧ ∀ field ∈ more, ReadsBack depth field.2 :=
      List.forall_mem_cons.mp each
    rw [written_fieldPieces, String.toList_empty, List.nil_append] at enough ⊢
    simp only [List.length_cons, List.length_append] at enough
    have added : Fields.put before key item = before ++ [(key, item)] := by
      refine Fields.put_eq_append (fun known => ?_) item
      rw [List.map_append] at distinct
      exact List.disjoint_of_nodup_append distinct known List.mem_cons_self
    have read := first (indent + 1) fuel _ (by omega) (stops_fields indent more ('\x7d' :: rest))
    simp only [List.cons_append, List.append_assoc]
    rw [fields_field read, added]
    by_cases last : more = []
    · rw [last, fieldPieces, show written [] = [] from rfl, List.nil_append, skipSpace_newLine,
        skipSpace_of_head (c := '\x7d') rfl]
      rfl
    · rw [written_fieldPieces_lead _ _ last, toList_separator] at enough
      simp only [List.length_append, List.length_cons] at enough
      have distinctMore : ((before ++ [(key, item)] ++ more).map (·.1)).Nodup := by
        rw [List.append_assoc]
        exact distinct
      obtain ⟨tail, head⟩ := fields_head last indent ('\x7d' :: rest)
      have next : skipSpace (written (fieldPieces indent ("," ++ newLine (indent + 1)) more) ++
          ((newLine indent).toList ++ '\x7d' :: rest)) = ',' :: ((newLine (indent + 1)).toList ++
            (written (fieldPieces indent "" more) ++ ((newLine indent).toList ++ '\x7d' :: rest))) := by
        rw [written_fieldPieces_lead _ _ last, toList_separator, List.append_assoc, List.cons_append]
        exact skipSpace_of_head rfl _
      rw [next]
      simp only
      rw [skipSpace_newLine, head, skipSpace_of_head (c := '"') rfl, ← head,
        ih eachMore last distinctMore (by omega), List.append_assoc]
      rfl

theorem ReadsBack.of_scalar (text : String) (form : ∀ indent, pieces indent v = [text])
    (read : ∀ rest, Stops rest → scalar (text.toList ++ rest) = .ok (v, rest)) :
    ReadsBack depth v := by
  intro indent fuel rest enough stops
  have same : written (pieces indent v) = text.toList := by simp [form, written]
  have some_ : 0 < text.toList.length := by
    refine List.length_pos_of_ne_nil fun none_ => ?_
    have := read [] fun c mem => nomatch mem
    rw [none_] at this
    cases this
  rw [same] at enough ⊢
  obtain ⟨fuel, rfl⟩ : ∃ k, fuel = k + 1 := Nat.exists_eq_add_one_of_ne_zero (by omega)
  exact value_of_scalar (read rest stops) fuel depth

theorem ReadsBack.str (s : String) : ReadsBack depth (.str s) := by
  intro indent fuel rest enough _
  rw [written_str] at enough ⊢
  obtain ⟨fuel, rfl⟩ : ∃ k, fuel = k + 1 :=
    Nat.exists_eq_add_one_of_ne_zero (by rw [List.length_cons] at enough; omega)
  rw [List.cons_append, List.append_assoc, List.singleton_append, value.eq_2, stringAfterQuote_escaped]
  rfl

theorem ReadsBack.arr (each : ∀ item ∈ l, ReadsBack depth item) : ReadsBack (depth + 1) (.arr l) := by
  intro indent fuel rest enough stops
  by_cases empty : l = []
  · subst empty
    have text : written (pieces indent (.arr [])) = ['[', ']'] := by simp [pieces, written]
    rw [text] at enough ⊢
    obtain ⟨fuel, rfl⟩ : ∃ k, fuel = k + 1 := Nat.exists_eq_add_one_of_ne_zero (by simp at enough; omega)
    rfl
  · rw [written_arr indent empty] at enough ⊢
    simp only [List.length_cons, List.length_append] at enough
    obtain ⟨fuel, rfl⟩ : ∃ k, fuel = k + 1 := Nat.exists_eq_add_one_of_ne_zero (by omega)
    simp only [List.cons_append, List.append_assoc, List.nil_append]
    obtain ⟨c, tail, form, visible, open_, -⟩ := items_head each empty indent (']' :: rest)
    rw [value.eq_5, skipSpace_newLine, form, skipSpace_of_head visible]
    split
    · rename_i same
      exact absurd (List.cons.inj same).1 open_
    · rw [← form, items_written each empty indent (by omega)]
      rfl

theorem ReadsBack.obj {fields : List (String × Json)} (distinct : (fields.map (·.1)).Nodup)
    (each : ∀ field ∈ fields, ReadsBack depth field.2) : ReadsBack (depth + 1) (.obj fields) := by
  intro indent fuel rest enough stops
  by_cases empty : fields = []
  · subst empty
    have text : written (pieces indent (.obj [])) = ['\x7b', '\x7d'] := by simp [pieces, written]
    rw [text] at enough ⊢
    obtain ⟨fuel, rfl⟩ : ∃ k, fuel = k + 1 := Nat.exists_eq_add_one_of_ne_zero (by simp at enough; omega)
    rfl
  · rw [written_obj indent empty] at enough ⊢
    simp only [List.length_cons, List.length_append] at enough
    obtain ⟨fuel, rfl⟩ : ∃ k, fuel = k + 1 := Nat.exists_eq_add_one_of_ne_zero (by omega)
    simp only [List.cons_append, List.append_assoc, List.nil_append]
    obtain ⟨tail, form⟩ := fields_head empty indent ('\x7d' :: rest)
    rw [value.eq_6, skipSpace_newLine, form, skipSpace_of_head (c := '"') rfl]
    split
    · rename_i same
      cases same
    · have distinct : (([] ++ fields : List (String × Json)).map (·.1)).Nodup := distinct
      rw [← form, fields_written each empty distinct indent (by omega)]
      rfl

/-- A value that can be read is read back from what is written for it. -/
theorem readsBack (h : Readable depth v) : ReadsBack depth v := by
  induction h with
  | null => exact .of_scalar "null" (fun _ => rfl) fun _ _ => rfl
  | bool b =>
    cases b
    · exact .of_scalar "false" (fun _ => rfl) fun _ _ => rfl
    · exact .of_scalar "true" (fun _ => rfl) fun _ _ => rfl
  | int short => exact .of_scalar _ (fun _ => rfl) fun _ stops => scalar_int short stops
  | real canonical => exact .of_scalar _ (fun _ => rfl) fun _ stops => scalar_real canonical stops
  | str s => exact .str s
  | arr _ ih => exact .arr ih
  | obj distinct _ ih => exact .obj distinct ih

/-- A file that holds a value that can be read is read as that value. -/
theorem document_written (h : Readable depth v) : document depth (written (pieces 0 v)) = .ok v := by
  have read := readsBack h 0 (2 * (written (pieces 0 v)).length + 2) [] (by omega) fun c mem => nomatch mem
  rw [List.append_nil] at read
  obtain ⟨c, tail, form, visible, -, noMark⟩ := value_head read
  rw [form] at read ⊢
  unfold document
  split
  · rename_i same
    exact absurd (List.cons.inj same).1 noMark
  · rw [skipSpace_of_head visible, read]
    rfl

/-- A text that holds a value that can be read is parsed as that value. -/
theorem parse_written (h : Readable depth v) : parse depth (.ofList (written (pieces 0 v))) = .ok v := by
  rw [parse, String.toList_ofList, document_written h]
  rfl

theorem notMem_of_isNumeral (all : ∀ c ∈ cs, IsNumeral c) : '\r' ∉ cs := by
  intro mem
  have := all _ mem
  simp [IsNumeral, Char.isDigit] at this

theorem notMem_realForm (x : Binary64) : '\r' ∉ (realForm x).toList := by
  cases x with
  | nan => decide
  | infinite negative => cases negative <;> decide
  | finite negative m e =>
    rw [toList_realForm, List.mem_append, not_or]
    constructor
    · split <;> simp
    · split
      · decide
      · exact notMem_of_isNumeral (isNumeral_write _ _ _)

theorem notMem_hexDigits : ∀ n < 32, '\r' ∉ Text.hexDigits 4 n := by decide

theorem notMem_escaped (cs : List Char) : '\r' ∉ cs.flatMap escapedChar := by
  intro mem
  obtain ⟨c, -, mem⟩ := List.mem_flatMap.mp mem
  unfold escapedChar at mem
  iterate 7
    split at mem
    · simp at mem
  split at mem
  · rename_i control
    simp [notMem_hexDigits _ control] at mem
  · rename_i return_ _ _ _ _
    exact return_ (beq_iff_eq.mpr (List.mem_singleton.mp mem).symm)

theorem notMem_newLine (indent : Nat) : '\r' ∉ (newLine indent).toList := by
  simp [newLine]

theorem notMem_itemPieces (before : String) (lead : '\r' ∉ before.toList)
    (each : ∀ item ∈ l, ∀ indent, '\r' ∉ written (pieces indent item)) (indent : Nat) :
    '\r' ∉ written (itemPieces indent before l) := by
  induction l generalizing before with
  | nil => exact List.not_mem_nil
  | cons item more ih =>
    have separator : '\r' ∉ ("," ++ newLine (indent + 1)).toList := by
      rw [toList_separator]
      simp [notMem_newLine]
    rw [written_itemPieces, List.mem_append, List.mem_append, not_or, not_or]
    exact ⟨lead, each item List.mem_cons_self _, ih _ separator fun item mem => each item (List.mem_cons_of_mem _ mem)⟩

theorem notMem_fieldPieces {fields : List (String × Json)} (before : String) (lead : '\r' ∉ before.toList)
    (each : ∀ field ∈ fields, ∀ indent, '\r' ∉ written (pieces indent field.2)) (indent : Nat) :
    '\r' ∉ written (fieldPieces indent before fields) := by
  induction fields generalizing before with
  | nil => exact List.not_mem_nil
  | cons field more ih =>
    obtain ⟨key, value⟩ := field
    have separator : '\r' ∉ ("," ++ newLine (indent + 1)).toList := by
      rw [toList_separator]
      simp [notMem_newLine]
    have rest := ih _ separator fun field mem => each field (List.mem_cons_of_mem _ mem)
    have first := each (key, value) List.mem_cons_self (indent + 1)
    rw [written_fieldPieces]
    simp only [List.mem_append, List.mem_cons, notMem_escaped, lead, first, rest]
    decide

/-- No carriage return is written as it is. -/
theorem notMem_written (h : Readable depth v) (indent : Nat) : '\r' ∉ written (pieces indent v) := by
  induction h generalizing indent with
  | null => exact (by decide : '\r' ∉ written ["null"])
  | bool b =>
    cases b
    · exact (by decide : '\r' ∉ written ["false"])
    · exact (by decide : '\r' ∉ written ["true"])
  | @int _ n _ => simpa [pieces, written] using notMem_of_isNumeral (isNumeral_toString n)
  | @real _ x _ => simpa [pieces, written] using notMem_realForm x
  | str s =>
    rw [written_str, List.mem_cons, List.mem_append, not_or, not_or]
    exact ⟨by decide, notMem_escaped _, by decide⟩
  | @arr _ items _ ih =>
    by_cases empty : items = []
    · subst empty
      exact (by decide : '\r' ∉ written ["[]"])
    · rw [written_arr indent empty]
      simp [notMem_newLine, notMem_itemPieces "" (by simp) ih]
  | @obj _ fields _ _ ih =>
    by_cases empty : fields = []
    · subst empty
      exact (by decide : '\r' ∉ written ["\x7b\x7d"])
    · rw [written_obj indent empty]
      simp [notMem_newLine, notMem_fieldPieces "" (by simp) ih]

end Scaffold.Json
