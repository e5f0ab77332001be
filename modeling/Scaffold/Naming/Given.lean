import Scaffold.Json.Equality
import Scaffold.Naming.Case

/-!
Names out of values that need not be texts. A function of a text takes what can stand in for one, such as a
list in place of its characters, and refuses the rest.
-/

namespace Scaffold.Naming

/-- A function of texts that asks for an ability that only texts have. -/
def ofText (ability : String) (f : String → String) (v : Json) : Except Misfit Json :=
  (v.asText? ability).map fun s => .str (f s)

/-- The part before the first item of a value is asked for `ability`, which only texts have. -/
def ofFirst (ability : String) (f : String → String) : Json → Except Misfit Json
  | .str s => .ok (.str (f s))
  | .arr _ => .error (.lacks "list" ability)
  | .obj _ => .error (.unhashable "slice")
  | v => .error (.notSubscriptable v.kindName)

def NamingCase.applyTo (case : NamingCase) (v : Json) : Except Misfit Json :=
  match case with
  | .camel => ofFirst "lower" lowerFirst v
  | .pascal => ofFirst "upper" upperFirst v
  | .unchanged => .ok v

/-- The items of a file item after the first; `last` is what was written last. -/
def fileItemsAfter (last : String) : List Json → Except Misfit String
  | [] => .ok ""
  | .str piece :: rest =>
    if Text.contains piece "\\/" then do return "/" ++ (← fileItemsAfter "/" rest)
    else do
      let hyphen := if Text.isAllUpper piece && last ≠ "/" then "-" else ""
      let form := Text.lower piece
      return hyphen ++ form ++ (← fileItemsAfter form rest)
  | v :: _ => .error (.notPiece v.kindName)

/-- A file item of a text, or of the items of a list or object in place of characters. -/
def fileItemOf : Json → Except Misfit String
  | .str s => .ok (fileItem s)
  | v => do
    match ← v.items? with
    | [] => return ""
    | first :: rest =>
      let form := Text.lower (← first.asText? "lower")
      return form ++ (← fileItemsAfter form rest)

/-- The plural of a word, by a rule for plurals; a value that says nothing stays as it is. -/
def pluralOf (plural : String → String) (v : Json) : Except Misfit Json :=
  if v.isSet then ofText "lower" plural v else .ok v

/-- Drops the mark of an interface from a text, or the item in its place from a list. -/
def withoutInterfaceMarkOf : Json → Except Misfit Json
  | .str s => .ok (.str (withoutInterfaceMark s))
  | .arr (first :: second :: rest) =>
    if first.equals (.str "I") then do
      let s ← second.asText? "isupper"
      return .arr (if Text.isAllUpper s then second :: rest else first :: second :: rest)
    else .ok (.arr (first :: second :: rest))
  | .obj (_ :: _ :: _) => .error (.noKey "0")
  | .arr items => .ok (.arr items)
  | .obj fields => .ok (.obj fields)
  | v => .error (.noLength v.kindName)

/-- A part of a path: a text, or a value that says nothing. -/
def pathPart (v : Json) : Except Misfit String := if v.isSet then v.asText? "strip" else .ok ""

/-- Joins the parts that hold more than slashes. -/
def joinGiven (parts : List Json) : Except Misfit String := (parts.mapM pathPart).map joinPath

/-- A part of a dotted identifier: a text, or a value that says nothing. -/
def modulePart : Json → Except Misfit String
  | .str s => .ok s
  | v => if v.isSet then .error (.notText v.kindName) else .ok ""

/-- Joins the names in the parts by dots. -/
def moduleGiven (parts : List Json) : Except Misfit String :=
  (parts.mapM modulePart).map moduleIdentifier

theorem pathPart_str (part : String) : pathPart (.str part) = .ok part := by
  unfold pathPart; cases h : (Json.str part).isSet
  · have : part = "" := by simpa [Json.isSet] using h
    simp [this]
  · simp [Json.asText?]

theorem pathParts_texts (parts : List String) : (parts.map Json.str).mapM pathPart = .ok parts := by
  induction parts with
  | nil => rfl
  | cons part rest ih =>
    simp [List.mapM_cons, pathPart_str, ih, bind, Except.bind, pure, Except.pure]

theorem joinGiven_texts (parts : List String) :
    joinGiven (parts.map .str) = .ok (joinPath parts) := by
  rw [joinGiven, pathParts_texts]
  rfl

theorem joinGiven_cons_texts {given : Json} {first : String} (h : pathPart given = .ok first)
    (parts : List String) :
    joinGiven (given :: parts.map .str) = .ok (joinPath (first :: parts)) := by
  rw [joinGiven, List.mapM_cons, h, pathParts_texts]
  rfl

theorem moduleGiven_texts (parts : List String) :
    moduleGiven (parts.map .str) = .ok (moduleIdentifier parts) := by
  have h : (parts.map Json.str).mapM modulePart = .ok parts := by
    induction parts with
    | nil => rfl
    | cons part rest ih =>
      simp [List.mapM_cons, modulePart, ih, bind, Except.bind, pure, Except.pure]
  simp [moduleGiven, h, Except.map]

end Scaffold.Naming
