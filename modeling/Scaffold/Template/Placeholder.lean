import Scaffold.Json.Printer
import Scaffold.Naming.Plural
import Scaffold.Packages
import Scaffold.Text.Lines

/-!
Packages to work with. The template package here knows templates of literal text with placeholders for
variables, which may pass through filters; in a template for markup a variable's text is escaped. A file in
the directory of an engine wins over a template in memory, but a template that was taken from memory once
stays in use. Rendering leaves the tree alone.
-/

namespace Scaffold.Template

/-- A part of a template. -/
inductive Piece where
  | literal (text : List Char)
  | slot (name : String) (filters : List String)
  deriving DecidableEq, Repr

def Value.text : Value → String
  | .given v => v.text
  | .builtin text => text

/-- What every template knows; a variable of the same name wins. -/
def builtinValues : List (String × Value) := [
  ("range", .builtin "<class 'range'>"),
  ("dict", .builtin "<class 'dict'>"),
  ("cycler", .builtin "<class 'jinja2.utils.Cycler'>"),
  ("joiner", .builtin "<class 'jinja2.utils.Joiner'>"),
  ("namespace", .builtin "<class 'jinja2.utils.Namespace'>")]

/-- The words that are values themselves. -/
def constants : List (String × Value) := [
  ("true", .given (.bool true)), ("True", .given (.bool true)),
  ("false", .given (.bool false)), ("False", .given (.bool false)),
  ("none", .given .null), ("None", .given .null)]

/-- A filter of texts, whatever they stand for. -/
def textFilter (f : String → String) (v : Value) : Except Misfit Value :=
  .ok (.given (.str (f v.text)))

/-- The filters that every template knows. -/
def builtinFilters : Filters := [("lower", textFilter Text.lower), ("upper", textFilter Text.upper)]

/-- What stands inside a placeholder: a variable and filters between bars. -/
def placeholder (inside : List Char) : Piece :=
  match (inside.splitOn '|').map fun part => String.ofList (Text.trimChars Text.isBlank part) with
  | [] => .slot "" []
  | name :: filters => .slot name filters

/-- The pieces of a template. `inside` holds the characters of an open placeholder in reverse, `text`
those of the literal text before it. -/
def piecesFrom : (inside : Option (List Char)) → (text : List Char) → List Char → Option (List Piece)
  | none, text, [] => some [.literal text.reverse]
  | some _, _, [] => none
  | none, text, '\x7b' :: '\x7b' :: rest =>
    (piecesFrom (some []) [] rest).map (.literal text.reverse :: ·)
  | none, text, c :: rest => piecesFrom none (c :: text) rest
  | some inside, _, '\x7d' :: '\x7d' :: rest =>
    (piecesFrom none [] rest).map (placeholder inside.reverse :: ·)
  | some inside, text, c :: rest => piecesFrom (some (c :: inside)) text rest

/-- The source as it is rendered: line ends as `\n`, one at the very end left out. -/
def normalize (source : String) : List Char :=
  let cs := Text.newlines (Text.chars source)
  (Text.dropSuffix? ['\n'] cs).getD cs

def pieces (source : String) : Option (List Piece) := piecesFrom none [] (normalize source)

/-- The first filter that is not known; in one placeholder the last one is looked at first. -/
def unknownFilter? (known : Filters) : List Piece → Option String
  | [] => none
  | .literal _ :: rest => unknownFilter? known rest
  | .slot _ names :: rest =>
    (names.reverse.find? fun name => (known.lookup name).isNone).orElse fun _ =>
      unknownFilter? known rest

/-- Is the template for markup, by the end of its name? -/
def isMarkup (name : String) : Bool :=
  let name := Text.lower name
  Text.endsWith ".html" name || Text.endsWith ".xml" name

def escapedChar (c : Char) : List Char :=
  if c == '&' then "&amp;".toList
  else if c == '<' then "&lt;".toList
  else if c == '>' then "&gt;".toList
  else if c == '"' then "&#34;".toList
  else if c == '\'' then "&#39;".toList
  else [c]

def escape (s : String) : String := .ofList (s.toList.flatMap escapedChar)

/-- A value that is not of the kind that is asked for. -/
def Problem.ofMisfit (what : Misfit) : Problem :=
  .raised what.name what.message (what.name ++ "(" ++ Text.quoted what.message ++ ")")

def Problem.ofDecode (e : Text.DecodeError) : Problem :=
  .raised "UnicodeDecodeError" e.message e.details

/-- What a name stands for. -/
def valueOf? (context : Context) (name : String) : Option Value :=
  ((constants.lookup name).or ((context.lookup name).map .given)).or (builtinValues.lookup name)

def applyFilters (known : Filters) (value : Value) : List String → Except Misfit Value
  | [] => .ok value
  | name :: rest => do
    let filtered ← ((known.lookup name).getD .ok) value
    applyFilters known filtered rest

/-- The text of one piece. -/
def renderPiece (known : Filters) (markup : Bool) (context : Context) : Piece → Except Problem String
  | .literal text => .ok (.ofList text)
  | .slot name names =>
    match valueOf? context name with
    | none => .error (.refused (Text.quoted name ++ " is undefined"))
    | some value =>
      match applyFilters known value names with
      | .error what => .error (.ofMisfit what)
      | .ok filtered => .ok (if markup then escape filtered.text else filtered.text)

def renderPieces (known : Filters) (markup : Bool) (context : Context) :
    List Piece → Except Problem String
  | [] => .ok ""
  | piece :: rest => do
    let text ← renderPiece known markup context piece
    return text ++ (← renderPieces known markup context rest)

/-- A template that was found and read. -/
structure Found where
  name : String
  parts : List Piece
  /-- Was it taken from memory? -/
  isTaken : Bool

/-- The pieces of a source, if all its filters are known. -/
def read (known : Filters) (source : String) : Except Problem (List Piece) :=
  match pieces source with
  | none => .error (.refused "malformed placeholder")
  | some parts =>
    match unknownFilter? known parts with
    | some f => .error (.refused ("No filter named " ++ Text.quoted f ++ "."))
    | none => .ok parts

/-- No variable can have the name of the template itself. -/
def selfName : String := "self"

/-- The text of a template that was found. -/
def Found.render (f : Found) (known : Filters) (context : Context) : Except Problem String :=
  if (context.lookup selfName).isSome then .error (.ofMisfit .arguments)
  else renderPieces known (isMarkup f.name) context f.parts

namespace Engine

/-- The path of a template in a directory; no name leads up. -/
def pathIn? (directory : Path) (name : String) : Option Path :=
  let parts := Text.splitOn '/' name
  if parts.contains ".." then none
  else some ⟨directory.anchor,
    directory.parts ++ parts.filter fun part => part != "" && part != "."⟩

/-- The file of a template, if the directory has one. -/
def file? (e : Engine) (t : Tree) (name : String) : Option ByteArray := do
  let directory ← e.directory
  let path ← pathIn? directory name
  t.fileAt? path

/-- The source of a template, and whether it comes from memory; `taken` are those that came from there
before. -/
def source (e : Engine) (t : Tree) (taken : List String) (name : String) :
    Except Problem (String × Bool) :=
  match if taken.contains name then none else e.file? t name with
  | some bytes => ((Text.decode bytes).mapError .ofDecode).map (·, false)
  | none =>
    match e.memory.lookup name with
    | some source => .ok (source, true)
    | none => .error (.refused name)

/-- Finds and reads a template. -/
def find (e : Engine) (known : Filters) (t : Tree) (taken : List String) (name : String) :
    Except Problem Found := do
  let (source, isTaken) ← e.source t taken name
  let parts ← read known source
  return ⟨name, parts, isTaken⟩

/-- Does a request, after others, take its template from memory? -/
def takes (e : Engine) (known : Filters) (t : Tree) (taken : List String) (name : String) : Bool :=
  match e.find known t taken name with
  | .ok found => found.isTaken
  | .error _ => false

/-- The templates that an engine has taken from memory for its user. -/
def taken (e : Engine) (known : Filters) (user : String) : List Use → List String
  | [] => []
  | use :: before =>
    let taken := e.taken known user before
    if use.request.user = user && use.request.engine = e &&
        e.takes known use.tree taken use.request.template then
      use.request.template :: taken
    else taken

end Engine

/-- The text that is asked for. -/
def textFor (known : Filters) (uses : List Use) (t : Tree) (r : Request) : Except Problem String := do
  let found ← r.engine.find known t (r.engine.taken known r.user uses) r.template
  found.render known r.context

end Scaffold.Template

namespace Scaffold

/-- Packages that know the plurals of English words, and templates with placeholders. -/
def Packages.builtin : Packages where
  plural := Naming.Plural.of
  render own uses t r := ⟨t, Template.textFor (own ++ Template.builtinFilters) uses t r⟩

end Scaffold
