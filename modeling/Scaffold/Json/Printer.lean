import Scaffold.Json.Basic
import Scaffold.Text.Quoted

/-!
Three written forms of a value: `literal` for messages, `pieces` for files, `compact` for a line of
output.
-/

namespace Scaffold.Json

mutual

/-- The form inside messages, texts in quotes. -/
def literal : Json → String
  | .null => "None"
  | .bool b => if b then "True" else "False"
  | .int n => toString n
  | .real x => x.text
  | .str s => Text.quoted s
  | .arr items => "[" ++ ", ".intercalate (literals items) ++ "]"
  | .obj fields => "\x7b" ++ ", ".intercalate (fieldLiterals fields) ++ "\x7d"

def literals : List Json → List String
  | [] => []
  | item :: rest => literal item :: literals rest

def fieldLiterals : List (String × Json) → List String
  | [] => []
  | (key, value) :: rest => (Text.quoted key ++ ": " ++ literal value) :: fieldLiterals rest

end

/-- The form as plain text: a text is itself, any other value its literal. -/
def text : Json → String
  | .str s => s
  | value => value.literal

/-- One character of a text inside double quotes. -/
def escapedChar (c : Char) : List Char :=
  if c == '"' then ['\\', '"']
  else if c == '\\' then ['\\', '\\']
  else if c == '\n' then ['\\', 'n']
  else if c == '\r' then ['\\', 'r']
  else if c == '\t' then ['\\', 't']
  else if c == '\x08' then ['\\', 'b']
  else if c == '\x0c' then ['\\', 'f']
  else if c.toNat < 32 then '\\' :: 'u' :: Text.hexDigits 4 c.toNat
  else [c]

/-- A text in double quotes. -/
def textForm (s : String) : String :=
  String.ofList ('"' :: s.toList.flatMap escapedChar ++ ['"'])

/-- A text in double quotes, halves of surrogate pairs as escapes. -/
def escapedForm (s : String) : String :=
  String.ofList <| '"' :: (s.toList.flatMap fun c =>
    match Text.carried? c with
    | some half => '\\' :: 'u' :: Text.hexDigits 4 half
    | none => escapedChar c) ++ ['"']

/-- A real in a file. -/
def realForm : Binary64 → String
  | .infinite negative => if negative then "-Infinity" else "Infinity"
  | .nan => "NaN"
  | x => x.text

/-- A new line with its indentation. -/
def newLine (depth : Nat) : String := String.ofList ('\n' :: List.replicate (2 * depth) ' ')

/-- Puts what comes before an item into its piece, if it is written in one. -/
def leadBy (before : String) : List String → List String
  | [piece] => [before ++ piece]
  | pieces => before :: pieces

mutual

/-- The form in a file, two spaces a level, in the pieces that it is written in. -/
def pieces (depth : Nat) : Json → List String
  | .null => ["null"]
  | .bool b => [if b then "true" else "false"]
  | .int n => [toString n]
  | .real x => [realForm x]
  | .str s => [textForm s]
  | .arr [] => ["[]"]
  | .arr items =>
    itemPieces depth ("[" ++ newLine (depth + 1)) items ++ [newLine depth, "]"]
  | .obj [] => ["\x7b\x7d"]
  | .obj fields =>
    fieldPieces depth ("\x7b" ++ newLine (depth + 1)) fields ++ [newLine depth, "\x7d"]

/-- The items of a list, each with what comes before it. -/
def itemPieces (depth : Nat) (before : String) : List Json → List String
  | [] => []
  | item :: rest =>
    leadBy before (pieces (depth + 1) item) ++
      itemPieces depth ("," ++ newLine (depth + 1)) rest

/-- The fields of an object, each with what comes before it. -/
def fieldPieces (depth : Nat) (before : String) : List (String × Json) → List String
  | [] => []
  | (key, value) :: rest =>
    before :: textForm key :: ": " :: pieces (depth + 1) value ++
      fieldPieces depth ("," ++ newLine (depth + 1)) rest

end

mutual

/-- The form on one line without spaces. -/
def compact : Json → String
  | .null => "null"
  | .bool b => if b then "true" else "false"
  | .int n => toString n
  | .real x => realForm x
  | .str s => escapedForm s
  | .arr items => "[" ++ ",".intercalate (compactItems items) ++ "]"
  | .obj fields => "\x7b" ++ ",".intercalate (compactFields fields) ++ "\x7d"

def compactItems : List Json → List String
  | [] => []
  | item :: rest => compact item :: compactItems rest

def compactFields : List (String × Json) → List String
  | [] => []
  | (key, value) :: rest => (escapedForm key ++ ":" ++ compact value) :: compactFields rest

end

end Scaffold.Json
