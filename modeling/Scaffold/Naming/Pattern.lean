import Scaffold.Text.Case
import Scaffold.Text.Word

/-!
Patterns over words that take no notice of case. `outcomes` lists the ways in which a pattern matches
at a place, the preferred one first; a search takes the first place at which there is one.
-/

namespace Scaffold.Naming

/-- A test of one character. -/
inductive CharTest where
  | oneOf (letters : List Char)
  | noneOf (letters : List Char)
  | nonAscii
  deriving Repr

/-- Is `c` the small letter `letter`, in any case? Two letters have a further form. -/
def sameLetter (c letter : Char) : Bool :=
  let small := Text.lowerChar c
  small == letter || (letter == 'i' && small == 'ı') || (letter == 's' && small == 'ſ')

def CharTest.accepts (c : Char) : CharTest → Bool
  | .oneOf letters => letters.any (sameLetter c)
  | .noneOf letters => !letters.any (sameLetter c)
  | .nonAscii =>
    let small := Text.lowerChar c
    127 < small.toNat && small != 'ı' && small != 'ſ'

inductive Pattern where
  | nothing
  | char (test : CharTest)
  | seq (first second : Pattern)
  | alt (first second : Pattern)
  | group (number : Nat) (body : Pattern)
  | wordEdge
  | start
  | finish
  deriving Repr

/-- How far a match has come: the characters before it in reverse, those after it, and the text of
its groups. -/
structure Progress where
  before : List Char
  rest : List Char
  groups : List (Nat × List Char)

/-- Is there an edge of a word between the two sides? -/
def Progress.atWordEdge (p : Progress) : Bool :=
  let inWord (cs : List Char) := match cs with
    | c :: _ => Text.isWordChar c
    | [] => false
  inWord p.before != inWord p.rest

def Pattern.outcomes : Pattern → Progress → List Progress
  | .nothing, p => [p]
  | .char test, p =>
    match p.rest with
    | c :: rest => if test.accepts c then [{ p with before := c :: p.before, rest }] else []
    | [] => []
  | .seq first second, p => (first.outcomes p).flatMap second.outcomes
  | .alt first second, p => first.outcomes p ++ second.outcomes p
  | .group number body, p =>
    (body.outcomes p).map fun q =>
      { q with groups := (number, p.rest.take (p.rest.length - q.rest.length)) :: q.groups }
  | .wordEdge, p => if p.atWordEdge then [p] else []
  | .start, p => if p.before.isEmpty then [p] else []
  | .finish, p => if p.rest.isEmpty || p.rest == ['\n'] then [p] else []

/-- A match inside a word. -/
structure Found where
  /-- The characters before it, in reverse. -/
  before : List Char
  matched : List Char
  after : List Char
  groups : List (Nat × List Char)

/-- The first match at or after a place. -/
def Pattern.searchFrom (pattern : Pattern) (before : List Char) : List Char → Option Found
  | [] =>
    match pattern.outcomes ⟨before, [], []⟩ with
    | q :: _ => some ⟨before, [], [], q.groups⟩
    | [] => none
  | c :: rest =>
    match pattern.outcomes ⟨before, c :: rest, []⟩ with
    | q :: _ =>
      some ⟨before, (c :: rest).take (rest.length + 1 - q.rest.length), q.rest, q.groups⟩
    | [] => pattern.searchFrom (c :: before) rest

def Pattern.search (pattern : Pattern) (word : List Char) : Option Found :=
  pattern.searchFrom [] word

namespace Pattern

instance : Append Pattern := ⟨.seq⟩

/-- The letters of a word, one after the other. -/
def word (s : String) : Pattern :=
  s.toList.foldr (fun c p => .seq (.char (.oneOf [c])) p) .nothing

def oneOf (letters : String) : Pattern := .char (.oneOf letters.toList)

def noneOf (letters : String) : Pattern := .char (.noneOf letters.toList)

def optional (p : Pattern) : Pattern := .alt p .nothing

/-- The first of several patterns that fits. -/
def firstOf : List Pattern → Pattern
  | [] => .nothing
  | [p] => p
  | p :: rest => .alt p (firstOf rest)

/-- The first of several words that fits. -/
def words (ws : List String) : Pattern := firstOf (ws.map word)

end Pattern

end Scaffold.Naming
