import Scaffold.Decimal.Reading
import Scaffold.Json.Basic
import Scaffold.Text.Surrogate

/-!
Reading a value from text. A refusal names the place of the first character that rules the text out.
-/

namespace Scaffold.Json

/-- What was missing or wrong at a place. -/
inductive Complaint where
  | value
  | propertyName
  | colon
  | comma
  | unterminated
  | controlCharacter
  | escape
  | unicodeEscape
  | extraData
  | byteOrderMark
  deriving DecidableEq, Repr

def Complaint.message : Complaint → String
  | .value => "Expecting value"
  | .propertyName => "Expecting property name enclosed in double quotes"
  | .colon => "Expecting ':' delimiter"
  | .comma => "Expecting ',' delimiter"
  | .unterminated => "Unterminated string starting at"
  | .controlCharacter => "Invalid control character at"
  | .escape => "Invalid \\escape"
  | .unicodeEscape => "Invalid \\uXXXX escape"
  | .extraData => "Extra data"
  | .byteOrderMark => "Unexpected UTF-8 BOM (decode using utf-8-sig)"

/-- Why a text is no value. A fault at a place says how many characters were still unread there. -/
inductive Fault where
  | complaint (what : Complaint) (remaining : Nat)
  | number (error : Decimal.NumberError)
  /-- A list or object stands inside too many others. -/
  | tooDeep
  deriving DecidableEq, Repr

/-- Space between the parts of a value. -/
def isSpace (c : Char) : Bool := c == ' ' || c == '\t' || c == '\n' || c == '\r'

def skipSpace (cs : List Char) : List Char := cs.dropWhile isSpace

/-- The value of a hexadecimal digit. -/
def hexValue? (c : Char) : Option Nat :=
  if c.isDigit then some (c.toNat - 48)
  else if 'a' ≤ c ∧ c ≤ 'f' then some (c.toNat - 87)
  else if 'A' ≤ c ∧ c ≤ 'F' then some (c.toNat - 55)
  else none

/-- The number written by four hexadecimal digits. -/
def hexFour? : List Char → Option Nat
  | [a, b, c, d] => do
    return (((← hexValue? a) * 16 + (← hexValue? b)) * 16 + (← hexValue? c)) * 16 + (← hexValue? d)
  | _ => none

/-- The character of a code point, or of half a surrogate pair. -/
def charOf (n : Nat) : Char :=
  if Text.isHighHalf n || Text.isLowHalf n then Text.carrier n else Char.ofNat n

/-- The character after a backslash. -/
def simpleEscape? (c : Char) : Option Char :=
  if c == '"' || c == '\\' || c == '/' then some c
  else if c == 'b' then some '\x08'
  else if c == 'f' then some '\x0c'
  else if c == 'n' then some '\n'
  else if c == 'r' then some '\r'
  else if c == 't' then some '\t'
  else none

/-- The code point written after `\u`, and what follows. The escape has to be followed by one more
character; a pair of surrogates counts as one code point. -/
def unicodeEscape (cs : List Char) : Except Fault (Nat × List Char) :=
  let rest := cs.drop 4
  if rest.isEmpty then .error (.complaint .unicodeEscape (cs.length + 1))
  else match hexFour? (cs.take 4) with
    | none => .error (.complaint .unicodeEscape (cs.length + 1))
    | some high =>
      match rest with
      | '\\' :: 'u' :: more =>
        if Text.isHighHalf high && 5 ≤ more.length then
          match hexFour? (more.take 4) with
          | none => .error (.complaint .unicodeEscape (more.length + 1))
          | some low =>
            if Text.isLowHalf low then
              .ok (0x10000 + (high - 0xD800) * 0x400 + (low - 0xDC00), more.drop 4)
            else .ok (high, rest)
        else .ok (high, rest)
      | _ => .ok (high, rest)

/-- The characters up to the closing quote, and what follows it. `start` is what was unread at the
opening quote. -/
def stringBody (start : Nat) : (fuel : Nat) → List Char → Except Fault (List Char × List Char)
  | 0, _ => .error (.complaint .unterminated start)
  | _ + 1, [] => .error (.complaint .unterminated start)
  | fuel + 1, c :: cs =>
    if c == '"' then .ok ([], cs)
    else if c == '\\' then
      match cs with
      | [] => .error (.complaint .unterminated start)
      | 'u' :: rest => do
        let (n, rest) ← unicodeEscape rest
        let (chars, rest) ← stringBody start fuel rest
        return (charOf n :: chars, rest)
      | e :: rest =>
        match simpleEscape? e with
        | none => .error (.complaint .escape (rest.length + 2))
        | some x => do
          let (chars, rest) ← stringBody start fuel rest
          return (x :: chars, rest)
    else if c.toNat < 32 then .error (.complaint .controlCharacter (cs.length + 1))
    else do
      let (chars, rest) ← stringBody start fuel cs
      return (c :: chars, rest)

/-- A text, after its opening quote. -/
def stringAfterQuote (cs : List Char) : Except Fault (String × List Char) := do
  let (chars, rest) ← stringBody (cs.length + 1) (cs.length + 1) cs
  return (String.ofList chars, rest)

/-- The digits of a fraction after its point; none without at least one digit. -/
def takeFraction : List Char → List Char × List Char
  | '.' :: rest =>
    let digits := rest.takeWhile Char.isDigit
    if digits.isEmpty then ([], '.' :: rest) else (digits, rest.dropWhile Char.isDigit)
  | cs => ([], cs)

/-- An exponent with at least one digit. -/
def takeExponent : List Char → Option Int × List Char
  | [] => (none, [])
  | c :: rest =>
    if c == 'e' || c == 'E' then
      let (negative, body) := Decimal.takeSign rest
      let digits := body.takeWhile Char.isDigit
      if digits.isEmpty then (none, c :: rest)
      else
        let n : Int := Decimal.naturalOf digits
        (some (if negative then -n else n), body.dropWhile Char.isDigit)
    else (none, c :: rest)

/-- A number without its sign: a whole part without leading zeros, a fraction, an exponent. -/
def unsignedNumber (start : Nat) (negative : Bool) (cs : List Char) :
    Except Fault (Json × List Char) :=
  let whole := match cs with
    | '0' :: _ => ['0']
    | _ => cs.takeWhile Char.isDigit
  if whole.isEmpty then .error (.complaint .value start)
  else
    let rest := cs.drop whole.length
    let (fraction, afterFraction) := takeFraction rest
    let (exponent, after) := takeExponent afterFraction
    if fraction.isEmpty && exponent.isNone then
      if Decimal.digitLimit < whole.length then
        .error (.number (.tooManyDigits whole.length))
      else
        let n : Int := Decimal.naturalOf whole
        .ok (.int (if negative then -n else n), after)
    else
      let e := exponent.getD 0 - fraction.length
      .ok (.real (Binary64.ofDecimal negative (Decimal.naturalOf (whole ++ fraction)) e), after)

/-- What follows a word that the text begins with. -/
def afterWord? (word : String) (cs : List Char) : Option (List Char) :=
  if word.toList.isPrefixOf cs then some (cs.drop word.length) else none

/-- A value that is neither text nor container. -/
def scalar (cs : List Char) : Except Fault (Json × List Char) :=
  let words : List (String × Json) :=
    [("null", .null), ("true", .bool true), ("false", .bool false), ("NaN", .real .nan),
      ("Infinity", .real (.infinite false)), ("-Infinity", .real (.infinite true))]
  match words.findSome? fun (word, value) => (afterWord? word cs).map (value, ·) with
  | some found => .ok found
  | none =>
    match cs with
    | '-' :: rest => unsignedNumber cs.length true rest
    | _ => unsignedNumber cs.length false cs

mutual

/-- A value at the beginning of a text, with lists and objects up to a depth. -/
def value : (fuel depth : Nat) → List Char → Except Fault (Json × List Char)
  | 0, _, cs => .error (.complaint .value cs.length)
  | fuel + 1, depth, cs =>
    match cs, depth with
    | '"' :: rest, _ => do
      let (s, rest) ← stringAfterQuote rest
      return (.str s, rest)
    | '[' :: _, 0 | '\x7b' :: _, 0 => .error .tooDeep
    | '[' :: rest, depth + 1 =>
      match skipSpace rest with
      | ']' :: rest => .ok (.arr [], rest)
      | rest => do
        let (items, rest) ← items fuel depth rest
        return (.arr items, rest)
    | '\x7b' :: rest, depth + 1 =>
      match skipSpace rest with
      | '\x7d' :: rest => .ok (.obj [], rest)
      | rest => do
        let (fields, rest) ← fields fuel depth [] rest
        return (.obj fields, rest)
    | cs, _ => scalar cs

/-- The items of a list up to its closing bracket. -/
def items : (fuel depth : Nat) → List Char → Except Fault (List Json × List Char)
  | 0, _, cs => .error (.complaint .value cs.length)
  | fuel + 1, depth, cs => do
    let (item, rest) ← value fuel depth cs
    match skipSpace rest with
    | ']' :: rest => return ([item], rest)
    | ',' :: rest =>
      let (more, rest) ← items fuel depth (skipSpace rest)
      return (item :: more, rest)
    | rest => .error (.complaint .comma rest.length)

/-- The fields of an object up to its closing brace, added to those before. -/
def fields : (fuel depth : Nat) → List (String × Json) → List Char →
    Except Fault (List (String × Json) × List Char)
  | 0, _, _, cs => .error (.complaint .value cs.length)
  | fuel + 1, depth, before, cs =>
    match cs with
    | '"' :: rest => do
      let (key, rest) ← stringAfterQuote rest
      match skipSpace rest with
      | ':' :: rest =>
        let (item, rest) ← value fuel depth (skipSpace rest)
        let known := Fields.put before key item
        match skipSpace rest with
        | '\x7d' :: rest => return (known, rest)
        | ',' :: rest => fields fuel depth known (skipSpace rest)
        | rest => .error (.complaint .comma rest.length)
      | rest => .error (.complaint .colon rest.length)
    | cs => .error (.complaint .propertyName cs.length)

end

/-- A whole text as one value with space round it. -/
def document (depth : Nat) (cs : List Char) : Except Fault Json :=
  match cs with
  | '\uFEFF' :: _ => .error (.complaint .byteOrderMark cs.length)
  | _ => do
    let (v, rest) ← value (2 * cs.length + 2) depth (skipSpace cs)
    match skipSpace rest with
    | [] => return v
    | rest => .error (.complaint .extraData rest.length)

/-- Where a text was refused and why. -/
structure ParseError where
  fault : Fault
  text : String
  deriving DecidableEq, Repr

/-- The value written in a text. How many lists and objects may stand inside one another is left to the reader. -/
def parse (depth : Nat) (s : String) : Except ParseError Json :=
  (document depth s.toList).mapError fun fault => ⟨fault, s⟩

/-- Line and column of a place are counted from one, its character from zero. -/
def placeText (before : List Char) : String :=
  let line := before.count '\n' + 1
  let column := (before.reverse.takeWhile (· != '\n')).length + 1
  "line " ++ toString line ++ " column " ++ toString column ++ " (char " ++ toString before.length ++ ")"

def ParseError.message (e : ParseError) : String :=
  match e.fault with
  | .complaint what remaining =>
    let cs := e.text.toList
    what.message ++ ": " ++ placeText (cs.take (cs.length - remaining))
  | .number error => error.message
  | .tooDeep => "maximum depth exceeded"

end Scaffold.Json
