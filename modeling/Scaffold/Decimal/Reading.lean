import Scaffold.Decimal.Binary64
import Scaffold.Text.Search
import Scaffold.Text.Case
import Scaffold.Text.Quoted
import Scaffold.Text.Word

/-!
Numbers written as text: white space round it, a sign, decimal digits of any script, and single low
lines between digits.
-/

namespace Scaffold.Decimal

/-- Why a text is no number. -/
inductive NumberError where
  | notInteger (text : String)
  | notReal (text : String)
  | tooManyDigits (count : Nat)
  deriving DecidableEq, Repr

def NumberError.message : NumberError → String
  | .notInteger text => "invalid literal for int() with base 10: " ++ Text.quoted text
  | .notReal text => "could not convert string to float: " ++ Text.quoted text
  | .tooManyDigits count =>
    "Exceeds the limit (4300 digits) for integer string conversion: value has " ++ toString count ++
      " digits; use sys.set_int_max_str_digits() to increase the limit"

/-- Integers of more digits are refused. -/
def digitLimit : Nat := 4300

/-- Writes the digits of all scripts as the ten of ASCII, other non-ASCII characters as `?`. -/
def plainChars (cs : List Char) : List Char :=
  cs.map fun c =>
    match Text.digitValue? c with
    | some d => Char.ofNat (48 + d)
    | none => if c.toNat < 128 then c else '?'

/-- Space round a number. Of ASCII it is the blank and the five characters from the tab on; the separators
that texts are also trimmed of are none. -/
def isPadding (c : Char) : Bool :=
  if c.toNat < 128 then c == ' ' || (9 ≤ c.toNat && c.toNat ≤ 13) else Text.isBlank c

/-- Takes a sign off; `true` for a minus. -/
def takeSign : List Char → Bool × List Char
  | '-' :: rest => (true, rest)
  | '+' :: rest => (false, rest)
  | cs => (false, cs)

/-- Removes the low lines, if each stands between two digits. -/
def joinDigits : (previous : Option Char) → List Char → Option (List Char)
  | _, [] => some []
  | previous, '_' :: rest =>
    match previous, rest with
    | some p, n :: _ => if p.isDigit && n.isDigit then joinDigits (some '_') rest else none
    | _, _ => none
  | _, c :: rest => (joinDigits (some c) rest).map (c :: ·)

def naturalOf (digits : List Char) : Nat :=
  digits.foldl (fun n c => 10 * n + (c.toNat - 48)) 0

/-- The integer written in a text. -/
def readInteger (text : String) : Except NumberError Int :=
  let (negative, body) := takeSign (plainChars (Text.trimChars isPadding text.toList))
  match joinDigits none body with
  | some digits =>
    if digits.isEmpty || !digits.all Char.isDigit then .error (.notInteger text)
    else if digitLimit < digits.length then .error (.tooManyDigits digits.length)
    else
      let n := naturalOf digits
      .ok (if negative then -(n : Int) else n)
  | none => .error (.notInteger text)

/-- An exponent: nothing, or its mark, a sign and at least one digit. -/
def exponentOf? : List Char → Option Int
  | [] => some 0
  | mark :: rest =>
    if mark == 'e' || mark == 'E' then
      let (negative, digits) := takeSign rest
      if digits.isEmpty || !digits.all Char.isDigit then none
      else some (if negative then -(naturalOf digits : Int) else naturalOf digits)
    else none

/-- A real without sign: digits with at most one point among them, and an exponent. -/
def unsignedReal? (negative : Bool) (cs : List Char) : Option Binary64 :=
  let whole := cs.takeWhile Char.isDigit
  let rest := cs.dropWhile Char.isDigit
  let (fraction, rest) := match rest with
    | '.' :: more => (more.takeWhile Char.isDigit, more.dropWhile Char.isDigit)
    | _ => ([], rest)
  if whole.isEmpty && fraction.isEmpty then none
  else (exponentOf? rest).map fun e =>
    Binary64.ofDecimal negative (naturalOf (whole ++ fraction)) (e - fraction.length)

/-- The words for the values that are no finite reals. -/
def namedReal? (negative : Bool) (cs : List Char) : Option Binary64 :=
  let word := String.ofList (cs.map Char.toLower)
  if word = "inf" ∨ word = "infinity" then some (.infinite negative)
  else if word = "nan" then some .nan
  else none

/-- The real written in a text. -/
def readReal (text : String) : Except NumberError Binary64 :=
  let value := do
    let cs ← joinDigits none (plainChars (Text.trimChars isPadding text.toList))
    let (negative, body) := takeSign cs
    (namedReal? negative body).orElse fun _ => unsignedReal? negative body
  match value with
  | some x => .ok x
  | none => .error (.notReal text)

end Scaffold.Decimal
