import Scaffold.Text.CaseTable

/-!
Upper, lower and title case of all scripts. A character may become several; a capital sigma at the
end of a word becomes the final form.
-/

namespace Scaffold.Text

open CaseTable in
/-- Is the code point in one of the runs? -/
def inRuns (runs : Runs) (n : Nat) : Bool :=
  runs.any fun (first, last, step) => first ≤ n && n ≤ last && (n - first) % step == 0

open CaseTable in
/-- Moves a character by the run it lies in, if any. -/
def shift? (shifts : Shifts) (c : Char) : Option Char :=
  let n := c.toNat
  (shifts.find? fun (first, last, step, _) =>
    first ≤ n && n ≤ last && (n - first) % step == 0).map
    fun (_, _, _, by_) => Char.ofNat ((n : Int) + by_).toNat

/-- The lower-case form as one character. -/
def lowerChar (c : Char) : Char :=
  if c.toNat < 128 then c.toLower
  else if c == 'İ' then 'i'
  else (shift? CaseTable.lowerShifts c).getD c

/-- The lower-case form of a character that is no sigma. -/
def lowerForm (c : Char) : List Char :=
  if c == 'İ' then ['i', '\u0307'] else [lowerChar c]

/-- The upper-case form. -/
def upperForm (c : Char) : List Char :=
  if c.toNat < 128 then [c.toUpper]
  else match CaseTable.upperExpansions.lookup c.toNat with
    | some codes => codes.map Char.ofNat
    | none => [(shift? CaseTable.upperShifts c).getD c]

/-- The title form, for a first character. -/
def titleForm (c : Char) : List Char :=
  if c.toNat < 128 then [c.toUpper]
  else match CaseTable.titleExpansions.lookup c.toNat with
    | some codes => codes.map Char.ofNat
    | none => match shift? CaseTable.titleShifts c with
      | some t => [t]
      | none => upperForm c

/-- Has the upper-case property. -/
def isUpper (c : Char) : Bool :=
  if c.toNat < 128 then c.isUpper else inRuns CaseTable.upperRuns c.toNat

/-- Has case. -/
def isCased (c : Char) : Bool :=
  if c.toNat < 128 then c.isAlpha else inRuns CaseTable.casedRuns c.toNat

/-- Is skipped when the neighbours of a sigma are looked at. -/
def isCaseIgnorable (c : Char) : Bool := inRuns CaseTable.ignorableRuns c.toNat

/-- Does the nearest character that counts have case? -/
def meetsCased (cs : List Char) : Bool :=
  match cs.dropWhile isCaseIgnorable with
  | c :: _ => isCased c
  | [] => false

/-- Lower case, given the characters before in reverse order. -/
def lowerAfter : List Char → List Char → List Char
  | _, [] => []
  | before, c :: rest =>
    (if c == 'Σ' then
      if meetsCased before && !meetsCased rest then ['ς'] else ['σ']
     else lowerForm c) ++ lowerAfter (c :: before) rest

def lowerChars (cs : List Char) : List Char := lowerAfter [] cs

def upperChars (cs : List Char) : List Char := cs.flatMap upperForm

/-- The first character in title form, the others in lower case. -/
def capitalizeChars : List Char → List Char
  | [] => []
  | c :: rest => titleForm c ++ lowerAfter [c] rest

/-- Is every character that has case a capital, and does one have case? -/
def isAllUpper (s : String) : Bool :=
  s.toList.any isCased && s.toList.all fun c => !isCased c || isUpper c

def lower (s : String) : String := .ofList (lowerChars s.toList)

def upper (s : String) : String := .ofList (upperChars s.toList)

def capitalize (s : String) : String := .ofList (capitalizeChars s.toList)

end Scaffold.Text
