import Scaffold.Text.Chars
import Scaffold.Text.Quoted

/-!
Bytes as text. What is no text is refused with the place of the first bytes that rule it out.
-/

namespace Scaffold.Text

/-- Bytes are compared one after another, whichever other instances are in scope. -/
instance (priority := 2000) decidableEqBytes : DecidableEq ByteArray := fun a b =>
  decidable_of_iff (a.data.toList = b.data.toList)
    ⟨fun same => ByteArray.ext (Array.toList_inj.mp same), fun same => by rw [same]⟩

/-- What rules bytes out as text. -/
inductive ByteProblem where
  | invalidStart
  | invalidContinuation
  | unexpectedEnd
  deriving DecidableEq, Repr

def ByteProblem.message : ByteProblem → String
  | .invalidStart => "invalid start byte"
  | .invalidContinuation => "invalid continuation byte"
  | .unexpectedEnd => "unexpected end of data"

/-- The first bytes that are no part of a text: `count` of them from `start` on. -/
structure DecodeError where
  bytes : ByteArray
  problem : ByteProblem
  first : UInt8
  start : Nat
  count : Nat
  deriving DecidableEq

def DecodeError.message (e : DecodeError) : String :=
  "'utf-8' codec can't decode " ++
    (if e.count = 1 then
      "byte 0x" ++ String.ofList (hexDigits 2 e.first.toNat) ++ " in position " ++ toString e.start
     else
      "bytes in position " ++ toString e.start ++ "-" ++ toString (e.start + e.count - 1)) ++
    ": " ++ e.problem.message

def isContinuation (b : UInt8) : Bool := 0x80 ≤ b && b < 0xC0

/-- May `b` follow the first byte `a` of a character of three or four bytes? -/
def mayFollow (a b : UInt8) : Bool :=
  isContinuation b && !(a == 0xE0 && b < 0xA0) && !(a == 0xED && 0xA0 ≤ b) &&
    !(a == 0xF0 && b < 0x90) && !(a == 0xF4 && 0x90 ≤ b)

/-- The number of bytes of the character that begins with `a`. -/
def widthOf? (a : UInt8) : Option Nat :=
  if a < 0x80 then some 1
  else if a < 0xC2 then none
  else if a < 0xE0 then some 2
  else if a < 0xF0 then some 3
  else if a < 0xF5 then some 4
  else none

/-- The problem of a character that begins with `a` and should have `width` bytes, with the number
of bytes it concerns. -/
def problemOf? (a : UInt8) (width : Nat) (rest : List UInt8) : Option (ByteProblem × Nat) :=
  let tail := rest.take (width - 1)
  match tail with
  | [] => if width = 1 then none else some (.unexpectedEnd, 1)
  | b :: more =>
    if !mayFollow a b then some (.invalidContinuation, 1)
    else
      let good := (more.takeWhile isContinuation).length
      if good < more.length then some (.invalidContinuation, 2 + good)
      else if tail.length < width - 1 then some (.unexpectedEnd, 1 + tail.length)
      else none

/-- The first problem from byte `at_` on; `skip` bytes still belong to a character that is fine. -/
def firstProblem? : (skip at_ : Nat) → List UInt8 → Option (ByteProblem × UInt8 × Nat × Nat)
  | _, _, [] => none
  | skip + 1, at_, _ :: rest => firstProblem? skip (at_ + 1) rest
  | 0, at_, a :: rest =>
    match widthOf? a with
    | none => some (.invalidStart, a, at_, 1)
    | some width =>
      match problemOf? a width rest with
      | some (problem, count) => some (problem, a, at_, count)
      | none => firstProblem? (width - 1) (at_ + 1) rest

/-- One byte inside quotes. -/
def quotedByte (quote : Char) (b : UInt8) : List Char :=
  let c := Char.ofNat b.toNat
  if b < 127 then quotedChar quote c
  else '\\' :: 'x' :: hexDigits 2 b.toNat

/-- Bytes in quotes. -/
def quotedBytes (bytes : ByteArray) : String :=
  let cs := bytes.toList.map fun b => Char.ofNat b.toNat
  let quote := quoteFor cs
  .ofList ('b' :: quote :: bytes.toList.flatMap (quotedByte quote) ++ [quote])

/-- What bytes that are no text are reported with. -/
def DecodeError.details (e : DecodeError) : String :=
  "UnicodeDecodeError('utf-8', " ++ quotedBytes e.bytes ++ ", " ++ toString e.start ++ ", " ++
    toString (e.start + e.count) ++ ", " ++ quoted e.problem.message ++ ")"

/-- The bytes of a text. -/
def encode (s : String) : ByteArray := s.toUTF8

/-- The text that bytes stand for. Those of ASCII are its characters. -/
def decode (bytes : ByteArray) : Except DecodeError String :=
  if isAscii bytes.data.toList then .ok (ofChars (asciiChars bytes.data.toList))
  else
    match String.fromUTF8? bytes with
    | some s => .ok s
    | none =>
      let (problem, first, start, count) :=
        (firstProblem? 0 0 bytes.toList).getD (.invalidStart, 0, 0, 1)
      .error ⟨bytes, problem, first, start, count⟩

/-- Halves of surrogate pairs that have no bytes: the first of them, its place, and how many follow one
another. -/
structure EncodeError where
  half : Nat
  place : Nat
  count : Nat
  deriving DecidableEq, Repr

def EncodeError.message (e : EncodeError) : String :=
  "'utf-8' codec can't encode " ++
    (if e.count = 1 then
      "character '\\u" ++ String.ofList (hexDigits 4 e.half) ++ "' in position " ++ toString e.place
     else
      "characters in position " ++ toString e.place ++ "-" ++ toString (e.place + e.count - 1)) ++
    ": surrogates not allowed"

/-- The first halves in a text that may not stand there. -/
def firstHalves? (mayStand : Char → Bool) (place : Nat) : List Char → Option EncodeError
  | [] => none
  | c :: rest =>
    match if mayStand c then none else carried? c with
    | some half => some ⟨half, place, 1 + (rest.takeWhile fun d => (carried? d).isSome).length⟩
    | none => firstHalves? mayStand (place + 1) rest

/-- The bytes of a text that has some. -/
def encode? (s : String) : Except EncodeError ByteArray :=
  match firstHalves? (fun _ => false) 0 (chars s) with
  | some e => .error e
  | none => .ok (encode s)

/-- The byte that a half stands for in the name of a file. A name need not be text: each byte from the upper
half that belongs to no character is such a half in it. -/
def nameByte? (c : Char) : Option UInt8 :=
  match carried? c with
  | some half => if 0xDC80 ≤ half && half < 0xDD00 then some (.ofNat (half - 0xDC00)) else none
  | none => none

def isNameByte (c : Char) : Bool := (nameByte? c).isSome

/-- The number of bytes of characters in a name. -/
def countBytes : List Char → Nat
  | [] => 0
  | c :: rest => (if isNameByte c then 1 else c.utf8Size) + countBytes rest

/-- The number of bytes of a name, or of a path. -/
def nameSize (s : String) : Nat := countBytes (chars s)

/-- The bytes that stand at the beginning of a name. -/
def nameBytes : List Char → List UInt8
  | [] => []
  | c :: rest =>
    match nameByte? c with
    | some b => b :: nameBytes rest
    | none => []

/-- Do bytes begin with a character? -/
def beginsCharacter : List UInt8 → Bool
  | [] => false
  | a :: rest =>
    match widthOf? a with
    | some width => (problemOf? a width rest).isNone
    | none => false

/-- Are there bytes in a name that are a character together? Then this is not the name that is listed. -/
def spellsCharacter : List Char → Bool
  | [] => false
  | c :: rest => beginsCharacter (nameBytes (c :: rest)) || spellsCharacter rest

theorem fromUTF8?_encode (s : String) : String.fromUTF8? (encode s) = some s := by
  unfold encode String.fromUTF8?
  exact dif_pos s.isValidUTF8

theorem encode_asciiChars {bytes : ByteArray} (ascii : isAscii bytes.data.toList = true) :
    encode (.ofList (asciiChars bytes.data.toList)) = bytes := by
  have same : (String.ofList (asciiChars bytes.data.toList)).toByteArray.data = bytes.data := by
    rw [String.toByteArray_ofList, List.utf8Encode, List.data_toByteArray, flatMap_asciiChars ascii]
  exact ByteArray.ext same

/-- Bytes are read as the encoding says, in ASCII or not. -/
theorem decode_eq_ok {bytes : ByteArray} {s : String} :
    decode bytes = .ok s ↔ String.fromUTF8? bytes = some s := by
  unfold decode
  split
  · rename_i ascii
    have read := fromUTF8?_encode (.ofList (asciiChars bytes.data.toList))
    rw [encode_asciiChars ascii] at read
    simp [read]
  · split <;> simp_all

theorem decode_encode (s : String) : decode (encode s) = .ok s := decode_eq_ok.mpr (fromUTF8?_encode s)

end Scaffold.Text
