import Scaffold.Text.Search
import Scaffold.Text.Quoted
import Scaffold.Text.Utf8

/-!
The encoding of a body that does not name one. Most bodies are in UTF-8; zeros among the first four bytes
speak for UTF-16 or UTF-32. Where that leads nowhere the bytes are read as they make the most sense.
-/

namespace Scaffold.Loading

/-- How the bytes of a unit stand: the highest first or last. -/
inductive ByteOrder where
  | big
  | little
  deriving DecidableEq, Repr

inductive Encoding where
  | utf8
  | utf16 (order : ByteOrder)
  | utf32 (order : ByteOrder)
  deriving DecidableEq, Repr

/-- The number that some bytes stand for, the highest first. -/
def numberOf (bytes : List UInt8) : Nat := bytes.foldl (fun n b => 256 * n + b.toNat) 0

/-- The number that the bytes of a unit stand for. -/
def ByteOrder.numberOf (order : ByteOrder) (bytes : List UInt8) : Nat :=
  match order with
  | .big => Loading.numberOf bytes
  | .little => Loading.numberOf bytes.reverse

/-- The units of sixteen bits; none if a byte is left over. -/
def units16? (order : ByteOrder) : List UInt8 → Option (List Nat)
  | [] => some []
  | a :: b :: rest => (units16? order rest).map (order.numberOf [a, b] :: ·)
  | [_] => none

/-- The units of thirty-two bits; none if bytes are left over. -/
def units32? (order : ByteOrder) : List UInt8 → Option (List Nat)
  | [] => some []
  | a :: b :: c :: d :: rest => (units32? order rest).map (order.numberOf [a, b, c, d] :: ·)
  | _ => none

/-- The characters of units of sixteen bits; a half of a pair has to have the other. -/
def charsOf16? : List Nat → Option (List Char)
  | [] => some []
  | unit :: rest =>
    if Text.isHighHalf unit then
      match rest with
      | low :: rest =>
        if Text.isLowHalf low then
          (charsOf16? rest).map
            (Char.ofNat (0x10000 + (unit - 0xD800) * 0x400 + (low - 0xDC00)) :: ·)
        else none
      | [] => none
    else if Text.isLowHalf unit then none
    else (charsOf16? rest).map (Char.ofNat unit :: ·)

/-- The character of a code point. -/
def charOf? (n : Nat) : Option Char := if n.isValidChar then some (Char.ofNat n) else none

/-- The text that bytes stand for; none if they stand for none. -/
def Encoding.decode? (e : Encoding) (bytes : List UInt8) : Option String :=
  match e with
  | .utf8 => (Text.decode ⟨bytes.toArray⟩).toOption
  | .utf16 order => ((units16? order bytes).bind charsOf16?).map String.ofList
  | .utf32 order => ((units32? order bytes).bind (·.mapM charOf?)).map String.ofList

/-- The encoding that zeros among the first four bytes speak for. -/
def Encoding.ofFirst? (bytes : List UInt8) : Option Encoding :=
  match (bytes.take 4).map (· == 0) with
  | [false, false, false, false] => some .utf8
  | [true, false, true, false] => some (.utf16 .big)
  | [false, true, false, true] => some (.utf16 .little)
  | [true, true, true, false] => some (.utf32 .big)
  | [false, true, true, true] => some (.utf32 .little)
  | _ => none

/-- Is no more than one character in forty neither printed nor white space? -/
def isLegible (s : String) : Bool :=
  let odd := s.toList.filter fun c => !Text.isPrintable c && !Text.isBlank c && c != '\uFEFF'
  40 * odd.length < s.length || odd.isEmpty

/-- The bytes as they make sense: in UTF-8, or else in UTF-16, or else in UTF-8 all the same. -/
def legibleText (utf8 : String) (bytes : List UInt8) : String :=
  if isLegible utf8 then utf8
  else
    let others := [Encoding.utf16 .big, .utf16 .little].filterMap (·.decode? bytes)
    (others.find? isLegible).getD utf8

/-- The text of a body, which is given as the text that it would be in UTF-8. -/
def bodyText (utf8 : String) : String :=
  let bytes := (Text.encode utf8).toList
  let found := (Encoding.ofFirst? bytes).bind (·.decode? bytes)
  found.getD (legibleText utf8 bytes)

end Scaffold.Loading
