import Scaffold.Text.Case
import Scaffold.Text.Quoted
import Scaffold.Text.Search

/-!
Addresses of documents on the net: the scheme and the authority between the slashes. A host in brackets
has to be an address of version 6 or of a future version.
-/

namespace Scaffold.Loading

structure Address where
  scheme : String
  authority : String
  deriving DecidableEq, Repr

inductive AddressError where
  | unbalanced
  | futureVersion
  | versionFour
  | noAddress (host : String)
  | ambiguous (authority : String)
  deriving DecidableEq, Repr

def AddressError.message : AddressError → String
  | .unbalanced => "Invalid IPv6 URL"
  | .futureVersion => "IPvFuture address is invalid"
  | .versionFour => "An IPv4 address cannot be in brackets"
  | .noAddress host => Text.quoted host ++ " does not appear to be an IPv4 or IPv6 address"
  | .ambiguous authority =>
    "netloc '" ++ authority ++ "' contains invalid characters under NFKC normalization"

def isHexDigit (c : Char) : Bool :=
  c.isDigit || ('a' ≤ c && c ≤ 'f') || ('A' ≤ c && c ≤ 'F')

/-- A number up to 255 without leading zeros. -/
def isOctet (s : String) : Bool :=
  let cs := s.toList
  !cs.isEmpty && cs.length ≤ 3 && cs.all Char.isDigit && (s = "0" || cs.head? != some '0') &&
    cs.foldl (fun n c => 10 * n + (c.toNat - 48)) 0 ≤ 255

def isVersionFour (s : String) : Bool :=
  let octets := Text.splitOn '.' s
  octets.length == 4 && octets.all isOctet

def isHextet (s : String) : Bool :=
  !s.isEmpty && s.length ≤ 4 && s.toList.all isHexDigit

/-- The parts before a gap; an empty one stands only next to the gap. -/
def beforeGap? : List String → Option (List String)
  | [""] => some []
  | parts => if parts.all isHextet then some parts else none

/-- The parts of an address, with one of version 4 at its end written as two parts. -/
def hextetParts? (s : String) : Option (List String) :=
  let parts := Text.splitOn ':' s
  match parts.getLast? with
  | none => none
  | some last =>
    if parts.length < 3 then none
    else if last.toList.contains '.' then
      if isVersionFour last then some (parts.dropLast ++ ["0", "0"]) else none
    else some parts

/-- Eight parts, or fewer round one gap. -/
def areHextets (parts : List String) : Bool :=
  let inner := (parts.drop 1).dropLast
  match inner.findIdx? (·.isEmpty) with
  | none => parts.length == 8 && parts.all isHextet
  | some index =>
    match beforeGap? (parts.take (index + 1)), beforeGap? (parts.drop (index + 2)) with
    | some high, some low => parts.length ≤ 9 && high.length + low.length ≤ 7
    | _, _ => false

def isVersionSix (s : String) : Bool :=
  let cs := s.toList
  let zone := (cs.dropWhile (· != '%')).drop 1
  let zoned := cs.contains '%'
  if zoned && (zone.isEmpty || zone.contains '%') then false
  else match hextetParts? (.ofList (cs.takeWhile (· != '%'))) with
    | some parts => areHextets parts
    | none => false

/-- A version in hexadecimal digits, a dot, and something after it. -/
def isFutureVersion (afterMark : List Char) : Bool :=
  !(afterMark.takeWhile isHexDigit).isEmpty &&
    match afterMark.dropWhile isHexDigit with
    | '.' :: _ :: _ => true
    | _ => false

/-- Checks what stands between brackets. -/
def checkHost (host : String) : Except AddressError Unit :=
  match host.toList with
  | 'v' :: rest => if isFutureVersion rest then .ok () else .error .futureVersion
  | _ =>
    if isVersionFour host then .error .versionFour
    else if isVersionSix host then .ok ()
    else .error (.noAddress host)

/-- Characters that stand for one that divides addresses. -/
def lookalikes : List Nat := [
  0x2047, 0x2048, 0x2049, 0x2100, 0x2101, 0x2105, 0x2106, 0x2A74, 0xFE13, 0xFE16, 0xFE55, 0xFE56,
  0xFE5F, 0xFE6B, 0xFF03, 0xFF0F, 0xFF1A, 0xFF1F, 0xFF20]

/-- What stands before the first `c`, and what after it if there is one. -/
def cutAt (c : Char) (cs : List Char) : List Char × Option (List Char) :=
  (cs.takeWhile (· != c), if cs.contains c then some ((cs.dropWhile (· != c)).drop 1) else none)

/-- The host and the port of an authority, which come after the last at sign. -/
def hostAndPort (cs : List Char) : List Char := (cs.reverse.takeWhile (· != '@')).reverse

/-- The host of an authority with brackets in it. Nothing stands before the brackets, and after them only a
port. -/
def bracketedHost (authority : List Char) : Except AddressError (List Char) :=
  match cutAt '[' (hostAndPort authority) with
  | (host, none) => .ok (cutAt ':' host).1
  | (_ :: _, some _) => .error .unbalanced
  | ([], some inside) =>
    match cutAt ']' inside with
    | (host, none) | (host, some []) | (host, some (':' :: _)) => .ok host
    | _ => .error .unbalanced

/-- Checks the brackets and the characters of an authority. -/
def checkAuthority (authority : String) : Except AddressError Unit :=
  let cs := authority.toList
  if cs.contains '[' != cs.contains ']' then .error .unbalanced
  else do
    if cs.contains '[' then checkHost (.ofList (← bracketedHost cs))
    if cs.any fun c => lookalikes.contains c.toNat then .error (.ambiguous authority)

def isSchemeChar (c : Char) : Bool := c.isAlphanum || c == '+' || c == '-' || c == '.'

/-- The scheme before the first colon, in small letters, and what follows it. -/
def takeScheme (cs : List Char) : String × List Char :=
  let scheme := cs.takeWhile isSchemeChar
  match scheme, cs.dropWhile isSchemeChar with
  | c :: _, ':' :: rest =>
    if c.isAlpha then (.ofList (scheme.map Char.toLower), rest) else ("", cs)
  | _, _ => ("", cs)

/-- Reads an address. Control characters and spaces before it, and line ends and tabs in it, are left
out. -/
def Address.ofText (s : String) : Except AddressError Address :=
  let cs := (s.toList.dropWhile fun c => c.toNat ≤ 32).filter fun c =>
    c != '\t' && c != '\r' && c != '\n'
  let (scheme, rest) := takeScheme cs
  match rest with
  | '/' :: '/' :: rest =>
    let authority := String.ofList (rest.takeWhile fun c => c != '/' && c != '?' && c != '#')
    (checkAuthority authority).map fun _ => ⟨scheme, authority⟩
  | _ => .ok ⟨scheme, ""⟩

/-- Does the address say where to ask? -/
def Address.isComplete (a : Address) : Bool := !a.scheme.isEmpty && !a.authority.isEmpty

/-- Is the document behind the address fetched, and not read from a file? -/
def Address.isRemote (a : Address) : Bool := a.scheme = "http" || a.scheme = "https"

end Scaffold.Loading
