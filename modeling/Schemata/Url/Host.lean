import Schemata.Url.Percent

/-!
# Hosts

What may stand as the host of a URL. The schemes of the web take domain names and addresses
of both versions; every other scheme takes any text without separators, and addresses in
square brackets.
-/
namespace Schemata.Url

inductive UrlError where
  | noScheme
  | emptyHost
  | invalidService
  | invalidDomain
  | invalidDomainCharacter
  | invalidIpv4Address
  | invalidIpv6Address
  deriving DecidableEq, Repr

def UrlError.message : UrlError → String
  | .noScheme => "relative URL without a base"
  | .emptyHost => "empty host"
  | .invalidService => "invalid port number"
  | .invalidDomain => "invalid international domain name"
  | .invalidDomainCharacter => "invalid domain character"
  | .invalidIpv4Address => "invalid IPv4 address"
  | .invalidIpv6Address => "invalid IPv6 address"

def isHexDigit (c : Char) : Bool := (Text.hexValue? c).isSome

/-- The number that digits stand for in a base. -/
def digitsIn (base : Nat) (cs : List Char) : Nat :=
  cs.foldl (fun n c => base * n + (Text.hexValue? c).getD 0) 0

/-- A group of an address of version 6. -/
def isHexGroup (cs : List Char) : Bool :=
  !cs.isEmpty && decide (cs.length ≤ 4) && cs.all isHexDigit

/-- One of the four numbers at the end of an address of version 6. -/
def isDecimalByte (cs : List Char) : Bool :=
  !cs.isEmpty && cs.all Char.isDigit && decide (cs.length ≤ 3) && decide (digitsIn 10 cs ≤ 255)
    && (decide (cs.length = 1) || cs.head? != some '0')

/-- How many groups stand between colons; the last piece may be four numbers with points
between them, which count as two. -/
def groupCount? : List (List Char) → Option Nat
  | [] => some 0
  | [piece] =>
    if isHexGroup piece then some 1
    else
      let numbers := piece.splitOn '.'
      if numbers.length = 4 && numbers.all isDecimalByte then some 2 else none
  | piece :: pieces =>
    if isHexGroup piece then (groupCount? pieces).map (· + 1) else none

/-- The text before the first two colons in a row, and the text behind them. -/
def splitGap? (rev : List Char) : List Char → Option (List Char × List Char)
  | ':' :: ':' :: cs => some (rev.reverse, cs)
  | c :: cs => splitGap? (c :: rev) cs
  | [] => none

/-- The pieces between colons; an empty text has none. -/
def colonPieces (cs : List Char) : List (List Char) := if cs.isEmpty then [] else cs.splitOn ':'

/-- Whether a text is an address of version 6: eight groups, or fewer with one gap. -/
def isIpv6Address (cs : List Char) : Bool :=
  match splitGap? [] cs with
  | none => groupCount? (colonPieces cs) == some 8
  | some (before, behind) =>
    (colonPieces before).all isHexGroup &&
      match groupCount? (colonPieces behind) with
      | some n => decide ((colonPieces before).length + n ≤ 7)
      | none => false

/-- A number of an address of version 4, in the base that its first characters ask for. -/
def ipv4Number? (cs : List Char) : Option Nat :=
  let inBase (base : Nat) (valid : Char → Bool) (ds : List Char) : Option Nat :=
    if ds.all valid then some (digitsIn base ds) else none
  match cs with
  | [] => none
  | '0' :: 'x' :: ds | '0' :: 'X' :: ds => inBase 16 isHexDigit ds
  | '0' :: d :: ds => inBase 8 (fun c => c.isDigit && c < '8') (d :: ds)
  | ds => inBase 10 Char.isDigit ds

/-- The labels of a domain; a point at the end adds none. -/
def labels (cs : List Char) : List (List Char) :=
  let ls := cs.splitOn '.'
  if 1 < ls.length && ls.getLast? == some [] then ls.dropLast else ls

/-- Whether the last label makes the whole domain an address. -/
def endsInNumber (ls : List (List Char)) : Bool :=
  match ls.getLast? with
  | some l => !l.isEmpty && (l.all Char.isDigit || (ipv4Number? l).isSome)
  | none => false

/-- Whether the labels are the numbers of an address: four at most, all but the last bytes, and
the last one within what is left. -/
def isIpv4Address (ls : List (List Char)) : Bool :=
  match ls.mapM ipv4Number? with
  | none => false
  | some ns =>
    decide (ns.length ≤ 4) && ns.dropLast.all (· < 256) &&
      decide (ns.getLast?.getD 0 < Nat.pow 256 (5 - ns.length))

/-- Characters that no host has. -/
def isForbidden (c : Char) : Bool :=
  ['\x00', '\t', '\n', '\r', ' ', '#', '/', ':', '<', '>', '?', '@', '[', '\\', ']', '^',
    '|'].contains c

/-- Characters that no domain name has. -/
def isForbiddenInDomain (c : Char) : Bool :=
  isForbidden c || c = '%' || c.toNat < 0x20 || c = '\x7f' || c = '\ufffd'

/-- An address in square brackets, from its first character on. -/
def checkBracketed (cs : List Char) : Except UrlError Unit :=
  if cs.getLast? = some ']' && isIpv6Address (cs.drop 1).dropLast then .ok ()
  else .error .invalidIpv6Address

/-- The host of a scheme of its own. -/
def checkOpaqueHost (cs : List Char) : Except UrlError Unit :=
  if cs.head? = some '[' then checkBracketed cs
  else if cs.any isForbidden then .error .invalidDomainCharacter
  else .ok ()

/-- The host of a scheme of the web. -/
def checkDomain (cs : List Char) : Except UrlError Unit :=
  if cs.head? = some '[' then checkBracketed cs
  else
    match decode? cs with
    | none => .error .invalidDomain
    | some domain =>
      let ls := labels domain.toList
      if domain.toList.any isForbiddenInDomain then .error .invalidDomain
      else if endsInNumber ls && !isIpv4Address ls then .error .invalidIpv4Address
      else .ok ()

end Schemata.Url
