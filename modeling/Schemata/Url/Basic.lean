import Schemata.Url.Host

/-!
# URLs

A URL is a scheme, a colon and the rest; the rest may begin with an authority. Controls and
blanks around a URL are ignored, and so are tabs and line breaks inside it; the scheme is the
same in upper and lower case. A text without a scheme, or with an authority that is none, is
not a URL.
-/
namespace Schemata

structure Url where
  /-- In lowercase, without the colon. -/
  scheme : String
  /-- What stands behind the scheme's colon. -/
  rest : List Char
  deriving DecidableEq, Repr

namespace Url

inductive Family where
  /-- The schemes of the web: they always have a host, and a backslash is a slash. -/
  | web
  | file
  | plain
  deriving DecidableEq, Repr

def Family.ofScheme (scheme : String) : Family :=
  if ["http", "https", "ws", "wss", "ftp"].contains scheme then .web
  else if scheme = "file" then .file
  else .plain

/-- The characters of a text that count. -/
def significant (s : String) : List Char :=
  let isOuter (c : Char) : Bool := c.toNat ≤ 0x20
  let trimmed := ((s.toList.dropWhile isOuter).reverse.dropWhile isOuter).reverse
  trimmed.filter fun c => c ≠ '\t' && c ≠ '\n' && c ≠ '\r'

def isSchemeChar (c : Char) : Bool := c.isAlphanum || c = '+' || c = '-' || c = '.'

/-- The scheme and what stands behind its colon. -/
def splitScheme? (cs : List Char) : Option Url :=
  match cs.takeWhile (· ≠ ':'), cs.dropWhile (· ≠ ':') with
  | c :: scheme, ':' :: rest =>
    if c.isAlpha && scheme.all isSchemeChar then
      some ⟨String.ofList ((c :: scheme).map Char.toLower), rest⟩
    else none
  | _, _ => none

def isSlash (family : Family) (c : Char) : Bool := c = '/' || (family != .plain && c = '\\')

/-- Whether the authority ends before a character. -/
def endsAuthority (family : Family) (c : Char) : Bool := isSlash family c || c = '?' || c = '#'

/-- The number of a service behind a colon: digits within 16 bits, or none. -/
def checkService (cs : List Char) : Except UrlError Unit :=
  let ds := cs.takeWhile (· ≠ '\\')
  if ds.all Char.isDigit && decide (digitsIn 10 ds < UInt16.size) then .ok ()
  else .error .invalidService

/-- The host at the start of the characters, and the rest from a colon on; inside square
brackets a colon belongs to the host. -/
def splitHost (bracket : Bool) (rev : List Char) : List Char → List Char × List Char
  | [] => (rev.reverse, [])
  | c :: cs =>
    if c = ':' && !bracket then (rev.reverse, c :: cs)
    else splitHost (c = '[' || (bracket && c ≠ ']')) (c :: rev) cs

/-- Checks a host with its service. An empty host has neither a service nor a user. -/
def checkHost (family : Family) (hasUser : Bool) (cs : List Char) : Except UrlError Unit := do
  let (host, service) := splitHost false [] cs
  if family == .web then
    if host.isEmpty then .error .emptyHost else checkDomain host
  else checkOpaqueHost host
  match service with
  | _ :: number => if host.isEmpty then .error .emptyHost else checkService number
  | [] => .ok ()
  if host.isEmpty && hasUser then .error .emptyHost else .ok ()

/-- The characters before and behind the last sign that ends the user. -/
def splitUser (cs : List Char) : Option (List Char × List Char) :=
  if cs.contains '@' then
    let rev := cs.reverse
    some ((rev.dropWhile (· ≠ '@')).drop 1 |>.reverse, (rev.takeWhile (· ≠ '@')).reverse)
  else none

/-- Checks the authority at the start of the characters. An empty user is no user. -/
def checkAuthority (family : Family) (cs : List Char) : Except UrlError Unit :=
  let authority := cs.takeWhile (!endsAuthority family ·)
  match splitUser authority with
  | none => checkHost family false authority
  | some (user, host) =>
    if user.isEmpty && host.isEmpty && authority.length < cs.length then .error .emptyHost
    else checkHost family (!user.isEmpty && user ≠ [':']) host

/-- Whether a text is the letter of a drive. -/
def isDrive : List Char → Bool
  | [c, d] => c.isAlpha && (d = ':' || d = '|')
  | _ => false

/-- Checks what stands behind the scheme. -/
def checkRest (family : Family) (rest : List Char) : Except UrlError Unit :=
  match family, rest with
  | .web, rest => checkAuthority .web (rest.dropWhile (isSlash .web))
  | .file, a :: b :: rest =>
    let host := rest.takeWhile (!endsAuthority .file ·)
    if isSlash .file a && isSlash .file b && !host.isEmpty && !isDrive host then checkDomain host
    else .ok ()
  | .plain, '/' :: '/' :: rest => checkAuthority .plain rest
  | _, _ => .ok ()

def ofText (s : String) : Except UrlError Url :=
  match splitScheme? (significant s) with
  | none => .error .noScheme
  | some url => (checkRest (.ofScheme url.scheme) url.rest).map fun _ => url

end Url

end Schemata
