import Schemata.Url.Basic

/-!
# Addresses of in-memory databases

Which URLs name a database in memory. The name of the database stands between the scheme and
the query, the query says how to open it. `:memory:` and the empty name are in memory, and
every name is where the query asks for it.
-/
namespace Schemata.Memory

structure Address where
  /-- In memory, whatever its name. -/
  inMemory : Bool := false
  readOnly : Bool := false
  deriving DecidableEq, Repr

namespace Address

/-- Takes a word off as often as it stands at the start, `fuel` times at most. -/
def stripAll (word : List Char) : Nat → List Char → List Char
  | 0, cs => cs
  | fuel + 1, cs => if word.isPrefixOf cs then stripAll word fuel (cs.drop word.length) else cs

/-- The name and the query behind the scheme, however often the scheme is repeated. -/
def nameAndQuery (rest : List Char) : List Char × List Char :=
  let text := "sqlite:".toList ++ rest
  let text := stripAll "sqlite://".toList text.length text
  let text := stripAll "sqlite:".toList text.length text
  (text.takeWhile (· ≠ '?'), (text.dropWhile (· ≠ '?')).drop 1)

/-- The engine's ways to reach a disk. -/
def fileSystems : List String := ["unix", "unix-dotfile", "unix-excl", "unix-none"]

/-- Takes a parameter of the query into account. -/
def withParameter (a : Address) : Option String × Option String → Option Address
  | (some "mode", some "ro") => some { a with readOnly := true }
  | (some "mode", some "rw") | (some "mode", some "rwc") => some a
  | (some "mode", some "memory") => some { a with inMemory := true }
  | (some "cache", some "private") | (some "cache", some "shared") => some a
  | (some "immutable", some v) => if ["true", "1", "false", "0"].contains v then some a else none
  | (some "vfs", some v) => if fileSystems.contains v then some a else none
  | _ => none

/-- The address of a database in memory, if a URL names one. -/
def ofUrl? (url : Url) : Option Address :=
  if url.scheme ≠ "sqlite" then none
  else do
    let (name, query) := nameAndQuery url.rest
    let name ← Url.decode? name
    let named : Address := { inMemory := ["", ":memory:"].contains name }
    let a ← (Url.queryPairs query).foldlM withParameter named
    if a.inMemory then some a else none

/-- The address of a database in memory, if a text is a URL that names one. -/
def ofText? (s : String) : Option Address := (Url.ofText s).toOption >>= ofUrl?

end Address

end Schemata.Memory
