import Schemata.Config.Basic
import Schemata.Dispatch.Session
import Schemata.Memory.Address
import Schemata.Memory.Catalog

/-!
# Servers in memory

The connections of one pool share a database, and every connection that is opened on its
own has a fresh one. Only the address of an in-memory database can be reached.
-/
namespace Schemata.Memory

open Dispatch

structure Servers where
  /-- The database that connections are opened to; without one nothing can be reached. -/
  address : Option Address
  next : ConnectionId := 1
  shared : Catalog := {}
  /-- The databases of the connections opened on their own. -/
  separate : List (ConnectionId × Catalog) := []

namespace Servers

def ofUrl (url : String) : Servers := { address := Address.ofText? url }

/-- The servers of a configured target; without one nothing can be reached. -/
def ofConfig (config : Config) : Servers := ofUrl ((config.connection.map (·.url)).getD "")

/-- How the engine reports a failure: its number and its words. -/
def report (code : Nat) (reason : String) : String :=
  "error returned from database: (code: " ++ toString code ++ ") " ++ reason

/-- What is said of an address that cannot be reached. -/
def unreachable : String := report 14 "unable to open database file"

def openConnection (s : Servers) : Except ClientError ConnectionId × Servers :=
  if s.address.isSome then
    (.ok s.next, { s with next := s.next + 1, separate := s.separate ++ [(s.next, {})] })
  else (.error (.connect unreachable), s)

/-- Hands out a connection of the pool, under a fresh number. -/
def acquire (s : Servers) : Except ClientError ConnectionId × Servers :=
  if s.address.isSome then (.ok s.next, { s with next := s.next + 1 })
  else (.error (.poolExhausted unreachable), s)

def catalog (s : Servers) (c : ConnectionId) : Catalog := (s.separate.lookup c).getD s.shared

def withCatalog (s : Servers) (c : ConnectionId) (catalog : Catalog) : Servers :=
  if (s.separate.lookup c).isSome then
    { s with separate := s.separate.map fun (i, old) => (i, if i = c then catalog else old) }
  else { s with shared := catalog }

/-- Runs a statement on a connection. A database opened only for reading stays as it is. -/
def query (s : Servers) (c : ConnectionId) (sql : String) (params : List Value) :
    Outcome × Servers :=
  let before := s.catalog c
  let (result, catalog) := before.runText sql params
  if s.address.any (·.readOnly) && catalog != before then
    (.error (.execution (report 8 "attempt to write a readonly database")), s)
  else (result.mapError fun reason => .execution (report 1 reason), s.withCatalog c catalog)

/-- Ends a connection; a database of its own goes with it. -/
def endConnection (s : Servers) (c : ConnectionId) : Servers :=
  { s with separate := s.separate.filter (·.1 ≠ c) }

/-- Nothing takes time. -/
def backend : Backend Servers where
  acquireTime _ := 0
  acquire := acquire
  release _ s := s
  start _ _ _ s := (0, s)
  finish c sql params s := s.query c sql params
  close s := s
  endConnection c s := (.ok (), s.endConnection c)

end Servers

end Schemata.Memory
