import Schemata.Decimal.Literal
import Schemata.Dispatch.Session

/-!
# A pool for rehearsals

Connections that act out their statements: `sleep 5 fail` takes five milliseconds and then
fails, and any other text succeeds with the connection's number, its count of statements
and the parameters. Idle connections are a stack, and a connection is created when there is
none.
-/
namespace Schemata.Dispatch

structure Rehearsal where
  next : ConnectionId := 1
  /-- How many statements each connection has started. -/
  queries : ConnectionId → Nat := fun _ => 0
  /-- Idle connections, the one to be used next first. -/
  idle : List ConnectionId := []
  acquired : Nat := 0
  released : Nat := 0
  closed : Bool := false
  /-- How long the pool takes to answer, in nanoseconds. -/
  acquireDelay : Nat := 0
  failsToAcquire : Bool := false
  failsToEnd : Bool := false

namespace Rehearsal

/-- How long the statement takes, in nanoseconds, and the word that decides how it ends. -/
def script (sql : String) : Nat × String :=
  match Text.splitAt ' ' sql with
  | "sleep" :: rest =>
    let milliseconds := (rest.head?.bind Decimal.integer?).getD 0
    (milliseconds.toNat * 1000000, rest[1]?.getD "")
  | words => (0, words.head?.getD "")

def rejection (subject : String) : ClientError :=
  .execution ("encountered unexpected or invalid data: rejected: " ++ subject)

def openConnection (s : Rehearsal) : ConnectionId × Rehearsal :=
  (s.next, { s with next := s.next + 1 })

def acquire (s : Rehearsal) : Except ClientError ConnectionId × Rehearsal :=
  if s.failsToAcquire then
    (.error (.poolExhausted "pool timed out while waiting for an open connection"), s)
  else
    let s := { s with acquired := s.acquired + 1 }
    match s.idle with
    | c :: idle => (.ok c, { s with idle })
    | [] =>
      let (c, s) := s.openConnection
      (.ok c, s)

def reply (s : Rehearsal) (c : ConnectionId) (sql : String) (params : List Value) : Outcome :=
  if (script sql).2 = "fail" then .error (rejection sql)
  else .ok
    { columns := ["connection", "queries"]
      rows := [.integer (Int64.ofNat c) :: .integer (Int64.ofNat (s.queries c)) :: params]
      affected := .ofNat params.length }

def backend : Backend Rehearsal where
  acquireTime s := s.acquireDelay
  acquire := acquire
  release c s := { s with released := s.released + 1, idle := c :: s.idle }
  start c sql _ s :=
    ((script sql).1, { s with queries := fun i => if i = c then s.queries c + 1 else s.queries i })
  finish c sql params s := (s.reply c sql params, s)
  close s := { s with closed := true }
  endConnection _ s := (if s.failsToEnd then .error (rejection "end") else .ok (), s)

end Rehearsal

end Schemata.Dispatch
