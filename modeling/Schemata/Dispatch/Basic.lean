import Schemata.ClientError
import Schemata.Log
import Schemata.ResultSet

/-!
# Statement dispatch

A dispatcher runs statements on connections that it borrows from a pool for one call
each, or on a single connection that the calls take in turn, or on a connection that the
caller brings along. It is a machine that takes events from its surroundings (the pool, the
lock, the connections, the timer) and answers with what it asks of them. Any order of
events in which each is possible is a run: calls interleave freely, and a call with a limit
may expire wherever it waits.
-/
namespace Schemata.Dispatch

/-- Calls are numbered in the order in which they are submitted, from zero. -/
abbrev CallId := Nat

abbrev Outcome := Except ClientError ResultSet

structure Request where
  sql : String
  params : List Value := []
  /-- The caller's own connection, if it brings one along. -/
  own : Option ConnectionId := none
  limit : Option Duration := none

inductive Source where
  | pool
  | single (connection : ConnectionId)
  deriving DecidableEq, Repr

structure Dispatcher where
  source : Source
  /-- Whether dispatched statements are logged as information. -/
  logStatements : Bool := false
  deriving DecidableEq, Repr

namespace Dispatcher

def isPooled (d : Dispatcher) : Bool := d.source == .pool

def describe (d : Dispatcher) : String :=
  "QueryDispatcher \x7b pooled: " ++ Log.Event.truth d.isPooled ++ ", log_statements: "
    ++ Log.Event.truth d.logStatements ++ " \x7d"

/-- The record of a statement that is about to run. -/
def record (d : Dispatcher) (connection : ConnectionId) (sql : String) : Log.Record :=
  ⟨if d.logStatements then .info else .debug, .dispatching connection sql⟩

end Dispatcher

/-- A connection that is checked out of the pool for one call. It is there from the
beginning of the lease until the lease is dropped. -/
structure Lease where
  connection : Option ConnectionId
  deriving DecidableEq, Repr

namespace Lease

def of (c : ConnectionId) : Lease := ⟨some c⟩

/-- The connection for the call to use; a lease that has lost it tears the call down. -/
def borrow (l : Lease) : Except String ConnectionId :=
  match l.connection with
  | some c => .ok c
  | none => .error "lease holds its connection until dropped"

end Lease

/-- Where a call is. -/
inductive Stage where
  | acquiring
  | queued
  /-- The statement runs on the connection, which is leased if it comes from the pool. -/
  | querying (connection : ConnectionId) (lease : Option Lease)
  | done (outcome : Outcome)
  /-- Torn down by a fault; there is no outcome. -/
  | aborted (fault : String)

def Stage.isOver : Stage → Bool
  | .done _ | .aborted _ => true
  | _ => false

structure Call where
  request : Request
  stage : Stage

structure State where
  calls : List Call := []
  /-- The call that has the single connection. -/
  holder : Option CallId := none

inductive Event where
  | submit (request : Request)
  | granted (call : CallId) (connection : ConnectionId)
  | refused (call : CallId) (error : ClientError)
  | entered (call : CallId)
  | answered (call : CallId) (outcome : Outcome)
  | expired (call : CallId)

inductive Effect where
  | acquire (call : CallId)
  | log (record : Log.Record)
  | query (call : CallId) (connection : ConnectionId) (sql : String) (params : List Value)
  | release (call : CallId) (connection : ConnectionId)

namespace State

def moveTo (s : State) (id : CallId) (call : Call) (stage : Stage) : State :=
  { s with calls := s.calls.set id { call with stage } }

/-- Lets go of the single connection if the call has it. -/
def unlock (s : State) (id : CallId) : State :=
  if s.holder = some id then { s with holder := none } else s

end State

/-- A statement is logged and started in one go. -/
def begin (d : Dispatcher) (id : CallId) (r : Request) (c : ConnectionId) : List Effect :=
  [.log (d.record c r.sql), .query id c r.sql r.params]

/-- The end of a lease gives back the connection, if it still has it. -/
def Lease.drop (l : Lease) (id : CallId) : List Effect :=
  match l.connection with
  | some c => [.release id c]
  | none => []

/-- What the end of a call gives back: only a leased connection goes to the pool. -/
def giveBack (id : CallId) : Option Lease → List Effect
  | some l => l.drop id
  | none => []

/-- The next state and what is asked for, if the event is possible. -/
def step (d : Dispatcher) (s : State) : Event → Option (State × List Effect)
  | .submit r =>
    let id := s.calls.length
    let submitted (stage : Stage) : State := { s with calls := s.calls ++ [⟨r, stage⟩] }
    match r.own, d.source with
    | some c, _ => some (submitted (.querying c none), begin d id r c)
    | none, .pool => some (submitted .acquiring, [.acquire id])
    | none, .single _ => some (submitted .queued, [])
  | .granted id c =>
    match s.calls[id]? with
    | some ⟨r, .acquiring⟩ =>
      let lease := Lease.of c
      match lease.borrow with
      | .ok c => some (s.moveTo id ⟨r, .acquiring⟩ (.querying c (some lease)), begin d id r c)
      | .error fault => some (s.moveTo id ⟨r, .acquiring⟩ (.aborted fault), lease.drop id)
    | _ => none
  | .refused id e =>
    match s.calls[id]? with
    | some ⟨r, .acquiring⟩ => some (s.moveTo id ⟨r, .acquiring⟩ (.done (.error e)), [])
    | _ => none
  | .entered id =>
    match s.calls[id]?, d.source, s.holder with
    | some ⟨r, .queued⟩, .single c, none =>
      some ({ s.moveTo id ⟨r, .queued⟩ (.querying c none) with holder := some id },
        begin d id r c)
    | _, _, _ => none
  | .answered id outcome =>
    match s.calls[id]? with
    | some ⟨r, .querying c lease⟩ =>
      some ((s.moveTo id ⟨r, .querying c lease⟩ (.done outcome)).unlock id, giveBack id lease)
    | _ => none
  | .expired id =>
    match s.calls[id]? with
    | none => none
    | some call =>
      match call.request.limit, call.stage with
      | none, _ => none
      | some _, .done _ => none
      | some _, .aborted _ => none
      | some limit, .querying _ lease =>
        some ((s.moveTo id call (.done (.error (.timeout limit)))).unlock id,
          giveBack id lease)
      | some limit, _ => some (s.moveTo id call (.done (.error (.timeout limit))), [])

/-- The state after a list of events and all that was asked for on the way; `none` if one
of the events is not possible when its turn comes. -/
def run (d : Dispatcher) (s : State) : List Event → Option (State × List Effect)
  | [] => some (s, [])
  | e :: es =>
    match step d s e with
    | none => none
    | some (s, effects) => (run d s es).map fun (s, more) => (s, effects ++ more)

end Schemata.Dispatch
