import Schemata.Dispatch.Basic

/-!
# Sessions on a virtual clock

A backend says how long its pool and its connections take and what they answer. A session
submits some calls at one moment and carries them to their ends: calls run in order
until they wait, the clock goes on to the next moment at which something is due, and
what is due at the same moment goes in the order of the calls. An answer that comes at the
limit is in time.
-/
namespace Schemata.Dispatch

/-- A pool and its connections, over a state of their own. Times are in nanoseconds. -/
structure Backend (σ : Type) where
  acquireTime : σ → Nat
  acquire : σ → Except ClientError ConnectionId × σ
  release : ConnectionId → σ → σ
  /-- Starts a statement; says how long it takes. -/
  start : ConnectionId → String → List Value → σ → Nat × σ
  finish : ConnectionId → String → List Value → σ → Outcome × σ
  close : σ → σ
  endConnection : ConnectionId → σ → Except ClientError Unit × σ

structure World (σ : Type) where
  resources : σ
  clock : Nat := 0
  records : List Log.Record := []

structure Session (σ : Type) where
  world : World σ
  state : State := {}
  began : Nat
  /-- When what a call waits for will be there. -/
  wake : CallId → Option Nat := fun _ => none

namespace Session

variable {σ : Type} (b : Backend σ) (d : Dispatcher)

def setWake (s : Session σ) (id : CallId) (t : Nat) : Session σ :=
  { s with wake := fun i => if i = id then some t else s.wake i }

/-- Does what the dispatcher asks for. -/
def perform (s : Session σ) : Effect → Session σ
  | .acquire id => s.setWake id (s.world.clock + b.acquireTime s.world.resources)
  | .log record => { s with world := { s.world with records := s.world.records ++ [record] } }
  | .query id c sql params =>
    let (time, resources) := b.start c sql params s.world.resources
    setWake { s with world := { s.world with resources } } id (s.world.clock + time)
  | .release _ c =>
    { s with world := { s.world with resources := b.release c s.world.resources } }

/-- Lets the dispatcher take an event and does what it then asks for. -/
def feed (s : Session σ) (e : Event) : Session σ :=
  match step d s.state e with
  | none => s
  | some (state, effects) => effects.foldl (perform b) { s with state }

/-- Whether what the call waits for is there. -/
def isDue (s : Session σ) (id : CallId) : Bool :=
  match s.wake id with
  | none => false
  | some t => decide (t ≤ s.world.clock)

/-- Takes a call one step further, if it need not wait. -/
def advance (s : Session σ) (id : CallId) : Session σ :=
  match s.state.calls[id]? with
  | none => s
  | some call =>
    match call.stage with
    | .done _ | .aborted _ => s
    | .queued => feed b d s (.entered id)
    | .acquiring =>
      if s.isDue id then
        let (answer, resources) := b.acquire s.world.resources
        let s := { s with world := { s.world with resources } }
        match answer with
        | .ok c => feed b d s (.granted id c)
        | .error e => feed b d s (.refused id e)
      else s
    | .querying c _ =>
      if s.isDue id then
        let (outcome, resources) :=
          b.finish c call.request.sql call.request.params s.world.resources
        feed b d { s with world := { s.world with resources } } (.answered id outcome)
      else s

/-- Takes a call as far as it goes without waiting: it has a connection to get, a
statement to start and an answer to get. -/
def drive (s : Session σ) (id : CallId) : Session σ :=
  (List.range 3).foldl (fun s _ => advance b d s id) s

/-- Takes every call as far as it goes at this moment. -/
def settle (s : Session σ) : Session σ :=
  (List.range s.state.calls.length).foldl (drive b d) s

def isDone (s : Session σ) (id : CallId) : Bool :=
  match s.state.calls[id]? with
  | some call => call.stage.isOver
  | none => false

def deadline? (s : Session σ) (id : CallId) : Option Nat :=
  (s.state.calls[id]?).bind fun call => call.request.limit.map (s.began + ·.toNanoseconds)

def expire (s : Session σ) : Session σ :=
  (List.range s.state.calls.length).foldl (fun s id =>
    match s.deadline? id with
    | some t => if t ≤ s.world.clock then feed b d s (.expired id) else s
    | none => s) s

/-- The next moment at which something happens to a call that is not done. -/
def nextMoment? (s : Session σ) : Option Nat :=
  ((List.range s.state.calls.length).flatMap fun id =>
    if s.isDone id then [] else (s.wake id).toList ++ (s.deadline? id).toList).min?

/-- Goes on to the next moment, `n` times at most. -/
def proceed : Nat → Session σ → Session σ
  | 0, s => s
  | n + 1, s =>
    match s.nextMoment? with
    | none => s
    | some t =>
      let s := { s with world := { s.world with clock := max s.world.clock t } }
      proceed n (settle b d (expire b d (settle b d s)))

/-- Submits calls one after the other, each running until it waits. -/
def submit (w : World σ) (requests : List Request) : Session σ :=
  requests.foldl (fun s r => drive b d (feed b d s (.submit r)) s.state.calls.length)
    { world := w, began := w.clock }

/-- How a call ended; a call that never ended counts as refused. -/
def outcome (s : Session σ) (id : CallId) : Outcome :=
  match s.state.calls[id]? with
  | some ⟨_, .done outcome⟩ => outcome
  | _ => .error (.poolExhausted "the call never ended")

end Session

/-- Runs calls that are submitted at the same moment. Each waits at most twice and expires at
most once, which bounds the number of moments. -/
def runAll {σ : Type} (b : Backend σ) (d : Dispatcher) (w : World σ) (requests : List Request) :
    List Outcome × World σ :=
  let s := Session.proceed b d (3 * requests.length) (Session.submit b d w requests)
  ((List.range requests.length).map s.outcome, s.world)

def execute {σ : Type} (b : Backend σ) (d : Dispatcher) (w : World σ) (r : Request) :
    Outcome × World σ :=
  let s := Session.proceed b d 3 (Session.submit b d w [r])
  (s.outcome 0, s.world)

/-- Closes the pool or ends the single connection; a failure is not logged. -/
def close {σ : Type} (b : Backend σ) (d : Dispatcher) (w : World σ) :
    Except ClientError Unit × World σ :=
  let closed (resources : σ) : Except ClientError Unit × World σ :=
    (.ok (), { w with resources, records := w.records ++ [⟨.info, .dispatcherClosed⟩] })
  match d.source with
  | .pool => closed (b.close w.resources)
  | .single c =>
    match b.endConnection c w.resources with
    | (.ok _, resources) => closed resources
    | (.error e, resources) => (.error e, { w with resources })

end Schemata.Dispatch
