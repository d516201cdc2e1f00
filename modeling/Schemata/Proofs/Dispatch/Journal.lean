import Schemata.Proofs.Dispatch.Alone

/-!
# What a backend is asked

A backend can keep a journal beside its resources: what it was asked for and what it answered,
in order. The journal changes nothing, since no answer depends on it (`execute_journaled`); so
what it has about a call is what the call has to do with the pool and the connections, and
`Exchange` lists all that this may be.
-/
namespace Schemata.Dispatch

variable {σ : Type}

/-- One thing that a backend is asked for, with its answer. -/
inductive Contact where
  | acquired (answer : Except ClientError ConnectionId)
  | started (connection : ConnectionId) (sql : String) (params : List Value)
  | finished (connection : ConnectionId) (outcome : Outcome)
  | released (connection : ConnectionId)

/-- The statement that a connection is handed, with its parameters. -/
def Contact.statement? : Contact → Option (String × List Value)
  | started _ sql params => some (sql, params)
  | _ => none

abbrev Journal := List Contact

/-- The statements that connections were handed, in order. -/
def Journal.statements (j : Journal) : List (String × List Value) :=
  j.filterMap Contact.statement?

/-- The backend with a journal beside its resources. -/
def Backend.journaled (b : Backend σ) : Backend (σ × Journal) where
  acquireTime s := b.acquireTime s.1
  acquire s :=
    let (answer, resources) := b.acquire s.1
    (answer, resources, s.2 ++ [.acquired answer])
  release c s := (b.release c s.1, s.2 ++ [.released c])
  start c sql params s :=
    let (time, resources) := b.start c sql params s.1
    (time, resources, s.2 ++ [.started c sql params])
  finish c sql params s :=
    let (outcome, resources) := b.finish c sql params s.1
    (outcome, resources, s.2 ++ [.finished c outcome])
  close s := (b.close s.1, s.2)
  endConnection c s :=
    let (answer, resources) := b.endConnection c s.1
    (answer, resources, s.2)

/-- The world with a journal. -/
def World.keeping (w : World σ) (journal : Journal) : World (σ × Journal) :=
  { w with resources := (w.resources, journal) }

section Exchange

variable (d : Dispatcher) (r : Request)

/-- What a connection is asked when it runs the statement of a call, and how the call ends. -/
inductive Served (c : ConnectionId) : Outcome → Journal → Prop
  | answered (o : Outcome) : Served c o [.started c r.sql r.params, .finished c o]
  | cutOff {limit : Duration} (hl : r.limit = some limit) :
      Served c (.error (.timeout limit)) [.started c r.sql r.params]

/-- What a backend is asked on behalf of a call, and how the call ends. -/
inductive Exchange : Outcome → Journal → Prop
  | unanswered {limit : Duration} (hc : d.atHand? r = none) (hl : r.limit = some limit) :
      Exchange (.error (.timeout limit)) []
  | refused {e : ClientError} (hc : d.atHand? r = none) :
      Exchange (.error e) [.acquired (.error e)]
  | leased {c : ConnectionId} {o : Outcome} {j : Journal} (hc : d.atHand? r = none)
      (h : Served r c o j) : Exchange o (.acquired (.ok c) :: j ++ [.released c])
  | direct {c : ConnectionId} {o : Outcome} {j : Journal} (hc : d.atHand? r = some c)
      (h : Served r c o j) : Exchange o j

end Exchange

theorem statements_append (j j' : Journal) :
    Journal.statements (j ++ j') = j.statements ++ j'.statements :=
  List.filterMap_append

/-- A connection is handed the statement of the call. -/
theorem Served.statements {r : Request} {c : ConnectionId} {o : Outcome} {j : Journal}
    (h : Served r c o j) : j.statements = [(r.sql, r.params)] := by
  cases h <;> rfl

theorem Served.statements_leased {r : Request} {c c' : ConnectionId} {o : Outcome} {j : Journal}
    (h : Served r c o j) :
    Journal.statements (.acquired (.ok c') :: j ++ [.released c']) = [(r.sql, r.params)] := by
  rw [statements_append, ← h.statements]
  exact List.append_nil _

/-- A call hands out its statement, once, or nothing at all. -/
theorem Exchange.statements_prefix {d : Dispatcher} {r : Request} {o : Outcome} {j : Journal}
    (h : Exchange d r o j) : j.statements <+: [(r.sql, r.params)] := by
  cases h with
  | unanswered | refused => exact List.nil_prefix
  | leased _ h => exact h.statements_leased ▸ List.prefix_rfl
  | direct _ h => exact h.statements ▸ List.prefix_rfl

/-- A call that succeeds has handed out its statement. -/
theorem Exchange.statements_ok {d : Dispatcher} {r : Request} {answer : ResultSet} {j : Journal}
    (h : Exchange d r (.ok answer) j) : j.statements = [(r.sql, r.params)] := by
  cases h with
  | leased _ h => exact h.statements_leased
  | direct _ h => exact h.statements

/-- What a lease adds to the journal when it ends. -/
def returned : Option Lease → Journal
  | some ⟨some c⟩ => [.released c]
  | _ => []

@[simp]
theorem returned_none : returned none = [] := rfl

@[simp]
theorem returned_of (c : ConnectionId) : returned (some (.of c)) = [.released c] := rfl

section Journaled

variable (b : Backend σ) (d : Dispatcher) (r : Request)

theorem acquire_journaled {b : Backend σ} {w : World σ}
    {answer : Except ClientError ConnectionId} {resources : σ}
    (h : b.acquire w.resources = (answer, resources)) (past : Journal) :
    b.journaled.acquire (w.keeping past).resources =
      (answer, resources, past ++ [.acquired answer]) := by
  simp only [Backend.journaled, World.keeping, h]

theorem giveBack_journaled (lease : Option Lease) (s : σ) (j : Journal) :
    b.journaled.giveBack lease (s, j) = (b.giveBack lease s, j ++ returned lease) := by
  match lease with
  | none | some ⟨none⟩ => exact congrArg (s, ·) (List.append_nil j).symm
  | some ⟨some c⟩ => rfl

theorem awaitAnswer_journaled (began : Nat) (c : ConnectionId) (lease : Option Lease) (t : Nat)
    (w : World σ) (past : Journal) :
    ∃ now, Served r c (awaitAnswer b r began c lease t w).1 (.started c r.sql r.params :: now) ∧
      awaitAnswer b.journaled r began c lease t (w.keeping past) =
        ((awaitAnswer b r began c lease t w).1,
          (awaitAnswer b r began c lease t w).2.keeping (past ++ now ++ returned lease)) := by
  unfold awaitAnswer
  cases hcut : r.cutOff? began t with
  | some limit =>
    refine ⟨[], .cutOff (Request.cutOff?_eq_some.mp hcut).1, ?_⟩
    simp only [World.keeping, giveBack_journaled, List.append_nil]
  | none =>
    refine ⟨[.finished c (b.finish c r.sql r.params w.resources).1], .answered _, ?_⟩
    show (_, World.mk (b.journaled.giveBack lease _) _ _) = _
    rw [giveBack_journaled]
    rfl

theorem runOn_journaled (began : Nat) (c : ConnectionId) (lease : Option Lease) (w : World σ)
    (past : Journal) :
    ∃ now, Served r c (runOn b d r began c lease w).1 now ∧
      runOn b.journaled d r began c lease (w.keeping past) =
        ((runOn b d r began c lease w).1,
          (runOn b d r began c lease w).2.keeping (past ++ now ++ returned lease)) := by
  have hstarted : (w.keeping past).started b.journaled d r c =
      (w.started b d r c).keeping (past ++ [.started c r.sql r.params]) := rfl
  obtain ⟨now, hserved, hawait⟩ := awaitAnswer_journaled b r began c lease
    (w.clock + (b.start c r.sql r.params w.resources).1) (w.started b d r c)
    (past ++ [.started c r.sql r.params])
  refine ⟨.started c r.sql r.params :: now, hserved, ?_⟩
  rw [List.append_assoc past, List.singleton_append, ← hstarted] at hawait
  exact hawait

theorem askPool_journaled (hc : d.atHand? r = none) (w : World σ) (past : Journal) :
    ∃ now, Exchange d r (askPool b d r w).1 now ∧
      askPool b.journaled d r (w.keeping past) =
        ((askPool b d r w).1, (askPool b d r w).2.keeping (past ++ now)) := by
  have htime : b.journaled.acquireTime (w.keeping past).resources = b.acquireTime w.resources :=
    rfl
  have hclock : (w.keeping past).clock = w.clock := rfl
  unfold askPool
  rw [htime, hclock]
  cases hcut : r.cutOff? w.clock (w.clock + b.acquireTime w.resources) with
  | some limit =>
    refine ⟨[], .unanswered hc (Request.cutOff?_eq_some.mp hcut).1, ?_⟩
    dsimp only
    generalize limit.toNanoseconds = n
    rw [List.append_nil]
    rfl
  | none =>
    unfold runLeased
    rcases hacquire : b.acquire w.resources with ⟨answer, resources⟩
    simp only [acquire_journaled hacquire past]
    cases answer with
    | error e => exact ⟨_, .refused hc, rfl⟩
    | ok c =>
      obtain ⟨now, hserved, hrun⟩ := runOn_journaled b d r w.clock c (some (.of c))
        { w with resources, clock := w.clock + b.acquireTime w.resources }
        (past ++ [.acquired (.ok c)])
      refine ⟨_, .leased hc hserved, ?_⟩
      have hjournal : past ++ [.acquired (.ok c)] ++ now ++ returned (some (.of c)) =
          past ++ (.acquired (.ok c) :: now ++ [.released c]) := by simp
      rw [hjournal] at hrun
      exact hrun

/-- A call over a backend with a journal is the call over the backend, and the journal has all
that the call has to do with it. -/
theorem execute_journaled (w : World σ) (past : Journal) :
    ∃ now, Exchange d r (execute b d w r).1 now ∧
      execute b.journaled d (w.keeping past) r =
        ((execute b d w r).1, (execute b d w r).2.keeping (past ++ now)) := by
  simp only [execute_eq_alone]
  unfold alone
  cases hc : d.atHand? r with
  | some c =>
    obtain ⟨now, hserved, hrun⟩ := runOn_journaled b d r w.clock c none w past
    rw [returned_none, List.append_nil] at hrun
    exact ⟨now, .direct hc hserved, hrun⟩
  | none => exact askPool_journaled b d r hc w past

end Journaled

end Schemata.Dispatch
