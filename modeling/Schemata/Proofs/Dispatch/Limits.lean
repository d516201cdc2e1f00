import Schemata.Proofs.Dispatch.Journal

/-!
# Limits

A limit makes no difference to a call that is over in time. Any other call it cuts off at
the limit and not a moment later, and `CutOff` says how things stand then: nothing has happened
if the pool had not answered; otherwise the statement was logged and started, once, and the
connection is where it came from.
-/
namespace Schemata.Dispatch

variable {σ : Type}

/-- The same call without a limit. -/
def Request.free (r : Request) : Request := { r with limit := none }

/-- The same call with a limit. -/
def Request.within (r : Request) (limit : Duration) : Request := { r with limit := some limit }

/-- How things stand when a limit has cut off a call, and what the backend was asked by then. -/
inductive CutOff (b : Backend σ) (d : Dispatcher) (r : Request) (limit : Duration) (w : World σ) :
    World σ → Journal → Prop
  /-- The pool had not answered. -/
  | acquiring (hc : d.atHand? r = none) (ht : limit.toNanoseconds < b.acquireTime w.resources) :
      CutOff b d r limit w { w with clock := w.clock + limit.toNanoseconds } []
  /-- The statement was running on a connection of the pool. -/
  | leased {c : ConnectionId} {resources : σ} (hc : d.atHand? r = none)
      (ht : b.acquireTime w.resources ≤ limit.toNanoseconds)
      (hacquire : b.acquire w.resources = (.ok c, resources)) :
      CutOff b d r limit w
        { resources := b.release c (b.start c r.sql r.params resources).2
          clock := w.clock + limit.toNanoseconds
          records := w.records ++
            [⟨if d.logStatements then .info else .debug, .dispatching c r.sql⟩] }
        [.acquired (.ok c), .started c r.sql r.params, .released c]
  /-- The statement was running on the single connection or on the caller's own. -/
  | running {c : ConnectionId} (hc : d.atHand? r = some c) :
      CutOff b d r limit w
        { resources := (b.start c r.sql r.params w.resources).2
          clock := w.clock + limit.toNanoseconds
          records := w.records ++
            [⟨if d.logStatements then .info else .debug, .dispatching c r.sql⟩] }
        [.started c r.sql r.params]

section Limits

variable {b : Backend σ} {d : Dispatcher} {r : Request} {limit : Duration} {w : World σ}
  {began t : Nat} {c : ConnectionId} {lease : Option Lease}

theorem cutOff?_within_eq_none (h : t ≤ began + limit.toNanoseconds) :
    (r.within limit).cutOff? began t = none := by
  rw [Request.cutOff?_eq_none]
  rintro _ ⟨⟩
  exact h

theorem cutOff?_within_eq_some (h : began + limit.toNanoseconds < t) :
    (r.within limit).cutOff? began t = some limit :=
  Request.cutOff?_eq_some.mpr ⟨rfl, h⟩

/-! ## In time -/

theorem runOn_in_time
    (h : w.clock + (b.start c r.sql r.params w.resources).1 ≤ began + limit.toNanoseconds) :
    runOn b d (r.within limit) began c lease w = runOn b d r.free began c lease w := by
  show awaitAnswer b (r.within limit) began c lease
    (w.clock + (b.start c r.sql r.params w.resources).1) _ = _
  rw [awaitAnswer, cutOff?_within_eq_none h]
  rfl

theorem clock_le_runLeased_free : w.clock ≤ (runLeased b d r.free began w).2.clock := by
  rw [runLeased]
  rcases b.acquire w.resources with ⟨_ | c, resources⟩
  · exact Nat.le_refl _
  · exact Nat.le_add_right _ _

theorem runLeased_in_time
    (h : (runLeased b d r.free began w).2.clock ≤ began + limit.toNanoseconds) :
    runLeased b d (r.within limit) began w = runLeased b d r.free began w := by
  rw [runLeased] at h
  rw [runLeased, runLeased]
  rcases hacquire : b.acquire w.resources with ⟨_ | c, resources⟩
  · rfl
  · rw [hacquire] at h
    exact runOn_in_time h

theorem askPool_free :
    askPool b d r.free w =
      runLeased b d r.free w.clock { w with clock := w.clock + b.acquireTime w.resources } := rfl

theorem askPool_in_time (h : (askPool b d r.free w).2.clock ≤ w.clock + limit.toNanoseconds) :
    askPool b d (r.within limit) w = askPool b d r.free w := by
  rw [askPool_free] at h
  have hpool : w.clock + b.acquireTime w.resources ≤ w.clock + limit.toNanoseconds :=
    Nat.le_trans (clock_le_runLeased_free
      (w := { w with clock := w.clock + b.acquireTime w.resources })) h
  rw [askPool, cutOff?_within_eq_none hpool, askPool_free]
  exact runLeased_in_time h

/-- A limit makes no difference to a call that is over in time. -/
theorem alone_in_time (h : (alone b d r.free w).2.clock ≤ w.clock + limit.toNanoseconds) :
    alone b d (r.within limit) w = alone b d r.free w := by
  have hfree : d.atHand? r.free = d.atHand? r := rfl
  have hwithin : d.atHand? (r.within limit) = d.atHand? r := rfl
  rw [alone, hfree] at h
  rw [alone, alone, hfree, hwithin]
  cases hc : d.atHand? r with
  | some c =>
    rw [hc] at h
    exact runOn_in_time h
  | none =>
    rw [hc] at h
    exact askPool_in_time h

/-! ## Cut off -/

theorem runOn_cutOff
    (h : began + limit.toNanoseconds < w.clock + (b.start c r.sql r.params w.resources).1) :
    runOn b d (r.within limit) began c lease w =
      (.error (.timeout limit),
        { resources := b.giveBack lease (b.start c r.sql r.params w.resources).2
          clock := began + limit.toNanoseconds
          records := w.records ++ [d.record c r.sql] }) := by
  show awaitAnswer b (r.within limit) began c lease
    (w.clock + (b.start c r.sql r.params w.resources).1) _ = _
  rw [awaitAnswer, cutOff?_within_eq_some h]
  dsimp only
  generalize limit.toNanoseconds = n
  rfl

theorem askPool_cutOff_acquiring (h : limit.toNanoseconds < b.acquireTime w.resources) :
    askPool b d (r.within limit) w =
      (.error (.timeout limit), { w with clock := w.clock + limit.toNanoseconds }) := by
  rw [askPool, cutOff?_within_eq_some (Nat.add_lt_add_left h w.clock)]

theorem askPool_cutOff_leased {resources : σ}
    (hpool : b.acquireTime w.resources ≤ limit.toNanoseconds)
    (hacquire : b.acquire w.resources = (.ok c, resources))
    (h : w.clock + limit.toNanoseconds <
      w.clock + b.acquireTime w.resources + (b.start c r.sql r.params resources).1) :
    askPool b d (r.within limit) w =
      (.error (.timeout limit),
        { resources := b.release c (b.start c r.sql r.params resources).2
          clock := w.clock + limit.toNanoseconds
          records := w.records ++ [d.record c r.sql] }) := by
  rw [askPool, cutOff?_within_eq_none (Nat.add_le_add_left hpool w.clock)]
  simp only [runLeased, hacquire]
  exact runOn_cutOff h

/-- A limit cuts off a call that is not over in time. -/
theorem alone_cutOff (h : w.clock + limit.toNanoseconds < (alone b d r.free w).2.clock) :
    ∃ after journal, CutOff b d r limit w after journal ∧
      alone b d (r.within limit) w = (.error (.timeout limit), after) ∧
      alone b.journaled d (r.within limit) (w.keeping []) =
        (.error (.timeout limit), after.keeping journal) := by
  have hfree : d.atHand? r.free = d.atHand? r := rfl
  have hwithin : d.atHand? (r.within limit) = d.atHand? r := rfl
  rw [alone, hfree] at h
  simp only [alone, hwithin]
  cases hc : d.atHand? r with
  | some c =>
    rw [hc] at h
    exact ⟨_, _, .running hc, runOn_cutOff h,
      runOn_cutOff (b := b.journaled) (w := w.keeping []) h⟩
  | none =>
    rw [hc] at h
    rcases Nat.lt_or_ge limit.toNanoseconds (b.acquireTime w.resources) with hlt | hpool
    · exact ⟨_, _, .acquiring hc hlt, askPool_cutOff_acquiring hlt,
        askPool_cutOff_acquiring (b := b.journaled) (w := w.keeping []) hlt⟩
    · simp only [askPool_free, runLeased] at h
      rcases hacquire : b.acquire w.resources with ⟨e | c, resources⟩
      · -- the pool has refused in time
        rw [hacquire] at h
        exact absurd h (Nat.not_lt.mpr (Nat.add_le_add_left hpool w.clock))
      · rw [hacquire] at h
        exact ⟨_, _, .leased hc hpool hacquire, askPool_cutOff_leased hpool hacquire h,
          askPool_cutOff_leased (b := b.journaled) (w := w.keeping []) hpool
            (acquire_journaled hacquire []) h⟩

end Limits

/-- **A limited call refines the call**, over every backend, so also over one that keeps a
journal or counts what it is asked. A call that is over in time ends as it would without its
limit, in the same world. Any other call ends at the limit with the limit as its error, and
`CutOff` says what was done by then. Either way the call is done and the single connection is
free. -/
theorem limited_call_refines_call (b : Backend σ) (d : Dispatcher) (r : Request)
    (limit : Duration) (w : World σ) :
    let free := execute b d w r.free
    let limited := execute b d w (r.within limit)
    (free.2.clock ≤ w.clock + limit.toNanoseconds → limited = free) ∧
    (w.clock + limit.toNanoseconds < free.2.clock →
      limited.1 = .error (.timeout limit) ∧
      limited.2.clock = w.clock + limit.toNanoseconds ∧
      ∃ journal, CutOff b d r limit w limited.2 journal ∧
        execute b.journaled d (w.keeping []) (r.within limit) =
          (limited.1, limited.2.keeping journal)) ∧
    (Session.proceed b d 3 (Session.submit b d w [r.within limit])).state =
      { calls := [⟨r.within limit, .done limited.1⟩], holder := none } := by
  simp only [execute_eq_alone]
  refine ⟨alone_in_time, fun hlong => ?_, ?_⟩
  · obtain ⟨after, journal, hcut, hplain, hjournaled⟩ := alone_cutOff hlong
    rw [hplain, hjournaled]
    refine ⟨rfl, ?_, journal, hcut, rfl⟩
    cases hcut <;> rfl
  · obtain ⟨began, wake, hends⟩ := Session.ends_alone b d (r.within limit) w
    rw [hends]
    rfl

/-- A pool that takes five milliseconds, and a statement that takes thirty: a limit of fifty
milliseconds makes no difference, and one of twenty cuts off the statement. -/
theorem statement_of_thirty_milliseconds_is_cut_off :
    let b : Backend Nat :=
      { acquireTime := fun _ => 5000000
        acquire := fun acquired => (.ok 7, acquired + 1)
        release := fun _ n => n
        start := fun _ _ _ n => (30000000, n)
        finish := fun _ _ _ n => (.ok {}, n)
        close := id
        endConnection := fun _ n => (.ok (), n) }
    let d : Dispatcher := ⟨.pool, false⟩
    let r : Request := { sql := "select 1" }
    let w : World Nat := { resources := 0 }
    execute b d w (r.within (.ofMilliseconds 50)) = execute b d w r.free ∧
      (execute b d w (r.within (.ofMilliseconds 20))).1 =
        .error (.timeout (.ofMilliseconds 20)) := by
  intro b d r w
  have hclock : (execute b d w r.free).2.clock = 35000000 := by
    rw [execute_eq_alone]
    show 0 + 5000000 + 30000000 = 35000000
    decide
  refine ⟨(limited_call_refines_call b d r _ w).1 ?_,
    ((limited_call_refines_call b d r _ w).2.1 ?_).1⟩
  · rw [hclock]
    decide
  · rw [hclock]
    decide

end Schemata.Dispatch
