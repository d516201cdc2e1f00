import Schemata.Dispatch.Session

/-!
# A call on its own

When no other call is in flight a session can be told without events and moments: the call waits
for the pool, then for its statement, and its limit cuts off the first wait that outlasts it.
`alone` tells it so, and `execute_eq_alone` says that this is what a session comes to, over any
backend.

The proof follows the one call through its session. A wait is over at once, or the clock goes on
to its end or to the limit, whichever comes first; a call that is done stays as it is.
-/
namespace Schemata.Dispatch

variable {σ : Type}

/-- What the end of a call does to the resources: a leased connection goes back to the pool. -/
def Backend.giveBack (b : Backend σ) : Option Lease → σ → σ
  | some ⟨some c⟩, s => b.release c s
  | _, s => s

/-- The limit of a call that was submitted at `began`, if it is over before `t`. -/
def Request.cutOff? (r : Request) (began t : Nat) : Option Duration :=
  r.limit.filter fun limit => began + limit.toNanoseconds < t

/-- When a wait until `t` is over, by its end or by the limit. -/
def Request.waitsUntil (r : Request) (began t : Nat) : Nat :=
  match r.cutOff? began t with
  | some limit => began + limit.toNanoseconds
  | none => t

/-- The connection of a call that need not ask the pool for one. -/
def Dispatcher.atHand? (d : Dispatcher) (r : Request) : Option ConnectionId :=
  match r.own, d.source with
  | some c, _ | none, .single c => some c
  | none, .pool => none

section Alone

variable (b : Backend σ) (d : Dispatcher) (r : Request)

/-- What is there when a statement has been logged and started. -/
def World.started (w : World σ) (c : ConnectionId) : World σ :=
  { w with
    resources := (b.start c r.sql r.params w.resources).2
    records := w.records ++ [d.record c r.sql] }

/-- Waits until `t` for the answer of a statement. -/
def awaitAnswer (began : Nat) (c : ConnectionId) (lease : Option Lease) (t : Nat) (w : World σ) :
    Outcome × World σ :=
  match r.cutOff? began t with
  | some limit =>
    (.error (.timeout limit),
      { w with clock := began + limit.toNanoseconds, resources := b.giveBack lease w.resources })
  | none =>
    let (outcome, resources) := b.finish c r.sql r.params w.resources
    (outcome, { w with clock := t, resources := b.giveBack lease resources })

/-- Runs the statement on a connection. -/
def runOn (began : Nat) (c : ConnectionId) (lease : Option Lease) (w : World σ) :
    Outcome × World σ :=
  awaitAnswer b r began c lease (w.clock + (b.start c r.sql r.params w.resources).1)
    (w.started b d r c)

/-- Runs the statement on a connection of the pool, if that has one to give. -/
def runLeased (began : Nat) (w : World σ) : Outcome × World σ :=
  match b.acquire w.resources with
  | (.error e, resources) => (.error e, { w with resources })
  | (.ok c, resources) => runOn b d r began c (some (.of c)) { w with resources }

/-- Asks the pool for a connection and runs the statement when one comes in time. -/
def askPool (w : World σ) : Outcome × World σ :=
  match r.cutOff? w.clock (w.clock + b.acquireTime w.resources) with
  | some limit => (.error (.timeout limit), { w with clock := w.clock + limit.toNanoseconds })
  | none => runLeased b d r w.clock { w with clock := w.clock + b.acquireTime w.resources }

/-- A call from its submission to its end, with no other call in flight. -/
def alone (w : World σ) : Outcome × World σ :=
  match d.atHand? r with
  | some c => runOn b d r w.clock c none w
  | none => askPool b d r w

end Alone

theorem Request.cutOff?_eq_none {r : Request} {began t : Nat} :
    r.cutOff? began t = none ↔ ∀ limit, r.limit = some limit → t ≤ began + limit.toNanoseconds := by
  unfold cutOff?
  cases r.limit <;> simp

theorem Request.cutOff?_eq_some {r : Request} {began t : Nat} {limit : Duration} :
    r.cutOff? began t = some limit ↔
      r.limit = some limit ∧ began + limit.toNanoseconds < t := by
  unfold cutOff?
  cases r.limit with
  | none => simp
  | some l =>
    simp only [Option.filter_eq_some_iff, Option.some.injEq, decide_eq_true_eq]

namespace Session

variable (b : Backend σ) (d : Dispatcher) (r : Request)

/-- The session of a single call; `locked` says whether the call has the single connection. -/
def solo (w : World σ) (began : Nat) (wake : CallId → Option Nat) (stage : Stage)
    (locked : Bool) : Session σ :=
  { world := w
    state := { calls := [⟨r, stage⟩], holder := if locked then some 0 else none }
    began
    wake }

/-- The call is done, nobody has the single connection, and the world is as it should be. -/
def Ends (s : Session σ) (result : Outcome × World σ) : Prop :=
  ∃ began wake, s = solo r result.2 began wake (.done result.1) false

/-- The alarm of the call is set. -/
def alarm (wake : CallId → Option Nat) (t : Nat) : CallId → Option Nat :=
  fun i => if i = 0 then some t else wake i

variable {b d r} {w : World σ} {began t : Nat} {wake : CallId → Option Nat} {stage : Stage}
  {locked : Bool} {c : ConnectionId} {lease : Option Lease} {s : Session σ}
  {result : Outcome × World σ}

/-! ## One step of the call -/

theorem performAll_giveBack (s : Session σ) (id : CallId) (lease : Option Lease) :
    (giveBack id lease).foldl (perform b) s =
      { s with world := { s.world with resources := b.giveBack lease s.world.resources } } := by
  match lease with
  | none | some ⟨none⟩ | some ⟨some c⟩ => rfl

theorem isDue_solo (hwake : wake 0 = some t) :
    (solo r w began wake stage locked).isDue 0 = decide (t ≤ w.clock) := by
  have hset : (solo r w began wake stage locked).wake 0 = some t := hwake
  rw [isDue, hset]
  rfl

theorem unlock_solo (calls : List Call) (locked : Bool) :
    State.unlock ⟨calls, if locked then some 0 else none⟩ 0 = ⟨calls, none⟩ := by
  cases locked <;> rfl

theorem feed_answered (o : Outcome) :
    feed b d (solo r w began wake (.querying c lease) locked) (.answered 0 o) =
      solo r { w with resources := b.giveBack lease w.resources } began wake (.done o) false := by
  simp only [feed, step, solo, List.getElem?_cons_zero, State.moveTo, List.set_cons_zero,
    unlock_solo, performAll_giveBack]
  rfl

theorem feed_expired {limit : Duration} (hl : r.limit = some limit) :
    feed b d (solo r w began wake (.querying c lease) locked) (.expired 0) =
      solo r { w with resources := b.giveBack lease w.resources } began wake
        (.done (.error (.timeout limit))) false := by
  simp only [feed, step, solo, List.getElem?_cons_zero, hl, State.moveTo, List.set_cons_zero,
    unlock_solo, performAll_giveBack]
  rfl

theorem feed_expired_acquiring {limit : Duration} (hl : r.limit = some limit) :
    feed b d (solo r w began wake .acquiring false) (.expired 0) =
      solo r w began wake (.done (.error (.timeout limit))) false := by
  simp only [feed, step, solo, List.getElem?_cons_zero, hl, State.moveTo, List.set_cons_zero]
  rfl

theorem feed_expired_done (o : Outcome) :
    feed b d (solo r w began wake (.done o) locked) (.expired 0) =
      solo r w began wake (.done o) locked := by
  cases hl : r.limit <;> simp [feed, step, solo, hl]

theorem advance_done (o : Outcome) :
    advance b d (solo r w began wake (.done o) locked) 0 = solo r w began wake (.done o) locked :=
  rfl

theorem isDue_later (hwake : wake 0 = some t) (ht : w.clock < t) :
    ¬ (solo r w began wake stage locked).isDue 0 = true := by
  rw [isDue_solo hwake, decide_eq_true_iff]
  exact Nat.not_le.mpr ht

theorem isDue_now (hwake : wake 0 = some t) (ht : t ≤ w.clock) :
    (solo r w began wake stage locked).isDue 0 = true := by
  rw [isDue_solo hwake, decide_eq_true_iff]
  exact ht

/-- Waits for the pool or for an answer. -/
def IsWaiting (stage : Stage) : Prop := stage = .acquiring ∨ ∃ c lease, stage = .querying c lease

theorem advance_waiting (hstage : IsWaiting stage) (hwake : wake 0 = some t) (ht : w.clock < t) :
    advance b d (solo r w began wake stage locked) 0 = solo r w began wake stage locked := by
  rcases hstage with rfl | ⟨c, lease, rfl⟩
  · exact if_neg (isDue_later hwake ht)
  · exact if_neg (isDue_later hwake ht)

theorem advance_answered (hwake : wake 0 = some t) (ht : t ≤ w.clock) :
    advance b d (solo r w began wake (.querying c lease) locked) 0 =
      solo r
        { w with
          resources := b.giveBack lease (b.finish c r.sql r.params w.resources).2 }
        began wake (.done (b.finish c r.sql r.params w.resources).1) false :=
  (if_pos (isDue_now hwake ht)).trans
    (feed_answered (w := { w with resources := (b.finish c r.sql r.params w.resources).2 }) _)

theorem advance_granted {resources : σ} (hwake : wake 0 = some t) (ht : t ≤ w.clock)
    (h : b.acquire w.resources = (.ok c, resources)) :
    advance b d (solo r w began wake .acquiring false) 0 =
      solo r (World.started b d r { w with resources } c) began
        (alarm wake (w.clock + (b.start c r.sql r.params resources).1))
        (.querying c (some (.of c))) false := by
  refine (if_pos (isDue_now hwake ht)).trans ?_
  simp only [solo, h]
  rfl

theorem advance_refused {e : ClientError} {resources : σ} (hwake : wake 0 = some t)
    (ht : t ≤ w.clock) (h : b.acquire w.resources = (.error e, resources)) :
    advance b d (solo r w began wake .acquiring false) 0 =
      solo r { w with resources } began wake (.done (.error e)) false := by
  refine (if_pos (isDue_now hwake ht)).trans ?_
  simp only [solo, h]
  rfl

theorem advance_entered (hd : d.source = .single c) :
    advance b d (solo r w began wake .queued false) 0 =
      solo r (w.started b d r c) began
        (alarm wake (w.clock + (b.start c r.sql r.params w.resources).1)) (.querying c none) true := by
  show feed b d _ _ = _
  simp only [feed, step, solo, List.getElem?_cons_zero, hd]
  rfl

/-! ## The limit -/

theorem expire_solo : expire b d (solo r w began wake stage locked) =
    match r.limit with
    | some limit =>
      if began + limit.toNanoseconds ≤ w.clock then
        feed b d (solo r w began wake stage locked) (.expired 0)
      else solo r w began wake stage locked
    | none => solo r w began wake stage locked := by
  have hrange : List.range (solo r w began wake stage locked).state.calls.length = [0] := rfl
  have hcall : (solo r w began wake stage locked).state.calls[0]? = some ⟨r, stage⟩ := rfl
  rw [expire, hrange, List.foldl_cons, List.foldl_nil, deadline?, hcall, Option.bind_some]
  cases r.limit with
  | none => rfl
  | some limit =>
    simp only [Option.map_some]
    generalize limit.toNanoseconds = n
    rfl

theorem expire_early (h : ∀ limit, r.limit = some limit → w.clock < began + limit.toNanoseconds) :
    expire b d (solo r w began wake stage locked) = solo r w began wake stage locked := by
  rw [expire_solo]
  split
  · next limit hl => exact if_neg (Nat.not_le.mpr (h limit hl))
  · rfl

theorem expire_due {limit : Duration} (hl : r.limit = some limit)
    (h : began + limit.toNanoseconds ≤ w.clock) :
    expire b d (solo r w began wake stage locked) =
      feed b d (solo r w began wake stage locked) (.expired 0) := by
  rw [expire_solo, hl]
  exact if_pos h

theorem expire_done (o : Outcome) :
    expire b d (solo r w began wake (.done o) locked) = solo r w began wake (.done o) locked := by
  rw [expire_solo]
  split
  · rw [feed_expired_done, ite_self]
  · rfl

/-! ## The clock -/

theorem settle_solo : settle b d (solo r w began wake stage locked) =
    drive b d (solo r w began wake stage locked) 0 := rfl

theorem nextMoment?_done (o : Outcome) : nextMoment? (solo r w began wake (.done o) locked) = none :=
  rfl

theorem nextMoment?_waiting (hstage : IsWaiting stage) (hwake : wake 0 = some t) :
    nextMoment? (solo r w began wake stage locked) =
      match r.limit with
      | some limit => some (min t (began + limit.toNanoseconds))
      | none => some t := by
  have hmoments : nextMoment? (solo r w began wake stage locked) =
      ((wake 0).toList ++ (r.limit.map (began + ·.toNanoseconds)).toList).min? := by
    rcases hstage with rfl | ⟨c, lease, rfl⟩
    · rw [← List.append_nil (_ ++ _)]
      rfl
    · rw [← List.append_nil (_ ++ _)]
      rfl
  rw [hmoments, hwake]
  cases r.limit with
  | none => rfl
  | some limit => rfl

theorem nextMoment?_eq_waitsUntil (hstage : IsWaiting stage) (hwake : wake 0 = some t) :
    nextMoment? (solo r w began wake stage locked) = some (r.waitsUntil began t) := by
  rw [nextMoment?_waiting hstage hwake, Request.waitsUntil]
  cases hcut : r.cutOff? began t with
  | some limit =>
    obtain ⟨hl, hlt⟩ := Request.cutOff?_eq_some.mp hcut
    simp only [hl, Nat.min_eq_right (Nat.le_of_lt hlt)]
  | none =>
    cases hl : r.limit with
    | none => rfl
    | some limit => simp only [Nat.min_eq_left (Request.cutOff?_eq_none.mp hcut limit hl)]

/-- A call that waits goes on to the moment at which its wait is over. -/
theorem proceed_waiting (n : Nat) (hstage : IsWaiting stage) (hwake : wake 0 = some t)
    (hclock : w.clock ≤ r.waitsUntil began t) :
    proceed b d (n + 1) (solo r w began wake stage locked) =
      proceed b d n (settle b d (expire b d (settle b d
        (solo r { w with clock := r.waitsUntil began t } began wake stage locked)))) := by
  rw [proceed, nextMoment?_eq_waitsUntil hstage hwake]
  show proceed b d n (settle b d (expire b d (settle b d
    (solo r { w with clock := max w.clock (r.waitsUntil began t) } began wake stage locked)))) = _
  rw [Nat.max_eq_right hclock]

/-! ## The end of the call -/

theorem Ends.advance (h : Ends r s result) : Ends r (advance b d s 0) result := by
  obtain ⟨began, wake, rfl⟩ := h
  exact ⟨began, wake, advance_done _⟩

theorem Ends.drive (h : Ends r s result) : Ends r (drive b d s 0) result :=
  h.advance.advance.advance

theorem Ends.settle (h : Ends r s result) : Ends r (settle b d s) result := by
  have hdrive : Ends r (Session.drive b d s 0) result := h.drive
  obtain ⟨began, wake, rfl⟩ := h
  exact hdrive

theorem Ends.expire (h : Ends r s result) : Ends r (expire b d s) result := by
  obtain ⟨began, wake, rfl⟩ := h
  exact ⟨began, wake, expire_done _⟩

theorem Ends.proceed (h : Ends r s result) (n : Nat) : Ends r (proceed b d n s) result := by
  have hdone : Session.proceed b d n s = s := by
    obtain ⟨began, wake, rfl⟩ := h
    cases n with
    | zero => rfl
    | succ n => rw [Session.proceed, nextMoment?_done]
  rw [hdone]
  exact h

/-- The answer is there: the next step is the last. -/
theorem ends_answered (hwake : wake 0 = some t) (ht : t = w.clock)
    (hlimit : ∀ limit, r.limit = some limit → w.clock ≤ began + limit.toNanoseconds) :
    Ends r (advance b d (solo r w began wake (.querying c lease) locked) 0)
      (awaitAnswer b r began c lease t w) := by
  subst ht
  have hcut : r.cutOff? began w.clock = none := Request.cutOff?_eq_none.mpr hlimit
  refine ⟨began, wake, ?_⟩
  rw [advance_answered hwake (Nat.le_refl _), awaitAnswer, hcut]

/-- The limit is over before the answer is there. -/
theorem ends_expired {limit : Duration} (hl : r.limit = some limit)
    (hclock : w.clock = began + limit.toNanoseconds) (ht : w.clock < t) :
    Ends r (expire b d (solo r w began wake (.querying c lease) locked))
      (awaitAnswer b r began c lease t w) := by
  have hcut : r.cutOff? began t = some limit :=
    Request.cutOff?_eq_some.mpr ⟨hl, hclock ▸ ht⟩
  refine ⟨began, wake, ?_⟩
  rw [expire_due hl (Nat.le_of_eq hclock.symm), feed_expired hl, awaitAnswer, hcut]
  simp only [← hclock]

theorem awaitAnswer_clock (w : World σ) (clock : Nat) :
    awaitAnswer b r began c lease t { w with clock } = awaitAnswer b r began c lease t w := by
  unfold awaitAnswer
  split <;> rfl

theorem settle_waiting (hstage : IsWaiting stage) (hwake : wake 0 = some t) (ht : w.clock < t) :
    settle b d (solo r w began wake stage locked) = solo r w began wake stage locked := by
  show advance b d (advance b d (advance b d (solo r w began wake stage locked) 0) 0) 0 = _
  simp only [advance_waiting hstage hwake ht]

/-- A statement that runs is answered or cut off. -/
theorem ends_querying (n : Nat) (hwake : wake 0 = some t) (ht : w.clock ≤ t)
    (hlimit : ∀ limit, r.limit = some limit → w.clock ≤ began + limit.toNanoseconds) :
    Ends r (proceed b d (n + 1) (solo r w began wake (.querying c lease) locked))
      (awaitAnswer b r began c lease t w) := by
  have hstage : IsWaiting (.querying c lease) := .inr ⟨c, lease, rfl⟩
  rw [← awaitAnswer_clock w (r.waitsUntil began t)]
  cases hcut : r.cutOff? began t with
  | some limit =>
    obtain ⟨hl, hlt⟩ := Request.cutOff?_eq_some.mp hcut
    have huntil : r.waitsUntil began t = began + limit.toNanoseconds := by
      rw [Request.waitsUntil, hcut]
    have hclock : w.clock ≤ r.waitsUntil began t := huntil ▸ hlimit limit hl
    rw [← huntil] at hlt
    rw [proceed_waiting n hstage hwake hclock, settle_waiting hstage hwake hlt]
    exact ((ends_expired (w := { w with clock := r.waitsUntil began t }) hl huntil hlt).settle).proceed n
  | none =>
    have huntil : r.waitsUntil began t = t := by rw [Request.waitsUntil, hcut]
    have hclock : w.clock ≤ r.waitsUntil began t := by rwa [huntil]
    have hintime : ∀ limit, r.limit = some limit →
        r.waitsUntil began t ≤ began + limit.toNanoseconds := by
      rw [huntil]
      exact Request.cutOff?_eq_none.mp hcut
    rw [proceed_waiting n hstage hwake hclock, settle_solo]
    refine Ends.proceed (Ends.settle (Ends.expire ?_)) n
    exact (ends_answered (w := { w with clock := r.waitsUntil began t }) hwake huntil.symm
      hintime).advance.advance

/-- A statement that runs is answered at once, or takes no step. -/
theorem advance_querying (b : Backend σ) (d : Dispatcher) (hwake : wake 0 = some t)
    (ht : w.clock ≤ t)
    (hlimit : ∀ limit, r.limit = some limit → w.clock ≤ began + limit.toNanoseconds) :
    Ends r (advance b d (solo r w began wake (.querying c lease) locked) 0)
        (awaitAnswer b r began c lease t w) ∨
      w.clock < t ∧ advance b d (solo r w began wake (.querying c lease) locked) 0 =
        solo r w began wake (.querying c lease) locked := by
  rcases Nat.lt_or_eq_of_le ht with hlt | heq
  · exact .inr ⟨hlt, advance_waiting (.inr ⟨c, lease, rfl⟩) hwake hlt⟩
  · exact .inl (ends_answered hwake heq.symm hlimit)

/-- The call has started its statement and takes another two steps before the clock goes on. -/
theorem ends_started (n : Nat) (hwake : wake 0 = some t) (ht : w.clock ≤ t)
    (hlimit : ∀ limit, r.limit = some limit → w.clock ≤ began + limit.toNanoseconds) :
    Ends r (proceed b d (n + 1) (advance b d (advance b d
        (solo r w began wake (.querying c lease) locked) 0) 0))
      (awaitAnswer b r began c lease t w) := by
  rcases advance_querying b d hwake ht hlimit with h | ⟨-, h⟩
  · exact h.advance.proceed _
  · rw [h, h]
    exact ends_querying n hwake ht hlimit

/-- The same where its statement has run from the beginning. -/
theorem ends_driven (n : Nat) (hwake : wake 0 = some t) (ht : w.clock ≤ t)
    (hlimit : ∀ limit, r.limit = some limit → w.clock ≤ began + limit.toNanoseconds) :
    Ends r (proceed b d (n + 1) (drive b d (solo r w began wake (.querying c lease) locked) 0))
      (awaitAnswer b r began c lease t w) := by
  show Ends r (proceed b d (n + 1) (advance b d (advance b d (advance b d _ 0) 0) 0)) _
  rcases advance_querying b d hwake ht hlimit with h | ⟨-, h⟩
  · exact h.advance.advance.proceed _
  · rw [h]
    exact ends_started n hwake ht hlimit

/-- The same where it has waited for the pool, so that the limit may be over by now. -/
theorem ends_started_later (n : Nat) (hwake : wake 0 = some t) (ht : w.clock ≤ t)
    (hlimit : ∀ limit, r.limit = some limit → w.clock ≤ began + limit.toNanoseconds) :
    Ends r (proceed b d (n + 1) (settle b d (expire b d (advance b d (advance b d
        (solo r w began wake (.querying c lease) locked) 0) 0))))
      (awaitAnswer b r began c lease t w) := by
  rcases advance_querying b d hwake ht hlimit with h | ⟨hlt, h⟩
  · exact h.advance.expire.settle.proceed _
  · rw [h, h]
    by_cases hover : ∃ limit, r.limit = some limit ∧ w.clock = began + limit.toNanoseconds
    · obtain ⟨limit, hl, hclock⟩ := hover
      exact (ends_expired hl hclock hlt).settle.proceed _
    · have hearly : ∀ limit, r.limit = some limit → w.clock < began + limit.toNanoseconds :=
        fun limit hl => Nat.lt_of_le_of_ne (hlimit limit hl) fun h => hover ⟨limit, hl, h⟩
      rw [expire_early hearly, settle_waiting (.inr ⟨c, lease, rfl⟩) hwake hlt]
      exact ends_querying n hwake ht hlimit

/-- The pool answers, and `f` is what is still to come. -/
theorem ends_acquiring (hwake : wake 0 = some t) (ht : t ≤ w.clock) {f : Session σ → Session σ}
    (hdone : ∀ {s result}, Ends r s result → Ends r (f s) result)
    (hstarted : ∀ {w' wake' t' c}, wake' 0 = some t' → w'.clock ≤ t' → w'.clock = w.clock →
      Ends r (f (advance b d (advance b d
          (solo r w' began wake' (.querying c (some (.of c))) false) 0) 0))
        (awaitAnswer b r began c (some (.of c)) t' w')) :
    Ends r (f (drive b d (solo r w began wake .acquiring false) 0)) (runLeased b d r began w) := by
  show Ends r (f (advance b d (advance b d (advance b d _ 0) 0) 0)) _
  rw [runLeased]
  rcases hacquire : b.acquire w.resources with ⟨answer, resources⟩
  cases answer with
  | error e =>
    rw [advance_refused hwake ht hacquire]
    have hends : Ends r (solo r { w with resources } began wake (.done (.error e)) false)
        (.error e, { w with resources }) := ⟨began, wake, rfl⟩
    exact hdone hends.advance.advance
  | ok c =>
    rw [advance_granted hwake ht hacquire]
    exact hstarted rfl (Nat.le_add_right _ _) rfl

/-- A call that has asked the pool for a connection. -/
theorem ends_pool (b : Backend σ) (d : Dispatcher) (r : Request) (w : World σ) :
    Ends r
      (proceed b d 3 (drive b d (solo r w w.clock
        (alarm (fun _ => none) (w.clock + b.acquireTime w.resources)) .acquiring false) 0))
      (askPool b d r w) := by
  rw [askPool]
  generalize ht : w.clock + b.acquireTime w.resources = t
  have hwake : alarm (fun _ => none) t 0 = some t := rfl
  rcases Nat.lt_or_eq_of_le (ht ▸ Nat.le_add_right w.clock (b.acquireTime w.resources)) with hlt | heq
  · -- the pool lets the call wait
    rw [← settle_solo, settle_waiting (.inl rfl) hwake hlt]
    cases hcut : r.cutOff? w.clock t with
    | some limit =>
      obtain ⟨hl, hlimit⟩ := Request.cutOff?_eq_some.mp hcut
      have huntil : r.waitsUntil w.clock t = w.clock + limit.toNanoseconds := by
        rw [Request.waitsUntil, hcut]
      rw [proceed_waiting 2 (.inl rfl) hwake (huntil ▸ Nat.le_add_right _ _), huntil,
        settle_waiting (.inl rfl) hwake hlimit, expire_due hl (Nat.le_refl _),
        feed_expired_acquiring hl]
      have hends : Ends r (solo r { w with clock := w.clock + limit.toNanoseconds } w.clock
          (alarm (fun _ => none) t) (.done (.error (.timeout limit))) false)
          (.error (.timeout limit), { w with clock := w.clock + limit.toNanoseconds }) :=
        ⟨_, _, rfl⟩
      exact hends.settle.proceed 2
    | none =>
      have huntil : r.waitsUntil w.clock t = t := by rw [Request.waitsUntil, hcut]
      have hlimit : ∀ limit, r.limit = some limit → t ≤ w.clock + limit.toNanoseconds :=
        Request.cutOff?_eq_none.mp hcut
      rw [proceed_waiting 2 (.inl rfl) hwake (huntil.symm ▸ Nat.le_of_lt hlt), huntil, settle_solo]
      refine ends_acquiring (w := { w with clock := t }) hwake (Nat.le_refl t)
        (f := fun s => proceed b d 2 (settle b d (expire b d s)))
        (fun h => h.expire.settle.proceed 2) fun hwake' ht' hclock => ?_
      exact ends_started_later 1 hwake' ht' (hclock ▸ hlimit)
  · -- the pool answers at once
    have hcut : r.cutOff? w.clock t = none :=
      Request.cutOff?_eq_none.mpr fun _ _ => heq ▸ Nat.le_add_right _ _
    rw [hcut]
    have hsame : { w with clock := t } = w := by rw [← heq]
    rw [hsame]
    refine ends_acquiring hwake (Nat.le_of_eq heq.symm) (f := proceed b d 3)
      (fun h => h.proceed 3) fun hwake' ht' hclock => ?_
    exact ends_started 2 hwake' ht' (hclock ▸ fun _ _ => Nat.le_add_right _ _)

/-- A session of one call comes to what the call comes to on its own, and the single connection
is free again. -/
theorem ends_alone (b : Backend σ) (d : Dispatcher) (r : Request) (w : World σ) :
    Ends r (proceed b d 3 (submit b d w [r])) (alone b d r w) := by
  -- no limit is over before the call begins
  have hlimit : ∀ limit, r.limit = some limit → w.clock ≤ w.clock + limit.toNanoseconds :=
    fun _ _ => Nat.le_add_right _ _
  have hsubmit : submit b d w [r] =
      drive b d (feed b d { world := w, began := w.clock } (.submit r)) 0 := rfl
  rw [hsubmit, alone, Dispatcher.atHand?]
  cases hown : r.own with
  | some c =>
    have hfeed : feed b d { world := w, began := w.clock } (.submit r) =
        solo r (w.started b d r c) w.clock
          (alarm (fun _ => none) (w.clock + (b.start c r.sql r.params w.resources).1))
          (.querying c none) false := by
      simp only [feed, step, hown]
      rfl
    rw [hfeed]
    exact ends_driven 2 rfl (Nat.le_add_right _ _) hlimit
  | none =>
    cases hd : d.source with
    | single c =>
      have hfeed : feed b d { world := w, began := w.clock } (.submit r) =
          solo r w w.clock (fun _ => none) .queued false := by
        simp only [feed, step, hown, hd]
        rfl
      rw [hfeed]
      show Ends r (proceed b d 3 (advance b d (advance b d (advance b d _ 0) 0) 0)) _
      rw [advance_entered hd]
      exact ends_started 2 rfl (Nat.le_add_right _ _) hlimit
    | pool =>
      have hfeed : feed b d { world := w, began := w.clock } (.submit r) =
          solo r w w.clock (alarm (fun _ => none) (w.clock + b.acquireTime w.resources))
            .acquiring false := by
        simp only [feed, step, hown, hd]
        rfl
      rw [hfeed]
      exact ends_pool b d r w

end Session

theorem execute_eq_alone (b : Backend σ) (d : Dispatcher) (w : World σ) (r : Request) :
    execute b d w r = alone b d r w := by
  have hsession : execute b d w r =
      ((Session.proceed b d 3 (Session.submit b d w [r])).outcome 0,
        (Session.proceed b d 3 (Session.submit b d w [r])).world) := rfl
  obtain ⟨began, wake, hends⟩ := Session.ends_alone b d r w
  rw [hsession, hends]
  rfl

end Schemata.Dispatch
