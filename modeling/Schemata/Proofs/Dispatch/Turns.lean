import Mathlib.Data.List.Nodup
import Schemata.Proofs.Dispatch.History

/-!
# Calls on a single connection take turns

A dispatcher that has one connection keeps it under a lock. A call without a connection of its
own waits for the lock, has it while its statement runs, and lets go of it when it ends, whether
by an answer or by its limit. So the holder of the lock is the call whose statement runs on the
connection, and nobody else's runs there.

Other calls may bring connections of their own along and run beside them. The dispatcher's
connection is out of their reach, which is the only assumption.
-/
namespace Schemata.Dispatch

/-! ### What happens to one call -/

section Call

variable (d : Dispatcher) (c : ConnectionId) (id : CallId) (r : Request)

/-- The call gets the lock, and the statement starts on the connection at once. -/
def inTurn : List Moment := .takes (.submit r) :: .takes (.entered id) :: started d id r c

/-- What can have happened to a call over the single connection `c` when it is at a stage. -/
inductive Turn : Stage → List Moment → Prop
  | waiting (own : r.own = none) : Turn .queued [.takes (.submit r)]
  | gaveUp (own : r.own = none) {limit : Duration} (h : r.limit = some limit) :
      Turn (.done (.error (.timeout limit))) [.takes (.submit r), .takes (.expired id)]
  | running (own : r.own = none) : Turn (.querying c none) (inTurn d c id r)
  | answered (own : r.own = none) (o : Outcome) :
      Turn (.done o) (inTurn d c id r ++ [.takes (.answered id o)])
  | cutOff (own : r.own = none) {limit : Duration} (h : r.limit = some limit) :
      Turn (.done (.error (.timeout limit))) (inTurn d c id r ++ [.takes (.expired id)])
  | ownRunning {c' : ConnectionId} (own : r.own = some c') (apart : c' ≠ c) :
      Turn (.querying c' none) (startedOnOwn d id r c')
  | ownAnswered {c' : ConnectionId} (own : r.own = some c') (apart : c' ≠ c) (o : Outcome) :
      Turn (.done o) (startedOnOwn d id r c' ++ [.takes (.answered id o)])
  | ownCutOff {c' : ConnectionId} (own : r.own = some c') (apart : c' ≠ c) {limit : Duration}
      (h : r.limit = some limit) :
      Turn (.done (.error (.timeout limit))) (startedOnOwn d id r c' ++ [.takes (.expired id)])

variable {d c id r} {stage stage' : Stage} {past : List Moment} {e : Event} {effects : List Effect}

theorem Opens.turn (hd : d.source = .single c) (hown : r.own ≠ some c)
    (h : Opens d id r effects stage) : Turn d c id r stage (moments (.submit r) effects) := by
  cases h with
  | own h =>
    refine .ownRunning h ?_
    rintro rfl
    exact hown h
  | acquire _ hs => rw [hd] at hs; cases hs
  | queue h => exact .waiting h

theorem Turn.moves (hd : d.source = .single c) (h : Turn d c id r stage past)
    (hm : Moves d id r stage e effects stage') :
    Turn d c id r stage' (past ++ moments e effects) := by
  cases hm with
  | granted | refused | expiredAcquiring => cases h
  | entered hs =>
    obtain rfl := Source.single.inj (hd.symm.trans hs)
    cases h with | waiting own => exact .running own
  | expiredQueued hl => cases h with | waiting own => exact .gaveUp own hl
  | answered c' lease o =>
    cases h with
    | running own => exact .answered own o
    | ownRunning own apart => exact .ownAnswered own apart o
  | expired c' lease hl =>
    cases h with
    | running own => exact .cutOff own hl
    | ownRunning own apart => exact .ownCutOff own apart hl

end Call

namespace Moment

/-- The call gets the single connection. -/
def isEntry : Moment → Bool
  | takes (.entered _) => true
  | _ => false

/-- A statement starts on the connection. -/
def isQueryOn (c : ConnectionId) : Moment → Bool
  | asks (.query _ c' _ _) => c' == c
  | _ => false

/-- The call's statement is answered, or its limit is over. -/
def isEnd : Moment → Bool
  | takes (.answered ..) | takes (.expired _) => true
  | _ => false

def isOfPool : Moment → Bool
  | asks (.acquire _) | asks (.release ..) => true
  | _ => false

end Moment

/-! ### Who has the connection -/

def Stage.runsOn (c : ConnectionId) : Stage → Bool
  | .querying c' _ => c' == c
  | _ => false

/-- The call's statement runs on the connection. -/
def State.RunsOn (s : State) (c : ConnectionId) (id : CallId) : Prop :=
  ∃ call, s.calls[id]? = some call ∧ call.stage.runsOn c = true

/-- Who has the single connection after an event, if `holder` had it before. -/
def Event.passOn (holder : Option CallId) : Event → Option CallId
  | .entered id => some id
  | .answered id _ | .expired id => if holder = some id then none else holder
  | _ => holder

section Lock

variable {d : Dispatcher} {c : ConnectionId} {s s' : State} {e : Event} {effects : List Effect}

theorem unlock_holder (s : State) (id : CallId) :
    (s.unlock id).holder = if s.holder = some id then none else s.holder := by
  unfold State.unlock
  split <;> rfl

/-- The connection is only handed to a call if nobody has it. -/
theorem step_holder (hlock : ∀ id, s.holder = some id → s.RunsOn c id)
    (h : step d s e = some (s', effects)) :
    s'.holder = e.passOn s.holder ∧ ∀ id, e = .entered id → s.holder = none := by
  -- a call that waits does not have the connection, so its expiry leaves the lock alone
  have hwaits : ∀ {id : CallId} {call : Call}, s.calls[id]? = some call →
      call.stage.runsOn c = false → (if s.holder = some id then none else s.holder) = s.holder := by
    intro id call hcall hstage
    refine if_neg fun hid => ?_
    obtain ⟨call', hcall', hruns⟩ := hlock id hid
    obtain rfl := Option.some.inj (hcall.symm.trans hcall')
    rw [hstage] at hruns
    cases hruns
  cases e with
  | submit r =>
    simp only [step] at h
    split at h <;> cases h <;> exact ⟨rfl, fun _ he => by cases he⟩
  | granted id c' =>
    simp only [step, Lease.borrow, Lease.of] at h
    split at h
    · cases h; exact ⟨rfl, fun _ he => by cases he⟩
    · cases h
  | refused id e =>
    simp only [step] at h
    split at h
    · cases h; exact ⟨rfl, fun _ he => by cases he⟩
    · cases h
  | entered id =>
    simp only [step] at h
    split at h
    · next hfree => cases h; exact ⟨rfl, fun _ _ => hfree⟩
    · cases h
  | answered id o =>
    simp only [step] at h
    split at h
    · cases h; exact ⟨unlock_holder _ id, fun _ he => by cases he⟩
    · cases h
  | expired id =>
    simp only [step] at h
    cases hcall : s.calls[id]? with
    | none => rw [hcall] at h; cases h
    | some call =>
      obtain ⟨r, stage⟩ := call
      rw [hcall] at h
      refine ⟨?_, fun _ he => by cases he⟩
      cases hl : r.limit with
      | none => simp only [hl] at h; cases h
      | some limit =>
        cases stage with
        | done o => simp only [hl] at h; cases h
        | aborted fault => simp only [hl] at h; cases h
        | querying c' lease => simp only [hl] at h; cases h; exact unlock_holder _ id
        | acquiring => simp only [hl] at h; cases h; exact (hwaits hcall rfl).symm
        | queued => simp only [hl] at h; cases h; exact (hwaits hcall rfl).symm

/-- An event about one call leaves open whether another one has the connection. -/
theorem passOn_other {holder : Option CallId} {id : CallId} (hid : id ≠ e.call s)
    (hfree : ∀ id, e = .entered id → holder = none) :
    e.passOn holder = some id ↔ holder = some id := by
  have hended : ∀ {i}, id ≠ i → ((if holder = some i then none else holder) = some id ↔
      holder = some id) := by
    intro i hi
    by_cases hh : holder = some i
    · simp [hh, Ne.symm hi]
    · rw [if_neg hh]
  cases e with
  | entered i =>
    have hi : i ≠ id := Ne.symm hid
    simp [Event.passOn, hfree i rfl, hi]
  | answered i o => exact hended hid
  | expired i => exact hended hid
  | submit | granted | refused => exact Iff.rfl

theorem runsOn_submit {r : Request} {stage : Stage} (hcalls : s'.calls = s.calls ++ [⟨r, stage⟩])
    (hstage : stage.runsOn c = false) (id : CallId) : s'.RunsOn c id ↔ s.RunsOn c id := by
  unfold State.RunsOn
  rw [hcalls]
  constructor
  · rintro ⟨call, hcall, hruns⟩
    rw [List.getElem?_append] at hcall
    split at hcall
    · exact ⟨call, hcall, hruns⟩
    · -- the new call does not run on the connection
      obtain rfl := List.mem_singleton.mp (List.mem_of_getElem? hcall)
      rw [hstage] at hruns
      cases hruns
  · rintro ⟨call, hcall, hruns⟩
    refine ⟨call, ?_, hruns⟩
    rw [List.getElem?_append_left (List.getElem?_eq_some_iff.mp hcall).1]
    exact hcall

theorem runsOn_set_same {i : CallId} {call : Call} (hi : i < s.calls.length)
    (hcalls : s'.calls = s.calls.set i call) : s'.RunsOn c i ↔ call.stage.runsOn c = true := by
  unfold State.RunsOn
  rw [hcalls, List.getElem?_set_self hi]
  simp

theorem runsOn_set_other {i id : CallId} {call : Call} (hid : id ≠ i)
    (hcalls : s'.calls = s.calls.set i call) : s'.RunsOn c id ↔ s.RunsOn c id := by
  unfold State.RunsOn
  rw [hcalls, List.getElem?_set_ne (Ne.symm hid)]

end Lock

section Moves

variable {d : Dispatcher} {c : ConnectionId} {id : CallId} {r : Request} {stage stage' : Stage}
  {past : List Moment} {e : Event} {effects : List Effect}

/-- A call has the connection exactly when its statement runs there. -/
theorem Turn.runsOn_iff (h : Turn d c id r stage past) (hd : d.source = .single c)
    (hm : Moves d id r stage e effects stage') (holder : Option CallId) :
    e.passOn holder = some id ↔ stage'.runsOn c = true := by
  cases hm with
  | granted | refused | expiredAcquiring => cases h
  | entered hs =>
    obtain rfl := Source.single.inj (hd.symm.trans hs)
    simp [Event.passOn, Stage.runsOn]
  | answered | expired | expiredQueued => simp [Event.passOn, Stage.runsOn]

end Moves

/-! ### The statements of the connection do not overlap -/

namespace History

/-- The calls to which a moment of this sort happens, in order. -/
def callsAt (p : Moment → Bool) (past : History) : List CallId :=
  (past.filter fun q => p q.2).map Prod.fst

theorem callsAt_append (p : Moment → Bool) (past more : History) :
    (past ++ more).callsAt p = past.callsAt p ++ more.callsAt p := by
  simp only [callsAt, List.filter_append, List.map_append]

theorem count_callsAt (p : Moment → Bool) (past : History) (id : CallId) :
    (past.callsAt p).count id = (past.of id).countP p := by
  induction past with
  | nil => rfl
  | cons q past ih =>
    obtain ⟨i, m⟩ := q
    rw [of_cons]
    unfold callsAt at ih ⊢
    by_cases hm : p m = true
    · by_cases hi : i = id
      · simp [hm, hi, ih]
      · simp [hm, hi, ih]
    · by_cases hi : i = id
      · simp [hm, hi, ih]
      · simp [hm, hi, ih]

theorem callsAt_same (p : Moment → Bool) (id : CallId) (l : List Moment) :
    callsAt p (l.map (id, ·)) = List.replicate (l.countP p) id := by
  induction l with
  | nil => rfl
  | cons m l ih =>
    unfold callsAt at ih ⊢
    by_cases hm : p m = true
    · simp [hm, ih, List.replicate_succ]
    · simp [hm, ih]

/-- Where a call adds as many moments of one sort as of another, the calls stay in the same order. -/
theorem callsAt_append_eq {p p' : Moment → Bool} {past : History} {id : CallId} {l : List Moment}
    (h : past.callsAt p = past.callsAt p') (hl : l.countP p = l.countP p') :
    (past ++ l.map (id, ·)).callsAt p = (past ++ l.map (id, ·)).callsAt p' := by
  rw [callsAt_append, callsAt_append, callsAt_same, callsAt_same, h, hl]

/-- Whose statement runs on the connection after a moment, if `running` says whose ran before;
nothing if one starts while another one runs. -/
def occupy (c : ConnectionId) (running : Option CallId) : CallId × Moment → Option (Option CallId)
  | (id, m) =>
    if m.isQueryOn c then if running = none then some (some id) else none
    else some (if m.isEnd ∧ running = some id then none else running)

/-- As long as a statement runs no other one starts, so its end stands between the two. -/
theorem exists_end_of_occupy {c : ConnectionId} {i j : CallId} {m : Moment}
    {between after : History} {last : Option CallId} (hm : m.isQueryOn c = true)
    (h : (between ++ (j, m) :: after).foldlM (occupy c) (some i) = some last) :
    ∃ m' ∈ between.of i, m'.isEnd = true := by
  induction between with
  | nil => simp [occupy, hm] at h
  | cons q between ih =>
    obtain ⟨k, m'⟩ := q
    rw [of_cons]
    by_cases hquery : m'.isQueryOn c = true
    · simp [occupy, hquery] at h
    by_cases hend : m'.isEnd = true ∧ i = k
    · rw [if_pos hend.2.symm]
      exact ⟨m', List.mem_cons_self, hend.1⟩
    · have hstays : occupy c (some i) (k, m') = some (some i) := by
        simp [occupy, hquery, hend]
      rw [List.cons_append, List.foldlM_cons, hstays] at h
      obtain ⟨m'', hmem, hm''⟩ := ih h
      refine ⟨m'', ?_, hm''⟩
      split
      · exact List.mem_cons_of_mem m' hmem
      · exact hmem

end History

section Moves

variable {d : Dispatcher} {c : ConnectionId} {id : CallId} {r : Request} {stage stage' : Stage}
  {past : List Moment} {e : Event} {effects : List Effect}

theorem Opens.not_runsOn (hown : r.own ≠ some c) (h : Opens d id r effects stage) :
    stage.runsOn c = false := by
  cases h with
  | @own c' h =>
    have hne : c' ≠ c := by
      rintro rfl
      exact hown h
    simp [Stage.runsOn, hne]
  | acquire | queue => rfl

/-- A new call starts nothing on the connection. -/
theorem Opens.occupy (hd : d.source = .single c) (hown : r.own ≠ some c)
    (h : Opens d id r effects stage) (holder : Option CallId) :
    ((moments (.submit r) effects).map (id, ·)).foldlM (History.occupy c) holder = some holder := by
  cases h with
  | @own c' h =>
    have hne : c' ≠ c := by
      rintro rfl
      exact hown h
    simp [moments, begin, History.occupy, Moment.isQueryOn, Moment.isEnd, hne]
  | acquire _ hs => rw [hd] at hs; cases hs
  | queue => simp [moments, History.occupy, Moment.isQueryOn, Moment.isEnd]

/-- The connection goes with the lock. -/
theorem Turn.occupy (h : Turn d c id r stage past) (hd : d.source = .single c)
    (hm : Moves d id r stage e effects stage') {holder : Option CallId}
    (hfree : ∀ id, e = .entered id → holder = none) :
    ((moments e effects).map (id, ·)).foldlM (History.occupy c) holder =
      some (e.passOn holder) := by
  cases hm with
  | granted | refused | expiredAcquiring => cases h
  | entered hs =>
    obtain rfl := Source.single.inj (hd.symm.trans hs)
    simp [moments, begin, History.occupy, Moment.isQueryOn, Moment.isEnd, Event.passOn,
      hfree id rfl]
  | answered c' lease o =>
    have hlease : lease = none := by cases h <;> rfl
    simp [moments, hlease, giveBack, History.occupy, Moment.isQueryOn, Moment.isEnd, Event.passOn]
  | expired c' lease hl =>
    have hlease : lease = none := by cases h <;> rfl
    simp [moments, hlease, giveBack, History.occupy, Moment.isQueryOn, Moment.isEnd, Event.passOn]
  | expiredQueued hl =>
    simp [moments, History.occupy, Moment.isQueryOn, Moment.isEnd, Event.passOn]

/-- A call starts a statement on the connection once if it gets the lock, and never otherwise. -/
theorem Turn.count_eq (h : Turn d c id r stage past) :
    past.countP (Moment.isQueryOn c) = past.countP Moment.isEntry ∧
      past.countP Moment.isEntry ≤ 1 := by
  cases h with
  | ownRunning own apart | ownAnswered own apart | ownCutOff own apart =>
    simp [startedOnOwn, started, Moment.isQueryOn, Moment.isEntry, apart]
  | _ => simp [inTurn, started, Moment.isQueryOn, Moment.isEntry, List.countP_cons]

theorem Turn.not_isOfPool (h : Turn d c id r stage past) {m : Moment} (hm : m ∈ past) :
    m.isOfPool = false := by
  have hall : past.all fun m => !m.isOfPool := by cases h <;> rfl
  simpa using List.all_eq_true.mp hall m hm

end Moves

/-! ### What a run keeps -/

structure TakesTurns (d : Dispatcher) (c : ConnectionId) (past : History) (s : State) : Prop where
  told : Told (Turn d c) past s
  /-- The holder of the lock is the call whose statement runs on the connection. -/
  holder_iff : ∀ id, s.holder = some id ↔ s.RunsOn c id
  occupied : past.foldlM (History.occupy c) none = some s.holder
  inOrder : past.callsAt (Moment.isQueryOn c) = past.callsAt Moment.isEntry

theorem takesTurns_initial (d : Dispatcher) (c : ConnectionId) : TakesTurns d c [] {} where
  told := ⟨fun _ _ h => by simp at h, fun _ _ => rfl⟩
  holder_iff := by simp [State.RunsOn]
  occupied := rfl
  inOrder := rfl

section Runs

variable {d : Dispatcher} {c : ConnectionId} {past : History} {s s' t : State} {e : Event}
  {es : List Event} {effects : List Effect}

theorem TakesTurns.step (hd : d.source = .single c) (h : TakesTurns d c past s)
    (hown : ∀ r, e = .submit r → r.own ≠ some c) (hs : step d s e = some (s', effects)) :
    TakesTurns d c (past ++ (moments e effects).map (e.call s, ·)) s' := by
  obtain ⟨hholder, hfree⟩ := step_holder (fun id => (h.holder_iff id).mp) hs
  have htold := h.told.step hs (fun {r _} hr ho => hr ▸ ho.turn hd (hown r hr))
    fun hp hm => hp.moves hd hm
  rcases step_cases hs with ⟨r, stage, rfl, hcalls, ho⟩ | ⟨r, stage, stage', hcall, hcalls, hm⟩
  · have hr : r.own ≠ some c := hown r rfl
    refine ⟨htold, fun id => ?holder_iff, ?occupied, ?inOrder⟩
    case holder_iff =>
      rw [hholder, runsOn_submit hcalls (ho.not_runsOn hr)]
      exact h.holder_iff id
    case occupied =>
      rw [List.foldlM_append, h.occupied, hholder]
      exact ho.occupy hd hr s.holder
    case inOrder =>
      exact History.callsAt_append_eq h.inOrder (ho.turn hd hr).count_eq.1
  · have hlt : e.call s < s.calls.length := (List.getElem?_eq_some_iff.mp hcall).1
    have hturn : Turn d c (e.call s) r stage (past.of (e.call s)) := h.told.call _ _ hcall
    refine ⟨htold, fun id => ?holder_iff, ?occupied, ?inOrder⟩
    case holder_iff =>
      by_cases hid : id = e.call s
      · rw [hholder, hid, runsOn_set_same hlt hcalls]
        exact hturn.runsOn_iff hd hm s.holder
      · rw [hholder, runsOn_set_other hid hcalls, passOn_other hid hfree]
        exact h.holder_iff id
    case occupied =>
      rw [List.foldlM_append, h.occupied, hholder]
      exact hturn.occupy hd hm hfree
    case inOrder =>
      have hbefore := hturn.count_eq.1
      have hafter := (hturn.moves hd hm).count_eq.1
      rw [List.countP_append, List.countP_append] at hafter
      exact History.callsAt_append_eq h.inOrder (by omega)

theorem TakesTurns.run (hd : d.source = .single c) (h : TakesTurns d c past s)
    (hown : ∀ r, .submit r ∈ es → r.own ≠ some c) (hr : run d s es = some (t, effects)) :
    TakesTurns d c (past ++ history d s es) t :=
  run_preserves (fun hmem h hs => TakesTurns.step hd h (fun r he => hown r (he ▸ hmem)) hs) h hr

/-- At most one statement runs on the connection. -/
theorem TakesTurns.unique (h : TakesTurns d c past s) {id id' : CallId} (hid : s.RunsOn c id)
    (hid' : s.RunsOn c id') : id = id' :=
  Option.some.inj (((h.holder_iff id).mpr hid).symm.trans ((h.holder_iff id').mpr hid'))

/-- A call that has ended does not have the connection. -/
theorem TakesTurns.holder_ne (h : TakesTurns d c past s) {id : CallId} {call : Call}
    (hcall : s.calls[id]? = some call) (hover : call.stage.isOver = true) : s.holder ≠ some id := by
  rw [Ne, h.holder_iff]
  rintro ⟨call', hcall', hruns⟩
  obtain rfl := Option.some.inj (hcall.symm.trans hcall')
  obtain ⟨r, stage⟩ := call
  cases stage with
  | querying => cases hover
  | _ => cases hruns

theorem TakesTurns.nodup (h : TakesTurns d c past s) : (past.callsAt Moment.isEntry).Nodup := by
  rw [List.nodup_iff_count_le_one]
  intro id
  rw [History.count_callsAt]
  cases hcall : s.calls[id]? with
  | none =>
    rw [h.told.fresh id (List.getElem?_eq_none_iff.mp hcall)]
    exact Nat.zero_le 1
  | some call => exact (h.told.call id call hcall).count_eq.2

/-- Between two statements on the connection the first one ends. -/
theorem TakesTurns.exists_end (h : TakesTurns d c past s) {before between after : History}
    {i j : CallId} {m m' : Moment}
    (hpast : past = before ++ (i, m) :: (between ++ (j, m') :: after))
    (hm : m.isQueryOn c = true) (hm' : m'.isQueryOn c = true) :
    ∃ m'' ∈ between.of i, m''.isEnd = true := by
  have hoccupied := h.occupied
  rw [hpast, List.foldlM_append] at hoccupied
  obtain ⟨running, -, hoccupied⟩ := Option.bind_eq_some_iff.mp hoccupied
  rw [List.foldlM_cons] at hoccupied
  obtain ⟨running', hstart, hoccupied⟩ := Option.bind_eq_some_iff.mp hoccupied
  have hi : running' = some i := by
    simp only [History.occupy, hm, if_true] at hstart
    split at hstart
    · exact (Option.some.inj hstart).symm
    · cases hstart
  rw [hi] at hoccupied
  exact History.exists_end_of_occupy hm' hoccupied

theorem TakesTurns.not_isOfPool (h : TakesTurns d c past s) {id : CallId} {m : Moment}
    (hm : (id, m) ∈ past) : m.isOfPool = false := by
  have hpart : m ∈ past.of id := List.mem_filterMap.mpr ⟨(id, m), hm, if_pos rfl⟩
  cases hcall : s.calls[id]? with
  | none =>
    rw [h.told.fresh id (List.getElem?_eq_none_iff.mp hcall)] at hpart
    cases hpart
  | some call => exact (h.told.call id call hcall).not_isOfPool hpart

end Runs

/-- **Calls take turns**, however they interleave, on a connection that no caller has. The record
of the run has all its events and effects, and what it has about each call is one of the eight
pasts of the call's stage: a call that gives up waiting starts nothing, and one that gets the lock
starts its statement at once and no second one. The holder of the lock is the call whose statement
runs on the connection, so there is one at most, and a call that has ended is not the holder. The
connection sees one statement for each call that gets the lock, in that order, and none starts
before the last one has ended. No call asks a pool for a connection or gives one back. -/
theorem calls_take_turns {d : Dispatcher} {c : ConnectionId} (hd : d.source = .single c)
    {events : List Event} {s : State} {effects : List Effect}
    (hown : ∀ r, .submit r ∈ events → r.own ≠ some c)
    (hrun : run d {} events = some (s, effects)) :
    (history d {} events).filterMap (·.2.event?) = events ∧
    (history d {} events).filterMap (·.2.effect?) = effects ∧
    (∀ id call, s.calls[id]? = some call →
      Turn d c id call.request call.stage ((history d {} events).of id)) ∧
    (∀ id, s.holder = some id ↔ s.RunsOn c id) ∧
    (∀ id id', s.RunsOn c id → s.RunsOn c id' → id = id') ∧
    (∀ id call, s.calls[id]? = some call → call.stage.isOver = true → s.holder ≠ some id) ∧
    (history d {} events).callsAt (Moment.isQueryOn c) =
      (history d {} events).callsAt Moment.isEntry ∧
    ((history d {} events).callsAt Moment.isEntry).Nodup ∧
    (∀ before i m (between : History) j m' after,
      history d {} events = before ++ (i, m) :: (between ++ (j, m') :: after) →
      m.isQueryOn c = true → m'.isQueryOn c = true →
        ∃ m'' ∈ between.of i, m''.isEnd = true) ∧
    ∀ id c', .acquire id ∉ effects ∧ .release id c' ∉ effects := by
  obtain ⟨hevents, heffects⟩ := history_complete hrun
  have hturns : TakesTurns d c (history d {} events) s := (takesTurns_initial d c).run hd hown hrun
  refine ⟨hevents, heffects, hturns.told.call, hturns.holder_iff, fun _ _ => hturns.unique,
    fun _ _ => hturns.holder_ne, hturns.inOrder, hturns.nodup,
    fun _ _ _ _ _ _ _ => hturns.exists_end, ?noPool⟩
  case noPool =>
    have hnone : ∀ x ∈ effects, (Moment.asks x).isOfPool = false := by
      intro x hx
      rw [← heffects] at hx
      obtain ⟨⟨id, m⟩, hmem, hm⟩ := List.mem_filterMap.mp hx
      cases m with
      | takes e => cases hm
      | asks y =>
        obtain rfl := Option.some.inj hm
        exact hturns.not_isOfPool hmem
    intro id c'
    exact ⟨fun h => (nomatch hnone _ h), fun h => (nomatch hnone _ h)⟩

/-- Three calls wait. The second one goes first and is cut off, the third one gives up waiting, and
the first one is answered. -/
theorem waiting_calls_take_turns :
    let d : Dispatcher := ⟨.single 7, false⟩
    let limit : Option Duration := some (.ofMilliseconds 20)
    let events : List Event :=
      [.submit ⟨"select 1", [], none, none⟩, .submit ⟨"select 2", [], none, limit⟩,
        .submit ⟨"select 3", [], none, limit⟩, .entered 1, .expired 2, .expired 1, .entered 0,
        .answered 0 (.ok ⟨[], [], 0⟩)]
    (∃ s effects, run d {} events = some (s, effects) ∧ s.holder = none) ∧
      (∀ r, .submit r ∈ events → r.own ≠ some 7) ∧
      (history d {} events).callsAt (Moment.isQueryOn 7) = [1, 0] := by
  intro d limit events
  obtain ⟨s, hs⟩ : ∃ s, run d {} events = some s := ⟨_, rfl⟩
  have hown : ∀ r, .submit r ∈ events → r.own ≠ some 7 := by
    intro r hr
    simp only [events, List.mem_cons, Event.submit.injEq, reduceCtorEq, List.not_mem_nil, or_false]
      at hr
    rcases hr with rfl | rfl | rfl <;> exact nofun
  have hinOrder := (calls_take_turns rfl hown hs).2.2.2.2.2.2.1
  have hfree : s.1.holder = none := by
    cases hs
    rfl
  exact ⟨⟨s.1, s.2, hs, hfree⟩, hown, hinOrder.trans rfl⟩

end Schemata.Dispatch
