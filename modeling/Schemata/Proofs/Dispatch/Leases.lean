import Mathlib.Data.List.Perm.Basic
import Schemata.Proofs.Dispatch.Sessions

/-!
# Leases balance

Over a pool, what has happened to a call is one of nine lists, and the stage of the call
says which ones it can be. A list has one acquire and one query at most, and its release, if
there is one, stands at its end, after the answer to the query or after the limit. The
invariant is local: a step writes to the list of its own call and to no other, however the
calls interleave. That the pool gets back what it lends, connection by connection, is then
counted call by call.
-/
namespace Schemata.Dispatch

/-! ### What happens to one call -/

section Call

variable (d : Dispatcher) (id : CallId) (r : Request)

/-- The call asks the pool. -/
def asked : List Moment := [.takes (.submit r), .asks (.acquire id)]

/-- The pool lends a connection, and the statement starts on it. -/
def leased (c : ConnectionId) : List Moment :=
  asked id r ++ .takes (.granted id c) :: started d id r c

/-- What can have happened to a call over a pool when it is at a stage. -/
inductive Past : Stage → List Moment → Prop
  | acquiring (own : r.own = none) : Past .acquiring (asked id r)
  | refused (own : r.own = none) (e : ClientError) :
      Past (.done (.error e)) (asked id r ++ [.takes (.refused id e)])
  | gaveUp (own : r.own = none) {limit : Duration} (h : r.limit = some limit) :
      Past (.done (.error (.timeout limit))) (asked id r ++ [.takes (.expired id)])
  | leasing (own : r.own = none) (c : ConnectionId) :
      Past (.querying c (some (.of c))) (leased d id r c)
  | returned (own : r.own = none) (c : ConnectionId) (o : Outcome) :
      Past (.done o) (leased d id r c ++ [.takes (.answered id o), .asks (.release id c)])
  | recalled (own : r.own = none) (c : ConnectionId) {limit : Duration}
      (h : r.limit = some limit) : Past (.done (.error (.timeout limit)))
        (leased d id r c ++ [.takes (.expired id), .asks (.release id c)])
  | ownQuerying {c : ConnectionId} (own : r.own = some c) :
      Past (.querying c none) (startedOnOwn d id r c)
  | ownAnswered {c : ConnectionId} (own : r.own = some c) (o : Outcome) :
      Past (.done o) (startedOnOwn d id r c ++ [.takes (.answered id o)])
  | ownExpired {c : ConnectionId} (own : r.own = some c) {limit : Duration}
      (h : r.limit = some limit) :
      Past (.done (.error (.timeout limit))) (startedOnOwn d id r c ++ [.takes (.expired id)])

variable {d id r}

theorem Opens.past (hd : d.source = .pool) {effects : List Effect} {stage : Stage}
    (h : Opens d id r effects stage) : Past d id r stage (moments (.submit r) effects) := by
  cases h with
  | own h => exact .ownQuerying h
  | acquire h => exact .acquiring h
  | queue h hs => rw [hd] at hs; cases hs

/-- A move takes a past to a past of the next stage. -/
theorem Past.moves {stage stage' : Stage} {past : List Moment} {e : Event} {effects : List Effect}
    (h : Past d id r stage past) (hm : Moves d id r stage e effects stage') :
    Past d id r stage' (past ++ moments e effects) := by
  cases hm with
  | granted c => cases h with | acquiring own => exact .leasing own c
  | refused e => cases h with | acquiring own => exact .refused own e
  | expiredAcquiring hl => cases h with | acquiring own => exact .gaveUp own hl
  | entered => cases h
  | expiredQueued => cases h
  | answered c lease o =>
    cases h with
    | leasing own => exact .returned own c o
    | ownQuerying own => exact .ownAnswered own o
  | expired c lease hl =>
    cases h with
    | leasing own => exact .recalled own c hl
    | ownQuerying own => exact .ownExpired own hl

end Call

/-! ### What happens to all calls -/

/-- Every call has the past of its stage, and there is nothing about calls to come. -/
abbrev Accounted (d : Dispatcher) (past : History) (s : State) : Prop := Told (Past d) past s

theorem accounted_initial (d : Dispatcher) : Accounted d [] {} where
  call := by intro id call h; simp at h
  fresh := by intro id _; rfl

theorem Accounted.step {d : Dispatcher} (hd : d.source = .pool) {past : History} {s s' : State}
    {e : Event} {effects : List Effect} (h : Accounted d past s)
    (hs : step d s e = some (s', effects)) :
    Accounted d (past ++ (moments e effects).map (e.call s, ·)) s' :=
  Told.step h hs (fun hr hopens => hr ▸ hopens.past hd) fun hpast hmoves => hpast.moves hmoves

theorem Accounted.run {d : Dispatcher} (hd : d.source = .pool) {past : History} {s t : State}
    {es : List Event} {effects : List Effect} (h : Accounted d past s)
    (hr : run d s es = some (t, effects)) : Accounted d (past ++ history d s es) t :=
  run_preserves (fun _ h hs => Accounted.step hd h hs) h hr

/-! ### What the pool has lent -/

namespace Moment

/-- The connection that the pool hands out at this moment. -/
def granted? : Moment → Option ConnectionId
  | takes (.granted _ c) => some c
  | _ => none

/-- The connection that the pool gets back at this moment. -/
def released? : Moment → Option ConnectionId
  | asks (.release _ c) => some c
  | _ => none

def isAcquire : Moment → Bool
  | asks (.acquire _) => true
  | _ => false

def isQuery : Moment → Bool
  | asks (.query ..) => true
  | _ => false

end Moment

/-- The pool's connection that a call has at this stage. -/
def Stage.held : Stage → Option ConnectionId
  | .querying _ (some lease) => lease.connection
  | _ => none

/-- The connections that the calls have from the pool. -/
def State.held (s : State) : List (CallId × ConnectionId) :=
  (List.range s.calls.length).filterMap fun id =>
    (s.calls[id]?.bind (·.stage.held)).map (id, ·)

namespace History

def collect (f : Moment → Option ConnectionId) (past : History) : List (CallId × ConnectionId) :=
  past.filterMap fun (id, m) => (f m).map (id, ·)

/-- The connections that the pool has handed out, each with the call that got it. -/
def granted (past : History) : List (CallId × ConnectionId) := past.collect Moment.granted?

/-- The connections that have been given back to the pool, each with the call that had it. -/
def released (past : History) : List (CallId × ConnectionId) := past.collect Moment.released?

/-- What is collected for a call is in the call's own part. -/
theorem count_collect (f : Moment → Option ConnectionId) (past : History) (id : CallId)
    (c : ConnectionId) :
    (past.collect f).count (id, c) = ((past.of id).filterMap f).count c := by
  induction past with
  | nil => rfl
  | cons p past ih =>
    obtain ⟨i, m⟩ := p
    rw [of_cons]
    simp only [collect] at ih ⊢
    cases hf : f m with
    | none =>
      by_cases hi : i = id
      · simp [hf, hi, ih]
      · simp [hf, hi, ih]
    | some c' =>
      by_cases hi : i = id
      · simp [hf, hi, ih, List.count_cons]
      · simp [hf, hi, ih]

end History

/-- Tagging what a duplicate-free list of calls has, each has it once. -/
theorem count_filterMap_tagged {ids : List CallId} (hn : ids.Nodup) (g : CallId → Option ConnectionId)
    (id : CallId) (c : ConnectionId) :
    (ids.filterMap fun i => (g i).map (i, ·)).count (id, c) =
      if id ∈ ids then (g id).toList.count c else 0 := by
  induction ids with
  | nil => rfl
  | cons i ids ih =>
    obtain ⟨hi, hn⟩ := List.nodup_cons.mp hn
    by_cases heq : i = id
    · subst heq
      cases hg : g i with
      | none => simp [hg, ih hn, hi]
      | some c' => simp [hg, ih hn, hi, List.count_cons]
    · have hne : id ≠ i := Ne.symm heq
      cases hg : g i with
      | none => simp [hg, ih hn, hne]
      | some c' => simp [hg, ih hn, heq, hne]

theorem State.count_held (s : State) (id : CallId) (c : ConnectionId) :
    s.held.count (id, c) = (s.calls[id]?.bind (·.stage.held)).toList.count c := by
  rw [State.held, count_filterMap_tagged List.nodup_range]
  by_cases h : id < s.calls.length
  · rw [if_pos (List.mem_range.mpr h)]
  · rw [if_neg (mt List.mem_range.mp h), List.getElem?_eq_none (Nat.le_of_not_lt h)]
    rfl

section Call

variable {d : Dispatcher} {id : CallId} {r : Request} {stage : Stage} {past : List Moment}

/-- What a call got from the pool it has given back or still has. -/
theorem Past.balance (h : Past d id r stage past) :
    past.filterMap Moment.granted? = past.filterMap Moment.released? ++ stage.held.toList := by
  cases h <;> rfl

/-- A release is the last that happens to a call: its connection has been lent to the call and
has run the statement, and the statement has been answered or cut off. -/
theorem Past.of_release (h : Past d id r stage past) {c : ConnectionId}
    (hc : .asks (.release id c) ∈ past) :
    ∃ e, past = leased d id r c ++ [.takes e, .asks (.release id c)] ∧
      (e = .expired id ∨ ∃ o, e = .answered id o) := by
  cases h with
  | returned own c' o =>
    have heq : c' = c := by simpa [asked, leased, started, eq_comm] using hc
    subst heq
    exact ⟨_, rfl, .inr ⟨o, rfl⟩⟩
  | recalled own c' hl =>
    have heq : c' = c := by simpa [asked, leased, started, eq_comm] using hc
    subst heq
    exact ⟨_, rfl, .inl rfl⟩
  | _ => simp [asked, leased, startedOnOwn, started] at hc

/-- A call asks for one connection and one statement at most. -/
theorem Past.thrifty (h : Past d id r stage past) :
    past.countP Moment.isAcquire ≤ 1 ∧ past.countP Moment.isQuery ≤ 1 := by
  cases h <;>
    simp [asked, leased, startedOnOwn, started, List.countP_cons, Moment.isAcquire, Moment.isQuery]

/-- A call has a connection from the pool from when it gets it to its end. -/
theorem Past.held_iff (h : Past d id r stage past) (c : ConnectionId) :
    stage.held = some c ↔ .takes (.granted id c) ∈ past ∧ stage.isOver = false := by
  cases h <;>
    simp [asked, leased, startedOnOwn, started, Stage.held, Stage.isOver, Lease.of, eq_comm]

/-- No lease loses its connection while the call needs it. -/
theorem Past.ne_aborted (h : Past d id r stage past) (fault : String) : stage ≠ .aborted fault := by
  cases h <;> exact Stage.noConfusion

end Call

/-- Whether a call has been submitted and has not ended. -/
def State.inFlight (s : State) (id : CallId) : Bool :=
  s.calls[id]?.any fun call => !call.stage.isOver

section Accounted

variable {d : Dispatcher} {past : History} {s : State}

theorem Accounted.held_iff (h : Accounted d past s) (id : CallId) (c : ConnectionId) :
    (id, c) ∈ s.held ↔ .takes (.granted id c) ∈ past.of id ∧ s.inFlight id := by
  have hcount : (id, c) ∈ s.held ↔ s.calls[id]?.bind (·.stage.held) = some c := by
    rw [← List.count_pos_iff, s.count_held, List.count_pos_iff, Option.mem_toList]
  rw [hcount]
  cases hcall : s.calls[id]? with
  | none => simp [State.inFlight, hcall]
  | some call =>
    rw [Option.bind_some, (h.call id call hcall).held_iff c]
    simp [State.inFlight, hcall]

theorem Accounted.granted_perm (h : Accounted d past s) :
    past.granted.Perm (past.released ++ s.held) := by
  rw [List.perm_iff_count]
  rintro ⟨id, c⟩
  rw [List.count_append, History.granted, History.released, History.count_collect,
    History.count_collect, s.count_held]
  cases hcall : s.calls[id]? with
  | none =>
    have hid : s.calls.length ≤ id := List.getElem?_eq_none_iff.mp hcall
    rw [h.fresh id hid]
    rfl
  | some call =>
    rw [(h.call id call hcall).balance, List.count_append]
    rfl

theorem Accounted.thrifty (h : Accounted d past s) (id : CallId) :
    (past.of id).countP Moment.isAcquire ≤ 1 ∧ (past.of id).countP Moment.isQuery ≤ 1 := by
  cases hcall : s.calls[id]? with
  | none =>
    rw [h.fresh id (List.getElem?_eq_none_iff.mp hcall)]
    exact ⟨Nat.zero_le 1, Nat.zero_le 1⟩
  | some call => exact (h.call id call hcall).thrifty

/-- A dispatcher without calls in flight has nothing from the pool. -/
theorem Accounted.held_eq_nil (h : Accounted d past s) (hidle : ∀ id, s.inFlight id = false) :
    s.held = [] := by
  rw [List.eq_nil_iff_forall_not_mem]
  rintro ⟨id, c⟩ hmem
  have hflight := ((h.held_iff id c).mp hmem).2
  rw [hidle id] at hflight
  cases hflight

end Accounted

/-- Over every backend and at every moment of a session, the pool has got back what it has
handed out, except for what calls in flight have. -/
theorem Session.granted_perm {σ : Type} (b : Backend σ) {d : Dispatcher} (hd : d.source = .pool)
    (w : World σ) (requests : List Request) (n : Nat) :
    ∃ events effects,
      run d {} events = some ((proceed b d n (submit b d w requests)).state, effects) ∧
      (history d {} events).granted.Perm
        ((history d {} events).released ++ (proceed b d n (submit b d w requests)).state.held) := by
  obtain ⟨events, effects, hrun⟩ := Session.reached b d w requests n
  exact ⟨events, effects, hrun, ((accounted_initial d).run hd hrun).granted_perm⟩

/-- **Leases balance**, over a pool that answers as it likes and for calls that interleave as
they like. The record of the run has all its events and effects, and what it has about each
call is one of the nine pasts of the call's stage: one acquire and one query at most, and a
release only at the end of a call that got the connection and has run its statement. The pool
has got back what it has handed out, except for what calls still have that got it and have not
ended; and no lease loses its connection. -/
theorem leases_balance {d : Dispatcher} (hd : d.source = .pool) {events : List Event} {s : State}
    {effects : List Effect} (hrun : run d {} events = some (s, effects)) :
    (history d {} events).filterMap (·.2.event?) = events ∧
    (history d {} events).filterMap (·.2.effect?) = effects ∧
    Accounted d (history d {} events) s ∧
    (∀ id, ((history d {} events).of id).countP Moment.isAcquire ≤ 1 ∧
      ((history d {} events).of id).countP Moment.isQuery ≤ 1) ∧
    (∀ (id : CallId) (call : Call) (c : ConnectionId), s.calls[id]? = some call →
      .asks (.release id c) ∈ (history d {} events).of id →
        ∃ e, (history d {} events).of id =
            leased d id call.request c ++ [.takes e, .asks (.release id c)] ∧
          (e = .expired id ∨ ∃ o, e = .answered id o)) ∧
    (history d {} events).granted.Perm ((history d {} events).released ++ s.held) ∧
    (∀ id c, (id, c) ∈ s.held ↔
      .takes (.granted id c) ∈ (history d {} events).of id ∧ s.inFlight id) ∧
    ((∀ id, s.inFlight id = false) →
      (history d {} events).granted.Perm (history d {} events).released) ∧
    ∀ (id : CallId) (call : Call) (fault : String),
      s.calls[id]? = some call → call.stage ≠ .aborted fault := by
  obtain ⟨hevents, heffects⟩ := history_complete hrun
  have haccounted : Accounted d (history d {} events) s := (accounted_initial d).run hd hrun
  refine ⟨hevents, heffects, haccounted, haccounted.thrifty, ?last, haccounted.granted_perm,
    haccounted.held_iff, ?idle, ?sound⟩
  case last =>
    intro id call c hcall hc
    exact (haccounted.call id call hcall).of_release hc
  case idle =>
    intro hidle
    have hperm := haccounted.granted_perm
    rwa [haccounted.held_eq_nil hidle, List.append_nil] at hperm
  case sound =>
    intro id call fault hcall
    exact (haccounted.call id call hcall).ne_aborted fault

/-- One call is answered while another one is cut off on its connection, and a third one
gets none: all that was handed out is back. -/
theorem cut_off_call_gives_back :
    let d : Dispatcher := ⟨.pool, false⟩
    let events : List Event :=
      [.submit ⟨"select 1", [], none, none⟩, .submit ⟨"select 2", [], none, some (.ofMilliseconds 20)⟩,
        .granted 1 7, .submit ⟨"select 3", [], none, none⟩, .granted 0 8, .expired 1,
        .refused 2 (.poolExhausted "closed"), .answered 0 (.ok ⟨[], [], 0⟩)]
    (∃ s effects, run d {} events = some (s, effects)) ∧
      (history d {} events).granted = [(1, 7), (0, 8)] ∧
      (history d {} events).granted.Perm (history d {} events).released := by
  intro d events
  obtain ⟨s, hs⟩ : ∃ s, run d {} events = some s := ⟨_, rfl⟩
  have hidle : ∀ id, s.1.inFlight id = false := by
    cases hs
    intro id
    match id with
    | 0 | 1 | 2 => rfl
    | _ + 3 => rfl
  exact ⟨⟨s.1, s.2, hs⟩, rfl, (leases_balance rfl hs).2.2.2.2.2.2.2.1 hidle⟩

end Schemata.Dispatch
