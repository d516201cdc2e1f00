import Schemata.Dispatch.Session

/-!
# The record of a run

A run is told call by call: each event that a call takes, followed by what the dispatcher
asks for on its behalf, in the order in which it happens. What one step can do to a call is
said once, as a relation on the call's stage; later proofs go by its cases and never open
the step function.
-/
namespace Schemata.Dispatch

/-- What is written down about a call. -/
inductive Moment where
  | takes (event : Event)
  | asks (effect : Effect)

namespace Moment

def event? : Moment → Option Event
  | takes e => some e
  | asks _ => none

def effect? : Moment → Option Effect
  | takes _ => none
  | asks x => some x

end Moment

/-- The call that an event is about. -/
def Event.call (s : State) : Event → CallId
  | submit _ => s.calls.length
  | granted id _ | refused id _ | entered id | answered id _ | expired id => id

def moments (e : Event) (effects : List Effect) : List Moment :=
  .takes e :: effects.map .asks

abbrev History := List (CallId × Moment)

/-- What happens to the calls while the dispatcher takes the events. -/
def history (d : Dispatcher) (s : State) : List Event → History
  | [] => []
  | e :: es =>
    match step d s e with
    | none => []
    | some (s', effects) => (moments e effects).map (e.call s, ·) ++ history d s' es

namespace History

/-- The part of a call. -/
def of (id : CallId) (past : History) : List Moment :=
  past.filterMap fun (i, m) => if i = id then some m else none

theorem of_append (id : CallId) (past more : History) :
    of id (past ++ more) = of id past ++ of id more :=
  List.filterMap_append

theorem of_cons (id i : CallId) (m : Moment) (past : History) :
    of id ((i, m) :: past) = if i = id then m :: of id past else of id past := by
  by_cases h : i = id
  · simp [of, h]
  · simp [of, h]

theorem of_same (id : CallId) (l : List Moment) : of id (l.map (id, ·)) = l := by
  induction l with
  | nil => rfl
  | cons m l ih => rw [List.map_cons, of_cons, if_pos rfl, ih]

theorem of_other {id i : CallId} (h : i ≠ id) (l : List Moment) : of id (l.map (i, ·)) = [] := by
  induction l with
  | nil => rfl
  | cons m l ih => rw [List.map_cons, of_cons, if_neg h, ih]

theorem filterMap_tagged {β : Type} (f : Moment → Option β) (id : CallId) (l : List Moment) :
    (l.map (id, ·)).filterMap (fun p => f p.2) = l.filterMap f := by
  rw [List.filterMap_map]
  rfl

end History

@[simp]
theorem moments_event? (e : Event) (effects : List Effect) :
    (moments e effects).filterMap Moment.event? = [e] := by
  have none_asked : (effects.map Moment.asks).filterMap Moment.event? = [] := by
    rw [List.filterMap_eq_nil_iff]
    simp [Moment.event?]
  show e :: (effects.map Moment.asks).filterMap Moment.event? = [e]
  rw [none_asked]

@[simp]
theorem moments_effect? (e : Event) (effects : List Effect) :
    (moments e effects).filterMap Moment.effect? = effects := by
  have kept : Moment.effect? ∘ Moment.asks = some := rfl
  rw [moments, List.filterMap_cons_none rfl, List.filterMap_map, kept, List.filterMap_some]

/-- A run that is possible takes its first event and goes on from there. -/
theorem run_cons_eq_some {d : Dispatcher} {s t : State} {e : Event} {es : List Event}
    {effects : List Effect} (h : run d s (e :: es) = some (t, effects)) :
    ∃ s' now later, step d s e = some (s', now) ∧ run d s' es = some (t, later) ∧
      effects = now ++ later := by
  rw [run] at h
  cases hs : step d s e with
  | none => rw [hs] at h; cases h
  | some p =>
    obtain ⟨s', now⟩ := p
    simp only [hs] at h
    obtain ⟨⟨t', later⟩, hr, he⟩ := Option.map_eq_some_iff.mp h
    obtain ⟨rfl, rfl⟩ := Prod.mk.inj he
    exact ⟨s', now, later, rfl, hr, rfl⟩

theorem run_singleton {d : Dispatcher} {s s' : State} {e : Event} {effects : List Effect}
    (hs : step d s e = some (s', effects)) : run d s [e] = some (s', effects) := by
  rw [run, hs]
  simp only [run, Option.map_some, List.append_nil]

/-- A run that is possible goes on from where another one ends. -/
theorem run_append {d : Dispatcher} {s t u : State} {es more : List Event}
    {effects later : List Effect} (h : run d s es = some (t, effects))
    (h' : run d t more = some (u, later)) :
    run d s (es ++ more) = some (u, effects ++ later) := by
  induction es generalizing s effects with
  | nil => cases h; exact h'
  | cons e es ih =>
    obtain ⟨s', now, rest, hs, hr, rfl⟩ := run_cons_eq_some h
    rw [List.cons_append, run, hs]
    simp only [ih hr, Option.map_some, List.append_assoc]

/-- The record of a run has all its events and all that was asked for, in order. -/
theorem history_complete {d : Dispatcher} {s t : State} {es : List Event}
    {effects : List Effect} (h : run d s es = some (t, effects)) :
    (history d s es).filterMap (·.2.event?) = es ∧
      (history d s es).filterMap (·.2.effect?) = effects := by
  induction es generalizing s effects with
  | nil => cases h; exact ⟨rfl, rfl⟩
  | cons e es ih =>
    obtain ⟨s', now, later, hs, hr, rfl⟩ := run_cons_eq_some h
    obtain ⟨hevents, heffects⟩ := ih hr
    simp only [history, hs, List.filterMap_append, History.filterMap_tagged, moments_event?,
      moments_effect?, hevents, heffects, List.singleton_append, and_self]

/-- What every step preserves of the record and the state, a run preserves. -/
theorem run_preserves {d : Dispatcher} {P : History → State → Prop} {es : List Event}
    (hstep : ∀ {past s s' e now}, e ∈ es → P past s → step d s e = some (s', now) →
      P (past ++ (moments e now).map (e.call s, ·)) s')
    {past : History} {s t : State} {effects : List Effect} (h : P past s)
    (hrun : run d s es = some (t, effects)) : P (past ++ history d s es) t := by
  induction es generalizing past s effects with
  | nil => cases hrun; simpa [history] using h
  | cons e es ih =>
    obtain ⟨s', now, later, hs, hrun', -⟩ := run_cons_eq_some hrun
    have hnow := hstep List.mem_cons_self h hs
    have hrest := ih (fun hmem => hstep (List.mem_cons_of_mem e hmem)) hnow hrun'
    rw [history, hs, ← List.append_assoc]
    exact hrest

/-! ### What a step does -/

/-- How a new call begins. -/
inductive Opens (d : Dispatcher) (id : CallId) (r : Request) : List Effect → Stage → Prop
  | own {c : ConnectionId} (h : r.own = some c) : Opens d id r (begin d id r c) (.querying c none)
  | acquire (h : r.own = none) (hd : d.source = .pool) : Opens d id r [.acquire id] .acquiring
  | queue {c : ConnectionId} (h : r.own = none) (hd : d.source = .single c) :
      Opens d id r [] .queued

/-- How a call goes from stage to stage. -/
inductive Moves (d : Dispatcher) (id : CallId) (r : Request) :
    Stage → Event → List Effect → Stage → Prop
  | granted (c : ConnectionId) :
      Moves d id r .acquiring (.granted id c) (begin d id r c) (.querying c (some (.of c)))
  | refused (e : ClientError) :
      Moves d id r .acquiring (.refused id e) [] (.done (.error e))
  | entered {c : ConnectionId} (hd : d.source = .single c) :
      Moves d id r .queued (.entered id) (begin d id r c) (.querying c none)
  | answered (c : ConnectionId) (lease : Option Lease) (o : Outcome) :
      Moves d id r (.querying c lease) (.answered id o) (giveBack id lease) (.done o)
  | expired (c : ConnectionId) (lease : Option Lease) {limit : Duration}
      (h : r.limit = some limit) :
      Moves d id r (.querying c lease) (.expired id) (giveBack id lease)
        (.done (.error (.timeout limit)))
  | expiredAcquiring {limit : Duration} (h : r.limit = some limit) :
      Moves d id r .acquiring (.expired id) [] (.done (.error (.timeout limit)))
  | expiredQueued {limit : Duration} (h : r.limit = some limit) :
      Moves d id r .queued (.expired id) [] (.done (.error (.timeout limit)))

@[simp]
theorem unlock_calls (s : State) (id : CallId) : (s.unlock id).calls = s.calls := by
  unfold State.unlock
  split <;> rfl

@[simp]
theorem moveTo_calls (s : State) (id : CallId) (call : Call) (stage : Stage) :
    (s.moveTo id call stage).calls = s.calls.set id ⟨call.request, stage⟩ := rfl

/-- A step adds a call at the end, or takes the call of its event to another stage. -/
theorem step_cases {d : Dispatcher} {s s' : State} {e : Event} {effects : List Effect}
    (h : step d s e = some (s', effects)) :
    (∃ r stage, e = .submit r ∧ s'.calls = s.calls ++ [⟨r, stage⟩] ∧
      Opens d s.calls.length r effects stage) ∨
    (∃ r stage stage', s.calls[e.call s]? = some ⟨r, stage⟩ ∧
      s'.calls = s.calls.set (e.call s) ⟨r, stage'⟩ ∧
      Moves d (e.call s) r stage e effects stage') := by
  cases e with
  | submit r =>
    left
    simp only [step] at h
    split at h
    · next hown => cases h; exact ⟨r, _, rfl, rfl, .own hown⟩
    · next hown hd => cases h; exact ⟨r, _, rfl, rfl, .acquire hown hd⟩
    · next hown hd => cases h; exact ⟨r, _, rfl, rfl, .queue hown hd⟩
  | granted id c =>
    right
    simp only [step, Lease.borrow, Lease.of] at h
    split at h
    · next r hcall => cases h; exact ⟨r, _, _, hcall, rfl, .granted c⟩
    · cases h
  | refused id e =>
    right
    simp only [step] at h
    split at h
    · next r hcall => cases h; exact ⟨r, _, _, hcall, rfl, .refused e⟩
    · cases h
  | entered id =>
    right
    simp only [step] at h
    split at h
    · next r c hcall hd hfree => cases h; exact ⟨r, _, _, hcall, rfl, .entered hd⟩
    · cases h
  | answered id o =>
    right
    simp only [step] at h
    split at h
    · next r c lease hcall =>
      cases h
      exact ⟨r, _, _, hcall, by simp [Event.call], .answered c lease o⟩
    · cases h
  | expired id =>
    right
    simp only [step] at h
    cases hcall : s.calls[id]? with
    | none => rw [hcall] at h; cases h
    | some call =>
      obtain ⟨r, stage⟩ := call
      rw [hcall] at h
      cases hl : r.limit with
      | none => simp only [hl] at h; cases h
      | some limit =>
        cases stage with
        | done o => simp only [hl] at h; cases h
        | aborted fault => simp only [hl] at h; cases h
        | querying c lease =>
          simp only [hl] at h
          cases h
          exact ⟨r, _, _, hcall, by simp [Event.call], .expired c lease hl⟩
        | acquiring =>
          simp only [hl] at h
          cases h
          exact ⟨r, _, _, hcall, rfl, .expiredAcquiring hl⟩
        | queued =>
          simp only [hl] at h
          cases h
          exact ⟨r, _, _, hcall, rfl, .expiredQueued hl⟩

/-! ### What is told of every call -/

section Call

variable (d : Dispatcher) (id : CallId) (r : Request)

/-- The statement is logged and goes to the connection. -/
def started (c : ConnectionId) : List Moment :=
  [.asks (.log (d.record c r.sql)), .asks (.query id c r.sql r.params)]

/-- The statement starts on the caller's own connection. -/
def startedOnOwn (c : ConnectionId) : List Moment := .takes (.submit r) :: started d id r c

end Call

/-- What the record has about each call is as `P` says for the request and the stage of the call,
and there is nothing about calls to come. -/
structure Told (P : CallId → Request → Stage → List Moment → Prop) (past : History) (s : State) :
    Prop where
  call : ∀ id call, s.calls[id]? = some call → P id call.request call.stage (past.of id)
  fresh : ∀ id, s.calls.length ≤ id → past.of id = []

/-- A step writes to the part of its own call and to no other. -/
theorem Told.step {P : CallId → Request → Stage → List Moment → Prop} {d : Dispatcher}
    {past : History} {s s' : State} {e : Event} {effects : List Effect} (h : Told P past s)
    (hs : step d s e = some (s', effects))
    (hopens : ∀ {r stage}, e = .submit r → Opens d s.calls.length r effects stage →
      P s.calls.length r stage (moments e effects))
    (hmoves : ∀ {r stage stage' l}, P (e.call s) r stage l →
      Moves d (e.call s) r stage e effects stage' → P (e.call s) r stage' (l ++ moments e effects)) :
    Told P (past ++ (moments e effects).map (e.call s, ·)) s' := by
  rcases step_cases hs with ⟨r, stage, rfl, hcalls, ho⟩ | ⟨r, stage, stage', hcall, hcalls, hm⟩
  · have hlength : s'.calls.length = s.calls.length + 1 := by rw [hcalls]; simp
    constructor
    · intro id call hc
      rw [hcalls] at hc
      by_cases hid : id = s.calls.length
      · -- the new call
        subst hid
        rw [List.getElem?_concat_length] at hc
        cases hc
        rw [History.of_append, h.fresh _ (Nat.le_refl _), Event.call, History.of_same]
        exact hopens rfl ho
      · have hle : id ≤ s.calls.length := by
          have hlt := (List.getElem?_eq_some_iff.mp hc).1
          rw [List.length_append, List.length_singleton] at hlt
          exact Nat.le_of_lt_succ hlt
        have hlt : id < s.calls.length := Nat.lt_of_le_of_ne hle hid
        rw [List.getElem?_append_left hlt] at hc
        rw [History.of_append, Event.call, History.of_other (Ne.symm hid), List.append_nil]
        exact h.call id call hc
    · intro id hid
      rw [hlength] at hid
      rw [History.of_append, h.fresh id (Nat.le_of_succ_le hid), Event.call,
        History.of_other (Nat.ne_of_lt hid), List.append_nil]
  · have hlt : e.call s < s.calls.length := (List.getElem?_eq_some_iff.mp hcall).1
    have hpast : P (e.call s) r stage (past.of (e.call s)) := h.call _ _ hcall
    constructor
    · intro id call hc
      rw [hcalls] at hc
      by_cases hid : id = e.call s
      · -- the call of the event
        subst hid
        rw [List.getElem?_set_self hlt] at hc
        cases hc
        rw [History.of_append, History.of_same]
        exact hmoves hpast hm
      · rw [List.getElem?_set_ne (Ne.symm hid)] at hc
        rw [History.of_append, History.of_other (Ne.symm hid), List.append_nil]
        exact h.call id call hc
    · intro id hid
      rw [hcalls, List.length_set] at hid
      have hne : e.call s ≠ id := Nat.ne_of_lt (Nat.lt_of_lt_of_le hlt hid)
      rw [History.of_append, h.fresh id hid, History.of_other hne, List.append_nil]

end Schemata.Dispatch
