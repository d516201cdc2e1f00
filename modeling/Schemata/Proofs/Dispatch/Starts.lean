import Schemata.Proofs.Dispatch.Journal
import Schemata.Proofs.Dispatch.Sessions

/-!
# Which statements are started

A call obtains a connection in one of three ways: it brings one along, the pool grants one, or it
enters the single one. It starts its statement there and nowhere else, so a call that obtains no
connection starts nothing (`StartsOnce`). A session's journal has what its run has asked for, in the
same order (`Recounted`).
-/
namespace Schemata.Dispatch

/-! ### What one call starts -/

/-- The connection that a call obtains at this moment. -/
def Moment.obtained? (source : Source) : Moment → Option ConnectionId
  | .takes (.submit r) => r.own
  | .takes (.granted _ c) => some c
  | .takes (.entered _) =>
    match source with
    | .single c => some c
    | .pool => none
  | _ => none

/-- The statement that starts at this moment. -/
def Moment.started? : Moment → Option Contact
  | .asks (.query _ c sql params) => some (.started c sql params)
  | _ => none

/-- Whether a call at this stage is yet to obtain a connection. -/
def Stage.isUnserved : Stage → Bool
  | .acquiring | .queued => true
  | _ => false

/-- The record that is made at this moment. -/
def Moment.logged? : Moment → Option Log.Record
  | .asks (.log record) => some record
  | _ => none

/-- Of all connections a call obtains this one, if any; there it starts its statement, which makes
a record with the connection and the text, and nothing else. -/
structure StartsOnce (d : Dispatcher) (r : Request) (got : Option ConnectionId)
    (part : List Moment) : Prop where
  obtained : part.filterMap (Moment.obtained? d.source) = got.toList
  logged : part.filterMap Moment.logged? = got.toList.map fun c =>
    ⟨if d.logStatements then .info else .debug, .dispatching c r.sql⟩
  started : part.filterMap Moment.started? = got.toList.map (.started · r.sql r.params)

section Call

variable {d : Dispatcher} {id : CallId} {r : Request} {e : Event} {effects : List Effect}
  {stage stage' : Stage} {c : ConnectionId}

theorem StartsOnce.append {got got' : Option ConnectionId} {l l' : List Moment}
    (h : StartsOnce d r got l) (h' : StartsOnce d r got' l') (hnone : got' = none ∨ got = none) :
    ∃ got, StartsOnce d r got (l ++ l') := by
  rcases hnone with rfl | rfl
  · refine ⟨got, ?_, ?_, ?_⟩
    · rw [List.filterMap_append, h.obtained, h'.obtained]; exact List.append_nil _
    · rw [List.filterMap_append, h.logged, h'.logged]; exact List.append_nil _
    · rw [List.filterMap_append, h.started, h'.started]; exact List.append_nil _
  · refine ⟨got', ?_, ?_, ?_⟩
    · rw [List.filterMap_append, h.obtained, h'.obtained]; rfl
    · rw [List.filterMap_append, h.logged, h'.logged]; rfl
    · rw [List.filterMap_append, h.started, h'.started]; rfl

/-- With a connection the statement begins. -/
theorem startsOnce_begin (h : (Moment.takes e).obtained? d.source = some c) :
    StartsOnce d r (some c) (moments e (begin d id r c)) :=
  ⟨List.filterMap_cons_some h, rfl, rfl⟩

/-- Effects that neither make a record nor start a statement. -/
def AreQuiet (effects : List Effect) : Prop :=
  ∀ x ∈ effects, (Moment.asks x).logged? = none ∧ (Moment.asks x).started? = none

/-- Without one nothing begins. -/
theorem startsOnce_quiet (h : (Moment.takes e).obtained? d.source = none)
    (hquiet : AreQuiet effects) : StartsOnce d r none (moments e effects) := by
  have hnone : ∀ {β : Type} {f : Moment → Option β}, (∀ x ∈ effects, f (.asks x) = none) →
      (effects.map Moment.asks).filterMap f = [] := by
    intro β f hf
    rw [List.filterMap_eq_nil_iff, List.forall_mem_map]
    exact hf
  exact ⟨(List.filterMap_cons_none h).trans (hnone fun _ _ => rfl),
    hnone fun x hx => (hquiet x hx).1, hnone fun x hx => (hquiet x hx).2⟩

theorem areQuiet_nil : AreQuiet [] := fun _ hx => nomatch hx

theorem areQuiet_giveBack (lease : Option Lease) : AreQuiet (giveBack id lease) := by
  match lease with
  | none | some ⟨none⟩ => exact areQuiet_nil
  | some ⟨some c⟩ => exact fun x hx => List.mem_singleton.mp hx ▸ ⟨rfl, rfl⟩

theorem Opens.startsOnce (h : Opens d id r effects stage) :
    ∃ got, StartsOnce d r got (moments (.submit r) effects) ∧
      (stage.isUnserved → got = none) := by
  cases h with
  | own hown => exact ⟨_, startsOnce_begin hown, fun h => nomatch h⟩
  | acquire hown _ =>
    have hquiet : AreQuiet [.acquire id] := fun x hx => List.mem_singleton.mp hx ▸ ⟨rfl, rfl⟩
    exact ⟨none, startsOnce_quiet hown hquiet, fun _ => rfl⟩
  | queue hown _ =>
    exact ⟨none, startsOnce_quiet hown areQuiet_nil, fun _ => rfl⟩

theorem Moves.startsOnce (h : Moves d id r stage e effects stage') :
    ∃ got, StartsOnce d r got (moments e effects) ∧ (got = none ∨ stage.isUnserved) ∧
      stage'.isUnserved = false := by
  cases h with
  | granted c => exact ⟨_, startsOnce_begin rfl, .inr rfl, rfl⟩
  | entered hd =>
    exact ⟨_, startsOnce_begin (by simp only [Moment.obtained?, hd]), .inr rfl, rfl⟩
  | answered c lease o => exact ⟨none, startsOnce_quiet rfl (areQuiet_giveBack lease), .inl rfl, rfl⟩
  | expired c lease _ => exact ⟨none, startsOnce_quiet rfl (areQuiet_giveBack lease), .inl rfl, rfl⟩
  | refused | expiredAcquiring | expiredQueued =>
    exact ⟨none, startsOnce_quiet rfl areQuiet_nil, .inl rfl, rfl⟩

end Call

/-- What a call has started where it has come to a stage. -/
def Started (d : Dispatcher) (_ : CallId) (r : Request) (stage : Stage) (part : List Moment) :
    Prop :=
  ∃ got, StartsOnce d r got part ∧ (stage.isUnserved → got = none)

theorem told_started {d : Dispatcher} {past : History} {s t : State} {es : List Event}
    {effects : List Effect} (h : Told (Started d) past s) (hrun : run d s es = some (t, effects)) :
    Told (Started d) (past ++ history d s es) t := by
  refine run_preserves (fun _ h hs => ?_) h hrun
  refine h.step hs (fun he hopens => he ▸ hopens.startsOnce) ?_
  rintro r stage stage' part ⟨got, hpart, hgot⟩ hmoves
  obtain ⟨got', hnow, hgot', hserved⟩ := hmoves.startsOnce
  obtain ⟨got, h⟩ := hpart.append hnow (hgot'.imp_right hgot)
  exact ⟨got, h, fun hunserved => absurd hunserved (by simp [hserved])⟩

/-- What a step may ask for: a record only together with a query. -/
inductive AskedFor (d : Dispatcher) : List Effect → Prop
  | nothing : AskedFor d []
  | acquire (id : CallId) : AskedFor d [.acquire id]
  | release (id : CallId) (c : ConnectionId) : AskedFor d [.release id c]
  | begins (id : CallId) (r : Request) (c : ConnectionId) : AskedFor d (begin d id r c)

theorem askedFor_giveBack (d : Dispatcher) (id : CallId) (lease : Option Lease) :
    AskedFor d (giveBack id lease) := by
  match lease with
  | none | some ⟨none⟩ => exact .nothing
  | some ⟨some c⟩ => exact .release id c

theorem askedFor_step {d : Dispatcher} {s s' : State} {e : Event} {effects : List Effect}
    (h : step d s e = some (s', effects)) : AskedFor d effects := by
  rcases step_cases h with ⟨r, stage, -, -, hopens⟩ | ⟨r, stage, stage', -, -, hmoves⟩
  · cases hopens with
    | own => exact .begins ..
    | acquire => exact .acquire _
    | queue => exact .nothing
  · generalize e.call s = id at hmoves
    cases hmoves with
    | granted | entered => exact .begins ..
    | answered _ lease | expired _ lease => exact askedFor_giveBack d id lease
    | refused | expiredAcquiring | expiredQueued => exact .nothing

/-! ### What a journal tells -/

def Contact.start? : Contact → Option (ConnectionId × String)
  | .started c sql _ => some (c, sql)
  | _ => none

/-- The statements that were started, in order, each with its connection. -/
def Journal.starts (j : Journal) : List (ConnectionId × String) := j.filterMap Contact.start?

/-- The records of the statements that were started, in order. Each has the connection and the
text, and is information if that is wanted. -/
def Dispatcher.recordsOf (d : Dispatcher) (j : Journal) : List Log.Record :=
  j.starts.map fun start =>
    ⟨if d.logStatements then .info else .debug, .dispatching start.1 start.2⟩

theorem Dispatcher.recordsOf_append (d : Dispatcher) (j j' : Journal) :
    d.recordsOf (j ++ j') = d.recordsOf j ++ d.recordsOf j' := by
  rw [recordsOf, Journal.starts, List.filterMap_append, List.map_append]
  rfl

def Event.contact? : Event → Option Contact
  | .granted _ c => some (.acquired (.ok c))
  | .refused _ e => some (.acquired (.error e))
  | _ => none

def Effect.contact? : Effect → Option Contact
  | .query _ c sql params => some (.started c sql params)
  | .release _ c => some (.released c)
  | _ => none

/-- What a backend has to do with a moment of a run. -/
def Moment.contact? : Moment → Option Contact
  | .takes e => e.contact?
  | .asks x => x.contact?

/-- What a backend has to do with a run, answers of connections apart. -/
def History.contacts (past : History) : Journal := past.filterMap (·.2.contact?)

def Contact.isAnswer : Contact → Bool
  | .finished .. => true
  | _ => false

/-- A journal without the answers of connections. -/
def Journal.asked (j : Journal) : Journal := j.filter (!·.isAnswer)

theorem asked_append (j j' : Journal) : Journal.asked (j ++ j') = j.asked ++ j'.asked :=
  List.filter_append ..

theorem asked_effects (effects : List Effect) :
    Journal.asked (effects.filterMap Effect.contact?) = effects.filterMap Effect.contact? := by
  refine List.filter_eq_self.mpr fun contact hmem => ?_
  obtain ⟨x, -, hx⟩ := List.mem_filterMap.mp hmem
  cases x <;> cases hx <;> rfl

theorem moments_contact? (e : Event) (effects : List Effect) :
    (moments e effects).filterMap Moment.contact? =
      e.contact?.toList ++ effects.filterMap Effect.contact? := by
  have heffects : (effects.map Moment.asks).filterMap Moment.contact? =
      effects.filterMap Effect.contact? := by
    rw [List.filterMap_map]
    rfl
  rw [moments, List.filterMap_cons, heffects]
  cases h : e.contact? with
  | none => simp only [Moment.contact?, h, Option.toList_none, List.nil_append]
  | some contact => simp only [Moment.contact?, h, Option.toList_some, List.singleton_append]

theorem history_append {d : Dispatcher} {s t : State} {es : List Event} {effects : List Effect}
    (h : run d s es = some (t, effects)) (more : List Event) :
    history d s (es ++ more) = history d s es ++ history d t more := by
  induction es generalizing s effects with
  | nil => cases h; rfl
  | cons e es ih =>
    obtain ⟨s', now, later, hs, hrun, -⟩ := run_cons_eq_some h
    simp only [List.cons_append, history, hs, ih hrun, List.append_assoc]

/-- Answers of connections make no records. -/
theorem recordsOf_asked (d : Dispatcher) (j : Journal) : d.recordsOf j.asked = d.recordsOf j := by
  induction j with
  | nil => rfl
  | cons contact j ih =>
    cases contact with
    | started c sql params => exact congrArg (_ :: ·) ih
    | acquired | finished | released => exact ih

/-- A step makes the records of the statements that it starts. -/
theorem AskedFor.recordsOf {d : Dispatcher} {effects : List Effect} (h : AskedFor d effects)
    (e : Event) :
    d.recordsOf ((moments e effects).filterMap Moment.contact?) =
      (moments e effects).filterMap Moment.logged? := by
  have hevent : d.recordsOf e.contact?.toList = [] := by cases e <;> rfl
  rw [moments_contact?, Dispatcher.recordsOf_append, hevent]
  cases h <;> rfl

/-- The records of a run are those of its journal. -/
theorem recordsOf_contacts (d : Dispatcher) (s : State) (es : List Event) :
    d.recordsOf (history d s es).contacts = (history d s es).filterMap (·.2.logged?) := by
  induction es generalizing s with
  | nil => rfl
  | cons e es ih =>
    rw [history]
    cases hs : step d s e with
    | none => rfl
    | some p =>
      obtain ⟨s', effects⟩ := p
      have hnow := (askedFor_step hs).recordsOf e
      simp only [History.contacts, List.filterMap_append, History.filterMap_tagged,
        Dispatcher.recordsOf_append]
      rw [hnow]
      exact congrArg _ (ih s')

/-- The call that an event adds. -/
def Event.submitted : Event → List Request
  | .submit r => [r]
  | _ => []

def State.requests (s : State) : List Request := s.calls.map (·.request)

theorem requests_step {d : Dispatcher} {s s' : State} {e : Event} {effects : List Effect}
    (hs : step d s e = some (s', effects)) :
    s'.requests = s.requests ++ e.submitted := by
  unfold State.requests
  rcases step_cases hs with ⟨r, stage, rfl, hcalls, -⟩ | ⟨r, stage, stage', hcall, hcalls, hm⟩
  · rw [hcalls, List.map_append]
    rfl
  · have hrequest : (s.calls.map (·.request))[e.call s]? = some r := by
      rw [List.getElem?_map, hcall]
      rfl
    obtain ⟨hlt, hget⟩ := List.getElem?_eq_some_iff.mp hrequest
    have hsame : s'.calls.map (·.request) = s.calls.map (·.request) := by
      rw [hcalls, List.map_set, ← hget]
      exact List.set_getElem_self hlt
    generalize e.call s = id at hm
    cases hm <;> exact hsame.trans (List.append_nil _).symm

/-- The calls are these, and what the journal has, answers apart, is what the backend has to do
with the run of the dispatcher. -/
def Recounted (d : Dispatcher) (requests : List Request) (s : State) (j : Journal) : Prop :=
  ∃ events effects, run d {} events = some (s, effects) ∧ s.requests = requests ∧
    j.asked = (history d {} events).contacts

theorem Recounted.step {d : Dispatcher} {requests : List Request} {s s' : State} {j j' : Journal}
    {e : Event} {effects : List Effect} (h : Recounted d requests s j)
    (hs : step d s e = some (s', effects))
    (hj : j'.asked = j.asked ++ e.contact?.toList ++ effects.filterMap Effect.contact?) :
    Recounted d (requests ++ e.submitted) s' j' := by
  obtain ⟨events, before, hrun, hrequests, hasked⟩ := h
  refine ⟨events ++ [e], before ++ effects, run_append hrun (run_singleton hs), ?_, ?_⟩
  · rw [requests_step hs, hrequests]
  · have hnow : (history d s [e]).contacts =
        e.contact?.toList ++ effects.filterMap Effect.contact? := by
      simp only [history, hs, List.append_nil, History.contacts, History.filterMap_tagged,
        moments_contact?]
    rw [history_append hrun, History.contacts, List.filterMap_append, hj, hasked,
      List.append_assoc, ← hnow]
    rfl

/-- A call can be submitted at any time. -/
theorem isSome_step_submit (d : Dispatcher) (s : State) (r : Request) :
    (step d s (.submit r)).isSome := by
  unfold step
  cases hown : r.own with
  | some c => simp only [hown, Option.isSome_some]
  | none =>
    cases hd : d.source with
    | pool => simp only [hown, Option.isSome_some]
    | single c => simp only [hown, Option.isSome_some]

namespace Session

variable {σ : Type} {b : Backend σ} {d : Dispatcher} {requests : List Request}

/-- What a backend with a journal has written down. -/
def journal (s : Session (σ × Journal)) : Journal := s.world.resources.2

theorem performAll_journal (s : Session (σ × Journal)) (effects : List Effect) :
    (effects.foldl (perform b.journaled) s).journal =
      s.journal ++ effects.filterMap Effect.contact? := by
  induction effects generalizing s with
  | nil => exact (List.append_nil _).symm
  | cons x effects ih =>
    rw [List.foldl_cons, ih]
    cases x with
    | acquire | log => rfl
    | query | release => exact List.append_assoc ..

/-- The session as far as it is told by its journal. -/
def IsRecounted (d : Dispatcher) (requests : List Request) (s : Session (σ × Journal)) : Prop :=
  Recounted d requests s.state s.journal

theorem recounted_feed {s : Session (σ × Journal)} {state : State} {effects : List Effect}
    {e : Event} {j : Journal} (h : Recounted d requests s.state j)
    (hs : step d s.state e = some (state, effects))
    (hj : s.journal.asked = j.asked ++ e.contact?.toList) :
    IsRecounted d (requests ++ e.submitted) (feed b.journaled d s e) := by
  have hfeed : feed b.journaled d s e = effects.foldl (perform b.journaled) { s with state } := by
    rw [feed, hs]
  rw [hfeed, IsRecounted, performAll_state, performAll_journal]
  refine h.step hs ?_
  rw [asked_append, asked_effects, ← hj]
  rfl

/-- An event of which the backend need not be told. -/
theorem recounted_feed_quiet {s : Session (σ × Journal)} {e : Event} {j : Journal}
    (h : Recounted d requests s.state j) (hj : s.journal.asked = j.asked)
    (hcontact : e.contact? = none) (hsubmitted : e.submitted = []) :
    IsRecounted d requests (feed b.journaled d s e) := by
  have hj' : s.journal.asked = j.asked ++ e.contact?.toList := by
    rw [hj, hcontact]
    exact (List.append_nil _).symm
  cases hs : step d s.state e with
  | none =>
    obtain ⟨events, effects, hrun, hrequests, hasked⟩ := h
    rw [feed, hs]
    exact ⟨events, effects, hrun, hrequests, hj.trans hasked⟩
  | some p =>
    obtain ⟨state, effects⟩ := p
    have hfed := recounted_feed (b := b) h hs hj'
    rwa [hsubmitted, List.append_nil] at hfed

theorem recounted_advance {s : Session (σ × Journal)} (h : IsRecounted d requests s) (id : CallId) :
    IsRecounted d requests (advance b.journaled d s id) := by
  rw [advance]
  cases hcall : s.state.calls[id]? with
  | none => exact h
  | some call =>
    obtain ⟨r, stage⟩ := call
    cases stage with
    | done o => exact h
    | aborted fault => exact h
    | queued => exact recounted_feed_quiet h rfl rfl rfl
    | acquiring =>
      simp only
      split
      · -- the pool has answered
        rcases hanswer : b.acquire s.world.resources.1 with ⟨answer, resources⟩
        have hacquire : b.journaled.acquire s.world.resources =
            (answer, resources, s.journal ++ [.acquired answer]) := by
          simp only [Backend.journaled, hanswer, journal]
        simp only [hacquire]
        have hj : Journal.asked (s.journal ++ [.acquired answer]) =
            s.journal.asked ++ [.acquired answer] := asked_append ..
        cases answer with
        | ok c =>
          have hs : step d s.state (.granted id c) =
              some (s.state.moveTo id ⟨r, .acquiring⟩ (.querying c (some (.of c))),
                begin d id r c) := by
            simp only [step, hcall, Lease.of, Lease.borrow]
          exact List.append_nil requests ▸ recounted_feed h hs hj
        | error e =>
          have hs : step d s.state (.refused id e) =
              some (s.state.moveTo id ⟨r, .acquiring⟩ (.done (.error e)), []) := by
            simp only [step, hcall]
          exact List.append_nil requests ▸ recounted_feed h hs hj
      · exact h
    | querying c lease =>
      simp only
      split
      · refine recounted_feed_quiet h ?_ rfl rfl
        exact (asked_append ..).trans (List.append_nil _)
      · exact h

theorem invariant_recounted (b : Backend σ) (d : Dispatcher) (requests : List Request) :
    Invariant b.journaled d (IsRecounted d requests) where
  advance id h := recounted_advance h id
  expired _ h := recounted_feed_quiet h rfl rfl rfl
  clock _ h := h

theorem recounted_submit (b : Backend σ) (d : Dispatcher) (w : World σ) (requests : List Request) :
    IsRecounted d requests (submit b.journaled d (w.keeping []) requests) := by
  have hfold : ∀ (more before : List Request) (s : Session (σ × Journal)),
      IsRecounted d before s → IsRecounted d (before ++ more)
        (more.foldl (fun s r => drive b.journaled d (feed b.journaled d s (.submit r))
          s.state.calls.length) s) := by
    intro more
    induction more with
    | nil => exact fun before s h => (List.append_nil before).symm ▸ h
    | cons r more ih =>
      intro before s h
      obtain ⟨⟨state, effects⟩, hs⟩ := Option.isSome_iff_exists.mp (isSome_step_submit d s.state r)
      have hfed := recounted_feed (b := b) h hs (List.append_nil _).symm
      have hrest := ih _ _ ((invariant_recounted b d _).drive hfed s.state.calls.length)
      rwa [List.append_assoc] at hrest
  exact hfold requests [] _ ⟨[], [], rfl, rfl, rfl⟩

end Session

/-- What a journal has about a batch of calls. The dispatcher has taken events in which each call
starts its statement once, on the connection that it obtains, with a record, or obtains none and
starts nothing; the journal has what the backend was asked for on the way, and tells the records. -/
structure AccountsFor (d : Dispatcher) (requests : List Request) (j : Journal)
    (events : List Event) : Prop where
  possible : ∃ state effects, run d {} events = some (state, effects) ∧ state.requests = requests
  asked : j.asked = (history d {} events).contacts
  logged : d.recordsOf j = (history d {} events).filterMap (·.2.logged?)
  starts : ∀ id r, requests[id]? = some r →
    ∃ got, StartsOnce d r got ((history d {} events).of id)
  nothing_else : ∀ id, requests.length ≤ id → (history d {} events).of id = []

theorem runAll_accounted {σ : Type} (b : Backend σ) (d : Dispatcher) (w : World σ)
    (requests : List Request) :
    ∃ events,
      AccountsFor d requests (runAll b.journaled d (w.keeping []) requests).2.resources.2 events := by
  obtain ⟨events, effects, hrun, hrequests, hasked⟩ :=
    (Session.invariant_recounted b d requests).proceed (3 * requests.length)
      (Session.recounted_submit b d w requests)
  have hnone : Told (Started d) [] {} := ⟨fun _ _ h => (nomatch h), fun _ _ => rfl⟩
  have htold := told_started hnone hrun
  rw [List.nil_append] at htold
  have hlogged := recordsOf_contacts d {} events
  rw [← hasked, recordsOf_asked] at hlogged
  refine ⟨events, ⟨_, effects, hrun, hrequests⟩, hasked, hlogged, fun id r hr => ?_,
    fun id hid => ?_⟩
  · rw [← hrequests, State.requests, List.getElem?_map] at hr
    obtain ⟨call, hcall, rfl⟩ := Option.map_eq_some_iff.mp hr
    obtain ⟨got, h, -⟩ := htold.call id call hcall
    exact ⟨got, h⟩
  · rw [← hrequests, State.requests, List.length_map] at hid
    exact htold.fresh id hid

end Schemata.Dispatch
