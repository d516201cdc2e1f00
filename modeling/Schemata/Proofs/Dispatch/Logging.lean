import Mathlib.Data.List.Forall2
import Schemata.Proofs.Dispatch.Starts

/-!
# Logging observes

Whether statements are logged as information decides the level of their records and nothing else.
To see this, every session is told from one session, over the backend with a journal and with
nothing said about logging, move by move (`Session.told`): its records are read off the journal.
-/
namespace Schemata.Dispatch

variable {σ τ : Type}

/-! ### Records and levels -/

section Recorded

variable (b : Backend σ) (d : Dispatcher) (c : ConnectionId) (sql : String) (params : List Value)
  (s : σ × Journal)

theorem recordsOf_start : d.recordsOf (b.journaled.start c sql params s).2.2 =
    d.recordsOf s.2 ++ [d.record c sql] :=
  d.recordsOf_append s.2 [.started c sql params]

theorem recordsOf_acquire : d.recordsOf (b.journaled.acquire s).2.2 = d.recordsOf s.2 :=
  (d.recordsOf_append ..).trans (List.append_nil _)

theorem recordsOf_release : d.recordsOf (b.journaled.release c s).2 = d.recordsOf s.2 :=
  (d.recordsOf_append ..).trans (List.append_nil _)

theorem recordsOf_finish : d.recordsOf (b.journaled.finish c sql params s).2.2 = d.recordsOf s.2 :=
  (d.recordsOf_append ..).trans (List.append_nil _)

end Recorded

/-- What is asked for where statements are logged as information, or not. -/
def Effect.logged (on : Bool) : Effect → Effect
  | .log record => .log { record with level := if on then .info else .debug }
  | x => x

theorem giveBack_logged (on : Bool) (id : CallId) (lease : Option Lease) :
    (giveBack id lease).map (Effect.logged on) = giveBack id lease := by
  match lease with
  | none | some ⟨none⟩ | some ⟨some _⟩ => rfl

/-- Whether statements are logged as information makes no difference to a step but for the level
of the record. -/
theorem step_logged (source : Source) (on : Bool) (s : State) (e : Event) :
    step ⟨source, on⟩ s e =
      (step { source } s e).map fun p => (p.1, p.2.map (Effect.logged on)) := by
  cases e with
  | submit r =>
    obtain ⟨sql, params, own, limit⟩ := r
    cases own with
    | some c => rfl
    | none => cases source <;> rfl
  | granted id c | refused id e =>
    unfold step
    dsimp only
    cases s.calls[id]? with
    | none => rfl
    | some call =>
      obtain ⟨r, stage⟩ := call
      cases stage <;> rfl
  | entered id =>
    unfold step
    dsimp only
    cases s.calls[id]? with
    | none => rfl
    | some call =>
      obtain ⟨r, stage⟩ := call
      cases source <;> cases s.holder <;> cases stage <;> rfl
  | answered id o =>
    unfold step
    dsimp only
    cases s.calls[id]? with
    | none => rfl
    | some call =>
      obtain ⟨r, stage⟩ := call
      cases stage with
      | querying c lease => simp only [Option.map_some, giveBack_logged]
      | _ => rfl
  | expired id =>
    unfold step
    dsimp only
    cases s.calls[id]? with
    | none => rfl
    | some call =>
      obtain ⟨⟨sql, params, own, limit⟩, stage⟩ := call
      cases limit with
      | none => rfl
      | some limit =>
        cases stage with
        | querying c lease => simp only [Option.map_some, giveBack_logged]
        | _ => rfl

/-! ### Sessions told from a journal -/

/-- A backend that does what the one with a journal does, its resources being told by `f`. -/
structure Backend.Follows (b : Backend σ) (b' : Backend τ) (f : σ × Journal → τ) : Prop where
  acquireTime : ∀ s, b'.acquireTime (f s) = b.journaled.acquireTime s
  acquire : ∀ s, b'.acquire (f s) = Prod.map id f (b.journaled.acquire s)
  release : ∀ c s, b'.release c (f s) = f (b.journaled.release c s)
  start : ∀ c sql params s,
    b'.start c sql params (f s) = Prod.map id f (b.journaled.start c sql params s)
  finish : ∀ c sql params s,
    b'.finish c sql params (f s) = Prod.map id f (b.journaled.finish c sql params s)

/-- The backend itself keeps no journal. -/
theorem Backend.follows_fst (b : Backend σ) : b.Follows b Prod.fst where
  acquireTime _ := rfl
  acquire _ := rfl
  release _ _ := rfl
  start _ _ _ _ := rfl
  finish _ _ _ _ := rfl

/-- A journal may have been begun before. -/
theorem Backend.follows_past (b : Backend σ) (past : Journal) :
    b.Follows b.journaled fun s => (s.1, past ++ s.2) where
  acquireTime _ := rfl
  acquire s := by simp [Backend.journaled]
  release c s := by simp [Backend.journaled]
  start c sql params s := by simp [Backend.journaled]
  finish c sql params s := by simp [Backend.journaled]

/-- The world in which the records of the journal were made. -/
def World.told (f : σ × Journal → τ) (d : Dispatcher) (before : List Log.Record)
    (w : World (σ × Journal)) : World τ :=
  { resources := f w.resources, clock := w.clock, records := before ++ d.recordsOf w.resources.2 }

namespace Session

def told (f : σ × Journal → τ) (d : Dispatcher) (before : List Log.Record)
    (s : Session (σ × Journal)) : Session τ :=
  { world := s.world.told f d before, state := s.state, began := s.began, wake := s.wake }

theorem with_resources {f : σ × Journal → τ} {d : Dispatcher} {before : List Log.Record}
    {s : Session (σ × Journal)} {resources : σ × Journal}
    (h : d.recordsOf resources.2 = d.recordsOf s.world.resources.2) :
    { s.told f d before with
        world := { (s.told f d before).world with resources := f resources } } =
      ({ s with world := { s.world with resources } } : Session (σ × Journal)).told f d before := by
  simp only [told, World.told, h]

section Told

variable {b : Backend σ} {b' : Backend τ} {f : σ × Journal → τ} (hf : b.Follows b' f)
  (source : Source) (on : Bool) (before : List Log.Record)

include hf

theorem performAll_told {effects : List Effect} (h : AskedFor { source } effects)
    (s : Session (σ × Journal)) :
    (effects.map (Effect.logged on)).foldl (perform b') (s.told f ⟨source, on⟩ before) =
      (effects.foldl (perform b.journaled) s).told f ⟨source, on⟩ before := by
  cases h with
  | nothing => rfl
  | acquire id =>
    simp only [List.map_cons, List.map_nil, List.foldl_cons, List.foldl_nil, Effect.logged, perform,
      told, World.told, setWake, hf.acquireTime]
  | release id c =>
    simp only [List.map_cons, List.map_nil, List.foldl_cons, List.foldl_nil, Effect.logged, perform,
      told, World.told, hf.release, recordsOf_release]
  | begins id r c =>
    simp only [begin, List.map_cons, List.map_nil, List.foldl_cons, List.foldl_nil, Effect.logged,
      perform, told, World.told, setWake, hf.start, recordsOf_start, List.append_assoc]
    rfl

/-- A session that follows the journal takes the same event. -/
theorem feed_told (s : Session (σ × Journal)) (e : Event) :
    feed b' ⟨source, on⟩ (s.told f ⟨source, on⟩ before) e =
      (feed b.journaled { source } s e).told f ⟨source, on⟩ before := by
  have hstep := step_logged source on s.state e
  cases hs : step { source } s.state e with
  | none =>
    rw [hs] at hstep
    simp only [feed, hs, told, hstep, Option.map_none]
  | some p =>
    obtain ⟨state, effects⟩ := p
    rw [hs] at hstep
    have hperform := performAll_told hf source on before (askedFor_step hs) { s with state }
    simp only [feed, hs]
    rw [← hperform]
    simp only [told, hstep, Option.map_some]

theorem advance_told (s : Session (σ × Journal)) (i : CallId) :
    advance b' ⟨source, on⟩ (s.told f ⟨source, on⟩ before) i =
      (advance b.journaled { source } s i).told f ⟨source, on⟩ before := by
  have hfeed := feed_told hf source on before
  unfold advance
  have hcalls : (s.told f ⟨source, on⟩ before).state.calls[i]? = s.state.calls[i]? := rfl
  rw [hcalls]
  cases s.state.calls[i]? with
  | none => rfl
  | some call =>
    obtain ⟨r, stage⟩ := call
    cases stage with
    | done o => rfl
    | aborted fault => rfl
    | queued => exact hfeed s _
    | acquiring =>
      have hdue : (s.told f ⟨source, on⟩ before).isDue i = s.isDue i := rfl
      have hacquire : b'.acquire (s.told f ⟨source, on⟩ before).world.resources =
          Prod.map id f (b.journaled.acquire s.world.resources) := hf.acquire _
      have hrecords := recordsOf_acquire b ⟨source, on⟩ s.world.resources
      rcases hanswer : b.journaled.acquire s.world.resources with ⟨answer, resources⟩
      rw [hanswer] at hacquire hrecords
      simp only [hdue, hacquire, Prod.map_apply, id_eq, with_resources hrecords]
      split
      · cases answer with
        | ok c => exact hfeed _ _
        | error e => exact hfeed _ _
      · rfl
    | querying c lease =>
      have hdue : (s.told f ⟨source, on⟩ before).isDue i = s.isDue i := rfl
      let answer := b.journaled.finish c r.sql r.params s.world.resources
      have hfinish : b'.finish c r.sql r.params (s.told f ⟨source, on⟩ before).world.resources =
          (answer.1, f answer.2) := hf.finish ..
      have hrecords := recordsOf_finish b ⟨source, on⟩ c r.sql r.params s.world.resources
      simp only [hdue, hfinish]
      split
      · rw [with_resources hrecords]
        exact hfeed _ _
      · rfl

theorem drive_told (s : Session (σ × Journal)) (id : CallId) :
    drive b' ⟨source, on⟩ (s.told f ⟨source, on⟩ before) id =
      (drive b.journaled { source } s id).told f ⟨source, on⟩ before :=
  List.foldl_hom (told f ⟨source, on⟩ before) fun s _ => advance_told hf source on before s id

theorem settle_told (s : Session (σ × Journal)) :
    settle b' ⟨source, on⟩ (s.told f ⟨source, on⟩ before) =
      (settle b.journaled { source } s).told f ⟨source, on⟩ before :=
  List.foldl_hom (told f ⟨source, on⟩ before) (drive_told hf source on before)

theorem expire_told (s : Session (σ × Journal)) :
    expire b' ⟨source, on⟩ (s.told f ⟨source, on⟩ before) =
      (expire b.journaled { source } s).told f ⟨source, on⟩ before := by
  refine List.foldl_hom (told f ⟨source, on⟩ before) fun s id => ?_
  have hdeadline : (s.told f ⟨source, on⟩ before).deadline? id = s.deadline? id := rfl
  have hclock : (s.told f ⟨source, on⟩ before).world.clock = s.world.clock := rfl
  rw [hdeadline, hclock]
  split
  · split
    · exact feed_told hf source on before s _
    · rfl
  · rfl

theorem proceed_told (n : Nat) (s : Session (σ × Journal)) :
    proceed b' ⟨source, on⟩ n (s.told f ⟨source, on⟩ before) =
      (proceed b.journaled { source } n s).told f ⟨source, on⟩ before := by
  induction n generalizing s with
  | zero => rfl
  | succ n ih =>
    have hnext : (s.told f ⟨source, on⟩ before).nextMoment? = s.nextMoment? := rfl
    rw [proceed, proceed, hnext]
    cases s.nextMoment? with
    | none => rfl
    | some t =>
      rw [← ih, ← settle_told hf, ← expire_told hf, ← settle_told hf]
      rfl

theorem submit_told (w : World (σ × Journal)) (requests : List Request) :
    submit b' ⟨source, on⟩ (w.told f ⟨source, on⟩ before) requests =
      (submit b.journaled { source } w requests).told f ⟨source, on⟩ before := by
  show requests.foldl _ (told f ⟨source, on⟩ before { world := w, began := w.clock }) = _
  refine List.foldl_hom (told f ⟨source, on⟩ before) fun s r => ?_
  rw [← drive_told hf, ← feed_told hf]
  rfl

end Told

end Session

section Batches

variable (b : Backend σ)

theorem runAll_told {b' : Backend τ} {f : σ × Journal → τ} (hf : b.Follows b' f) (source : Source)
    (on : Bool) (before : List Log.Record) (w : World (σ × Journal)) (requests : List Request) :
    runAll b' ⟨source, on⟩ (w.told f ⟨source, on⟩ before) requests =
      Prod.map id (World.told f ⟨source, on⟩ before) (runAll b.journaled { source } w requests) := by
  unfold runAll
  rw [Session.submit_told hf, Session.proceed_told hf]
  rfl

/-- Runs batches of calls one after the other; the calls of a batch are submitted at the same
moment. -/
def runBatches (d : Dispatcher) : World σ → List (List Request) → List (List Outcome) × World σ
  | w, [] => ([], w)
  | w, requests :: batches =>
    let (outcomes, w) := runAll b d w requests
    let (more, w) := runBatches d w batches
    (outcomes :: more, w)

theorem runBatches_told {b' : Backend τ} {f : σ × Journal → τ} (hf : b.Follows b' f)
    (source : Source) (on : Bool) (before : List Log.Record) (w : World (σ × Journal))
    (batches : List (List Request)) :
    runBatches b' ⟨source, on⟩ (w.told f ⟨source, on⟩ before) batches =
      Prod.map id (World.told f ⟨source, on⟩ before)
        (runBatches b.journaled { source } w batches) := by
  induction batches generalizing w with
  | nil => rfl
  | cons requests batches ih =>
    rw [runBatches, runAll_told b hf]
    simp only [Prod.map, id_eq]
    rw [ih]
    rfl

theorem told_keeping (source : Source) (on : Bool) (w : World σ) (past : Journal) :
    (w.keeping []).told (fun s => (s.1, past ++ s.2)) ⟨source, on⟩ w.records = w.keeping past := by
  simp only [World.told, World.keeping, Dispatcher.recordsOf, Journal.starts, List.filterMap_nil,
    List.map_nil, List.append_nil]

theorem told_keeping_fst (source : Source) (on : Bool) (w : World σ) :
    (w.keeping []).told Prod.fst ⟨source, on⟩ w.records = w := by
  simp only [World.told, World.keeping, Dispatcher.recordsOf, Journal.starts, List.filterMap_nil,
    List.map_nil, List.append_nil]

/-- Logging makes no difference to the journal. -/
theorem runAll_journaled (source : Source) (on : Bool) (w : World σ) (past : Journal)
    (requests : List Request) :
    (runAll b.journaled ⟨source, on⟩ (w.keeping past) requests).2.resources.2 =
      past ++ (runAll b.journaled { source } (w.keeping []) requests).2.resources.2 := by
  rw [← told_keeping source on w past, runAll_told b (b.follows_past past)]
  rfl

/-- The journal of batches is made of journals that account for them. -/
theorem runBatches_accounted (source : Source) (w : World σ) (past : Journal)
    (batches : List (List Request)) :
    ∃ journals : List Journal,
      (runBatches b.journaled { source } (w.keeping past) batches).2.resources.2 =
        past ++ journals.flatten ∧
      List.Forall₂ (fun requests j => ∀ on, ∃ events, AccountsFor ⟨source, on⟩ requests j events)
        batches journals := by
  induction batches generalizing w past with
  | nil => exact ⟨[], (List.append_nil _).symm, .nil⟩
  | cons requests batches ih =>
    let next := (runAll b.journaled { source } (w.keeping past) requests).2
    let j := (runAll b.journaled { source } (w.keeping []) requests).2.resources.2
    have hnext : next.resources.2 = past ++ j := runAll_journaled b source false w past requests
    have haccounts : ∀ on, ∃ events, AccountsFor ⟨source, on⟩ requests j events := by
      intro on
      obtain ⟨events, haccount⟩ := runAll_accounted b ⟨source, on⟩ w requests
      rw [runAll_journaled] at haccount
      exact ⟨events, haccount⟩
    obtain ⟨journals, hjournals, hall⟩ :=
      ih { next with resources := next.resources.1 } next.resources.2
    refine ⟨j :: journals, ?_, .cons haccounts hall⟩
    rw [List.flatten_cons, ← List.append_assoc, ← hnext]
    exact hjournals

/-- The same record, once as information and once for debugging. -/
structure DiffersInLevel (loud quiet : Log.Record) : Prop where
  event : loud.event = quiet.event
  loud : loud.level = .info
  quiet : quiet.level = .debug

theorem differInLevel_recordsOf (source : Source) (j : Journal) :
    List.Forall₂ DiffersInLevel (Dispatcher.recordsOf ⟨source, true⟩ j)
      (Dispatcher.recordsOf ⟨source, false⟩ j) := by
  unfold Dispatcher.recordsOf
  rw [List.forall₂_map_left_iff, List.forall₂_map_right_iff, List.forall₂_same]
  exact fun start _ => ⟨rfl, rfl, rfl⟩

/-- **Logging only observes.** Batches of calls run over any backend. Whether their statements are
logged as information, or not, as when nothing is said about it, the outcomes, the resources, the
clock and what the backend is asked for are the same. There is one record for each statement that
the journal has as started, in this order, with its connection and its text; the switch decides
its level and nothing else of it. A call that obtains no connection starts no statement and leaves
no record, and every other call starts its own, once, on the connection that it obtained. -/
theorem logging_only_observes (source : Source) (w : World σ) (batches : List (List Request)) :
    ∃ (outcomes : List (List Outcome)) (resources : σ) (clock : Nat) (journals : List Journal)
      (made : Bool → List Log.Record),
      (∀ on, made on = (Journal.starts journals.flatten).map fun start =>
        ⟨if on then .info else .debug, .dispatching start.1 start.2⟩) ∧
      List.Forall₂ DiffersInLevel (made true) (made false) ∧
      (∀ on : Bool,
        runBatches b ⟨source, on⟩ w batches =
          (outcomes, { resources, clock, records := w.records ++ made on }) ∧
        runBatches b.journaled ⟨source, on⟩ (w.keeping []) batches =
          (outcomes,
            { resources := (resources, journals.flatten), clock
              records := w.records ++ made on })) ∧
      runBatches b { source } w batches = runBatches b ⟨source, false⟩ w batches ∧
      List.Forall₂ (fun requests j => ∀ on, ∃ events, AccountsFor ⟨source, on⟩ requests j events)
        batches journals := by
  obtain ⟨journals, hjournal, haccounts⟩ := runBatches_accounted b source w [] batches
  let kept := runBatches b.journaled { source } (w.keeping []) batches
  refine ⟨kept.1, kept.2.resources.1, kept.2.clock, journals,
    fun on => Dispatcher.recordsOf ⟨source, on⟩ journals.flatten, fun _ => rfl,
    differInLevel_recordsOf source _, fun on => ⟨?_, ?_⟩, rfl, haccounts⟩
  · have htold := runBatches_told b b.follows_fst source on w.records (w.keeping []) batches
    rw [told_keeping_fst] at htold
    rw [htold, ← List.nil_append journals.flatten, ← hjournal]
    rfl
  · have htold := runBatches_told b (b.follows_past []) source on w.records (w.keeping []) batches
    rw [told_keeping] at htold
    rw [htold, ← List.nil_append journals.flatten, ← hjournal]
    rfl

/-- A batch of one call is that call on its own. -/
example (d : Dispatcher) (w : World σ) (r : Request) :
    runAll b d w [r] = ([(execute b d w r).1], (execute b d w r).2) := by
  simp only [runAll, execute, List.length_singleton, Nat.mul_one]
  rfl

end Batches

end Schemata.Dispatch
