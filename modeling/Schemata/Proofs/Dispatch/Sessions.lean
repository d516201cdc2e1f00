import Schemata.Proofs.Dispatch.History

/-!
# Sessions are runs

A session lets a backend and a clock decide which event comes next. Whatever they decide,
its dispatcher only ever takes steps, so what holds after every run holds in every session
over every backend.
-/
namespace Schemata.Dispatch

/-- The states that a dispatcher comes to. -/
def Reached (d : Dispatcher) (s : State) : Prop :=
  ∃ events effects, run d {} events = some (s, effects)

theorem Reached.initial (d : Dispatcher) : Reached d {} := ⟨[], [], rfl⟩

theorem Reached.step {d : Dispatcher} {s s' : State} {e : Event} {effects : List Effect}
    (h : Reached d s) (hs : step d s e = some (s', effects)) : Reached d s' := by
  obtain ⟨events, before, hrun⟩ := h
  exact ⟨events ++ [e], before ++ effects, run_append hrun (run_singleton hs)⟩

namespace Session

variable {σ : Type} {b : Backend σ} {d : Dispatcher}

/-- What the dispatcher asks for does not change its state. -/
theorem perform_state (s : Session σ) (x : Effect) : (perform b s x).state = s.state := by
  cases x <;> rfl

theorem performAll_state (s : Session σ) (effects : List Effect) :
    (effects.foldl (perform b) s).state = s.state := by
  induction effects generalizing s with
  | nil => rfl
  | cons x effects ih => rw [List.foldl_cons, ih, perform_state]

theorem reached_feed {s : Session σ} (h : Reached d s.state) (e : Event) :
    Reached d (feed b d s e).state := by
  rw [feed]
  cases hs : Dispatch.step d s.state e with
  | none => exact h
  | some p =>
    obtain ⟨state, effects⟩ := p
    show Reached d (effects.foldl (perform b) { s with state }).state
    rw [performAll_state]
    exact h.step hs

theorem reached_advance {s : Session σ} (h : Reached d s.state) (id : CallId) :
    Reached d (advance b d s id).state := by
  rw [advance]
  cases s.state.calls[id]? with
  | none => exact h
  | some call =>
    cases hstage : call.stage with
    | done o => simpa only [hstage] using h
    | aborted fault => simpa only [hstage] using h
    | queued => simpa only [hstage] using reached_feed h _
    | acquiring =>
      simp only [hstage]
      split
      · -- the pool has answered
        split
        · refine reached_feed ?_ _
          exact h
        · refine reached_feed ?_ _
          exact h
      · exact h
    | querying c lease =>
      simp only [hstage]
      split
      · refine reached_feed ?_ _
        exact h
      · exact h

/-- What every move of a session preserves: a call goes on, its limit is over, time passes. -/
structure Invariant (b : Backend σ) (d : Dispatcher) (P : Session σ → Prop) : Prop where
  advance : ∀ {s} id, P s → P (Session.advance b d s id)
  expired : ∀ {s} id, P s → P (feed b d s (.expired id))
  clock : ∀ {s} t, P s → P { s with world := { s.world with clock := t } }

/-- Doing something for one call after the other. -/
theorem foldl_preserves {α : Type} {P : Session σ → Prop} {f : Session σ → α → Session σ}
    (hf : ∀ {s} a, P s → P (f s a)) (l : List α) {s : Session σ} (h : P s) : P (l.foldl f s) := by
  induction l generalizing s with
  | nil => exact h
  | cons a l ih => exact ih (hf a h)

namespace Invariant

variable {P : Session σ → Prop} (hP : Invariant b d P) {s : Session σ}

include hP

theorem drive (h : P s) (id : CallId) : P (drive b d s id) :=
  foldl_preserves (fun _ h => hP.advance id h) _ h

theorem settle (h : P s) : P (settle b d s) :=
  foldl_preserves (P := P) (f := Session.drive b d) (fun id h => hP.drive h id) _ h

theorem expire (h : P s) : P (expire b d s) := by
  refine foldl_preserves (fun {s} id h => ?_) _ h
  split
  · split
    · exact hP.expired id h
    · exact h
  · exact h

theorem proceed (n : Nat) (h : P s) : P (proceed b d n s) := by
  induction n generalizing s with
  | zero => exact h
  | succ n ih =>
    rw [Session.proceed]
    split
    · exact h
    · exact ih (hP.settle (hP.expire (hP.settle (hP.clock _ h))))

end Invariant

theorem invariant_reached (b : Backend σ) (d : Dispatcher) :
    Invariant b d fun s => Reached d s.state where
  advance id h := reached_advance h id
  expired id h := reached_feed h (.expired id)
  clock _ h := h

theorem reached_submit (w : World σ) (requests : List Request) :
    Reached d (submit b d w requests).state :=
  foldl_preserves (P := fun s => Reached d s.state)
    (f := fun s r => drive b d (feed b d s (.submit r)) s.state.calls.length)
    (fun r h => (invariant_reached b d).drive (reached_feed h (.submit r)) _) _ (Reached.initial d)

/-- Every session over every backend is a run of its dispatcher. -/
theorem reached (b : Backend σ) (d : Dispatcher) (w : World σ) (requests : List Request) (n : Nat) :
    Reached d (proceed b d n (submit b d w requests)).state :=
  (invariant_reached b d).proceed n (reached_submit w requests)

end Session

end Schemata.Dispatch
