import Mathlib.Data.List.Perm.Basic
import Mathlib.Order.Defs.PartialOrder
import Schemata.Proofs.Json.Decoding
import Schemata.Proofs.Results

/-!
# The members of an object

A decoder takes the members of an object one after the other. Where two neighbours may change
places (`OrderFree`), any order will do; where a member under an unknown key leaves no trace
(`Lenient`), it may be added or dropped. Both are said of one step, up to a relation on what has
been met so far, and hold of a whole object (`Lenient.foldMembers`).

What a step does is told slot by slot: a slot takes the value of its own key and is left alone by
all others, and what is not for a slot is skipped or kept.
-/
namespace Schemata.Json

open Draft.ofJson (ofMembers)

variable {α β σ : Type}

theorem Key.read_eq_ok {k : Key} {name : String} : k.read = .ok name ↔ k = .name name := by
  cases k with
  | name s => exact ⟨fun h => congrArg Key.name (Except.ok.inj h), fun h => by cases h; rfl⟩
  | damaged fault skip => exact ⟨fun h => (nomatch h), fun h => (nomatch h)⟩

/-- One change of the members of an object: they change places, or a member under an unknown key
is added or dropped. -/
inductive MemberEdit (unknown : String → Prop) (fits : Draft → Prop) :
    List (Key × Draft) → List (Key × Draft) → Prop
  | reorder {ms ms' : List (Key × Draft)} (h : ms.Perm ms') : MemberEdit unknown fits ms ms'
  | add {before after : List (Key × Draft)} {k : String} {d : Draft} (hk : unknown k)
      (hd : fits d) :
      MemberEdit unknown fits (before ++ after) (before ++ (.name k, d) :: after)
  | drop {before after : List (Key × Draft)} {k : String} {d : Draft} (hk : unknown k) :
      MemberEdit unknown fits (before ++ (.name k, d) :: after) (before ++ after)

/-- Whether a value can be read as a whole where `depth` more containers may be opened. -/
def Fits (depth : Nat) (d : Draft) : Prop := ∃ v, d.read depth = .ok v

theorem fits_ofJson {v : Json} {depth : Nat} (h : v.nesting ≤ depth) : Fits depth (.ofJson v) :=
  ⟨v, Draft.read_ofJson v h⟩

theorem Place.enter_eq_ok_iff {p p' : Place} :
    p.enter = .ok p' ↔ 1 ≤ p.depth ∧ p' = { p with depth := p.depth - 1 } := by
  unfold Place.enter
  split
  · next h => exact ⟨fun h' => (nomatch h'), fun h' => absurd h'.1 (by omega)⟩
  · next h => exact ⟨fun h' => ⟨by omega, (Except.ok.inj h').symm⟩, fun h' => h'.2 ▸ rfl⟩

theorem endsWell_eq_ok {ending : Option Fault} {u : Unit} :
    endsWell ending = .ok u ↔ ending = none := by
  cases ending with
  | none => exact ⟨fun _ => rfl, fun _ => rfl⟩
  | some fault => exact ⟨fun h => (nomatch h), fun h => (nomatch h)⟩

mutual

/-- A value that can be read can be passed over. -/
theorem Draft.skip_of_read : ∀ {d : Draft} {depth : Nat} {v : Json},
    d.read depth = .ok v → d.skip = .ok ()
  | .null, _, _, _ | .bool _, _, _, _ | .int _, _, _, _ | .float _, _, _, _ | .str _, _, _, _ => rfl
  | .arr _ _, depth, _, h => by
    rw [Draft.read] at h
    split at h
    · cases h
    · obtain ⟨_, hitems, h⟩ := bind_eq_ok.mp h
      obtain ⟨_, hending, -⟩ := bind_eq_ok.mp h
      exact bind_eq_ok.mpr ⟨(), skipItems_of_readItems hitems, hending⟩
  | .obj _ _, depth, _, h => by
    rw [Draft.read] at h
    split at h
    · cases h
    · obtain ⟨_, hmembers, h⟩ := bind_eq_ok.mp h
      obtain ⟨_, hending, -⟩ := bind_eq_ok.mp h
      exact bind_eq_ok.mpr ⟨(), skipMembers_of_readMembers hmembers, hending⟩

theorem skipItems_of_readItems : ∀ {ds : List Draft} {depth : Nat} {vs : List Json},
    Draft.read.readItems depth ds = .ok vs → Draft.skip.skipItems ds = .ok ()
  | [], _, _, _ => rfl
  | _ :: _, _, _, h => by
    obtain ⟨_, hd, h⟩ := bind_eq_ok.mp h
    obtain ⟨_, hds, -⟩ := bind_eq_ok.mp h
    exact bind_eq_ok.mpr ⟨(), Draft.skip_of_read hd, skipItems_of_readItems hds⟩

theorem skipMembers_of_readMembers : ∀ {ms : List (Key × Draft)} {depth : Nat}
    {vs : List (String × Json)},
    Draft.read.readMembers depth ms = .ok vs → Draft.skip.skipMembers ms = .ok ()
  | [], _, _, _ => rfl
  | (_, _) :: _, _, _, h => by
    obtain ⟨_, hk, h⟩ := bind_eq_ok.mp h
    obtain ⟨_, hd, h⟩ := bind_eq_ok.mp h
    obtain ⟨_, hms, -⟩ := bind_eq_ok.mp h
    obtain rfl := Key.read_eq_ok.mp hk
    exact bind_eq_ok.mpr ⟨(), rfl,
      bind_eq_ok.mpr ⟨(), Draft.skip_of_read hd, skipMembers_of_readMembers hms⟩⟩

end

theorem Draft.skip_ofJson (v : Json) : (Draft.ofJson v).skip = .ok () :=
  skip_of_read (read_ofJson v (Nat.le_refl _))

namespace Decoder

section Fold

variable {step : σ → String → Draft → Except Fault σ} {R : σ → σ → Prop} {s s' t : σ}

theorem foldMembers_cons_eq_ok {m : Key × Draft} {ms : List (Key × Draft)} :
    foldMembers step s (m :: ms) = .ok s' ↔
      ∃ k t, m.1 = .name k ∧ step s k m.2 = .ok t ∧ foldMembers step t ms = .ok s' := by
  rw [foldMembers, bind_eq_ok]
  simp only [bind_eq_ok, Key.read_eq_ok]
  constructor
  · rintro ⟨k, hk, t, ht, hs⟩
    exact ⟨k, t, hk, ht, hs⟩
  · rintro ⟨k, t, hk, ht, hs⟩
    exact ⟨k, hk, t, ht, hs⟩

theorem foldMembers_append_eq_ok {ms more : List (Key × Draft)} :
    foldMembers step s (ms ++ more) = .ok s' ↔
      ∃ t, foldMembers step s ms = .ok t ∧ foldMembers step t more = .ok s' := by
  induction ms generalizing s with
  | nil =>
    refine ⟨fun h => ⟨s, rfl, h⟩, ?_⟩
    rintro ⟨_, ht, h⟩
    exact Except.ok.inj ht ▸ h
  | cons m ms ih =>
    simp only [List.cons_append, foldMembers_cons_eq_ok, ih]
    constructor
    · rintro ⟨k, u, hk, hu, t, ht, hs⟩
      exact ⟨t, ⟨k, u, hk, hu, ht⟩, hs⟩
    · rintro ⟨t, ⟨k, u, hk, hu, ht⟩, hs⟩
      exact ⟨k, u, hk, hu, t, ht, hs⟩

theorem foldMembers_keeps {P : σ → Prop}
    (hstep : ∀ {s s' k d}, P s → step s k d = .ok s' → P s') {ms : List (Key × Draft)} (h : P s)
    (hs : foldMembers step s ms = .ok s') : P s' := by
  induction ms generalizing s with
  | nil => cases hs; exact h
  | cons m ms ih =>
    obtain ⟨k, t, -, ht, hs⟩ := foldMembers_cons_eq_ok.mp hs
    exact ih (hstep h ht) hs

/-- Two neighbours may change places. What has been met so far is compared by `R`, which every
step respects. -/
structure OrderFree (step : σ → String → Draft → Except Fault σ) (R : σ → σ → Prop) : Prop where
  equivalence : Equivalence R
  congr : ∀ {s s' t k d}, R s t → step s k d = .ok s' → ∃ t', step t k d = .ok t' ∧ R s' t'
  swap : ∀ {s s₁ s₂ k d k' d'}, step s k d = .ok s₁ → step s₁ k' d' = .ok s₂ →
    ∃ t₁ t₂, step s k' d' = .ok t₁ ∧ step t₁ k d = .ok t₂ ∧ R s₂ t₂

theorem OrderFree.foldMembers_congr (h : OrderFree step R) {ms : List (Key × Draft)} (hR : R s t)
    (hs : foldMembers step s ms = .ok s') : ∃ t', foldMembers step t ms = .ok t' ∧ R s' t' := by
  induction ms generalizing s t with
  | nil => cases hs; exact ⟨t, rfl, hR⟩
  | cons m ms ih =>
    obtain ⟨k, s₁, hk, hstep, hs⟩ := foldMembers_cons_eq_ok.mp hs
    obtain ⟨t₁, hstep', hR₁⟩ := h.congr hR hstep
    obtain ⟨t', ht, hR'⟩ := ih hR₁ hs
    exact ⟨t', foldMembers_cons_eq_ok.mpr ⟨k, t₁, hk, hstep', ht⟩, hR'⟩

/-- The members may stand in any order. -/
theorem OrderFree.foldMembers_perm (h : OrderFree step R) {ms ms' : List (Key × Draft)}
    (hperm : ms.Perm ms') (hs : foldMembers step s ms = .ok s') :
    ∃ t', foldMembers step s ms' = .ok t' ∧ R s' t' := by
  induction hperm generalizing s s' with
  | nil => exact ⟨s', hs, h.equivalence.refl s'⟩
  | cons m _ ih =>
    obtain ⟨k, s₁, hk, hstep, hs⟩ := foldMembers_cons_eq_ok.mp hs
    obtain ⟨t', ht, hR⟩ := ih hs
    exact ⟨t', foldMembers_cons_eq_ok.mpr ⟨k, s₁, hk, hstep, ht⟩, hR⟩
  | swap m m' ms =>
    obtain ⟨k', s₁, hk', hstep', hs⟩ := foldMembers_cons_eq_ok.mp hs
    obtain ⟨k, s₂, hk, hstep, hs⟩ := foldMembers_cons_eq_ok.mp hs
    obtain ⟨t₁, t₂, ht₁, ht₂, hR⟩ := h.swap hstep' hstep
    obtain ⟨t', ht, hR'⟩ := h.foldMembers_congr hR hs
    exact ⟨t', foldMembers_cons_eq_ok.mpr ⟨k, t₁, hk, ht₁,
      foldMembers_cons_eq_ok.mpr ⟨k', t₂, hk', ht₂, ht⟩⟩, hR'⟩
  | trans _ _ ih ih' =>
    obtain ⟨t, ht, hR⟩ := ih hs
    obtain ⟨t', ht', hR'⟩ := ih' ht
    exact ⟨t', ht', h.equivalence.trans hR hR'⟩

/-- One member may be exchanged for another one of its key that does the same at the end. -/
theorem OrderFree.foldMembers_exchange (h : OrderFree step Eq) {before after : List (Key × Draft)}
    {k : String} {d : Draft}
    (hs : foldMembers step s (before ++ (.name k, d) :: after) = .ok s') :
    ∃ t, step t k d = .ok s' ∧ ∀ d', step t k d' = .ok s' →
      foldMembers step s (before ++ (.name k, d') :: after) = .ok s' := by
  have hlast : ∀ m, (before ++ m :: after).Perm (before ++ after ++ [m]) := fun m =>
    List.perm_middle.trans (List.perm_append_singleton m _).symm
  obtain ⟨_, hs, rfl⟩ := h.foldMembers_perm (hlast _) hs
  obtain ⟨t, ht, hlaststep⟩ := foldMembers_append_eq_ok.mp hs
  obtain ⟨_, t', hname, hstep, hend⟩ := foldMembers_cons_eq_ok.mp hlaststep
  cases hname
  cases hend
  refine ⟨t, hstep, fun d' hd' => ?_⟩
  obtain ⟨_, ht', rfl⟩ := h.foldMembers_perm (hlast (.name k, d')).symm
    (foldMembers_append_eq_ok.mpr ⟨t, ht, foldMembers_cons_eq_ok.mpr ⟨k, _, rfl, hd', rfl⟩⟩)
  exact ht'

/-- A member under an unknown key leaves no trace, and is taken in if its value fits. -/
structure Lenient (step : σ → String → Draft → Except Fault σ) (R : σ → σ → Prop)
    (unknown : String → Prop) (fits : Draft → Prop) : Prop extends OrderFree step R where
  ignores : ∀ {s s' k d}, unknown k → step s k d = .ok s' → R s s'
  accepts : ∀ {s k d}, unknown k → fits d → ∃ s', step s k d = .ok s'

/-- Two steps side by side. -/
def both (f : α → String → Draft → Except Fault α) (g : β → String → Draft → Except Fault β)
    (s : α × β) (k : String) (d : Draft) : Except Fault (α × β) := do
  let a ← f s.1 k d
  let b ← g s.2 k d
  pure (a, b)

theorem both_eq_ok {f : α → String → Draft → Except Fault α}
    {g : β → String → Draft → Except Fault β} {s s' : α × β} {k : String} {d : Draft} :
    both f g s k d = .ok s' ↔ f s.1 k d = .ok s'.1 ∧ g s.2 k d = .ok s'.2 := by
  obtain ⟨a', b'⟩ := s'
  simp only [both, bind_eq_ok, pure, Except.pure, Except.ok.injEq, Prod.mk.injEq]
  constructor
  · rintro ⟨_, ha, _, hb, rfl, rfl⟩
    exact ⟨ha, hb⟩
  · rintro ⟨ha, hb⟩
    exact ⟨_, ha, _, hb, rfl, rfl⟩

namespace Lenient

variable {unknown : String → Prop} {fits : Draft → Prop}

theorem both {f : α → String → Draft → Except Fault α} {g : β → String → Draft → Except Fault β}
    {P : α → α → Prop} {Q : β → β → Prop} (hf : Lenient f P unknown fits)
    (hg : Lenient g Q unknown fits) :
    Lenient (Decoder.both f g) (fun s t => P s.1 t.1 ∧ Q s.2 t.2) unknown fits where
  equivalence :=
    { refl s := ⟨hf.equivalence.refl s.1, hg.equivalence.refl s.2⟩
      symm h := ⟨hf.equivalence.symm h.1, hg.equivalence.symm h.2⟩
      trans h h' := ⟨hf.equivalence.trans h.1 h'.1, hg.equivalence.trans h.2 h'.2⟩ }
  congr hR h := by
    obtain ⟨hstep, hstep'⟩ := both_eq_ok.mp h
    obtain ⟨a, ha, hP⟩ := hf.congr hR.1 hstep
    obtain ⟨b, hb, hQ⟩ := hg.congr hR.2 hstep'
    exact ⟨(a, b), both_eq_ok.mpr ⟨ha, hb⟩, hP, hQ⟩
  swap h h' := by
    obtain ⟨hfirst, hfirst'⟩ := both_eq_ok.mp h
    obtain ⟨hsecond, hsecond'⟩ := both_eq_ok.mp h'
    obtain ⟨a, a', ha, ha', hP⟩ := hf.swap hfirst hsecond
    obtain ⟨b, b', hb, hb', hQ⟩ := hg.swap hfirst' hsecond'
    exact ⟨(a, b), (a', b'), both_eq_ok.mpr ⟨ha, hb⟩, both_eq_ok.mpr ⟨ha', hb'⟩, hP, hQ⟩
  ignores hk h := by
    obtain ⟨hstep, hstep'⟩ := both_eq_ok.mp h
    exact ⟨hf.ignores hk hstep, hg.ignores hk hstep'⟩
  accepts {s _ _} hk hd := by
    obtain ⟨a, ha⟩ := hf.accepts (s := s.1) hk hd
    obtain ⟨b, hb⟩ := hg.accepts (s := s.2) hk hd
    exact ⟨(a, b), both_eq_ok.mpr ⟨ha, hb⟩⟩

/-- A step that is told by its parts. -/
theorem of_parts {τ : Type} {parts : σ → τ} {inner : τ → String → Draft → Except Fault τ}
    {Q : τ → τ → Prop} (hparts : ∀ s k d, parts <$> step s k d = inner (parts s) k d)
    (h : Lenient inner Q unknown fits) :
    Lenient step (fun s t => Q (parts s) (parts t)) unknown fits := by
  have hstep : ∀ {s k d t}, inner (parts s) k d = .ok t ↔ ∃ s', step s k d = .ok s' ∧ parts s' = t := by
    intro s k d t
    rw [← hparts]
    exact map_eq_ok
  exact
    { equivalence :=
        { refl s := h.equivalence.refl _
          symm hR := h.equivalence.symm hR
          trans hR hR' := h.equivalence.trans hR hR' }
      congr := by
        intro s s' t k d hR hs
        obtain ⟨_, hinner, hR'⟩ := h.congr hR (hstep.mpr ⟨s', hs, rfl⟩)
        obtain ⟨t', ht, rfl⟩ := hstep.mp hinner
        exact ⟨t', ht, hR'⟩
      swap := by
        intro s s₁ s₂ k d k' d' hs hs'
        obtain ⟨_, _, hinner, hinner', hR⟩ :=
          h.swap (hstep.mpr ⟨s₁, hs, rfl⟩) (hstep.mpr ⟨s₂, hs', rfl⟩)
        obtain ⟨t₁, ht, rfl⟩ := hstep.mp hinner
        obtain ⟨t₂, ht', rfl⟩ := hstep.mp hinner'
        exact ⟨t₁, t₂, ht, ht', hR⟩
      ignores := by
        intro s s' k d hk hs
        exact h.ignores hk (hstep.mpr ⟨s', hs, rfl⟩)
      accepts := by
        intro s k d hk hd
        obtain ⟨_, hinner⟩ := h.accepts (s := parts s) hk hd
        obtain ⟨t, ht, -⟩ := hstep.mp hinner
        exact ⟨t, ht⟩ }

/-- Where the parts tell all. -/
theorem of_iff (h : Lenient step R unknown fits) (hR : ∀ s t, R s t ↔ s = t) :
    Lenient step Eq unknown fits := by
  obtain rfl : R = Eq := funext fun s => funext fun t => propext (hR s t)
  exact h

end Lenient

/-- What is met in an object stays the same when its members change places and unknown ones are
added or dropped. -/
theorem Lenient.foldMembers {unknown : String → Prop} {fits : Draft → Prop}
    (h : Lenient step R unknown fits) {ms ms' : List (Key × Draft)}
    (hedit : MemberEdit unknown fits ms ms') (hs : foldMembers step s ms = .ok s') :
    ∃ t', Decoder.foldMembers step s ms' = .ok t' ∧ R s' t' := by
  cases hedit with
  | reorder hperm => exact h.foldMembers_perm hperm hs
  | add hk hd =>
    obtain ⟨s₁, hbefore, hafter⟩ := foldMembers_append_eq_ok.mp hs
    obtain ⟨t₁, hstep⟩ := h.accepts hk hd
    obtain ⟨t', ht, hR⟩ := h.foldMembers_congr (h.ignores hk hstep) hafter
    exact ⟨t', foldMembers_append_eq_ok.mpr ⟨s₁, hbefore,
      foldMembers_cons_eq_ok.mpr ⟨_, t₁, rfl, hstep, ht⟩⟩, hR⟩
  | drop hk =>
    obtain ⟨s₁, hbefore, hafter⟩ := foldMembers_append_eq_ok.mp hs
    obtain ⟨k, s₂, hname, hstep, hafter⟩ := foldMembers_cons_eq_ok.mp hafter
    obtain rfl := Key.name.inj hname
    obtain ⟨t', ht, hR⟩ := h.foldMembers_congr (h.equivalence.symm (h.ignores hk hstep)) hafter
    exact ⟨t', foldMembers_append_eq_ok.mpr ⟨s₁, hbefore, ht⟩, hR⟩

/-- An object is entered, its members are taken one after the other, and something is built of
what was met. -/
def object (step : Place → σ → String → Draft → Except Fault σ) (init : σ)
    (build : σ → Except Fault α) (p : Place) (ms : List (Key × Draft)) (ending : Option Fault) :
    Except Fault α := do
  let p ← p.enter
  let s ← Decoder.foldMembers (step p) init ms
  endsWell ending
  build s

theorem object_eq_ok {step : Place → σ → String → Draft → Except Fault σ} {init : σ}
    {build : σ → Except Fault α} {p : Place} {a : α} {ms : List (Key × Draft)}
    {ending : Option Fault} :
    object step init build p ms ending = .ok a ↔
      1 ≤ p.depth ∧ ending = none ∧ ∃ s,
        Decoder.foldMembers (step { p with depth := p.depth - 1 }) init ms = .ok s ∧
          build s = .ok a := by
  simp only [object, bind_eq_ok, Place.enter_eq_ok_iff, endsWell_eq_ok]
  constructor
  · rintro ⟨_, ⟨hdepth, rfl⟩, s, hs, _, hending, ha⟩
    exact ⟨hdepth, hending, s, hs, ha⟩
  · rintro ⟨hdepth, hending, s, hs, ha⟩
    exact ⟨_, ⟨hdepth, rfl⟩, s, hs, (), hending, ha⟩

/-- What an object says stays the same, where it does not depend on more than `R` compares. -/
theorem Lenient.object {step : Place → σ → String → Draft → Except Fault σ} {init : σ}
    {build : σ → Except Fault α} {p : Place} {a : α} {ending : Option Fault}
    {unknown : String → Prop} {fits : Draft → Prop} {ms ms' : List (Key × Draft)}
    (hstep : Lenient (step { p with depth := p.depth - 1 }) R unknown fits)
    (hbuild : ∀ {s s'}, R s s' → build s = .ok a → build s' = .ok a)
    (hedit : MemberEdit unknown fits ms ms') (h : Decoder.object step init build p ms ending = .ok a) :
    Decoder.object step init build p ms' ending = .ok a := by
  obtain ⟨hdepth, hending, s, hs, ha⟩ := object_eq_ok.mp h
  obtain ⟨s', hs', hR⟩ := hstep.foldMembers hedit hs
  exact object_eq_ok.mpr ⟨hdepth, hending, s', hs', hbuild hR ha⟩

end Fold

/-- One item of a list may be exchanged for another one that is decoded to the same. -/
theorem list_exchange {decoder : Decoder α} {p : Place} {items more : List Draft} {d d' : Draft}
    {ending : Option Fault} {as : List α} {a : α} (ha : as[items.length]? = some a)
    (hd : decoder { p with depth := p.depth - 1 } d = .ok a →
      decoder { p with depth := p.depth - 1 } d' = .ok a)
    (h : list decoder p (.arr (items ++ d :: more) ending) = .ok as) :
    list decoder p (.arr (items ++ d' :: more) ending) = .ok as := by
  have hlist : ∀ {ds : List Draft}, list decoder p (.arr ds ending) = .ok as ↔ 1 ≤ p.depth ∧
      ending = none ∧ List.Forall₂ (fun d a => decoder { p with depth := p.depth - 1 } d = .ok a)
        ds as := by
    intro ds
    simp only [list, bind_eq_ok, Place.enter_eq_ok_iff, endsWell_eq_ok, mapM_eq_ok, pure,
      Except.pure, Except.ok.injEq]
    constructor
    · rintro ⟨_, ⟨hdepth, rfl⟩, as, hds, _, hending, rfl⟩
      exact ⟨hdepth, hending, hds⟩
    · rintro ⟨hdepth, hending, hds⟩
      exact ⟨_, ⟨hdepth, rfl⟩, as, hds, (), hending, rfl⟩
  obtain ⟨hdepth, hending, hds⟩ := hlist.mp h
  refine hlist.mpr ⟨hdepth, hending, ?_⟩
  clear h hlist
  induction items generalizing as with
  | nil =>
    obtain ⟨a', as, hhead, htail, rfl⟩ := List.forall₂_cons_left_iff.mp hds
    obtain rfl := Option.some.inj ha
    exact .cons (hd hhead) htail
  | cons item items ih =>
    obtain ⟨a', as, hhead, htail, rfl⟩ := List.forall₂_cons_left_iff.mp hds
    exact .cons hhead (ih ha htail)

section Slots

variable {own : String → Bool} {k k' : String} {decoder : Decoder α} {p : Place} {d d' : Draft}

/-- What a member does to a slot: it fills it, once, if the key is the slot's own, and leaves it
alone otherwise. -/
def slot (own : String → Bool) (decoder : Decoder α) (p : Place) (s : Option α) (k : String)
    (d : Draft) : Except Fault (Option α) :=
  if own k then once s decoder p d else pure s

/-- What a member does that there is no slot for, where it is skipped. -/
def passOver (keys : List String) (_ : Unit) (k : String) (d : Draft) : Except Fault Unit :=
  if k ∈ keys then pure () else d.skip

/-- What a member does that there is no slot for, where it is kept. -/
def keep (keys : List String) (p : Place) (others : List (String × Json)) (k : String)
    (d : Draft) : Except Fault (List (String × Json)) :=
  if k ∈ keys then pure others else do pure ((k, ← d.read p.depth) :: others)

theorem once_eq_ok {s s' : Option α} :
    once s decoder p d = .ok s' ↔ s = none ∧ ∃ a, decoder p d = .ok a ∧ s' = some a := by
  cases s with
  | some a => exact ⟨fun h => (nomatch h), fun h => (nomatch h.1)⟩
  | none =>
    show some <$> decoder p d = _ ↔ _
    cases decoder p d with
    | error fault => exact ⟨fun h => (nomatch h), fun ⟨_, _, h, _⟩ => (nomatch h)⟩
    | ok a =>
      refine ⟨fun h => ⟨rfl, a, rfl, (Except.ok.inj h).symm⟩, ?_⟩
      rintro ⟨-, _, ha, rfl⟩
      cases ha
      rfl

theorem once_list_exchange {s s' : Option (List α)} {items more : List Draft}
    {ending : Option Fault}
    (h : once s (list decoder) p (.arr (items ++ d :: more) ending) = .ok s') :
    ∃ as, s' = some as ∧ ∀ {a d'}, as[items.length]? = some a →
      (decoder { p with depth := p.depth - 1 } d = .ok a →
        decoder { p with depth := p.depth - 1 } d' = .ok a) →
      once s (list decoder) p (.arr (items ++ d' :: more) ending) = .ok s' := by
  obtain ⟨hs, as, hlist, rfl⟩ := once_eq_ok.mp h
  exact ⟨as, rfl, fun ha hd => once_eq_ok.mpr ⟨hs, as, list_exchange ha hd hlist, rfl⟩⟩

theorem slot_other {s : Option α} (hk : own k = false) : slot own decoder p s k d = .ok s :=
  if_neg (by rw [hk]; exact Bool.false_ne_true)

/-- A slot does not mind which of two members comes first: it is for one of them at most. -/
theorem slot_swap {s s₁ s₂ : Option α} (h : slot own decoder p s k d = .ok s₁)
    (h' : slot own decoder p s₁ k' d' = .ok s₂) :
    ∃ t, slot own decoder p s k' d' = .ok t ∧ slot own decoder p t k d = .ok s₂ := by
  cases hk : own k with
  | false =>
    rw [slot_other hk] at h
    cases h
    exact ⟨s₂, h', slot_other hk⟩
  | true =>
    cases hk' : own k' with
    | false =>
      rw [slot_other hk'] at h'
      cases h'
      exact ⟨s, slot_other hk', h⟩
    | true =>
      -- it cannot be filled twice
      rw [slot, if_pos hk, once_eq_ok] at h
      rw [slot, if_pos hk', once_eq_ok] at h'
      obtain ⟨-, a, -, rfl⟩ := h
      cases h'.1

/-- A slot fills once, so at most one of two members is for it. -/
theorem lenient_slot {unknown : String → Prop} {fits : Draft → Prop}
    (hown : ∀ k, unknown k → own k = false) : Lenient (slot own decoder p) Eq unknown fits where
  equivalence := eq_equivalence
  congr := by
    rintro s s' _ k d rfl hs
    exact ⟨s', hs, rfl⟩
  swap h h' := by
    obtain ⟨t, ht, ht'⟩ := slot_swap h h'
    exact ⟨t, _, ht, ht', rfl⟩
  ignores hk h := Except.ok.inj ((slot_other (hown _ hk)).symm.trans h)
  accepts hk _ := ⟨_, slot_other (hown _ hk)⟩

/-- The slot of a known key. -/
theorem lenient_slot_key {unknown : String → Prop} {fits : Draft → Prop} {keys : List String}
    {key : String} (hunknown : ∀ k, unknown k → k ∉ keys) (hkey : key ∈ keys) :
    Lenient (slot (· == key) decoder p) Eq unknown fits :=
  lenient_slot fun k hk => beq_false_of_ne fun heq => hunknown k hk (heq ▸ hkey)

theorem lenient_passOver {keys : List String} {unknown : String → Prop} {fits : Draft → Prop}
    (hskip : ∀ d, fits d → d.skip = .ok ()) : Lenient (passOver keys) Eq unknown fits where
  equivalence := eq_equivalence
  congr := by
    rintro s s' _ k d rfl hs
    exact ⟨s', hs, rfl⟩
  swap h h' := ⟨_, _, h', h, rfl⟩
  ignores _ _ := rfl
  accepts {s k d} _ hd := by
    by_cases hk : k ∈ keys
    · exact ⟨(), if_pos hk⟩
    · exact ⟨(), (if_neg hk).trans (hskip d hd)⟩

/-- The same members under the known keys. -/
def Alike (known : String → Bool) (ms ms' : List (String × Json)) : Prop :=
  (ms.filter (known ·.1)).Perm (ms'.filter (known ·.1))

theorem alike_equivalence (known : String → Bool) : Equivalence (Alike known) where
  refl _ := .refl _
  symm h := h.symm
  trans h h' := h.trans h'

theorem Alike.mono {known known' : String → Bool} {ms ms' : List (String × Json)}
    (h : Alike known ms ms') (hsub : ∀ k, known' k = true → known k = true) :
    Alike known' ms ms' := by
  have hfilter : ∀ ms : List (String × Json),
      (ms.filter (known ·.1)).filter (known' ·.1) = ms.filter (known' ·.1) := by
    intro ms
    rw [List.filter_filter]
    refine List.filter_congr fun m _ => ?_
    cases hk : known' m.1 with
    | false => rfl
    | true => rw [hsub _ hk]; rfl
  have hperm := h.filter (known' ·.1)
  rwa [hfilter, hfilter] at hperm

theorem Alike.reverse {known : String → Bool} {ms ms' : List (String × Json)}
    (h : Alike known ms ms') : Alike known ms.reverse ms'.reverse := by
  rw [Alike, List.filter_reverse, List.filter_reverse]
  exact (List.reverse_perm _).trans (h.trans (List.reverse_perm _).symm)

theorem ofMembers_eq_map (ms : List (String × Json)) :
    ofMembers ms = ms.map fun m => (.name m.1, .ofJson m.2) := by
  induction ms with
  | nil => rfl
  | cons m ms ih => rw [ofMembers, ih]; rfl

section

variable {known : String → Bool} {ms ms' : List (String × Json)}

/-- Where nothing but the known members counts, their order does not either. -/
theorem Lenient.foldMembers_known {step : σ → String → Draft → Except Fault σ} {s s' : σ}
    (h : Lenient step Eq (fun k => known k = false) (fun d => d.skip = .ok ()))
    (halike : Alike known ms ms') (hs : Decoder.foldMembers step s (ofMembers ms) = .ok s') :
    Decoder.foldMembers step s (ofMembers ms') = .ok s' := by
  have hother : ∀ s k v, known k = false → step s k (.ofJson v) = .ok s := by
    intro s k v hk
    obtain ⟨t, ht⟩ := h.accepts (s := s) hk (Draft.skip_ofJson v)
    rwa [← h.ignores hk ht] at ht
  have hfilter : ∀ (ms : List (String × Json)) (s : σ),
      Decoder.foldMembers step s (ofMembers (ms.filter (known ·.1))) =
        Decoder.foldMembers step s (ofMembers ms) := by
    intro ms
    induction ms with
    | nil => exact fun _ => rfl
    | cons m ms ih =>
      intro s
      obtain ⟨k, v⟩ := m
      cases hk : known k with
      | false =>
        rw [List.filter_cons_of_neg (by simp [hk]), ih, foldMembers_cons (hother s k v hk)]
      | true =>
        rw [List.filter_cons_of_pos (by simp [hk])]
        cases hstep : step s k (.ofJson v) with
        | ok t => rw [foldMembers_cons hstep, foldMembers_cons hstep, ih]
        | error fault =>
          simp only [ofMembers, Decoder.foldMembers, Key.read, hstep, bind, Except.bind, pure,
            Except.pure]
  rw [← hfilter, ofMembers_eq_map] at hs
  rw [← hfilter, ofMembers_eq_map]
  obtain ⟨t, ht, rfl⟩ := h.foldMembers_perm (halike.map _) hs
  exact ht

theorem Lenient.object_known {step : Place → σ → String → Draft → Except Fault σ} {init : σ}
    {build : σ → Except Fault α} {a : α} {ending : Option Fault}
    (h : Lenient (step { p with depth := p.depth - 1 }) Eq (fun k => known k = false)
      (fun d => d.skip = .ok ()))
    (halike : Alike known ms ms')
    (hs : Decoder.object step init build p (ofMembers ms) ending = .ok a) :
    Decoder.object step init build p (ofMembers ms') ending = .ok a := by
  obtain ⟨hdepth, hending, s, hs, ha⟩ := object_eq_ok.mp hs
  exact object_eq_ok.mpr ⟨hdepth, hending, s, h.foldMembers_known halike hs, ha⟩

end

theorem keep_eq_ok {keys : List String} {ms ms' : List (String × Json)} :
    keep keys p ms k d = .ok ms' ↔
      k ∈ keys ∧ ms' = ms ∨ k ∉ keys ∧ ∃ v, d.read p.depth = .ok v ∧ ms' = (k, v) :: ms := by
  by_cases hk : k ∈ keys
  · rw [keep, if_pos hk]
    simp [hk, pure, Except.pure, eq_comm]
  · rw [keep, if_neg hk, bind_eq_ok]
    simp [hk, pure, Except.pure, eq_comm]

theorem keep_congr {keys : List String} {known : String → Bool} {ms ms₁ ms' : List (String × Json)}
    (hR : Alike known ms ms') (h : keep keys p ms k d = .ok ms₁) :
    ∃ ms₁', keep keys p ms' k d = .ok ms₁' ∧ Alike known ms₁ ms₁' := by
  rcases keep_eq_ok.mp h with ⟨hk, rfl⟩ | ⟨hk, v, hv, rfl⟩
  · exact ⟨ms', keep_eq_ok.mpr (.inl ⟨hk, rfl⟩), hR⟩
  · refine ⟨_, keep_eq_ok.mpr (.inr ⟨hk, v, hv, rfl⟩), ?_⟩
    rw [Alike, List.filter_cons, List.filter_cons]
    split
    · exact hR.cons _
    · exact hR

theorem keep_swap {keys : List String} (known : String → Bool) {ms ms₁ ms₂ : List (String × Json)}
    (h : keep keys p ms k d = .ok ms₁) (h' : keep keys p ms₁ k' d' = .ok ms₂) :
    ∃ u₁ u₂, keep keys p ms k' d' = .ok u₁ ∧ keep keys p u₁ k d = .ok u₂ ∧ Alike known ms₂ u₂ := by
  rcases keep_eq_ok.mp h with ⟨hk, rfl⟩ | ⟨hk, v, hv, rfl⟩
  · exact ⟨ms₂, ms₂, h', keep_eq_ok.mpr (.inl ⟨hk, rfl⟩), .refl _⟩
  · rcases keep_eq_ok.mp h' with ⟨hk', rfl⟩ | ⟨hk', v', hv', rfl⟩
    · exact ⟨ms, _, keep_eq_ok.mpr (.inl ⟨hk', rfl⟩), h, .refl _⟩
    · exact ⟨_, _, keep_eq_ok.mpr (.inr ⟨hk', v', hv', rfl⟩),
        keep_eq_ok.mpr (.inr ⟨hk, v, hv, rfl⟩), (List.Perm.swap _ _ _).filter _⟩

/-- What is kept under an unknown key does not count. -/
theorem keep_unknown {keys : List String} {known : String → Bool} {ms ms' : List (String × Json)}
    (hk : known k = false) (h : keep keys p ms k d = .ok ms') : Alike known ms ms' := by
  rcases keep_eq_ok.mp h with ⟨-, rfl⟩ | ⟨-, v, -, rfl⟩
  · exact .refl _
  · rw [Alike, List.filter_cons_of_neg (by simp [hk])]

theorem lenient_keep {keys : List String} {known : String → Bool} {unknown : String → Prop}
    {fits : Draft → Prop} (hknown : ∀ k, unknown k → known k = false)
    (hfits : ∀ d, fits d → Fits p.depth d) :
    Lenient (keep keys p) (Alike known) unknown fits where
  equivalence := alike_equivalence known
  congr := keep_congr
  swap := keep_swap known
  ignores hk h := keep_unknown (hknown _ hk) h
  accepts {others k d} _ hd := by
    by_cases hk : k ∈ keys
    · exact ⟨others, keep_eq_ok.mpr (.inl ⟨hk, rfl⟩)⟩
    · obtain ⟨v, hv⟩ := hfits d hd
      exact ⟨_, keep_eq_ok.mpr (.inr ⟨hk, v, hv, rfl⟩)⟩

end Slots

end Decoder

end Schemata.Json
