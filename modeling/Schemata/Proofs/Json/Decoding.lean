import Schemata.Json.Decode

/-!
# Decoders on written values

What the decoders make of a draft that is a JSON value: a value that is nested no deeper than
a decoder may go is read as it is, and records are read member by member.
-/
namespace Schemata.Json

open Draft.ofJson (ofItems ofMembers)

/-- How many arrays and objects stand inside each other, at most. -/
def nesting : Json → Nat
  | .arr items => nestingItems items + 1
  | .obj members => nestingMembers members + 1
  | _ => 0
where
  nestingItems : List Json → Nat
    | [] => 0
    | v :: vs => max (nesting v) (nestingItems vs)
  nestingMembers : List (String × Json) → Nat
    | [] => 0
    | (_, v) :: ms => max (nesting v) (nestingMembers ms)

/-- An integer of 64 signed bits is told from its value. -/
theorem int64?_eq_some_iff {i : Int} {n : Int64} : int64? i = some n ↔ n.toInt = i := by
  constructor
  · intro h
    rw [int64?] at h
    split at h
    · next hrange =>
      obtain rfl := Option.some.inj h
      exact Int64.toInt_ofInt_of_le hrange.1 (Int.lt_add_one_of_le hrange.2)
    · cases h
  · rintro rfl
    rw [int64?, if_pos ⟨n.minValue_le_toInt, n.toInt_le⟩, Int64.ofInt_toInt]

theorem ofItems_map {α : Type} (f : α → Json) (as : List α) :
    ofItems (as.map f) = as.map fun a => .ofJson (f a) := by
  induction as with
  | nil => rfl
  | cons a as ih => rw [List.map_cons, ofItems, ih, List.map_cons]

mutual

/-- A value is read as it is. -/
theorem Draft.read_ofJson : ∀ (v : Json) {depth : Nat}, v.nesting ≤ depth →
    Draft.read depth (.ofJson v) = .ok v
  | .null, _, _ => rfl
  | .bool _, _, _ => rfl
  | .int _, _, _ => rfl
  | .float _, _, _ => rfl
  | .str _, _, _ => rfl
  | .arr items, depth, h => by
    have hdepth : depth ≠ 0 := by rw [nesting] at h; omega
    have hitems : nesting.nestingItems items ≤ depth - 1 := by rw [nesting] at h; omega
    rw [Draft.ofJson, Draft.read, if_neg hdepth, readItems_ofItems items hitems]
    rfl
  | .obj members, depth, h => by
    have hdepth : depth ≠ 0 := by rw [nesting] at h; omega
    have hmembers : nesting.nestingMembers members ≤ depth - 1 := by rw [nesting] at h; omega
    rw [Draft.ofJson, Draft.read, if_neg hdepth, readMembers_ofMembers members hmembers]
    rfl

theorem Draft.readItems_ofItems : ∀ (vs : List Json) {depth : Nat},
    nesting.nestingItems vs ≤ depth → Draft.read.readItems depth (ofItems vs) = .ok vs
  | [], _, _ => rfl
  | v :: vs, depth, h => by
    rw [nesting.nestingItems] at h
    rw [ofItems, Draft.read.readItems, Draft.read_ofJson v (by omega)]
    simp only [bind, Except.bind]
    rw [Draft.readItems_ofItems vs (by omega)]
    rfl

theorem Draft.readMembers_ofMembers : ∀ (ms : List (String × Json)) {depth : Nat},
    nesting.nestingMembers ms ≤ depth → Draft.read.readMembers depth (ofMembers ms) = .ok ms
  | [], _, _ => rfl
  | (k, v) :: ms, depth, h => by
    rw [nesting.nestingMembers] at h
    rw [ofMembers, Draft.read.readMembers, Key.read]
    simp only [bind, Except.bind, pure, Except.pure]
    rw [Draft.read_ofJson v (by omega)]
    simp only []
    rw [Draft.readMembers_ofMembers ms (by omega)]

end

theorem nesting_strings (xs : List String) : (strings xs).nesting = 1 := by
  have hitems : nesting.nestingItems (xs.map .str) = 0 := by
    induction xs with
    | nil => rfl
    | cons x xs ih =>
      show max 0 (nesting.nestingItems (xs.map .str)) = 0
      rw [ih, Nat.max_self]
  rw [strings, nesting, hitems]

namespace Place

theorem enter_eq_ok {p : Place} (h : 1 ≤ p.depth) : p.enter = .ok { p with depth := p.depth - 1 } :=
  if_neg (Nat.ne_of_gt h)

end Place

namespace Decoder

variable {α σ : Type} {p : Place}

theorem once_ok {slot : Option α} (hs : slot = none) {decoder : Decoder α} {d : Draft} {a : α}
    (h : decoder p d = .ok a) : once slot decoder p d = .ok (some a) := by
  subst hs
  show some <$> decoder p d = _
  rw [h]
  rfl

theorem natBelow_ofNat {bound n : Nat} (h : n < bound) (p : Place) :
    natBelow bound p (.ofJson (.int n)) = .ok n :=
  if_pos h

/-- A list is decoded item by item. -/
theorem list_map {decoder : Decoder α} {toJson : α → Json} {as : List α} (hp : 1 ≤ p.depth)
    (h : ∀ a ∈ as, decoder { p with depth := p.depth - 1 } (.ofJson (toJson a)) = .ok a) :
    list decoder p (.ofJson (.arr (as.map toJson))) = .ok as := by
  have hitems : (ofItems (as.map toJson)).mapM (decoder { p with depth := p.depth - 1 }) = .ok as := by
    rw [ofItems_map]
    induction as with
    | nil => rfl
    | cons a as ih =>
      rw [List.map_cons, List.mapM_cons, h a List.mem_cons_self]
      simp only [bind, Except.bind]
      rw [ih fun a ha => h a (List.mem_cons_of_mem _ ha)]
      rfl
  rw [Draft.ofJson, list, Place.enter_eq_ok hp]
  simp only [bind, Except.bind]
  rw [hitems]
  rfl

theorem list_strings (xs : List String) (hp : 1 ≤ p.depth) :
    list string p (.ofJson (strings xs)) = .ok xs :=
  list_map hp fun _ _ => rfl

theorem foldMembers_cons {step : σ → String → Draft → Except Fault σ} {s s' : σ} {k : String}
    {v : Json} {ms : List (String × Json)} (h : step s k (.ofJson v) = .ok s') :
    foldMembers step s (ofMembers ((k, v) :: ms)) = foldMembers step s' (ofMembers ms) := by
  rw [ofMembers, foldMembers, Key.read]
  simp only [bind, Except.bind, pure, Except.pure]
  rw [h]

theorem foldMembers_append {step : σ → String → Draft → Except Fault σ} {s s' : σ}
    {ms ms' : List (String × Json)} (h : foldMembers step s (ofMembers ms) = .ok s') :
    foldMembers step s (ofMembers (ms ++ ms')) = foldMembers step s' (ofMembers ms') := by
  induction ms generalizing s with
  | nil => cases h; rfl
  | cons m ms ih =>
    obtain ⟨k, v⟩ := m
    rw [ofMembers, foldMembers, Key.read] at h
    simp only [bind, Except.bind, pure, Except.pure] at h
    cases hstep : step s k (.ofJson v) with
    | error fault => rw [hstep] at h; cases h
    | ok t =>
      rw [hstep] at h
      rw [List.cons_append, foldMembers_cons hstep]
      exact ih h

end Decoder

end Schemata.Json
