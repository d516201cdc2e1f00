import Schemata.Proofs.Quoting.Reading

/-!
# Cutting a text outside its quotes

A text that the doubling lexer reads can be cut between its pieces, and the parts written out
again: `write_read` says that nothing is lost by reading. Two ways to cut are used. Statements
end with a semicolon outside quotes. The clauses of a statement are kept apart by commas
outside quotes and outside brackets, so the lexer's pieces are followed with a depth: `climb`
knows which pieces may stand at which depth without being a cut.
-/
namespace Schemata.Quoting

/-- The characters that a piece is read from. -/
def Piece.chars (q : Char) : Piece → List Char
  | .bare c => [c]
  | .token t => t.kind.mark q :: (Text.double (t.kind.mark q) t.text.toList ++ [t.kind.mark q])

def write (q : Char) (ps : List Piece) : String := String.ofList (ps.flatMap (Piece.chars q))

/-- What the lexer has taken in since the last piece that it completed. -/
def Mode.taken (q : Char) : Mode → List Char
  | .outside => []
  | .inside kind text => kind.mark q :: Text.double (kind.mark q) text
  | .behind kind text => kind.mark q :: (Text.double (kind.mark q) text ++ [kind.mark q])

variable {q : Char}

theorem double_append (q : Char) (cs ds : List Char) :
    Text.double q (cs ++ ds) = Text.double q cs ++ Text.double q ds := by
  induction cs with
  | nil => rfl
  | cons c cs ih =>
    simp only [List.cons_append, Text.double, ih]
    split <;> rfl

theorem chars_enter (q c : Char) :
    (enter q c).1.flatMap (Piece.chars q) ++ (enter q c).2.taken q = [c] := by
  unfold enter opened?
  by_cases hq : c = q
  · simp [hq, Mode.taken, Kind.mark, Text.double]
  · by_cases hs : c = '\''
    · simp [hs, show '\'' ≠ q from hs ▸ hq, Mode.taken, Kind.mark, Text.double]
    · simp [hq, hs, Piece.chars, Mode.taken]

/-- A step puts out or keeps what it takes in. -/
theorem chars_step (q c : Char) (m : Mode) :
    (step q m c).1.flatMap (Piece.chars q) ++ (step q m c).2.taken q = m.taken q ++ [c] := by
  cases m with
  | outside => exact chars_enter q c
  | inside kind text =>
    by_cases hc : c = kind.mark q
    · simp [step, hc, Mode.taken]
    · simp [step, hc, Mode.taken, double_append, Text.double]
  | behind kind text =>
    by_cases hc : c = kind.mark q
    · simp [step, hc, Mode.taken, double_append, Text.double]
    · simp only [step, if_neg hc, List.flatMap_cons, List.append_assoc, chars_enter]
      simp [Piece.chars, Mode.taken]

theorem chars_scan {cs : List Char} {m : Mode} {ps : List Piece} (h : scan q m cs = some ps) :
    ps.flatMap (Piece.chars q) = m.taken q ++ cs := by
  induction cs generalizing m ps with
  | nil =>
    cases m with
    | outside => obtain rfl := Option.some.inj h; rfl
    | inside kind text => cases h
    | behind kind text =>
      obtain rfl := Option.some.inj h
      simp [Mode.taken, Piece.chars]
  | cons c cs ih =>
    obtain ⟨rs, hr, rfl⟩ := Option.map_eq_some_iff.mp h
    rw [List.flatMap_append, ih hr, ← List.append_assoc, chars_step, List.append_assoc,
      List.singleton_append]

/-- A text can be written again from what it reads as. -/
theorem write_read {s : String} {ps : List Piece} (h : read q s = some ps) : write q ps = s := by
  rw [write, chars_scan h]
  exact String.ofList_toList

/-! ## Statements -/

/-- The depth in brackets behind a piece. -/
def nest (n : Nat) : Piece → Nat
  | .bare '(' => n + 1
  | .bare ')' => n - 1
  | _ => n

/-- Cuts at every comma with a blank behind it that stands outside brackets. -/
def cutClauses : Nat → List Piece → List (List Piece)
  | _, [] => [[]]
  | 0, .bare ',' :: .bare ' ' :: ps => [] :: cutClauses 0 ps
  | n, p :: ps => (cutClauses (nest n p) ps).modifyHead (p :: ·)

/-- The parts of a text between the commas outside quotes and brackets. -/
def clausesOf (q : Char) (s : String) : Option (List String) :=
  (read q s).map fun ps => (cutClauses 0 ps).map (write q)

/-- The depth behind a piece that stands at a depth; nothing where it closes a bracket that is
not open, or is a comma outside brackets. -/
def climb : Nat → Piece → Option Nat
  | n, .bare '(' => some (n + 1)
  | 0, .bare ')' => none
  | n + 1, .bare ')' => some n
  | 0, .bare ',' => none
  | n, _ => some n

theorem nest_of_climb {n m : Nat} {p : Piece} (h : climb n p = some m) : nest n p = m := by
  unfold climb at h
  split at h
  · exact Option.some.inj h
  · cases h
  · exact Option.some.inj h
  · cases h
  · next h₁ h₂ h₃ h₄ =>
    obtain rfl := Option.some.inj h
    unfold nest
    split
    · exact absurd rfl h₁
    · cases n with
      | zero => exact absurd rfl (h₂ rfl)
      | succ n => exact absurd rfl (h₃ n rfl)
    · rfl

theorem cutClauses_cons {n m : Nat} {p : Piece} (h : climb n p = some m) (ps : List Piece) :
    cutClauses n (p :: ps) = (cutClauses m ps).modifyHead (p :: ·) := by
  rw [cutClauses, nest_of_climb h]
  rintro qs rfl rfl -
  cases h

/-- What climbs on to the end belongs to the clause that has begun. -/
theorem cutClauses_append {n m : Nat} {ps : List Piece} (h : ps.foldlM climb n = some m)
    (qs : List Piece) : cutClauses n (ps ++ qs) = (cutClauses m qs).modifyHead (ps ++ ·) := by
  induction ps generalizing n with
  | nil =>
    obtain rfl := Option.some.inj h
    cases hcut : cutClauses n qs <;> simp [hcut]
  | cons p ps ih =>
    rw [List.foldlM_cons] at h
    obtain ⟨k, hk, hps⟩ := Option.bind_eq_some_iff.mp h
    rw [List.cons_append, cutClauses_cons hk, ih hps, List.modifyHead_modifyHead]
    rfl

theorem cutClauses_eq_singleton {ps : List Piece} (h : ps.foldlM climb 0 = some 0) :
    cutClauses 0 ps = [ps] := by
  have hcut := cutClauses_append h []
  rw [List.append_nil] at hcut
  rw [hcut, cutClauses, List.modifyHead_cons, List.append_nil]

theorem cutClauses_join {ps : List Piece} (h : ps.foldlM climb 0 = some 0) (qs : List Piece) :
    cutClauses 0 (ps ++ .bare ',' :: .bare ' ' :: qs) = ps :: cutClauses 0 qs := by
  rw [cutClauses_append h, cutClauses, List.modifyHead_cons, List.append_nil]

end Schemata.Quoting
