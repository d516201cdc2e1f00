import Schemata.Decimal.Shortest

/-!
# Written forms of a float

A style says where positional notation ends, whether a whole number keeps a fraction and an
exponent its plus sign, and which way a tie between two shortest decimals goes.
-/
namespace Schemata.Decimal

structure Style where
  tie : Tie
  /-- The positions of the decimal point written without an exponent: above the first,
  up to the second. Without bounds nothing is written with an exponent. -/
  positional : Option (Int × Int)
  /-- Whether a whole number ends in `.0`. -/
  wholeFraction : Bool
  /-- Whether an exponent that is not negative has a plus sign. -/
  plusSign : Bool
  deriving DecidableEq, Repr

/-- SQL text: always positional, whole numbers without a fraction, ties up. -/
def Style.sql : Style := ⟨.up, none, false, false⟩

/-- JSON text: a signed exponent from 10 ^ 16 on and below 10 ^ -5, ties to the even digit. -/
def Style.json : Style := ⟨.even, some (-5, 16), true, true⟩

private def zeros (n : Nat) : List Char := List.replicate n '0'

/-- The digits `ds` with the decimal point after position `point`, which may lie outside. -/
def positional (wholeFraction : Bool) (ds : List Char) (point : Int) : List Char :=
  if point ≤ 0 then '0' :: '.' :: (zeros (-point).toNat ++ ds)
  else if (ds.length : Int) ≤ point then
    ds ++ zeros (point - ds.length).toNat ++ (if wholeFraction then ['.', '0'] else [])
  else ds.take point.toNat ++ '.' :: ds.drop point.toNat

/-- One digit, a point when more follow, and the exponent of the first digit. -/
def exponential (plusSign : Bool) (ds : List Char) (point : Int) : List Char :=
  let power := (toString (point - 1)).toList
  let mark := 'e' :: if plusSign && decide (1 ≤ point) then '+' :: power else power
  match ds with
  | d :: e :: rest => d :: '.' :: e :: (rest ++ mark)
  | _ => ds ++ mark

def Scientific.layout (style : Style) (x : Scientific) : List Char :=
  let ds := (toString x.digits).toList
  let point : Int := ds.length + x.exponent
  match style.positional with
  | none => positional style.wholeFraction ds point
  | some (low, high) =>
    if low < point ∧ point ≤ high then positional style.wholeFraction ds point
    else exponential style.plusSign ds point

private def signed (negative : Bool) (cs : List Char) : String :=
  String.ofList (if negative then '-' :: cs else cs)

/-- The text of a float: the shortest digits that read back, laid out by `style`. -/
def text (style : Style) (f : Float) : String :=
  match Class.ofFloat f with
  | .nan => "NaN"
  | .infinite negative => signed negative ['i', 'n', 'f']
  | .zero negative => signed negative ('0' :: (if style.wholeFraction then ['.', '0'] else []))
  | .finite negative x => signed negative ((x.shortest style.tie).layout style)

/-- The text of a float in SQL and in reports. -/
def sqlText (f : Float) : String := text .sql f

private theorem mem_positional {wholeFraction : Bool} {ds : List Char} {point : Int} {c : Char}
    (h : c ∈ positional wholeFraction ds point) : c ∈ ds ∨ c = '0' ∨ c = '.' := by
  have hz : ∀ n, c ∈ zeros n → c = '0' := fun n hc => (List.mem_replicate.mp hc).2
  unfold positional at h
  split at h
  · simp only [List.mem_cons, List.mem_append] at h
    rcases h with h | h | h | h
    · exact .inr (.inl h)
    · exact .inr (.inr h)
    · exact .inr (.inl (hz _ h))
    · exact .inl h
  · split at h
    · simp only [List.mem_append] at h
      rcases h with (h | h) | h
      · exact .inl h
      · exact .inr (.inl (hz _ h))
      · cases wholeFraction
        · cases h
        · simp only [↓reduceIte, List.mem_cons, List.not_mem_nil, or_false] at h
          exact h.elim (.inr ∘ .inr) (.inr ∘ .inl)
    · simp only [List.mem_append, List.mem_cons] at h
      rcases h with h | h | h
      · exact .inl (List.mem_of_mem_take h)
      · exact .inr (.inr h)
      · exact .inl (List.mem_of_mem_drop h)

private theorem mem_signed {negative : Bool} {cs : List Char} {c : Char}
    (h : c ∈ (signed negative cs).toList) : c ∈ cs ∨ c = '-' := by
  cases negative
  · exact .inl (by simpa [signed] using h)
  · simpa [signed, or_comm] using h

theorem isDigit_of_mem_toString {n : Nat} {c : Char} (h : c ∈ (toString n).toList) :
    c.isDigit := by
  rw [Nat.toString_eq_ofList_toDigits, String.toList_ofList] at h
  exact Nat.isDigit_of_mem_toDigits (by decide) (by decide) h

theorem mem_toString_int {i : Int} {c : Char} (h : c ∈ (toString i).toList) :
    c.isDigit ∨ c = '-' := by
  cases i with
  | ofNat n => exact .inl (isDigit_of_mem_toString h)
  | negSucc n =>
    have hsplit : toString (Int.negSucc n) = "-" ++ toString (n + 1) := rfl
    rw [hsplit, String.toList_append, List.mem_append] at h
    rcases h with h | h
    · exact .inr (List.mem_singleton.mp h)
    · exact .inl (isDigit_of_mem_toString h)

private theorem mem_exponential {plusSign : Bool} {ds : List Char} {point : Int} {c : Char}
    (h : c ∈ exponential plusSign ds point) : c ∈ ds ∨ c.isDigit ∨ c ∈ ['-', '.', 'e', '+'] := by
  simp only [exponential] at h
  generalize hm : ('e' :: if (plusSign && decide (1 ≤ point)) = true
    then '+' :: (toString (point - 1)).toList else (toString (point - 1)).toList) = mark at h
  have hmark : c ∈ mark → c.isDigit ∨ c ∈ ['-', '.', 'e', '+'] := by
    intro hc
    have hc : c = 'e' ∨ c = '+' ∨ c ∈ (toString (point - 1)).toList := by
      rw [← hm] at hc
      refine (List.mem_cons.mp hc).imp_right fun hc => ?_
      split at hc
      · exact List.mem_cons.mp hc
      · exact .inr hc
    rcases hc with rfl | rfl | hc
    · right; decide
    · right; decide
    · exact (mem_toString_int hc).imp_right fun h => by simp [h]
  split at h
  · next d e rest =>
    simp only [List.mem_cons, List.mem_append] at h
    rcases h with rfl | rfl | rfl | h | h
    · exact .inl List.mem_cons_self
    · right; right; decide
    · exact .inl (List.mem_cons_of_mem _ List.mem_cons_self)
    · exact .inl (List.mem_cons_of_mem _ (List.mem_cons_of_mem _ h))
    · exact .inr (hmark h)
  · rcases List.mem_append.mp h with h | h
    · exact .inl h
    · exact .inr (hmark h)

/-- What holds of digits, of a minus, a point and the letters of `inf` and `NaN`, and of the
characters of a layout, holds of the characters of a text. -/
private theorem forall_mem_text {style : Style} {P : Char → Prop} (hdigit : ∀ c, c.isDigit → P c)
    (hmark : ∀ c ∈ ['-', '.', 'i', 'n', 'f', 'N', 'a'], P c)
    (hlayout : ∀ x : Scientific, ∀ c ∈ x.layout style, P c) {f : Float} {c : Char}
    (h : c ∈ (text style f).toList) : P c := by
  unfold text at h
  cases hf : Class.ofFloat f with
  | nan =>
    rw [hf] at h
    exact hmark c ((by decide : "NaN".toList ⊆ ['-', '.', 'i', 'n', 'f', 'N', 'a']) h)
  | infinite negative =>
    rw [hf] at h
    rcases mem_signed h with h | rfl
    · exact hmark c ((by decide : ['i', 'n', 'f'] ⊆ ['-', '.', 'i', 'n', 'f', 'N', 'a']) h)
    · exact hmark _ (by decide)
  | zero negative =>
    rw [hf] at h
    rcases mem_signed h with h | rfl
    · rcases List.mem_cons.mp h with rfl | h
      · exact hdigit _ (by decide)
      · cases hw : style.wholeFraction with
        | false => rw [hw] at h; cases h
        | true =>
          rw [hw] at h
          simp only [↓reduceIte, List.mem_cons, List.not_mem_nil, or_false] at h
          rcases h with rfl | rfl
          · exact hmark _ (by decide)
          · exact hdigit _ (by decide)
    · exact hmark _ (by decide)
  | finite negative x =>
    rw [hf] at h
    rcases mem_signed h with h | rfl
    · exact hlayout _ c h
    · exact hmark _ (by decide)

/-- Beside digits, the text of a float in SQL has only a minus, a point and the letters of
`inf` and `NaN`. -/
theorem mem_sqlText {f : Float} {c : Char} (h : c ∈ (sqlText f).toList) :
    c.isDigit ∨ c ∈ ['-', '.', 'i', 'n', 'f', 'N', 'a'] := by
  refine forall_mem_text (P := fun c => c.isDigit ∨ c ∈ ['-', '.', 'i', 'n', 'f', 'N', 'a'])
    (fun c hc => .inl hc) (fun c hc => .inr hc) (fun x c hc => ?_) h
  have hpositional : c ∈ positional false (toString x.digits).toList _ := hc
  rcases mem_positional hpositional with h | rfl | rfl
  · exact .inl (isDigit_of_mem_toString h)
  · exact .inl (by decide)
  · exact .inr (by decide)

/-- In every style the text of a float has signs, a point and the letters of `inf`, `NaN` and
of the exponent besides digits. -/
theorem mem_text {style : Style} {f : Float} {c : Char} (h : c ∈ (text style f).toList) :
    c.isDigit ∨ c ∈ ['-', '.', 'i', 'n', 'f', 'N', 'a', 'e', '+'] := by
  refine forall_mem_text
    (P := fun c => c.isDigit ∨ c ∈ ['-', '.', 'i', 'n', 'f', 'N', 'a', 'e', '+'])
    (fun c hc => .inl hc) (fun c hc => .inr ?_) (fun x c hc => ?_) h
  · exact List.mem_append_left ['e', '+'] hc
  · have hpositional : ∀ {point : Int},
        c ∈ positional style.wholeFraction (toString x.digits).toList point →
        c.isDigit ∨ c ∈ ['-', '.', 'i', 'n', 'f', 'N', 'a', 'e', '+'] := by
      intro point hp
      rcases mem_positional hp with h | rfl | rfl
      · exact .inl (isDigit_of_mem_toString h)
      · exact .inl (by decide)
      · exact .inr (by decide)
    unfold Scientific.layout at hc
    dsimp only at hc
    split at hc
    · exact hpositional hc
    · split at hc
      · exact hpositional hc
      · rcases mem_exponential hc with h | h | h
        · exact .inl (isDigit_of_mem_toString h)
        · exact .inl h
        · exact .inr ((by decide :
            ['-', '.', 'e', '+'] ⊆ ['-', '.', 'i', 'n', 'f', 'N', 'a', 'e', '+']) h)

/-- Whether `f` is neither infinite nor a NaN. -/
def isFinite (f : Float) : Bool :=
  match Class.ofFloat f with
  | .nan | .infinite _ => false
  | _ => true

end Schemata.Decimal
