import Mathlib.Data.List.TakeDrop
import Schemata.Json.Reader
import Schemata.Json.Writer

/-!
# Numbers read back

A number is read up to the first character that does not go on with it. So what is read at
the end of a text is read as well before a comma or a bracket: the scanners are shown to take
the same characters whatever follows, as long as that does not go on with a number. Integers
of 64 bits read back always. Whether a float reads back is a matter of rounding twice, and is
asked of the float alone.
-/
namespace Schemata.Json.Number

/-- The first character, if there is one. -/
def Heads (p : Char → Bool) (cs : List Char) : Prop := cs.head?.all p

instance (p : Char → Bool) (cs : List Char) : Decidable (Heads p cs) :=
  inferInstanceAs (Decidable (_ = true))

/-- What does not go on with a number. -/
def Stops (cs : List Char) : Prop :=
  Heads (fun c => !c.isDigit && c ≠ '.' && c ≠ 'e' && c ≠ 'E') cs

instance (cs : List Char) : Decidable (Stops cs) := inferInstanceAs (Decidable (Heads _ cs))

section Heads

variable {p q : Char → Bool} {cs ds : List Char}

theorem Heads.append (hcs : Heads p cs) (hds : Heads p ds) : Heads p (cs ++ ds) := by
  cases cs with
  | nil => exact hds
  | cons c cs => exact hcs

theorem Heads.mono (hpq : ∀ c, p c → q c) (h : Heads p cs) : Heads q cs := by
  cases cs with
  | nil => rfl
  | cons c cs => exact hpq c h

theorem Stops.heads_ne_point (h : Stops cs) : Heads (fun c => !c.isDigit && c ≠ '.') cs :=
  Heads.mono (fun c hc => by simp only [Bool.and_eq_true] at hc ⊢; exact hc.1.1) h

theorem Stops.heads_not_digit (h : Stops cs) : Heads (!·.isDigit) cs :=
  h.heads_ne_point.mono fun _ hc => ((Bool.and_eq_true _ _).mp hc).1

end Heads

/-! ### Runs of digits -/

variable {cs ds more rest : List Char}

theorem spanDigits_append (hds : ds.all Char.isDigit) (hmore : Heads (!·.isDigit) more) :
    spanDigits (ds ++ more) = (ds, more) := by
  have hds : ∀ c ∈ ds, c.isDigit = true := List.all_eq_true.mp hds
  have hnil : more.takeWhile Char.isDigit = [] := by
    cases more with
    | nil => rfl
    | cons c more => exact List.takeWhile_cons_of_neg (by simpa [Heads] using hmore)
  have hall : more.dropWhile Char.isDigit = more := by
    cases more with
    | nil => rfl
    | cons c more => exact List.dropWhile_cons_of_neg (by simpa [Heads] using hmore)
  rw [spanDigits, List.span_eq_takeWhile_dropWhile, List.takeWhile_append_of_pos hds,
    List.dropWhile_append_of_pos hds, hnil, hall, List.append_nil]

theorem of_spanDigits (h : spanDigits cs = (ds, rest)) :
    cs = ds ++ rest ∧ ds.all Char.isDigit := by
  rw [spanDigits, List.span_eq_takeWhile_dropWhile] at h
  obtain ⟨rfl, rfl⟩ := Prod.mk.inj h
  exact ⟨List.takeWhile_append_dropWhile.symm, List.all_takeWhile⟩

/-! ### The parts of a literal -/

theorem scanWhole_digits {d : Char} (hd : d.isDigit) (hzero : d ≠ '0')
    (hds : ds.all Char.isDigit) (hmore : Heads (!·.isDigit) more) :
    scan.scanWhole (d :: ds ++ more) = .ok (d :: ds, more) := by
  have hspan : spanDigits (d :: ds ++ more) = (d :: ds, more) :=
    spanDigits_append (by rw [List.all_cons, hd, hds]; rfl) hmore
  rw [List.cons_append, scan.scanWhole.eq_def]
  split
  · next h => cases h
  · next h => exact absurd (List.cons.inj h).1 hzero
  · next h =>
    obtain ⟨rfl, rfl⟩ := List.cons.inj h
    rw [if_pos hd, ← List.cons_append, hspan]
    rfl

theorem scanWhole_zero (hmore : Heads (!·.isDigit) more) :
    scan.scanWhole ('0' :: more) = .ok (['0'], more) := by
  cases more with
  | nil => rfl
  | cons c more =>
    have hc : c.isDigit = false := by simpa [Heads] using hmore
    rw [scan.scanWhole]
    simp only [hc, Bool.false_eq_true, ↓reduceIte]
    rfl

/-- The whole part is taken as it stands, whatever follows that is not a digit. -/
theorem of_scanWhole {w : List Char} (h : scan.scanWhole cs = .ok (w, rest)) :
    cs = w ++ rest ∧ ∀ more, Heads (!·.isDigit) more → scan.scanWhole (w ++ more) = .ok (w, more) := by
  rw [scan.scanWhole.eq_def] at h
  split at h
  · cases h
  · next cs =>
    have hzero : cs = rest ∧ w = ['0'] := by
      split at h
      · split at h
        · cases h
        · cases h; exact ⟨rfl, rfl⟩
      · cases h; exact ⟨rfl, rfl⟩
    obtain ⟨rfl, rfl⟩ := hzero
    exact ⟨rfl, fun more hmore => scanWhole_zero hmore⟩
  · next c cs hzero =>
    split at h
    · next hc =>
      have hspan : spanDigits (c :: cs) = (w, rest) := Except.ok.inj h
      obtain ⟨happend, hall⟩ := of_spanDigits hspan
      cases w with
      | nil =>
        -- the first character is a digit, so it is taken
        rw [spanDigits, List.span_eq_takeWhile_dropWhile, List.takeWhile_cons_of_pos hc] at hspan
        cases hspan
      | cons d ds =>
        obtain ⟨rfl, -⟩ := List.cons.inj happend
        rw [List.all_cons, Bool.and_eq_true] at hall
        exact ⟨happend, fun more hmore => scanWhole_digits hc hzero hall.2 hmore⟩
    · cases h

/-- The text of a fraction. -/
def fractionText : Option (List Char) → List Char
  | none => []
  | some ds => '.' :: ds

theorem scanFraction_absent (h : Heads (fun c => !c.isDigit && c ≠ '.') more) :
    scan.scanFraction more = .ok (none, more) := by
  rw [scan.scanFraction.eq_def]
  split
  · simp [Heads] at h
  · rfl

theorem of_scanFraction {f : Option (List Char)} (h : scan.scanFraction cs = .ok (f, rest)) :
    cs = fractionText f ++ rest ∧
      ∀ more, Heads (fun c => !c.isDigit && c ≠ '.') more →
        scan.scanFraction (fractionText f ++ more) = .ok (f, more) := by
  rw [scan.scanFraction.eq_def] at h
  split at h
  · next cs =>
    split at h
    · cases h
    · cases h
    · next ds rest' hnil hds hspan =>
      cases h
      obtain ⟨rfl, hall⟩ := of_spanDigits hspan
      refine ⟨rfl, fun more hmore => ?_⟩
      have hspan' : spanDigits (ds ++ more) = (ds, more) :=
        spanDigits_append hall (hmore.mono fun c hc => (Bool.and_eq_true _ _ ▸ hc).1)
      show scan.scanFraction ('.' :: (ds ++ more)) = _
      rw [scan.scanFraction, hspan']
      cases ds with
      | nil => exact absurd rfl hds
      | cons d ds => rfl
  · cases h
    exact ⟨rfl, fun more hmore => scanFraction_absent hmore⟩

theorem of_takeSign {negative : Bool} (h : takeSign cs = (negative, rest)) :
    ∃ sign, cs = sign ++ rest ∧
      ∀ d more, d.isDigit → takeSign (sign ++ d :: more) = (negative, d :: more) := by
  unfold takeSign at h
  split at h
  · cases h; exact ⟨['+'], rfl, fun _ _ _ => rfl⟩
  · cases h; exact ⟨['-'], rfl, fun _ _ _ => rfl⟩
  · cases h
    refine ⟨[], rfl, fun d more hd => ?_⟩
    rw [List.nil_append, takeSign.eq_def]
    split
    · next hplus => rw [(List.cons.inj hplus).1] at hd; cases hd
    · next hminus => rw [(List.cons.inj hminus).1] at hd; cases hd
    · rfl

theorem scanExponent_absent (h : Stops more) : scan.scanExponent more = .ok (none, more) := by
  cases more with
  | nil => rfl
  | cons c more =>
    have hc : ¬ (c = 'e' ∨ c = 'E') := by
      rintro (rfl | rfl) <;> simp [Stops, Heads] at h
    rw [scan.scanExponent, if_neg hc]
    rfl

/-- An exponent is taken with its mark and its sign, whatever follows that is not a digit. -/
theorem of_scanExponent {e : Option (Bool × List Char)}
    (h : scan.scanExponent cs = .ok (e, rest)) :
    ∃ pre, cs = pre ++ rest ∧ Heads (fun c => c = 'e' || c = 'E') pre ∧
      ∀ more, Stops more → scan.scanExponent (pre ++ more) = .ok (e, more) := by
  cases cs with
  | nil =>
    cases h
    exact ⟨[], rfl, rfl, fun more hmore => scanExponent_absent hmore⟩
  | cons c cs =>
    rw [scan.scanExponent] at h
    split at h
    · next hc =>
      cases hsign : takeSign cs with
      | mk negative unsigned =>
      rw [hsign] at h
      dsimp only at h
      split at h
      · cases h
      · cases h
      · next ds rest' hempty hds hspan =>
        cases h
        obtain ⟨sign, rfl, htake⟩ := of_takeSign hsign
        obtain ⟨rfl, hall⟩ := of_spanDigits hspan
        cases ds with
        | nil => exact absurd rfl hds
        | cons d ds =>
          rw [List.all_cons, Bool.and_eq_true] at hall
          refine ⟨c :: (sign ++ d :: ds), by simp, by simpa [Heads] using hc, fun more hmore => ?_⟩
          have hspan' : spanDigits (d :: ds ++ more) = (d :: ds, more) :=
            spanDigits_append (by rw [List.all_cons, hall.1, hall.2]; rfl) hmore.heads_not_digit
          rw [List.cons_append, List.append_assoc, scan.scanExponent, if_pos hc, List.cons_append,
            htake d _ hall.1]
          dsimp only
          rw [← List.cons_append, hspan']
          rfl
    · cases h
      exact ⟨[], rfl, rfl, fun more hmore => scanExponent_absent hmore⟩

/-- A literal is read part by part. -/
theorem scan_eq_ok_iff {lit : Literal} :
    scan cs = .ok (lit, rest) ↔ ∃ behindWhole behindFraction,
      scan.scanWhole cs = .ok (lit.whole, behindWhole) ∧
      scan.scanFraction behindWhole = .ok (lit.fraction, behindFraction) ∧
      scan.scanExponent behindFraction = .ok (lit.exponent, rest) := by
  constructor
  · intro h
    rw [scan] at h
    cases hw : scan.scanWhole cs with
    | error e => rw [hw] at h; cases h
    | ok p =>
      cases hf : scan.scanFraction p.2 with
      | error e => simp only [hw, hf, bind, Except.bind] at h; cases h
      | ok q =>
        cases he : scan.scanExponent q.2 with
        | error e => simp only [hw, hf, he, bind, Except.bind] at h; cases h
        | ok r =>
          simp only [hw, hf, he, bind, Except.bind, pure, Except.pure] at h
          cases h
          exact ⟨p.2, q.2, rfl, hf, he⟩
  · rintro ⟨behindWhole, behindFraction, hw, hf, he⟩
    rw [scan, hw]
    simp only [bind, Except.bind, hf, he]
    rfl

/-- A literal is read alike whatever follows that does not go on with it. -/
theorem of_scan {lit : Literal} (h : scan cs = .ok (lit, rest)) :
    ∃ pre, cs = pre ++ rest ∧ ∀ more, Stops more → scan (pre ++ more) = .ok (lit, more) := by
  obtain ⟨cs₁, cs₂, hw, hf, he⟩ := scan_eq_ok_iff.mp h
  obtain ⟨rfl, hwhole⟩ := of_scanWhole hw
  obtain ⟨rfl, hfraction⟩ := of_scanFraction hf
  obtain ⟨pre, rfl, hpre, hexponent⟩ := of_scanExponent he
  refine ⟨lit.whole ++ (fractionText lit.fraction ++ pre), by simp, fun more hmore => ?_⟩
  -- what follows each part does not go on with it
  have hbehind : Heads (fun c => !c.isDigit && c ≠ '.') (pre ++ more) := by
    refine Heads.append (hpre.mono fun c hc => ?_) hmore.heads_ne_point
    rcases (Bool.or_eq_true _ _).mp hc with hc | hc <;> rw [of_decide_eq_true hc] <;> decide
  have hdigit : Heads (!·.isDigit) (fractionText lit.fraction ++ (pre ++ more)) := by
    refine Heads.append ?_ (hbehind.mono fun c hc => ((Bool.and_eq_true _ _).mp hc).1)
    cases lit.fraction <;> rfl
  rw [List.append_assoc, List.append_assoc]
  exact scan_eq_ok_iff.mpr ⟨_, _, hwhole _ hdigit, hfraction _ hbehind, hexponent more hmore⟩

/-! ### Integers -/

/-- A decimal numeral is `0` or does not begin with a zero. -/
theorem toDigits_eq_zero_or (n : Nat) :
    (n = 0 ∧ Nat.toDigits 10 n = ['0']) ∨
      ∃ d ds, Nat.toDigits 10 n = d :: ds ∧ d.isDigit ∧ d ≠ '0' ∧ ds.all Char.isDigit := by
  induction n using Nat.strongRecOn with
  | ind n ih =>
    by_cases hn : n < 10
    · rw [Nat.toDigits_of_lt_base hn]
      have hsmall : ∀ n < 10, (n = 0 ∧ [n.digitChar] = ['0']) ∨
          (n.digitChar.isDigit ∧ n.digitChar ≠ '0') := by decide
      rcases hsmall n hn with h | ⟨hd, hzero⟩
      · exact .inl h
      · exact .inr ⟨_, [], rfl, hd, hzero, rfl⟩
    · have hle : 10 ≤ n := Nat.le_of_not_lt hn
      right
      rw [Nat.toDigits_of_base_le (by decide) hle]
      have hlast : (n % 10).digitChar.isDigit := by
        rw [Nat.isDigit_digitChar]
        exact decide_eq_true (Nat.mod_lt n (by decide))
      rcases ih (n / 10) (by omega) with ⟨hzero, -⟩ | ⟨d, ds, heq, hd, hne, hds⟩
      · omega
      · rw [heq, List.cons_append]
        refine ⟨d, ds ++ [(n % 10).digitChar], rfl, hd, hne, ?_⟩
        rw [List.all_append, hds, List.all_cons, hlast]
        rfl

theorem toList_toString_ofNat (n : Nat) : (toString (Int.ofNat n)).toList = Nat.toDigits 10 n :=
  Nat.toList_repr

theorem toList_toString_negSucc (n : Nat) :
    (toString (Int.negSucc n)).toList = '-' :: Nat.toDigits 10 (n + 1) := by
  have hsplit : toString (Int.negSucc n) = "-" ++ Nat.repr (n + 1) := rfl
  rw [hsplit, String.toList_append, Nat.toList_repr]
  rfl

theorem digitsValue_toDigits (n : Nat) : digitsValue (Nat.toDigits 10 n) = n :=
  Nat.ofDigitChars_ten_toDigits

/-- A decimal numeral is read as a whole number. -/
theorem scan_toDigits (n : Nat) (hmore : Stops more) :
    scan (Nat.toDigits 10 n ++ more) = .ok (⟨Nat.toDigits 10 n, none, none⟩, more) := by
  have hwhole : scan.scanWhole (Nat.toDigits 10 n ++ more) = .ok (Nat.toDigits 10 n, more) := by
    rcases toDigits_eq_zero_or n with ⟨-, heq⟩ | ⟨d, ds, heq, hd, hzero, hds⟩
    · rw [heq]
      exact scanWhole_zero hmore.heads_not_digit
    · rw [heq]
      exact scanWhole_digits hd hzero hds hmore.heads_not_digit
  exact scan_eq_ok_iff.mpr
    ⟨more, more, hwhole, scanFraction_absent hmore.heads_ne_point, scanExponent_absent hmore⟩

end Schemata.Json.Number

namespace Schemata.Json

open Number (Stops)

/-- The integers that stay integers: those of 64 bits, signed or unsigned. -/
def IsInteger (i : Int) : Prop := Int64.minValue.toInt ≤ i ∧ i < UInt64.size

/-- The text of a float reads as the float. -/
def ReadsBack (f : Float) : Prop := Document.ofText (render (.float f)) = .ofJson (.float f)

namespace Reader

variable {rest : List Char}

theorem number_toDigits {n : Nat} (hn : n < UInt64.size) (hrest : Stops rest) :
    number false (Nat.toDigits 10 n ++ rest) = (.int n, some rest) := by
  rw [number, Number.scan_toDigits n hrest]
  simp only [Number.Literal.value?, Number.digitsValue_toDigits, hn, Bool.false_eq_true, ↓reduceIte]

theorem number_toDigits_negative {n : Nat} (hpos : 0 < n) (hn : Int64.minValue.toInt ≤ -(n : Int))
    (hrest : Stops rest) :
    number true (Nat.toDigits 10 n ++ rest) = (.int (-n), some rest) := by
  rw [number, Number.scan_toDigits n hrest]
  simp only [Number.Literal.value?, Number.digitsValue_toDigits, hpos, hn, and_self, ↓reduceIte]

/-- At a digit a number is read. -/
theorem value_digit {c : Char} (hc : c.isDigit) (cs : List Char) (fuel : Nat) :
    value (fuel + 1) (c :: cs) = number false (c :: cs) := by
  have hblank : skipBlanks (c :: cs) = c :: cs := by
    refine List.dropWhile_cons_of_neg ?_
    intro hblank
    simp only [Bool.or_eq_true, decide_eq_true_eq] at hblank
    rcases hblank with ((rfl | rfl) | rfl) | rfl <;> cases hc
  have hne : ∀ {x : Char}, x.isDigit = false → c ≠ x := by
    rintro x hx rfl
    rw [hc] at hx
    cases hx
  rw [value, hblank]
  split
  · next h => cases h
  · next h => exact absurd (List.cons.inj h).1 (hne rfl)
  · next h => exact absurd (List.cons.inj h).1 (hne rfl)
  · next h => exact absurd (List.cons.inj h).1 (hne rfl)
  · next h => exact absurd (List.cons.inj h).1 (hne rfl)
  · next h => exact absurd (List.cons.inj h).1 (hne rfl)
  · next h => exact absurd (List.cons.inj h).1 (hne rfl)
  · next h => exact absurd (List.cons.inj h).1 (hne rfl)
  · next h =>
    obtain ⟨rfl, rfl⟩ := List.cons.inj h
    rw [if_pos hc]

theorem value_minus (cs : List Char) (fuel : Nat) :
    value (fuel + 1) ('-' :: cs) = number true cs := rfl

theorem value_int {i : Int} (hi : IsInteger i) (hrest : Stops rest) (fuel : Nat) :
    value (fuel + 1) ((toString i).toList ++ rest) = (.int i, some rest) := by
  obtain ⟨hlow, hhigh⟩ := hi
  cases i with
  | ofNat n =>
    have hread : number false (Nat.toDigits 10 n ++ rest) = (.int n, some rest) :=
      number_toDigits (Int.ofNat_lt.mp hhigh) hrest
    rw [Number.toList_toString_ofNat]
    rcases Number.toDigits_eq_zero_or n with ⟨-, heq⟩ | ⟨d, ds, heq, hd, -, -⟩
    · rw [heq, List.cons_append] at hread ⊢
      rw [value_digit (by decide), hread]
      rfl
    · rw [heq, List.cons_append] at hread ⊢
      rw [value_digit hd, hread]
      rfl
  | negSucc n =>
    rw [Number.toList_toString_negSucc, List.cons_append, value_minus,
      number_toDigits_negative (Nat.succ_pos n) hlow hrest]
    rfl

/-! ### Floats -/

theorem of_number_eq_float {negative : Bool} {cs : List Char} {f : Float} {r : Option (List Char)}
    (h : number negative cs = (.float f, r)) :
    ∃ lit rest, Number.scan cs = .ok (lit, rest) ∧ lit.value? negative = some (.float f) ∧
      r = some rest := by
  rw [number] at h
  cases hs : Number.scan cs with
  | error e => simp only [hs] at h; cases h
  | ok p =>
    obtain ⟨lit, rest⟩ := p
    simp only [hs] at h
    split at h
    · cases h
    · next hv => cases h; exact ⟨lit, rest, rfl, hv, rfl⟩
    · cases h

/-- A number that is read as a float is read alike whatever follows that does not go on with
it. -/
theorem number_float_append {negative : Bool} {cs : List Char} {f : Float} {r : Option (List Char)}
    (h : number negative cs = (.float f, r)) :
    ∃ pre left, cs = pre ++ left ∧ r = some left ∧
      ∀ more, Stops more → number negative (pre ++ more) = (.float f, some more) := by
  obtain ⟨lit, left, hs, hv, rfl⟩ := of_number_eq_float h
  obtain ⟨pre, rfl, hpre⟩ := Number.of_scan hs
  refine ⟨pre, left, rfl, rfl, fun more hmore => ?_⟩
  rw [number, hpre more hmore]
  simp only [hv]

theorem keyword_ne_float {lead : Lead} {tail : List Char} {v : Draft} {f : Float}
    (hv : v ≠ .float f) (cs : List Char) (r : Option (List Char)) :
    keyword lead tail v cs ≠ (.float f, r) := by
  intro h
  rw [keyword] at h
  split at h
  · exact hv (Prod.mk.inj h).1
  · cases h

theorem string_ne_float (cs : List Char) (f : Float) (r : Option (List Char)) :
    string cs ≠ (.float f, r) := by
  intro h
  rw [string] at h
  split at h <;> cases h

/-- Only a number is read as a float. -/
theorem of_value_eq_float {fuel : Nat} {cs : List Char} {f : Float} {r : Option (List Char)}
    (h : value fuel cs = (.float f, r)) :
    (∃ tail, skipBlanks cs = '-' :: tail ∧ number true tail = (.float f, r)) ∨
      ∃ c tail, skipBlanks cs = c :: tail ∧ c.isDigit ∧ number false (c :: tail) = (.float f, r) := by
  cases fuel with
  | zero => cases h
  | succ fuel =>
    rw [value] at h
    split at h
    · cases h
    · exact absurd h (keyword_ne_float Draft.noConfusion _ _)
    · exact absurd h (keyword_ne_float Draft.noConfusion _ _)
    · exact absurd h (keyword_ne_float Draft.noConfusion _ _)
    · exact absurd h (string_ne_float _ _ _)
    · next tail hskip => exact .inl ⟨tail, hskip, h⟩
    · split at h <;> cases h
    · split at h <;> cases h
    · next c tail _ _ _ _ _ _ _ hskip =>
      split at h
      · next hc => exact .inr ⟨c, tail, hskip, hc, h⟩
      · cases h

/-- Blanks are passed over, and a text without blanks is left as it is. -/
theorem skipBlanks_eq_self {cs : List Char} (h : ∀ c ∈ cs, c ∉ [' ', '\n', '\t', '\r']) :
    skipBlanks cs = cs := by
  cases cs with
  | nil => rfl
  | cons c cs =>
    refine List.dropWhile_cons_of_neg ?_
    have hc := h c List.mem_cons_self
    simp only [List.mem_cons, List.not_mem_nil, or_false, not_or] at hc
    simp [hc]

theorem not_blank_of_mem_text {f : Float} {c : Char} (h : c ∈ (Decimal.text .json f).toList) :
    c ∉ [' ', '\n', '\t', '\r'] := by
  rcases Decimal.mem_text h with hc | hc
  · intro hblank
    simp only [List.mem_cons, List.not_mem_nil, or_false] at hblank
    rcases hblank with rfl | rfl | rfl | rfl <;> cases hc
  · intro hblank
    simp only [List.mem_cons, List.not_mem_nil, or_false] at hblank
    rcases hblank with rfl | rfl | rfl | rfl <;> revert hc <;> decide

end Reader

/-- What is read of a float that reads back: a float, with nothing left. -/
theorem ReadsBack.value_text {f : Float} (h : ReadsBack f) :
    ∃ fuel left, Reader.value fuel (Decimal.text .json f).toList = (.float f, some left) ∧
      Reader.skipBlanks left = [] := by
  have hdoc : Document.ofChars (Decimal.text .json f).toList = ⟨.float f, none⟩ := by
    have h : Document.ofText (render (.float f)) = ⟨.float f, none⟩ := h
    rwa [Document.ofText, render, String.toList_ofList] at h
  rw [Document.ofChars] at hdoc
  split at hdoc
  · next root hv =>
    cases hdoc
    rcases Reader.of_value_eq_float hv with ⟨tail, -, hnumber⟩ | ⟨c, tail, -, -, hnumber⟩ <;>
      obtain ⟨pre, left, -, hleft, -⟩ := Reader.number_float_append hnumber <;>
      cases hleft
  · next root left hv =>
    obtain ⟨rfl, hleft⟩ := Document.mk.inj hdoc
    refine ⟨_, left, hv, ?_⟩
    by_cases hempty : (Reader.skipBlanks left).isEmpty
    · exact List.isEmpty_iff.mp hempty
    · rw [if_neg hempty] at hleft
      cases hleft

/-- A float that reads back alone is read whatever follows that does not go on with it. -/
theorem ReadsBack.value_append {f : Float} (h : ReadsBack f) {rest : List Char} (hrest : Stops rest)
    (fuel : Nat) :
    Reader.value (fuel + 1) ((Decimal.text .json f).toList ++ rest) = (.float f, some rest) := by
  obtain ⟨fuel', left, hvalue, hleft⟩ := h.value_text
  have hblank := fun c (hc : c ∈ (Decimal.text .json f).toList) => Reader.not_blank_of_mem_text hc
  generalize (Decimal.text .json f).toList = cs at hvalue hblank
  have hskip : Reader.skipBlanks cs = cs := Reader.skipBlanks_eq_self hblank
  -- a text without blanks has nothing left
  have hnil : (∀ c ∈ left, c ∈ cs) → left = [] := fun hmem => by
    rw [← hleft, Reader.skipBlanks_eq_self fun c hc => hblank c (hmem c hc)]
  rcases Reader.of_value_eq_float hvalue with ⟨tail, hcs, hnumber⟩ | ⟨c, tail, hcs, hc, hnumber⟩
  · rw [hskip] at hcs
    obtain ⟨pre, left', rfl, hleft', happend⟩ := Reader.number_float_append hnumber
    obtain rfl := Option.some.inj hleft'
    obtain rfl := hnil fun c hc => by rw [hcs]; simp [hc]
    rw [hcs, List.append_nil, List.cons_append, Reader.value_minus]
    exact happend rest hrest
  · rw [hskip] at hcs
    obtain ⟨pre, left', hsplit, hleft', happend⟩ := Reader.number_float_append hnumber
    obtain rfl := Option.some.inj hleft'
    obtain rfl := hnil fun c hc => by rw [hcs, hsplit]; simp [hc]
    rw [List.append_nil] at hsplit
    rw [hcs, List.cons_append, Reader.value_digit hc, ← List.cons_append, hsplit]
    exact happend rest hrest

end Schemata.Json
