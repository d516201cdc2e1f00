import Mathlib
import Schemata.Proofs.Json.Decoding
import Schemata.Proofs.Json.Numbers
import Schemata.Value.Literal

/-!
# Which texts are which values

A literal is tried as one kind of value after the other. Here the kinds are told by grammars that
do not know of each other: how a word is spelled, how an integer is written and what it denotes,
and how a number is written at all. The order of the trials then shows only in what a kind leaves
to the next ones (`Other`); that no text belongs to two of the first three kinds is a fact about
their first characters.
-/
namespace Schemata

/-! ## Written numbers -/

namespace Numeral

inductive Sign where
  | absent
  | plus
  | minus

namespace Sign

def text : Sign → List Char
  | absent => []
  | plus => ['+']
  | minus => ['-']

/-- The integer of this sign and size. -/
def apply : Sign → Nat → Int
  | minus, n => -n
  | absent, n | plus, n => n

def isMinus : Sign → Bool
  | minus => true
  | absent | plus => false

end Sign

/-- Digits, at least one. -/
def IsRun (ds : List Char) : Prop := ds ≠ [] ∧ ds.all Char.isDigit

/-- An optional sign and a run of digits, with the integer that they denote. -/
def Denotes (cs : List Char) (i : Int) : Prop :=
  ∃ (sign : Sign) (ds : List Char),
    cs = sign.text ++ ds ∧ IsRun ds ∧ i = sign.apply (Nat.ofDigitChars 10 ds 0)

/-- Digits with at most one point among them, at least one digit in all. -/
inductive Mantissa : List Char → Prop
  | whole {ds : List Char} (h : IsRun ds) : Mantissa ds
  | pointed {before behind : List Char} (h : IsRun (before ++ behind)) :
      Mantissa (before ++ '.' :: behind)

inductive Exponent : List Char → Prop
  | absent : Exponent []
  | power {mark : Char} (hmark : mark = 'e' ∨ mark = 'E') (sign : Sign) {ds : List Char}
      (h : IsRun ds) : Exponent (mark :: (sign.text ++ ds))

/-- Every letter is the one of the word, in either case. -/
def SpelledAs (cs : List Char) (word : String) : Prop :=
  List.Forall₂ (fun c w => c = w ∨ c = w.toUpper) cs word.toList

/-- A number without its sign. -/
inductive Unsigned : List Char → Prop
  | word {cs : List Char} (h : SpelledAs cs "inf" ∨ SpelledAs cs "infinity" ∨ SpelledAs cs "nan") :
      Unsigned cs
  | decimal {mantissa exponent : List Char} (hm : Mantissa mantissa) (he : Exponent exponent) :
      Unsigned (mantissa ++ exponent)

def IsNumber (cs : List Char) : Prop :=
  ∃ (sign : Sign) (rest : List Char), cs = sign.text ++ rest ∧ Unsigned rest

end Numeral

namespace Decimal

open Json.Number (Heads spanDigits_append of_spanDigits toList_toString_ofNat
  toList_toString_negSucc)
open Numeral

/-! ### Signs -/

variable {cs ds rest : List Char} {sign : Sign} {i j : Int} {s : String}

/-- Behind a sign the text goes on with something else. -/
def Unmarked : List Char → Prop := Heads fun c => c ≠ '-' && c ≠ '+'

theorem takeSign_append (sign : Sign) (h : Unmarked rest) :
    takeSign (sign.text ++ rest) = (sign.isMinus, rest) := by
  cases sign with
  | plus | minus => rfl
  | absent =>
    cases rest with
    | nil => rfl
    | cons c rest =>
      have hc : c ≠ '-' ∧ c ≠ '+' := by simpa [Unmarked, Heads] using h
      show takeSign (c :: rest) = _
      unfold takeSign
      split <;> simp_all [Sign.isMinus]

theorem of_takeSign (cs : List Char) :
    ∃ sign : Sign, cs = sign.text ++ (takeSign cs).2 ∧ (takeSign cs).1 = sign.isMinus := by
  unfold takeSign
  split
  · exact ⟨.minus, rfl, rfl⟩
  · exact ⟨.plus, rfl, rfl⟩
  · exact ⟨.absent, rfl, rfl⟩

/-- A class of characters without the signs: a text that begins in it has no sign. -/
theorem unmarked_of_head {p : Char → Bool} (hminus : p '-' = false) (hplus : p '+' = false)
    (h : ∀ c ∈ cs.head?, p c) : Unmarked cs := by
  cases cs with
  | nil => rfl
  | cons c cs =>
    have hc : p c = true := h c rfl
    have hne : c ≠ '-' ∧ c ≠ '+' := by
      constructor
      · rintro rfl
        rw [hminus] at hc
        cases hc
      · rintro rfl
        rw [hplus] at hc
        cases hc
    simp [Unmarked, Heads, hne]

theorem unmarked_of_isRun (h : IsRun ds) : Unmarked ds :=
  unmarked_of_head (by decide) (by decide) fun c hc =>
    List.all_eq_true.mp h.2 c (List.mem_of_mem_head? hc)

/-! ### Integers -/

theorem exponent?_eq_some_iff : exponent? cs = some i ↔ Denotes cs i := by
  have hvalue : ∀ (sign : Sign) ds,
      (if sign.isMinus then -(digitsToNat ds : Int) else digitsToNat ds) =
        sign.apply (Nat.ofDigitChars 10 ds 0) := by
    intro sign ds
    cases sign <;> rfl
  constructor
  · intro h
    obtain ⟨sign, hcs, hminus⟩ := of_takeSign cs
    simp only [exponent?, hminus, hvalue] at h
    split at h
    · next hrun =>
      rw [Bool.and_eq_true, Bool.not_eq_true', List.isEmpty_eq_false_iff] at hrun
      exact ⟨sign, _, hcs, hrun, (Option.some.inj h).symm⟩
    · cases h
  · rintro ⟨sign, ds, rfl, hrun, rfl⟩
    have hds : (!ds.isEmpty && ds.all Char.isDigit) = true := by
      rw [Bool.and_eq_true, Bool.not_eq_true', List.isEmpty_eq_false_iff]
      exact hrun
    simp only [exponent?, takeSign_append sign (unmarked_of_isRun hrun), hds, ↓reduceIte, hvalue]

theorem integer?_eq_some_iff : integer? s = some i ↔ Denotes s.toList i :=
  exponent?_eq_some_iff

theorem denotes_unique (hi : Denotes cs i) (hj : Denotes cs j) : i = j :=
  Option.some.inj ((exponent?_eq_some_iff.mpr hi).symm.trans (exponent?_eq_some_iff.mpr hj))

theorem denotes_toString (i : Int) : Denotes (toString i).toList i := by
  have hrun : ∀ n, IsRun (Nat.toDigits 10 n) := fun n =>
    ⟨Nat.toDigits_ne_nil, List.all_eq_true.mpr fun _ hc =>
      Nat.isDigit_of_mem_toDigits (by decide) (by decide) hc⟩
  have hvalue : ∀ n, Nat.ofDigitChars 10 (Nat.toDigits 10 n) 0 = n := fun _ =>
    Nat.ofDigitChars_ten_toDigits
  cases i with
  | ofNat n =>
    refine ⟨.absent, Nat.toDigits 10 n, toList_toString_ofNat n, hrun n, ?_⟩
    rw [hvalue]
    rfl
  | negSucc n =>
    refine ⟨.minus, Nat.toDigits 10 (n + 1), toList_toString_negSucc n, hrun (n + 1), ?_⟩
    rw [hvalue]
    rfl

/-! ### Mantissa and exponent -/

/-- The parts of a literal whose digits have been taken off. -/
def closing (whole fraction cs : List Char) : Option Parts :=
  if whole.isEmpty && fraction.isEmpty then none
  else
    match cs with
    | [] => some ⟨whole, fraction, 0⟩
    | c :: cs => if c = 'e' ∨ c = 'E' then (exponent? cs).map (⟨whole, fraction, ·⟩) else none

theorem closing_isSome_iff {whole fraction : List Char} :
    (closing whole fraction cs).isSome ↔ whole ++ fraction ≠ [] ∧ Exponent cs := by
  have hdigits : (whole.isEmpty && fraction.isEmpty) = true ↔ whole ++ fraction = [] := by
    rw [Bool.and_eq_true, List.isEmpty_iff, List.isEmpty_iff, List.append_eq_nil_iff]
  unfold closing
  by_cases hnone : whole ++ fraction = []
  · simp [hdigits.mpr hnone, hnone]
  · rw [if_neg (mt hdigits.mp hnone)]
    cases cs with
    | nil => exact iff_of_true rfl ⟨hnone, .absent⟩
    | cons c cs =>
      by_cases hmark : c = 'e' ∨ c = 'E'
      · simp only [hmark, ↓reduceIte, Option.isSome_map]
        constructor
        · intro h
          obtain ⟨i, hi⟩ := Option.isSome_iff_exists.mp h
          obtain ⟨sign, ds, rfl, hrun, -⟩ := exponent?_eq_some_iff.mp hi
          exact ⟨hnone, .power hmark sign hrun⟩
        · rintro ⟨-, hpower⟩
          cases hpower with
          | power _ sign hrun =>
            rw [exponent?_eq_some_iff.mpr ⟨sign, _, rfl, hrun, rfl⟩]
            rfl
      · simp only [hmark, ↓reduceIte]
        constructor
        · intro h
          cases h
        · rintro ⟨-, hpower⟩
          cases hpower with
          | power hmark' => exact absurd hmark' hmark

theorem parts?_whole (hds : ds.all Char.isDigit)
    (hrest : Heads (fun c => !c.isDigit && c ≠ '.') rest) :
    parts? (ds ++ rest) = closing ds [] rest := by
  have hspan : (ds ++ rest).span Char.isDigit = (ds, rest) :=
    spanDigits_append hds (hrest.mono fun _ hc => ((Bool.and_eq_true _ _).mp hc).1)
  rw [parts?, hspan]
  cases rest with
  | nil => rfl
  | cons c rest =>
    have hc : c ≠ '.' := by
      rintro rfl
      cases hrest
    simp only
    split
    · next h => exact absurd (List.cons.inj h).1 hc
    · rfl

theorem parts?_pointed {before behind : List Char} (hbefore : before.all Char.isDigit)
    (hbehind : behind.all Char.isDigit) (hrest : Heads (!·.isDigit) rest) :
    parts? (before ++ '.' :: (behind ++ rest)) = closing before behind rest := by
  have hspan : (before ++ '.' :: (behind ++ rest)).span Char.isDigit =
      (before, '.' :: (behind ++ rest)) := spanDigits_append hbefore rfl
  have hspan' : (behind ++ rest).span Char.isDigit = (behind, rest) :=
    spanDigits_append hbehind hrest
  rw [parts?, hspan]
  simp only [hspan']
  rfl

theorem heads_dropWhile (cs : List Char) : Heads (!·.isDigit) (cs.dropWhile Char.isDigit) := by
  have hhead := List.head?_dropWhile_not Char.isDigit cs
  unfold Heads
  cases hdrop : (cs.dropWhile Char.isDigit).head? with
  | none => rfl
  | some c =>
    rw [hdrop] at hhead
    simpa using hhead

/-- A text begins with all the digits that it can, a point perhaps among them. -/
theorem exists_digits (cs : List Char) :
    (∃ ds rest, cs = ds ++ rest ∧ ds.all Char.isDigit ∧
      Heads (fun c => !c.isDigit && c ≠ '.') rest) ∨
    ∃ before behind rest, cs = before ++ '.' :: (behind ++ rest) ∧ before.all Char.isDigit ∧
      behind.all Char.isDigit ∧ Heads (!·.isDigit) rest := by
  obtain ⟨hcs, hds⟩ := of_spanDigits (List.span_eq_takeWhile_dropWhile Char.isDigit cs)
  have hrest := heads_dropWhile cs
  cases hdrop : cs.dropWhile Char.isDigit with
  | nil => exact .inl ⟨_, [], hdrop ▸ hcs, hds, rfl⟩
  | cons c rest =>
    rw [hdrop] at hcs hrest
    by_cases hpoint : c = '.'
    · obtain ⟨hcs', hds'⟩ := of_spanDigits (List.span_eq_takeWhile_dropWhile Char.isDigit rest)
      subst hpoint
      exact .inr ⟨_, _, _, hcs' ▸ hcs, hds, hds', heads_dropWhile rest⟩
    · refine .inl ⟨_, c :: rest, hcs, hds, ?_⟩
      simpa [Heads, hpoint] using hrest

theorem heads_of_exponent (h : Exponent cs) : Heads (fun c => !c.isDigit && c ≠ '.') cs := by
  cases h with
  | absent => rfl
  | power hmark => rcases hmark with rfl | rfl <;> rfl

/-- The parts that are read are a mantissa and an exponent. -/
theorem parts?_isSome_iff :
    (parts? cs).isSome ↔ ∃ mantissa exponent, cs = mantissa ++ exponent ∧ Mantissa mantissa ∧
      Exponent exponent := by
  constructor
  · intro h
    rcases exists_digits cs with ⟨ds, rest, rfl, hds, hrest⟩ |
      ⟨before, behind, rest, rfl, hbefore, hbehind, hrest⟩
    · rw [parts?_whole hds hrest, closing_isSome_iff, List.append_nil] at h
      exact ⟨ds, rest, rfl, .whole ⟨h.1, hds⟩, h.2⟩
    · rw [parts?_pointed hbefore hbehind hrest, closing_isSome_iff] at h
      refine ⟨before ++ '.' :: behind, rest, by simp, .pointed ⟨h.1, ?_⟩, h.2⟩
      rw [List.all_append, hbefore, hbehind]
      rfl
  · rintro ⟨mantissa, exponent, rfl, hm, he⟩
    have hheads := heads_of_exponent he
    cases hm with
    | whole hrun =>
      rw [parts?_whole hrun.2 hheads, closing_isSome_iff, List.append_nil]
      exact ⟨hrun.1, he⟩
    | @pointed before behind hrun =>
      obtain ⟨hne, hall⟩ := hrun
      rw [List.all_append, Bool.and_eq_true] at hall
      have hnodigit : Heads (!·.isDigit) exponent :=
        hheads.mono fun _ hc => ((Bool.and_eq_true _ _).mp hc).1
      rw [List.append_assoc, List.cons_append, parts?_pointed hall.1 hall.2 hnodigit,
        closing_isSome_iff]
      exact ⟨hne, he⟩

/-! ### Words -/

/-- What becomes a small letter is that letter, small or capital. -/
theorem toLower_eq_iff {c w : Char} (hw : w.isLower) : c.toLower = w ↔ c = w ∨ c = w.toUpper := by
  constructor
  · rintro rfl
    by_cases hc : c.isUpper
    · right
      rw [Char.toUpper_toLower_eq_toUpper,
        Char.toUpper_eq_of_not_isLower (Char.not_isLower_of_isUpper hc)]
    · exact .inl (Char.toLower_eq_of_not_isUpper hc).symm
  · have hlower : w.toLower = w :=
      Char.toLower_eq_of_not_isUpper (Char.not_isUpper_of_isLower hw)
    rintro (rfl | rfl)
    · exact hlower
    · rw [Char.toLower_toUpper_eq_toLower, hlower]

theorem map_toLower_eq_iff (word : String) (hword : word.toList.all Char.isLower) :
    cs.map Char.toLower = word.toList ↔ SpelledAs cs word := by
  unfold SpelledAs
  generalize word.toList = ws at hword ⊢
  induction cs generalizing ws with
  | nil => cases ws <;> simp
  | cons c cs ih =>
    cases ws with
    | nil => simp
    | cons w ws =>
      rw [List.all_cons, Bool.and_eq_true] at hword
      rw [List.map_cons, List.cons_eq_cons, List.forall₂_cons, toLower_eq_iff hword.1,
        ih ws hword.2]

theorem asciiLowercase_eq_iff {word : String} (hword : word.toList.all Char.isLower) :
    Text.asciiLowercase s = word ↔ SpelledAs s.toList word := by
  rw [← map_toLower_eq_iff word hword, ← String.toList_inj, Text.asciiLowercase, String.toList_map]

/-- A word begins with a letter. -/
theorem unmarked_of_spelledAs {word : String} (hword : word.toList.all Char.isLower)
    (h : SpelledAs cs word) : Unmarked cs := by
  rw [← (map_toLower_eq_iff word hword).mpr h, List.all_map] at hword
  exact unmarked_of_head (by decide) (by decide) fun c hc =>
    List.all_eq_true.mp hword c (List.mem_of_mem_head? hc)

/-! ### Numbers -/

theorem magnitude?_isSome_iff : (magnitude? cs).isSome ↔ Unsigned cs := by
  have hinf : cs.map Char.toLower = ['i', 'n', 'f'] ↔ SpelledAs cs "inf" :=
    map_toLower_eq_iff "inf" (by decide)
  have hinfinity : cs.map Char.toLower = ['i', 'n', 'f', 'i', 'n', 'i', 't', 'y'] ↔
      SpelledAs cs "infinity" := map_toLower_eq_iff "infinity" (by decide)
  have hnan : cs.map Char.toLower = ['n', 'a', 'n'] ↔ SpelledAs cs "nan" :=
    map_toLower_eq_iff "nan" (by decide)
  have hunsigned : Unsigned cs ↔
      (SpelledAs cs "inf" ∨ SpelledAs cs "infinity" ∨ SpelledAs cs "nan") ∨ (parts? cs).isSome := by
    constructor
    · rintro (hword | ⟨hm, he⟩)
      · exact .inl hword
      · exact .inr (parts?_isSome_iff.mpr ⟨_, _, rfl, hm, he⟩)
    · rintro (hword | hparts)
      · exact .word hword
      · obtain ⟨_, _, rfl, hm, he⟩ := parts?_isSome_iff.mp hparts
        exact .decimal hm he
  rw [hunsigned, ← hinf, ← hinfinity, ← hnan]
  simp only [magnitude?]
  split
  · next h => exact iff_of_true rfl (.inl (h.imp_right .inl))
  · next h =>
    split
    · next hword => exact iff_of_true rfl (.inl (.inr (.inr hword)))
    · next hword =>
      rw [Option.isSome_map, or_iff_right]
      rintro (h' | h' | h')
      · exact h (.inl h')
      · exact h (.inr h')
      · exact hword h'

theorem unmarked_of_unsigned (h : Unsigned cs) : Unmarked cs := by
  cases h with
  | word h =>
    rcases h with h | h | h <;> exact unmarked_of_spelledAs (by decide) h
  | @decimal mantissa exponent hm he =>
    cases hm with
    | whole hrun =>
      have hhead := unmarked_of_isRun hrun
      cases mantissa with
      | nil => exact absurd rfl hrun.1
      | cons c ds => exact hhead
    | @pointed before behind hrun =>
      cases before with
      | nil => rfl
      | cons c ds =>
        have hhead : Unmarked (c :: (ds ++ behind)) := unmarked_of_isRun hrun
        exact hhead

theorem float?_isSome_iff : (float? s).isSome ↔ IsNumber s.toList := by
  rw [float?, Option.isSome_map, magnitude?_isSome_iff]
  constructor
  · intro h
    obtain ⟨sign, hsplit, -⟩ := of_takeSign s.toList
    exact ⟨sign, _, hsplit, h⟩
  · rintro ⟨sign, rest, hsplit, hrest⟩
    rw [hsplit, takeSign_append sign (unmarked_of_unsigned hrest)]
    exact hrest

end Decimal

/-! ## The kinds of a literal -/

namespace Value

open Numeral

/-- The integers of 64 bits. -/
def InRange (i : Int) : Prop := -2 ^ 63 ≤ i ∧ i < 2 ^ 63

def truth (b : Bool) : String := if b then "true" else "false"

variable {s : String} {i : Int} {v : Value}

theorem inRange_toInt (n : Int64) : InRange n.toInt :=
  ⟨n.minValue_le_toInt, Int.lt_add_one_of_le n.toInt_le⟩

/-- A run of digits is an integer literal if it denotes one in range. -/
theorem integer?_eq_some_iff {n : Int64} : integer? s = some n ↔ Denotes s.toList n.toInt := by
  rw [integer?, Option.bind_eq_some_iff]
  constructor
  · rintro ⟨i, hi, hn⟩
    obtain rfl := Json.int64?_eq_some_iff.mp hn
    exact Decimal.integer?_eq_some_iff.mp hi
  · intro h
    exact ⟨_, Decimal.integer?_eq_some_iff.mpr h, Json.int64?_eq_some_iff.mpr rfl⟩

theorem boolean?_eq_some_iff {b : Bool} : boolean? s = some b ↔ s = truth b := by
  unfold boolean?
  split
  · next h => subst h; cases b <;> decide
  · next h =>
    split
    · next h' => subst h'; cases b <;> decide
    · next h' => cases b <;> simp [truth, h, h']

/-! ### No text is of two of the first kinds -/

theorem head_of_denotes (h : Denotes s.toList i) :
    ∃ c rest, s.toList = c :: rest ∧ (c = '-' ∨ c = '+' ∨ c.isDigit) := by
  obtain ⟨sign, ds, hs, ⟨hne, hall⟩, -⟩ := h
  rw [hs]
  cases sign with
  | minus => exact ⟨'-', ds, rfl, .inl rfl⟩
  | plus => exact ⟨'+', ds, rfl, .inr (.inl rfl)⟩
  | absent =>
    cases ds with
    | nil => exact absurd rfl hne
    | cons d ds =>
      rw [List.all_cons, Bool.and_eq_true] at hall
      exact ⟨d, ds, rfl, .inr (.inr hall.1)⟩

theorem not_null_of_denotes (h : Denotes s.toList i) : ¬ SpelledAs s.toList "null" := by
  obtain ⟨c, rest, hs, hc⟩ := head_of_denotes h
  intro hnull
  rw [hs] at hnull
  have hletter : c = 'n' ∨ c = 'N' := (List.forall₂_cons.mp hnull).1
  rcases hletter with rfl | rfl <;> simp at hc

theorem ne_truth_of_denotes (h : Denotes s.toList i) (b : Bool) : s ≠ truth b := by
  obtain ⟨c, rest, hs, hc⟩ := head_of_denotes h
  rintro rfl
  have hletter : c = 't' ∨ c = 'f' := by
    cases b with
    | false => exact .inr (List.cons.inj hs).1.symm
    | true => exact .inl (List.cons.inj hs).1.symm
  rcases hletter with rfl | rfl <;> simp at hc

theorem not_null_truth (b : Bool) : ¬ SpelledAs (truth b).toList "null" := by
  rw [← Decimal.map_toLower_eq_iff "null" (by decide)]
  cases b <;> decide

/-! ### Classes -/

/-- What the first three kinds leave to numbers and to free text. -/
structure Other (s : String) : Prop where
  not_null : ¬ SpelledAs s.toList "null"
  ne_truth : ∀ b, s ≠ truth b
  not_inRange : ∀ i, Denotes s.toList i → ¬ InRange i

/-- The kinds of a text, each with the values that it may have. -/
inductive Class (s : String) : Value → Prop
  | null (h : SpelledAs s.toList "null") : Class s .null
  | bool (b : Bool) (h : s = truth b) : Class s (.bool b)
  | integer (n : Int64) (h : Denotes s.toList n.toInt) : Class s (.integer n)
  | float (f : Float) (hother : Other s) (h : IsNumber s.toList) : Class s (.float f)
  | text (hother : Other s) (h : ¬ IsNumber s.toList) : Class s (.text s)

theorem class_ofLiteral (s : String) : Class s (ofLiteral s) := by
  rw [ofLiteral]
  have hnull : Text.asciiLowercase s = "null" ↔ SpelledAs s.toList "null" :=
    Decimal.asciiLowercase_eq_iff (by decide)
  split
  · next h => exact .null (hnull.mp h)
  next h =>
  cases hb : boolean? s with
  | some b => exact .bool b (boolean?_eq_some_iff.mp hb)
  | none =>
  cases hi : integer? s with
  | some n => exact .integer n (integer?_eq_some_iff.mp hi)
  | none =>
    -- all three trials have failed, so none of the first three kinds is this text's
    have hother : Other s := by
      refine ⟨mt hnull.mpr h, fun b hs => ?_, fun i hdenotes hrange => ?_⟩
      · rw [boolean?_eq_some_iff.mpr hs] at hb
        cases hb
      · have hn : (Int64.ofInt i).toInt = i := Int64.toInt_ofInt_of_le hrange.1 hrange.2
        rw [integer?_eq_some_iff.mpr (hn ▸ hdenotes)] at hi
        cases hi
    cases hf : Decimal.float? s with
    | some f =>
      exact .float f hother (Decimal.float?_isSome_iff.mp (Option.isSome_of_eq_some hf))
    | none =>
      refine .text hother fun hnumber => ?_
      have hsome := Decimal.float?_isSome_iff.mpr hnumber
      rw [hf] at hsome
      cases hsome

namespace Class

theorem eq_null_iff (h : Class s v) : v = .null ↔ SpelledAs s.toList "null" := by
  cases h with
  | null h => exact iff_of_true rfl h
  | bool b h => exact iff_of_false nofun (h ▸ not_null_truth b)
  | integer n h => exact iff_of_false nofun (not_null_of_denotes h)
  | float _ hother _ | text hother _ => exact iff_of_false nofun hother.not_null

theorem eq_bool_iff (h : Class s v) (b : Bool) : v = .bool b ↔ s = truth b := by
  cases h with
  | null h =>
    refine iff_of_false nofun ?_
    rintro rfl
    exact not_null_truth b h
  | bool b' h =>
    subst h
    cases b <;> cases b' <;> decide
  | integer n h => exact iff_of_false nofun (ne_truth_of_denotes h b)
  | float _ hother _ | text hother _ => exact iff_of_false nofun (hother.ne_truth b)

theorem eq_integer_iff (h : Class s v) (i : Int) :
    (∃ n : Int64, n.toInt = i ∧ v = .integer n) ↔ Denotes s.toList i ∧ InRange i := by
  cases h with
  | null h => exact iff_of_false nofun fun hi => not_null_of_denotes hi.1 h
  | bool b h => exact iff_of_false nofun fun hi => ne_truth_of_denotes hi.1 b h
  | integer n h =>
    constructor
    · rintro ⟨m, rfl, hm⟩
      cases hm
      exact ⟨h, inRange_toInt n⟩
    · rintro ⟨hi, -⟩
      exact ⟨n, Decimal.denotes_unique h hi, rfl⟩
  | float _ hother _ | text hother _ =>
    exact iff_of_false nofun fun hi => hother.not_inRange i hi.1 hi.2

theorem exists_float_iff (h : Class s v) :
    (∃ f, v = .float f) ↔ Other s ∧ IsNumber s.toList := by
  cases h with
  | null h => exact iff_of_false nofun fun hs => hs.1.not_null h
  | bool b h => exact iff_of_false nofun fun hs => hs.1.ne_truth b h
  | integer n h => exact iff_of_false nofun fun hs => hs.1.not_inRange _ h (inRange_toInt n)
  | float f hother h => exact iff_of_true ⟨f, rfl⟩ ⟨hother, h⟩
  | text hother h => exact iff_of_false nofun fun hs => h hs.2

theorem eq_text_iff (h : Class s v) (t : String) :
    v = .text t ↔ t = s ∧ Other s ∧ ¬ IsNumber s.toList := by
  cases h with
  | null h => exact iff_of_false nofun fun hs => hs.2.1.not_null h
  | bool b h => exact iff_of_false nofun fun hs => hs.2.1.ne_truth b h
  | integer n h => exact iff_of_false nofun fun hs => hs.2.1.not_inRange _ h (inRange_toInt n)
  | float f hother h => exact iff_of_false nofun fun hs => hs.2.2 h
  | text hother h =>
    rw [Value.text.injEq, eq_comm, iff_self_and]
    exact fun _ => ⟨hother, h⟩

theorem ne_bytes (h : Class s v) (bs : List UInt8) : v ≠ .bytes bs := by
  cases h <;> nofun

end Class

/-! ### Integers -/

theorem isNumber_of_denotes (h : Denotes s.toList i) : IsNumber s.toList := by
  obtain ⟨sign, ds, hs, hrun, -⟩ := h
  have hdecimal : Unsigned (ds ++ []) := .decimal (.whole hrun) .absent
  rw [List.append_nil] at hdecimal
  exact ⟨sign, ds, hs, hdecimal⟩

theorem other_of_denotes (h : Denotes s.toList i) (hrange : ¬ InRange i) : Other s where
  not_null := not_null_of_denotes h
  ne_truth := ne_truth_of_denotes h
  not_inRange _ hj := by
    rwa [← Decimal.denotes_unique h hj]

/-- **A literal is of the kind that its grammar gives.** A run of digits is the integer that it
denotes or, out of range, a float, but never another integer and never a text. -/
theorem ofLiteral_classed_by_grammar (s : String) :
    (ofLiteral s = .null ↔ SpelledAs s.toList "null") ∧
      (∀ b, ofLiteral s = .bool b ↔ s = truth b) ∧
      (∀ i, (∃ n : Int64, n.toInt = i ∧ ofLiteral s = .integer n) ↔
        Denotes s.toList i ∧ InRange i) ∧
      ((∃ f, ofLiteral s = .float f) ↔ Other s ∧ IsNumber s.toList) ∧
      (∀ t, ofLiteral s = .text t ↔ t = s ∧ Other s ∧ ¬ IsNumber s.toList) ∧
      (∀ bs, ofLiteral s ≠ .bytes bs) ∧
      (∀ i, Denotes s.toList i → ¬ InRange i → ∃ f, ofLiteral s = .float f) ∧
      ∀ n : Int64, ofLiteral (toString n.toInt) = .integer n := by
  have h := class_ofLiteral s
  refine ⟨h.eq_null_iff, h.eq_bool_iff, h.eq_integer_iff, h.exists_float_iff, h.eq_text_iff,
    h.ne_bytes, fun i hi hrange => ?_, fun n => ?_⟩
  · exact h.exists_float_iff.mpr ⟨other_of_denotes hi hrange, isNumber_of_denotes hi⟩
  · obtain ⟨m, hm, hv⟩ := ((class_ofLiteral (toString n.toInt)).eq_integer_iff n.toInt).mpr
      ⟨Decimal.denotes_toString n.toInt, inRange_toInt n⟩
    rwa [Int64.toInt_inj.mp hm] at hv

/-- One below the least integer of 64 bits is a float. -/
theorem below_least_integer_is_float : ∃ f, ofLiteral "-9223372036854775809" = .float f := by
  obtain ⟨-, -, -, -, -, -, hbeyond, -⟩ := ofLiteral_classed_by_grammar "-9223372036854775809"
  have hrun : Denotes "-9223372036854775809".toList (-9223372036854775809) :=
    ⟨.minus, "9223372036854775809".toList, rfl, ⟨by decide, by decide⟩, by decide⟩
  exact hbeyond _ hrun fun hrange => absurd hrange.1 (by decide)

end Value

end Schemata
