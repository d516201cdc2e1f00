import Schemata.Proofs.Quoting.Frame
import Mathlib.Algebra.GroupWithZero.Nat

/-!
# Keywords outside quotes

A statement declares a key with the keyword `primary` or `foreign`. The keywords are counted
in the frame of the statement, as whole words: a table may well be called `primary key`, and
its quoted name counts for nothing. Counts add up where texts are joined at a word's end.
-/
namespace Schemata.Keys

open Quoting

inductive KeyKind where
  | primary
  | foreign
  deriving DecidableEq, Repr

instance {P : KeyKind → Prop} [DecidablePred P] : Decidable (∀ k, P k) :=
  decidable_of_iff (P .primary ∧ P .foreign)
    ⟨fun h k => match k with | .primary => h.1 | .foreign => h.2, fun h => ⟨h _, h _⟩⟩

def KeyKind.word : KeyKind → String
  | .primary => "primary"
  | .foreign => "foreign"

/-- Words consist of letters outside quotes. -/
def breaks : Option Char → Bool
  | some c => !c.isAlpha
  | none => true

/-- How often a frame has the keyword. -/
def count (k : KeyKind) (f : List (Option Char)) : Nat :=
  (f.splitOnP breaks).count (k.word.toList.map some)

/-- How often a text has the keyword outside its quotes, if it has a reading. -/
def occurrences (q : Char) (k : KeyKind) (s : String) : Option Nat :=
  (read q s).map fun ps => count k (frame ps)

variable {k : KeyKind}

theorem word_ne_nil (k : KeyKind) : k.word.toList.map some ≠ [] := by
  cases k <;> decide

@[simp] theorem count_nil : count k [] = 0 := by
  cases k <;> decide

theorem count_cons {x : Option Char} (hx : breaks x) (f : List (Option Char)) :
    count k (x :: f) = count k f := by
  have hsplit : (x :: f).splitOnP breaks = [] :: f.splitOnP breaks :=
    List.splitOnP_append_cons [] f hx
  rw [count, hsplit, List.count_cons_of_ne (word_ne_nil k).symm, count]

theorem count_append_cons {x : Option Char} (hx : breaks x) (f g : List (Option Char)) :
    count k (f ++ x :: g) = count k f + count k g := by
  rw [count, List.splitOnP_append_cons f g hx, List.count_append, count, count]

theorem count_append_of_head {f g : List (Option Char)} (h : ∀ x ∈ g.head?, breaks x) :
    count k (f ++ g) = count k f + count k g := by
  cases g with
  | nil => simp
  | cons x g =>
    have hx : breaks x := h x rfl
    rw [count_append_cons hx, count_cons hx]

theorem count_append_of_last {f g : List (Option Char)} (h : ∀ x ∈ f.getLast?, breaks x) :
    count k (f ++ g) = count k f + count k g := by
  rcases List.eq_nil_or_concat f with rfl | ⟨f, x, rfl⟩
  · simp
  · have hx : breaks x := h x (by simp)
    have hlast : count k (f ++ [x]) = count k f := by
      rw [count_append_cons hx, count_nil, Nat.add_zero]
    rw [List.concat_eq_append, List.append_assoc, List.singleton_append, count_append_cons hx, hlast]

/-- The letters of a word are letters of the text. -/
theorem mem_of_mem_splitOnP {α : Type} {p : α → Bool} {w xs : List α} (hw : w ∈ xs.splitOnP p) :
    ∀ c ∈ w, c ∈ xs := by
  induction xs generalizing w with
  | nil =>
    obtain rfl := List.mem_singleton.mp hw
    exact fun c hc => hc
  | cons x xs ih =>
    rw [List.splitOnP_cons_eq_if_modifyHead] at hw
    split at hw
    · rcases List.mem_cons.mp hw with rfl | hw
      · exact fun c hc => (nomatch hc)
      · exact fun c hc => List.mem_cons_of_mem x (ih hw c hc)
    · cases hs : xs.splitOnP p with
      | nil => exact absurd hs (List.splitOnP_ne_nil p xs)
      | cons v vs =>
        rw [hs] at hw ih
        rcases List.mem_cons.mp hw with rfl | hw
        · intro c hc
          rcases List.mem_cons.mp hc with rfl | hc
          · exact List.mem_cons_self
          · exact List.mem_cons_of_mem x (ih List.mem_cons_self c hc)
        · exact fun c hc => List.mem_cons_of_mem x (ih (List.mem_cons_of_mem v hw) c hc)

/-- Both keywords have an `r`. -/
theorem count_eq_zero {f : List (Option Char)} (h : some 'r' ∉ f) : count k f = 0 := by
  refine List.count_eq_zero.mpr fun hw => h (mem_of_mem_splitOnP hw _ ?_)
  cases k <;> decide

/-! ## Texts -/

/-- How often a text without quotes has the keyword. -/
def textCount (k : KeyKind) (p : String) : Nat := count k (p.toList.map some)

/-- Begins with neither a quote nor a letter, if with anything. -/
def Apart (s : String) : Prop := ∀ c ∈ s.toList.head?, ¬ IsMark c ∧ ¬ c.isAlpha

instance (s : String) : Decidable (Apart s) := Option.decidableForallMem _

/-- Does not end in a letter. -/
def Ends (s : String) : Prop := ∀ c ∈ s.toList.getLast?, ¬ c.isAlpha

instance (s : String) : Decidable (Ends s) := Option.decidableForallMem _

/-- Has neither quotes nor keywords. -/
def Silent (p : String) : Prop := Bare p ∧ ∀ k, textCount k p = 0

instance (p : String) : Decidable (Silent p) := inferInstanceAs (Decidable (_ ∧ _))

/-- A silent text that may stand before any text. -/
def Opens (p : String) : Prop := Silent p ∧ Ends p

instance (p : String) : Decidable (Opens p) := inferInstanceAs (Decidable (_ ∧ _))

/-- A silent text that may stand behind any text. -/
def Closes (p : String) : Prop := Silent p ∧ Apart p

instance (p : String) : Decidable (Closes p) := inferInstanceAs (Decidable (_ ∧ _))

/-- A silent text that may stand between any two texts. -/
def Separates (p : String) : Prop := Opens p ∧ Apart p ∧ p ≠ ""

instance (p : String) : Decidable (Separates p) := inferInstanceAs (Decidable (_ ∧ _ ∧ _))

/-- The text has a reading, in which the keyword stands `n` times. -/
def Counts (q : Char) (k : KeyKind) (s : String) (n : Nat) : Prop := occurrences q k s = some n

variable {q : Char} {s t p : String} {m n : Nat}

theorem counts_iff : Counts q k s n ↔ ∃ ps, Quoting.read q s = some ps ∧ count k (frame ps) = n :=
  Option.map_eq_some_iff

theorem Apart.leads (h : Apart s) : Leads s := fun c hc => (h c hc).1

theorem Apart.append (hs : Apart s) (ht : Apart t) : Apart (s ++ t) := head_append hs ht

theorem apart_append (hp : Apart p) (hne : p ≠ "") : Apart (p ++ t) := head_append_of_ne hp hne

/-- The frame of a text that begins with no quote begins like the text. -/
theorem head_frame (hq : IsQuote q) (ht : Apart t) {ps : List Piece} (h : Quoting.read q t = some ps) :
    ∀ x ∈ (frame ps).head?, breaks x := by
  unfold Quoting.read at h
  unfold Apart at ht
  cases hl : t.toList with
  | nil =>
    rw [hl] at h
    obtain rfl := Option.some.inj h
    exact fun x hx => (nomatch hx)
  | cons c cs =>
    rw [hl] at h ht
    obtain ⟨hc, ha⟩ := ht c rfl
    simp only [scan, step, enter_bare hq hc, Option.map_eq_some_iff] at h
    obtain ⟨rs, -, rfl⟩ := h
    intro x hx
    obtain rfl := Option.some.inj hx
    simpa [breaks, Piece.bare?] using ha

theorem counts_bare (hq : IsQuote q) (hp : Bare p) : Counts q k p (textCount k p) := by
  rw [counts_iff]
  exact ⟨_, read_bare hq hp, by rw [frame_bare, textCount]⟩

/-- A bare text without an `r`, such as a number. -/
theorem counts_of_not_mem (hq : IsQuote q) (hp : Bare p) (hr : 'r' ∉ p.toList) :
    Counts q k p 0 := by
  have h := counts_bare (k := k) hq hp
  rwa [textCount, count_eq_zero (by simpa using hr)] at h

theorem counts_silent (hq : IsQuote q) (hp : Silent p) : Counts q k p 0 := by
  have h := counts_bare (k := k) hq hp.1
  rwa [hp.2] at h

theorem counts_quote (hq : IsQuote q) (kind : Kind) (s : String) :
    Counts q k (Text.quote (kind.mark q) s) 0 := by
  rw [counts_iff]
  exact ⟨_, read_quote hq kind s, (count_cons rfl []).trans count_nil⟩

theorem counts_append (hq : IsQuote q) (hs : Counts q k s m) (ht : Counts q k t n)
    (ha : Apart t) : Counts q k (s ++ t) (m + n) := by
  rw [counts_iff] at hs ht ⊢
  obtain ⟨ps, hps, rfl⟩ := hs
  obtain ⟨qs, hqs, rfl⟩ := ht
  refine ⟨_, read_append hq hps hqs ha.leads, ?_⟩
  rw [frame_append, count_append_of_head (head_frame hq ha hqs)]

theorem counts_bare_append (hq : IsQuote q) (hp : Bare p) (he : Ends p) (ht : Counts q k t n) :
    Counts q k (p ++ t) (textCount k p + n) := by
  rw [counts_iff] at ht ⊢
  obtain ⟨qs, hqs, rfl⟩ := ht
  refine ⟨_, read_bare_append hq hp hqs, ?_⟩
  rw [frame_append, frame_bare, textCount, count_append_of_last]
  intro x hx
  rw [List.getLast?_map] at hx
  obtain ⟨c, hc, rfl⟩ := Option.map_eq_some_iff.mp hx
  simpa [breaks] using he c hc

theorem counts_opens (hq : IsQuote q) (hp : Opens p) (ht : Counts q k t n) :
    Counts q k (p ++ t) n := by
  have h := counts_bare_append hq hp.1.1 hp.2 ht
  rwa [hp.1.2, Nat.zero_add] at h

theorem counts_closes (hq : IsQuote q) (hs : Counts q k s n) (hp : Closes p) :
    Counts q k (s ++ p) n :=
  counts_append hq hs (counts_silent hq hp.1) hp.2

theorem counts_join (hq : IsQuote q) (hs : Counts q k s m) (hp : Separates p)
    (ht : Counts q k t n) : Counts q k (s ++ p ++ t) (m + n) := by
  rw [String.append_assoc]
  exact counts_append hq hs (counts_opens hq hp.1 ht) (apart_append hp.2.1 hp.2.2)

theorem counts_intercalate {α : Type} {f : α → String} {g : α → Nat} (hq : IsQuote q)
    (hp : Separates p) (xs : List α) (h : ∀ x ∈ xs, Counts q k (f x) (g x)) :
    Counts q k (p.intercalate (xs.map f)) (xs.map g).sum := by
  induction xs with
  | nil => exact counts_silent hq (p := "") (by decide)
  | cons x xs ih =>
    have hx := h x List.mem_cons_self
    have hxs := ih fun y hy => h y (List.mem_cons_of_mem x hy)
    cases xs with
    | nil => simpa using hx
    | cons y ys =>
      rw [List.map_cons, List.map_cons, String.intercalate_cons_cons, List.map_cons, List.sum_cons]
      exact counts_join hq hx hp hxs

theorem counts_intercalate_zero {α : Type} {f : α → String} (hq : IsQuote q)
    (hp : Separates p) (xs : List α) (h : ∀ x ∈ xs, Counts q k (f x) 0) :
    Counts q k (p.intercalate (xs.map f)) 0 := by
  have hsum : (xs.map fun _ => 0).sum = 0 := by rw [List.map_const', List.sum_replicate_nat, Nat.mul_zero]
  exact hsum ▸ counts_intercalate hq hp xs h

theorem counts_concat {α : Type} {f : α → String} {g : α → Nat} (hq : IsQuote q) (xs : List α)
    (h : ∀ x ∈ xs, Counts q k (f x) (g x) ∧ Apart (f x)) :
    Counts q k ("".intercalate (xs.map f)) (xs.map g).sum ∧ Apart ("".intercalate (xs.map f)) := by
  induction xs with
  | nil => exact ⟨counts_silent hq (p := "") (by decide), (by decide : Apart "")⟩
  | cons x xs ih =>
    obtain ⟨hx, ha⟩ := h x List.mem_cons_self
    obtain ⟨hxs, hb⟩ := ih fun y hy => h y (List.mem_cons_of_mem x hy)
    rw [List.map_cons, concat_cons, List.map_cons, List.sum_cons]
    exact ⟨counts_append hq hx hxs hb, ha.append hb⟩

end Schemata.Keys
