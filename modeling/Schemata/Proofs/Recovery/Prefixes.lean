import Schemata.Proofs.Quoting.Frame
import Mathlib.Data.List.Forall2

/-!
# What a text gives away

A statement is written piece after piece without marks of length. Still two different things are
hardly ever written alike, because each piece shows where it ends: a quoted text by its closing
quote, a number or a word by the first character that does not belong to it, a list by what
stands where a separator could.

`Settles` says this of two texts: as soon as two longer texts that begin with them are equal, and
go on in one of the foreseen ways, something is known about what was written, and what follows is
equal too. The lemmas below establish it for pieces of every sort and for pieces in a row.
-/
namespace Schemata.Recovery

open Quoting (concat_cons)

/-! ## How a text goes on -/

/-- The text begins with one of the marks. -/
def GoesOn (marks : List String) (r : String) : Prop := ∃ m ∈ marks, m.toList <+: r.toList

/-- Neither text begins with the other. -/
def Clash (m n : String) : Prop := ¬ m.toList <+: n.toList ∧ ¬ n.toList <+: m.toList

instance (marks : List String) (r : String) : Decidable (GoesOn marks r) :=
  inferInstanceAs (Decidable (∃ _ ∈ _, _))

instance (m n : String) : Decidable (Clash m n) := inferInstanceAs (Decidable (_ ∧ _))

/-- Whether the text begins, and with a character without the property. -/
def stops (p : Char → Bool) (m : String) : Bool := m.toList.head?.any (!p ·)

variable {marks ns : List String} {m s s' t t' r : String} {P Q : Prop}

theorem goesOn_append (hm : m ∈ marks) (t : String) : GoesOn marks (m ++ t) :=
  ⟨m, hm, by simp⟩

theorem goesOn_self (m t : String) : GoesOn [m] (m ++ t) :=
  goesOn_append (List.mem_singleton_self m) t

theorem GoesOn.append (h : GoesOn marks s) (r : String) : GoesOn marks (s ++ r) := by
  obtain ⟨m, hm, hs⟩ := h
  refine ⟨m, hm, hs.trans ?_⟩
  rw [String.toList_append]
  exact List.prefix_append _ _

theorem GoesOn.mono (h : GoesOn ns r) (hsub : ns ⊆ marks) : GoesOn marks r := by
  obtain ⟨m, hm, hr⟩ := h
  exact ⟨m, hsub hm, hr⟩

/-- A text that goes on with a mark goes on with the beginnings of that mark. -/
theorem GoesOn.shorten (h : GoesOn ns r) (hns : ∀ n ∈ ns, GoesOn marks n) : GoesOn marks r := by
  obtain ⟨n, hn, hr⟩ := h
  obtain ⟨m, hm, hmn⟩ := hns n hn
  exact ⟨m, hm, hmn.trans hr⟩

/-- A text does not go on in two ways that clash. -/
theorem GoesOn.clash (h : GoesOn marks r) (h' : GoesOn ns r)
    (hclash : ∀ m ∈ marks, ∀ n ∈ ns, Clash m n) : False := by
  obtain ⟨m, hm, hmr⟩ := h
  obtain ⟨n, hn, hnr⟩ := h'
  rcases List.prefix_or_prefix_of_prefix hmr hnr with hp | hp
  · exact (hclash m hm n hn).1 hp
  · exact (hclash m hm n hn).2 hp

theorem GoesOn.head {p : Char → Bool} (h : GoesOn marks r) (hmarks : ∀ m ∈ marks, stops p m) :
    ∃ c cs, r.toList = c :: cs ∧ p c = false := by
  obtain ⟨m, hm, t, ht⟩ := h
  have hstops := hmarks m hm
  unfold stops at hstops
  cases hl : m.toList with
  | nil => rw [hl] at hstops; cases hstops
  | cons c cs =>
    rw [hl] at hstops ht
    exact ⟨c, cs ++ t, ht.symm, by simpa using hstops⟩

/-! ## Settling -/

/-- Where the two texts go on with one of the marks and are equal as a whole, `P` holds and they
go on alike. -/
def Settles (marks : List String) (s s' : String) (P : Prop) : Prop :=
  ∀ ⦃r r' : String⦄, GoesOn marks r → GoesOn marks r' → s ++ r = s' ++ r' → P ∧ r = r'

theorem settles_same (s : String) (h : P) : Settles marks s s P :=
  fun _ _ _ _ heq => ⟨h, (String.append_right_inj s).mp heq⟩

/-- What two whole texts give away. -/
theorem Settles.of_eq (h : Settles [""] s s' P) (heq : s = s') : P := by
  have hempty : GoesOn [""] "" := goesOn_self "" ""
  exact (h hempty hempty (by rw [heq])).1

theorem Settles.imp (h : Settles marks s s' P) (hPQ : P → Q) : Settles marks s s' Q :=
  fun _ _ hr hr' heq => (h hr hr' heq).imp_left hPQ

theorem Settles.symm (h : Settles marks s s' P) : Settles marks s' s P :=
  fun _ _ hr hr' heq => (h hr' hr heq.symm).imp_right Eq.symm

theorem Settles.shorten (h : Settles marks s s' P) (hns : ∀ n ∈ ns, GoesOn marks n) :
    Settles ns s s' P :=
  fun _ _ hr hr' => h (hr.shorten hns) (hr'.shorten hns)

/-- One text after another; what the first ones settle may be used for the second ones. -/
theorem Settles.append (hs : Settles ns s s' P) (ht : P → Settles marks t t' Q)
    (hgo : ∀ r, GoesOn marks r → GoesOn ns (t ++ r))
    (hgo' : ∀ r, GoesOn marks r → GoesOn ns (t' ++ r)) :
    Settles marks (s ++ t) (s' ++ t') (P ∧ Q) := by
  intro r r' hr hr' heq
  rw [String.append_assoc, String.append_assoc] at heq
  obtain ⟨hP, hrest⟩ := hs (hgo r hr) (hgo' r' hr') heq
  obtain ⟨hQ, hr⟩ := ht hP hr hr' hrest
  exact ⟨⟨hP, hQ⟩, hr⟩

theorem Settles.prepend (p : String) (h : Settles marks s s' P) :
    Settles marks (p ++ s) (p ++ s') P := by
  intro r r' hr hr' heq
  rw [String.append_assoc, String.append_assoc, String.append_right_inj] at heq
  exact h hr hr' heq

/-- A fixed text `e` between two others. -/
theorem Settles.between {e : String} (hs : Settles [e] s s' P) (ht : P → Settles marks t t' Q) :
    Settles marks (s ++ (e ++ t)) (s' ++ (e ++ t')) (P ∧ Q) := by
  refine hs.append (fun hP => (ht hP).prepend e) (fun r _ => ?_) fun r _ => ?_
  · exact (goesOn_self e t).append r
  · exact (goesOn_self e t').append r

/-- A fixed text at the end. -/
theorem Settles.close {e : String} (hs : Settles [e] s s' P) :
    Settles marks (s ++ e) (s' ++ e) P := by
  have hgo : ∀ r, GoesOn marks r → GoesOn [e] (e ++ r) := fun r _ => goesOn_self e r
  exact (hs.append (fun _ => settles_same e trivial) hgo hgo).imp And.left

/-- Texts that clash are never equal. -/
theorem settles_of_clash {ms : List String} (hs : ∀ r, GoesOn marks r → GoesOn ms (s ++ r))
    (hs' : ∀ r, GoesOn marks r → GoesOn ns (s' ++ r)) (hclash : ∀ m ∈ ms, ∀ n ∈ ns, Clash m n) :
    Settles marks s s' P := by
  intro r r' hr hr' heq
  exact ((hs r hr).clash (heq ▸ hs' r' hr') hclash).elim

/-- A text that begins as nothing that follows does is told apart from no text. -/
theorem settles_nothing {heads : List String} (hheads : ∀ r, GoesOn heads (s ++ r))
    (hclash : ∀ h ∈ heads, ∀ m ∈ marks, Clash h m) : Settles marks s "" P := by
  refine settles_of_clash (fun r _ => hheads r) (fun r hr => ?_) hclash
  rwa [String.empty_append]

/-! ## Words, numbers and quoted texts -/

/-- A text of characters of one sort ends where another sort begins. -/
theorem settles_chars {p : Char → Bool} (hs : s.toList.all p) (hs' : s'.toList.all p)
    (hmarks : ∀ m ∈ marks, stops p m) : Settles marks s s' (s = s') := by
  intro r r' hr hr' heq
  have htake : ∀ {s r : String}, s.toList.all p → GoesOn marks r →
      (s ++ r).toList.takeWhile p = s.toList := by
    intro s r hs hr
    obtain ⟨c, cs, hc, hp⟩ := hr.head hmarks
    rw [String.toList_append, List.takeWhile_append_of_pos (List.all_eq_true.mp hs), hc,
      List.takeWhile_cons_of_neg (by simp [hp]), List.append_nil]
  have hss : s = s' := by
    rw [← String.toList_inj, ← htake hs hr, ← htake hs' hr', heq]
  subst hss
  exact ⟨rfl, (String.append_right_inj s).mp heq⟩

theorem settles_nat (hmarks : ∀ m ∈ marks, stops Char.isDigit m) (n k : Nat) :
    Settles marks (toString n) (toString k) (n = k) := by
  have hdigits : ∀ n : Nat, (toString n).toList.all Char.isDigit :=
    fun _ => List.all_eq_true.mpr fun _ hc => Decimal.isDigit_of_mem_toString hc
  refine (settles_chars (hdigits n) (hdigits k) hmarks).imp fun heq => ?_
  rw [Nat.toString_eq_ofList_toDigits, Nat.toString_eq_ofList_toDigits, String.ofList_inj] at heq
  rw [← Nat.ofDigitChars_ten_toDigits (n := n), heq, Nat.ofDigitChars_ten_toDigits]

/-- Doubled text before a closing quote that is not doubled. -/
theorem double_append_inj {q : Char} {cs ds r r' : List Char} (hr : ∀ c ∈ r.head?, c ≠ q)
    (hr' : ∀ c ∈ r'.head?, c ≠ q)
    (h : Text.double q cs ++ q :: r = Text.double q ds ++ q :: r') : cs = ds ∧ r = r' := by
  induction cs generalizing ds with
  | nil =>
    cases ds with
    | nil => exact ⟨rfl, (List.cons.inj h).2⟩
    | cons d ds =>
      simp only [Text.double, List.nil_append] at h
      split at h
      · obtain ⟨-, hrest⟩ := List.cons.inj h
        rw [hrest] at hr
        exact absurd rfl (hr q rfl)
      · next hd => exact absurd (List.cons.inj h).1.symm hd
  | cons c cs ih =>
    cases ds with
    | nil =>
      simp only [Text.double, List.nil_append] at h
      split at h
      · obtain ⟨-, hrest⟩ := List.cons.inj h
        rw [← hrest] at hr'
        exact absurd rfl (hr' q rfl)
      · next hc => exact absurd (List.cons.inj h).1 hc
    | cons d ds =>
      simp only [Text.double] at h
      split at h <;> split at h
      · next hc hd =>
        obtain ⟨hcs, hrest⟩ := ih (List.cons.inj (List.cons.inj h).2).2
        exact ⟨by rw [hc, hd, hcs], hrest⟩
      · next hc hd => exact absurd (List.cons.inj h).1.symm hd
      · next hc hd => exact absurd (List.cons.inj h).1 hc
      · obtain ⟨hcd, htail⟩ := List.cons.inj h
        obtain ⟨hcs, hrest⟩ := ih htail
        exact ⟨by rw [hcd, hcs], hrest⟩

theorem goesOn_quote (q : Char) (s r : String) :
    GoesOn [String.singleton q] (Text.quote q s ++ r) :=
  ⟨_, List.mem_singleton_self _, by simp⟩

theorem settles_quote {q : Char} (hmarks : ∀ m ∈ marks, stops (· == q) m) (s s' : String) :
    Settles marks (Text.quote q s) (Text.quote q s') (s = s') := by
  intro r r' hr hr' heq
  have hhead : ∀ {r : String}, GoesOn marks r → ∀ c ∈ r.toList.head?, c ≠ q := by
    intro r hr c hc
    obtain ⟨d, ds, hd, hq⟩ := hr.head hmarks
    rw [hd] at hc
    obtain rfl := Option.some.inj hc
    simpa using hq
  have hlist := congrArg String.toList heq
  simp only [String.toList_append, Text.toList_quote, List.cons_append, List.append_assoc,
    List.cons.injEq, true_and, List.nil_append] at hlist
  obtain ⟨hs, hrest⟩ := double_append_inj (hhead hr) (hhead hr') hlist
  exact ⟨String.toList_inj.mp hs, String.toList_inj.mp hrest⟩

/-- No text of characters of one sort is a quoted text. -/
theorem settles_chars_quote {p : Char → Bool} {q : Char} (hs : s.toList.all p) (hq : p q = false)
    (hmarks : ∀ m ∈ marks, stops p m ∧ Clash m (String.singleton q)) :
    Settles marks s (Text.quote q s') P := by
  intro r r' hr hr' heq
  have hstops : ∀ m ∈ String.singleton q :: marks, stops p m := by
    intro m hm
    rcases List.mem_cons.mp hm with rfl | hm
    · simp [stops, hq]
    · exact (hmarks m hm).1
  have hchars : Settles (String.singleton q :: marks) s "" (s = "") := settles_chars hs rfl hstops
  have hquote := goesOn_quote q s' r'
  -- the text is empty, so what follows it begins with the quote
  obtain ⟨-, rfl⟩ := hchars (hr.mono (List.subset_cons_self _ _))
    (hquote.mono (by simp)) (by rw [heq, String.empty_append])
  refine (hr.clash hquote fun m hm k hk => ?_).elim
  rw [List.mem_singleton.mp hk]
  exact (hmarks m hm).2

/-! ## Optional texts -/

section Optional

variable {o o' : Option String} {heads : List String}

/-- An optional text is given away where what follows never begins as it does. -/
theorem settles_optional (hboth : ∀ s ∈ o, ∀ s' ∈ o', Settles marks s s' (s = s'))
    (hheads : ∀ s ∈ o, ∀ r, GoesOn heads (s ++ r)) (hheads' : ∀ s ∈ o', ∀ r, GoesOn heads (s ++ r))
    (hclash : ∀ h ∈ heads, ∀ m ∈ marks, Clash h m) :
    Settles marks (o.getD "") (o'.getD "") (o = o') := by
  cases o with
  | none =>
    cases o' with
    | none => exact settles_same _ rfl
    | some s' => exact (settles_nothing (hheads' s' rfl) hclash).symm
  | some s =>
    cases o' with
    | none => exact settles_nothing (hheads s rfl) hclash
    | some s' => exact (hboth s rfl s' rfl).imp (congrArg some)

theorem goesOn_optional (hheads : ∀ s ∈ o, ∀ r, GoesOn heads (s ++ r)) (h : GoesOn marks r) :
    GoesOn (heads ++ marks) (o.getD "" ++ r) := by
  cases o with
  | none =>
    rw [Option.getD_none, String.empty_append]
    exact h.mono (List.subset_append_right heads marks)
  | some s => exact (hheads s rfl r).mono (List.subset_append_left heads marks)

end Optional

/-! ## Lists -/

section Lists

variable {α : Type} {f : α → String} {R : α → α → Prop} {sep : String} {heads : List String}

/-- The items that follow upon a first one, each behind a separator. -/
def tail (sep : String) (f : α → String) (xs : List α) : String :=
  "".intercalate (xs.map fun x => sep ++ f x)

theorem tail_cons (x : α) (xs : List α) : tail sep f (x :: xs) = sep ++ (f x ++ tail sep f xs) := by
  rw [tail, List.map_cons, concat_cons, String.append_assoc]
  rfl

theorem intercalate_cons (x : α) (xs : List α) :
    sep.intercalate ((x :: xs).map f) = f x ++ tail sep f xs := by
  induction xs generalizing x with
  | nil => simp [tail]
  | cons y ys ih =>
    rw [List.map_cons, List.map_cons, String.intercalate_cons_cons, ← List.map_cons, ih, tail_cons,
      String.append_assoc]

/-- Behind an item stands a separator if there are more, and what follows the list otherwise. -/
theorem goesOn_tail (xs : List α) (h : GoesOn marks r) :
    GoesOn (sep :: marks) (tail sep f xs ++ r) := by
  cases xs with
  | nil =>
    have hmore : GoesOn (sep :: marks) r := h.mono (List.subset_cons_self sep marks)
    simpa [tail] using hmore
  | cons x xs =>
    rw [tail_cons, String.append_assoc]
    exact goesOn_append List.mem_cons_self _

/-- An empty list and one that begins with an item are told apart by what follows. -/
theorem settles_list {g : List α → String} (hnil : g [] = "")
    (hheads : ∀ x xs r, GoesOn heads (g (x :: xs) ++ r))
    (hclash : ∀ h ∈ heads, ∀ m ∈ marks, Clash h m) (xs ys : List α)
    (hcons : ∀ x xs' y ys', xs = x :: xs' → ys = y :: ys' →
      Settles marks (g xs) (g ys) (List.Forall₂ R xs ys)) :
    Settles marks (g xs) (g ys) (List.Forall₂ R xs ys) := by
  cases xs with
  | nil =>
    cases ys with
    | nil => exact settles_same _ .nil
    | cons y ys =>
      rw [hnil]
      exact (settles_nothing (hheads y ys) hclash).symm
  | cons x xs =>
    cases ys with
    | nil =>
      rw [hnil]
      exact settles_nothing (hheads x xs) hclash
    | cons y ys => exact hcons x xs y ys rfl rfl

theorem settles_tail (hitem : ∀ x y, Settles (sep :: marks) (f x) (f y) (R x y))
    (hsep : ∀ m ∈ marks, Clash sep m) (xs ys : List α) :
    Settles marks (tail sep f xs) (tail sep f ys) (List.Forall₂ R xs ys) := by
  have hheads : ∀ x xs r, GoesOn [sep] (tail sep f (x :: xs) ++ r) := by
    intro x xs r
    rw [tail_cons, String.append_assoc]
    exact goesOn_append List.mem_cons_self _
  have hclash : ∀ h ∈ [sep], ∀ m ∈ marks, Clash h m := by
    intro h hh
    obtain rfl := List.mem_singleton.mp hh
    exact hsep
  induction xs generalizing ys with
  | nil => exact settles_list rfl hheads hclash [] ys fun _ _ _ _ h => nomatch h
  | cons x xs ih =>
    refine settles_list rfl hheads hclash (x :: xs) ys ?_
    rintro _ _ y ys ⟨rfl, rfl⟩ rfl
    rw [tail_cons, tail_cons]
    have hrow := (hitem x y).append (fun _ => ih ys) (fun _ => goesOn_tail xs)
      fun _ => goesOn_tail ys
    exact (hrow.imp fun ⟨hxy, hrest⟩ => .cons hxy hrest).prepend sep

/-- A list ends where no separator stands, and it is empty where no item begins. -/
theorem settles_intercalate (hitem : ∀ x y, Settles (sep :: marks) (f x) (f y) (R x y))
    (hsep : ∀ m ∈ marks, Clash sep m) (hheads : ∀ x r, GoesOn heads (f x ++ r))
    (hclash : ∀ h ∈ heads, ∀ m ∈ marks, Clash h m) (xs ys : List α) :
    Settles marks (sep.intercalate (xs.map f)) (sep.intercalate (ys.map f))
      (List.Forall₂ R xs ys) := by
  refine settles_list (g := fun xs => sep.intercalate (xs.map f)) rfl ?_ hclash xs ys ?_
  · intro x xs r
    rw [intercalate_cons, String.append_assoc]
    exact hheads x _
  · rintro x xs y ys rfl rfl
    rw [intercalate_cons, intercalate_cons]
    have hrow := (hitem x y).append (fun _ => settles_tail hitem hsep xs ys)
      (fun _ => goesOn_tail xs) fun _ => goesOn_tail ys
    exact hrow.imp fun ⟨hxy, hrest⟩ => .cons hxy hrest

end Lists

end Schemata.Recovery
