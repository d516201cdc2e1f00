import Schemata.Proofs.Quoting.Reading

/-!
# Frames

The frame of a text is what stands outside its quotes, and where. `Framed` says of a text
which tokens it holds and of a second text that it has the same frame. Both are kept when
texts are joined, as long as no quote follows upon a quote; the lemmas below say so for each
way in which the grammars join texts.

Number texts are shown to be free of quotes, floats without any assumption on their value.
-/
namespace Schemata.Quoting

/-- `s` reads as the tokens `ts`, in the frame in which `s'` reads as whatever it holds. -/
def Framed (q : Char) (s : String) (ts : List Token) (s' : String) : Prop :=
  ∃ ps ps', read q s = some ps ∧ read q s' = some ps' ∧ tokens ps = ts ∧ frame ps = frame ps'

/-! ## Texts without quotes -/

@[simp] theorem bare_append {s t : String} : Bare (s ++ t) ↔ Bare s ∧ Bare t := by
  simp only [Bare, String.toList_append, List.mem_append]
  exact ⟨fun h => ⟨fun c hc => h c (.inl hc), fun c hc => h c (.inr hc)⟩,
    fun h c hc => hc.elim (h.1 c) (h.2 c)⟩

theorem not_isMark_of_isDigit {c : Char} (h : c.isDigit) : ¬ IsMark c := by
  rintro (rfl | rfl | rfl) <;> exact absurd h (by decide)

@[simp] theorem bare_toString_nat (n : Nat) : Bare (toString n) := by
  intro c hc
  exact not_isMark_of_isDigit (Decimal.isDigit_of_mem_toString hc)

@[simp] theorem bare_toString_int (i : Int) : Bare (toString i) := by
  intro c hc
  rcases Decimal.mem_toString_int hc with h | rfl
  · exact not_isMark_of_isDigit h
  · decide

@[simp] theorem bare_sqlText (f : Float) : Bare (Decimal.sqlText f) := by
  intro c hc
  rcases Decimal.mem_sqlText hc with h | h
  · exact not_isMark_of_isDigit h
  · have hmarks : ['-', '.', 'i', 'n', 'f', 'N', 'a'].all fun c => !decide (IsMark c) := by decide
    simpa using List.all_eq_true.mp hmarks c h

theorem head_append {P : Char → Prop} {s t : String} (hs : ∀ c ∈ s.toList.head?, P c)
    (ht : ∀ c ∈ t.toList.head?, P c) : ∀ c ∈ (s ++ t).toList.head?, P c := by
  intro c hc
  rw [String.toList_append] at hc
  cases hl : s.toList with
  | nil =>
    rw [hl] at hc
    exact ht c hc
  | cons d ds =>
    rw [hl] at hc
    exact hs c (hl ▸ hc)

theorem head_append_of_ne {P : Char → Prop} {p t : String} (hp : ∀ c ∈ p.toList.head?, P c)
    (hne : p ≠ "") : ∀ c ∈ (p ++ t).toList.head?, P c := by
  intro c hc
  rw [String.toList_append] at hc
  cases hl : p.toList with
  | nil => exact absurd (String.toList_eq_nil_iff.mp hl) hne
  | cons d ds =>
    rw [hl] at hc
    exact hp c (hl ▸ hc)

theorem leads_empty : Leads "" := by
  intro c hc
  cases hc

theorem Bare.leads {s : String} (hs : Bare s) : Leads s :=
  fun c hc => hs c (List.mem_of_mem_head? hc)

theorem leads_append {p t : String} (hp : Bare p) (hne : p ≠ "") : Leads (p ++ t) :=
  head_append_of_ne hp.leads hne

theorem Leads.append {s t : String} (hs : Leads s) (ht : Leads t) : Leads (s ++ t) :=
  head_append hs ht

/-! ## Joining texts -/

theorem concat_cons (s : String) (ss : List String) :
    "".intercalate (s :: ss) = s ++ "".intercalate ss := by
  cases ss with
  | nil => simp
  | cons t ts => rw [String.intercalate_cons_cons, String.append_empty]

theorem concat_append (ss ts : List String) :
    "".intercalate (ss ++ ts) = "".intercalate ss ++ "".intercalate ts := by
  induction ss with
  | nil => simp
  | cons s ss ih => rw [List.cons_append, concat_cons, concat_cons, ih, String.append_assoc]

theorem concat_filterMap {α : Type} (f : α → Option String) (xs : List α) :
    "".intercalate (xs.filterMap f) = "".intercalate (xs.map fun x => (f x).getD "") := by
  induction xs with
  | nil => rfl
  | cons x xs ih =>
    rw [List.map_cons, concat_cons, ← ih]
    cases hx : f x with
    | none => rw [List.filterMap_cons_none hx, Option.getD_none, String.empty_append]
    | some s => rw [List.filterMap_cons_some hx, Option.getD_some, concat_cons]

variable {q : Char} {s s' t t' p : String} {ts us : List Token}

theorem framed_bare (hq : IsQuote q) (hp : Bare p) : Framed q p [] p :=
  ⟨_, _, read_bare hq hp, read_bare hq hp, tokens_bare _, rfl⟩

/-- The frame does not show what stands between the quotes. -/
theorem framed_quote (hq : IsQuote q) (kind : Kind) (s s' : String) :
    Framed q (Text.quote (kind.mark q) s) [⟨kind, s⟩] (Text.quote (kind.mark q) s') :=
  ⟨_, _, read_quote hq kind s, read_quote hq kind s', rfl, rfl⟩

theorem framed_append (hq : IsQuote q) (hs : Framed q s ts s') (ht : Framed q t us t')
    (hl : Leads t) (hl' : Leads t') : Framed q (s ++ t) (ts ++ us) (s' ++ t') := by
  obtain ⟨ps, ps', hps, hps', rfl, hf⟩ := hs
  obtain ⟨qs, qs', hqs, hqs', rfl, hg⟩ := ht
  refine ⟨ps ++ qs, ps' ++ qs', read_append hq hps hqs hl, read_append hq hps' hqs' hl', ?_, ?_⟩
  · exact tokens_append ps qs
  · rw [frame_append, frame_append, hf, hg]

theorem framed_bare_append (hq : IsQuote q) (hp : Bare p) (ht : Framed q t us t') :
    Framed q (p ++ t) us (p ++ t') := by
  obtain ⟨qs, qs', hqs, hqs', rfl, hg⟩ := ht
  refine ⟨_, _, read_bare_append hq hp hqs, read_bare_append hq hp hqs', ?_, ?_⟩
  · rw [tokens_append, tokens_bare, List.nil_append]
  · rw [frame_append, frame_append, hg]

theorem framed_append_bare (hq : IsQuote q) (hs : Framed q s ts s') (hp : Bare p) :
    Framed q (s ++ p) ts (s' ++ p) := by
  simpa using framed_append hq hs (framed_bare hq hp) hp.leads hp.leads

/-- A nonempty bare text keeps two texts apart, whatever they begin and end with. -/
theorem framed_join (hq : IsQuote q) (hs : Framed q s ts s') (hp : Bare p) (hne : p ≠ "")
    (ht : Framed q t us t') : Framed q (s ++ p ++ t) (ts ++ us) (s' ++ p ++ t') := by
  rw [String.append_assoc, String.append_assoc]
  exact framed_append hq hs (framed_bare_append hq hp ht) (leads_append hp hne) (leads_append hp hne)

/-- Texts in a row with a nonempty separator between neighbours. -/
theorem framed_intercalate {α : Type} {f f' : α → String} {g : α → List Token}
    (hq : IsQuote q) (hp : Bare p) (hne : p ≠ "") (xs : List α)
    (h : ∀ x ∈ xs, Framed q (f x) (g x) (f' x)) :
    Framed q (p.intercalate (xs.map f)) (xs.flatMap g) (p.intercalate (xs.map f')) := by
  induction xs with
  | nil => exact framed_bare hq (p := "") (by decide)
  | cons x xs ih =>
    have hx := h x List.mem_cons_self
    have hxs := ih fun y hy => h y (List.mem_cons_of_mem x hy)
    cases xs with
    | nil => simpa using hx
    | cons y ys =>
      simp only [List.map_cons, String.intercalate_cons_cons, List.flatMap_cons] at hxs ⊢
      exact framed_join hq hx hp hne hxs

/-- Texts in a row with nothing between them, none of which begins with a quote. -/
theorem framed_concat {α : Type} {f f' : α → String} {g : α → List Token}
    (hq : IsQuote q) (xs : List α)
    (h : ∀ x ∈ xs, Framed q (f x) (g x) (f' x) ∧ Leads (f x) ∧ Leads (f' x)) :
    Framed q ("".intercalate (xs.map f)) (xs.flatMap g) ("".intercalate (xs.map f')) ∧
      Leads ("".intercalate (xs.map f)) ∧ Leads ("".intercalate (xs.map f')) := by
  induction xs with
  | nil => exact ⟨framed_bare hq (p := "") (by decide), leads_empty, leads_empty⟩
  | cons x xs ih =>
    obtain ⟨hx, hl, hl'⟩ := h x List.mem_cons_self
    obtain ⟨hxs, hm, hm'⟩ := ih fun y hy => h y (List.mem_cons_of_mem x hy)
    simp only [List.map_cons, concat_cons, List.flatMap_cons]
    exact ⟨framed_append hq hx hxs hm hm', hl.append hm, hl'.append hm'⟩

end Schemata.Quoting
