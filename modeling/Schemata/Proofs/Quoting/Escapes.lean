import Schemata.Proofs.Quoting.Statements

/-!
# String literals on MySQL

MySQL reads a string by two rules: a doubled quote stands for one, and a backslash escapes the
character behind it. The lexer below is the doubling lexer with escapes added, so that the two
can be run on one text side by side. They stay in step until a backslash in a string has a
character behind it that it does not leave alone, and from there on they never read the same
strings.

Literals are written with quotes doubled and backslashes as they are. So a literal denotes the
text that it was made from exactly if every backslash in it stands before `%` or `_`.
-/
namespace Schemata.Quoting

/-! ## The lexer with escapes -/

/-- What a backslash and the character behind it stand for. Before the two wildcards of
patterns the backslash is kept; before a character without a meaning of its own it is dropped. -/
def unescape : Char → List Char
  | '0' => ['\x00']
  | 'b' => ['\x08']
  | 'n' => ['\n']
  | 'r' => ['\r']
  | 't' => ['\t']
  | 'Z' => ['\x1a']
  | '%' => ['\\', '%']
  | '_' => ['\\', '_']
  | c => [c]

/-- A character before which a backslash is kept. -/
def IsWildcard (c : Char) : Prop := c = '%' ∨ c = '_'

instance (c : Char) : Decidable (IsWildcard c) := inferInstanceAs (Decidable (_ ∨ _))

inductive EscapeMode where
  | reading (m : Mode)
  /-- Behind a backslash in a string. -/
  | escaped (text : List Char)
  deriving DecidableEq, Repr

/-- One character; without escapes a backslash is like any other. -/
def lexStep (escapes : Bool) (q : Char) : EscapeMode → Char → List Piece × EscapeMode
  | .escaped text, c => ([], .reading (.inside .string (text ++ unescape c)))
  | .reading (.inside .string text), c =>
    if escapes ∧ c = '\\' then ([], .escaped text)
    else ((step q (.inside .string text) c).1, .reading (step q (.inside .string text) c).2)
  | .reading m, c => ((step q m c).1, .reading (step q m c).2)

def lexFinish : EscapeMode → Option (List Piece)
  | .reading m => finish m
  | .escaped _ => none

def lex (escapes : Bool) (q : Char) : EscapeMode → List Char → Option (List Piece)
  | m, [] => lexFinish m
  | m, c :: cs => (lex escapes q (lexStep escapes q m c).2 cs).map ((lexStep escapes q m c).1 ++ ·)

/-- The pieces of a text as MySQL reads it, if it ends outside quotes. -/
def readEscaped (s : String) : Option (List Piece) :=
  lex true Grammar.backtick (.reading .outside) s.toList

def Token.string? (t : Token) : Option String := if t.kind = .string then some t.text else none

/-- The contents of the strings, in order of appearance. -/
def strings (ps : List Piece) : List String := (tokens ps).filterMap Token.string?

/-- The strings that MySQL reads in a text. -/
def escapedStrings (s : String) : Option (List String) := (readEscaped s).map strings

/-- Every backslash stands before a wildcard. -/
def Legible (cs : List Char) : Prop :=
  ∀ before after, cs = before ++ '\\' :: after → ∃ c, after.head? = some c ∧ IsWildcard c

variable {escapes : Bool} {q c : Char} {cs text : List Char} {m m' : EscapeMode}
  {ps qs : List Piece}

@[simp] theorem strings_nil : strings [] = [] := rfl

@[simp] theorem strings_append (ps qs : List Piece) :
    strings (ps ++ qs) = strings ps ++ strings qs := by
  simp [strings]

/-- With escapes the lexer differs only at a backslash in a string. -/
theorem lexStep_reading {m : Mode}
    (h : escapes = false ∨ ∀ text, m = .inside .string text → c ≠ '\\') :
    lexStep escapes q (.reading m) c = ((step q m c).1, .reading (step q m c).2) := by
  cases m with
  | outside => rfl
  | behind kind text => rfl
  | inside kind text =>
    cases kind with
    | identifier => rfl
    | string =>
      refine if_neg fun hc => ?_
      rcases h with rfl | h
      · exact Bool.false_ne_true hc.1
      · exact h text rfl hc.2

/-- Without escapes it is the doubling lexer. -/
theorem lex_false (m : Mode) (cs : List Char) : lex false q (.reading m) cs = scan q m cs := by
  induction cs generalizing m with
  | nil => rfl
  | cons c cs ih => rw [lex, scan, lexStep_reading (.inl rfl), ih]

/-- A step that completes nothing. -/
theorem lex_cons (h : lexStep escapes q m c = ([], m')) (cs : List Char) :
    lex escapes q m (c :: cs) = lex escapes q m' cs := by
  rw [lex, h]
  simp

theorem lexStep_quote :
    lexStep escapes q (.reading (.inside .string text)) '\'' = ([], .reading (.behind .string text)) :=
  lexStep_reading (.inr fun _ _ => by decide)

theorem lexStep_inside (hb : escapes = false ∨ c ≠ '\\') (hc : c ≠ '\'') :
    lexStep escapes q (.reading (.inside .string text)) c =
      ([], .reading (.inside .string (text ++ [c]))) := by
  rw [lexStep_reading (hb.imp_right fun hb _ _ => hb)]
  simp [step, Kind.mark, hc]

theorem lexStep_behind_quote :
    lexStep escapes q (.reading (.behind .string text)) '\'' =
      ([], .reading (.inside .string (text ++ ['\'']))) :=
  rfl

theorem lex_behind (hc : c ≠ '\'') (h : lex escapes q (.reading (.behind .string text)) (c :: cs) = some ps) :
    ∃ rs, ps = .token ⟨.string, String.ofList text⟩ :: rs := by
  obtain ⟨rs, -, rfl⟩ := Option.map_eq_some_iff.mp h
  exact ⟨_, by simp [lexStep, step, Kind.mark, hc]; rfl⟩

/-! ## What a string that has begun will hold -/

/-- The lexer is in a string, and has collected this much of it. -/
inductive Pending (text : List Char) : EscapeMode → Prop
  | inside : Pending text (.reading (.inside .string text))
  | behind : Pending text (.reading (.behind .string text))
  | escaped : Pending text (.escaped text)

theorem strings_token (text : List Char) (ps : List Piece) :
    strings (.token ⟨.string, String.ofList text⟩ :: ps) = String.ofList text :: strings ps := rfl

/-- The first of the strings begins with a text. -/
def Begins (text : List Char) (ss : List String) : Prop := ∃ t ts, ss = t :: ts ∧ text <+: t.toList

theorem Begins.of_append {more : List Char} {ss : List String} (h : Begins (text ++ more) ss) :
    Begins text ss := by
  obtain ⟨t, ts, hss, ht⟩ := h
  exact ⟨t, ts, hss, (List.prefix_append text more).trans ht⟩

/-- The next string that is read begins with what has been collected. -/
theorem begins_of_pending (hm : Pending text m) (h : lex escapes q m cs = some ps) :
    Begins text (strings ps) := by
  induction cs generalizing text m ps with
  | nil =>
    cases hm with
    | behind =>
      obtain rfl := Option.some.inj h
      exact ⟨_, [], strings_token text [], by simp⟩
    | inside | escaped => cases h
  | cons c cs ih =>
    cases hm with
    | inside =>
      by_cases hb : escapes = false ∨ c ≠ '\\'
      · by_cases hc : c = '\''
        · rw [hc, lex_cons lexStep_quote] at h
          exact ih .behind h
        · rw [lex_cons (lexStep_inside hb hc)] at h
          exact (ih .inside h).of_append
      · obtain ⟨rfl, rfl⟩ : escapes = true ∧ c = '\\' := by simpa using hb
        rw [lex_cons rfl] at h
        exact ih .escaped h
    | behind =>
      by_cases hc : c = '\''
      · rw [hc, lex_cons lexStep_behind_quote] at h
        exact (ih .inside h).of_append
      · obtain ⟨rs, rfl⟩ := lex_behind hc h
        exact ⟨_, _, strings_token text rs, by simp⟩
    | escaped =>
      rw [lex_cons rfl] at h
      exact (ih .inside h).of_append

/-- Behind a quote the string has ended, unless it goes on with that quote. -/
theorem strings_of_behind (h : lex escapes q (.reading (.behind .string text)) cs = some ps) :
    ∃ t ts, strings ps = t :: ts ∧ ∃ rest, t.toList = text ++ rest ∧ ∀ c ∈ rest.head?, c = '\'' := by
  have hended : ∀ rs, ps = .token ⟨.string, String.ofList text⟩ :: rs →
      ∃ t ts, strings ps = t :: ts ∧ ∃ rest, t.toList = text ++ rest ∧ ∀ c ∈ rest.head?, c = '\'' := by
    rintro rs rfl
    exact ⟨_, _, strings_token text rs, [], by simp, fun c hc => nomatch hc⟩
  cases cs with
  | nil => exact hended [] (Option.some.inj h).symm
  | cons c cs =>
    by_cases hc : c = '\''
    · rw [hc, lex_cons lexStep_behind_quote] at h
      obtain ⟨t, ts, hps, rest, ht⟩ := begins_of_pending .inside h
      exact ⟨t, ts, hps, '\'' :: rest, by simp [← ht], fun d hd => (Option.some.inj hd).symm⟩
    · obtain ⟨rs, hrs⟩ := lex_behind hc h
      exact hended rs hrs

/-- Two strings that differ in one place are not the same, however they go on. -/
theorem ne_of_begins {u v w : List Char} {x y : Char} {ss ss' : List String} (hxy : x ≠ y)
    (h : Begins (u ++ x :: v) ss) (h' : Begins (u ++ y :: w) ss') : ss ≠ ss' := by
  rintro rfl
  obtain ⟨t, ts, rfl, rest, ht⟩ := h
  obtain ⟨t', ts', hss, rest', ht'⟩ := h'
  obtain ⟨rfl, -⟩ := List.cons.inj hss
  rw [← ht', List.append_assoc, List.append_assoc] at ht
  exact hxy (List.cons.inj (List.append_cancel_left ht)).1

/-! ## Where the two readings part -/

theorem unescape_wildcard (h : IsWildcard c) : unescape c = ['\\', c] := by
  rcases h with rfl | rfl <;> rfl

theorem unescape_other (hw : ¬ IsWildcard c) (hb : c ≠ '\\') : ∃ d, unescape c = [d] ∧ d ≠ '\\' := by
  unfold unescape
  split
  case h_7 | h_8 => exact absurd (by decide) hw
  case h_9 => exact ⟨c, rfl, hb⟩
  all_goals exact ⟨_, rfl, by decide⟩

/-- The escapes have swallowed backslashes of a text: what has been collected of it with escapes
is shorter. -/
inductive Swallowed : List Char → EscapeMode → Prop
  | inside (text : List Char) (k : Nat) :
    Swallowed (text ++ List.replicate (k + 1) '\\') (.reading (.inside .string text))
  | escaped (text : List Char) (k : Nat) :
    Swallowed (text ++ List.replicate (k + 2) '\\') (.escaped text)

/-- What has been swallowed is never made up for. -/
theorem strings_ne_of_swallowed (hm : Swallowed text m)
    (h : lex false q (.reading (.inside .string text)) cs = some ps)
    (h' : lex true q m cs = some qs) : strings ps ≠ strings qs := by
  induction cs generalizing text m with
  | nil => cases h
  | cons c cs ih =>
    have hbegins := begins_of_pending .inside h
    cases hm with
    | inside text k =>
      rw [List.replicate_succ] at hbegins
      by_cases hb : c = '\\'
      · subst hb
        rw [lex_cons (lexStep_inside (.inl rfl) (by decide)), List.append_assoc,
          ← List.replicate_succ'] at h
        rw [lex_cons rfl] at h'
        exact ih (.escaped text k) h h'
      by_cases hc : c = '\''
      · subst hc
        rw [lex_cons lexStep_quote] at h'
        obtain ⟨t, ts, hqs, rest, ht, hrest⟩ := strings_of_behind h'
        intro heq
        obtain ⟨t', ts', hps, more, ht'⟩ := hbegins
        obtain ⟨rfl, -⟩ := List.cons.inj (hps.symm.trans (heq.trans hqs))
        rw [ht, List.append_assoc] at ht'
        obtain rfl := List.append_cancel_left ht'
        exact absurd (hrest _ rfl) (by decide)
      · rw [lex_cons (lexStep_inside (.inr hb) hc)] at h'
        exact ne_of_begins (Ne.symm hb) hbegins (begins_of_pending .inside h')
    | escaped text k =>
      rw [List.replicate_succ] at hbegins
      rw [lex_cons rfl] at h'
      by_cases hb : c = '\\'
      · subst hb
        rw [lex_cons (lexStep_inside (.inl rfl) (by decide)), List.append_assoc,
          ← List.replicate_succ', List.replicate_succ, List.append_cons] at h
        exact ih (.inside (text ++ ['\\']) (k + 1)) h h'
      by_cases hw : IsWildcard c
      · rw [unescape_wildcard hw, List.append_cons] at h'
        rw [List.replicate_succ, List.append_cons] at hbegins
        exact ne_of_begins (Ne.symm hb) hbegins (begins_of_pending .inside h')
      · obtain ⟨d, hd, hne⟩ := unescape_other hw hb
        rw [hd] at h'
        exact ne_of_begins (Ne.symm hne) hbegins (begins_of_pending .inside h')

/-! ## Legible texts -/

theorem legible_nil : Legible [] := fun _ _ h =>
  absurd h.symm (List.append_ne_nil_of_right_ne_nil _ (List.cons_ne_nil _ _))

theorem legible_cons :
    Legible (c :: cs) ↔ (c = '\\' → ∃ d, cs.head? = some d ∧ IsWildcard d) ∧ Legible cs := by
  constructor
  · intro h
    refine ⟨?_, fun before after hcs => ?_⟩
    · rintro rfl
      exact h [] cs rfl
    · exact h (c :: before) after (by rw [hcs, List.cons_append])
  · rintro ⟨hc, hcs⟩ before after h
    cases before with
    | nil =>
      obtain ⟨rfl, rfl⟩ := List.cons.inj h
      exact hc rfl
    | cons d before =>
      obtain ⟨rfl, rfl⟩ := List.cons.inj h
      exact hcs before after rfl

theorem Legible.append {ds : List Char} (hcs : Legible cs) (hds : Legible ds) :
    Legible (cs ++ ds) := by
  induction cs with
  | nil => exact hds
  | cons c cs ih =>
    obtain ⟨hc, hcs⟩ := legible_cons.mp hcs
    rw [List.cons_append, legible_cons]
    refine ⟨fun h => ?_, ih hcs⟩
    obtain ⟨d, hd, hw⟩ := hc h
    exact ⟨d, by rw [List.head?_append, hd]; rfl, hw⟩

theorem legible_singleton (hc : c ≠ '\\') : Legible [c] :=
  legible_cons.mpr ⟨fun h => absurd h hc, legible_nil⟩

theorem legible_pair (hw : IsWildcard c) : Legible ['\\', c] := by
  have hc : c ≠ '\\' := by rcases hw with rfl | rfl <;> decide
  exact legible_cons.mpr ⟨fun _ => ⟨c, rfl, hw⟩, legible_singleton hc⟩

/-! ## The two lexers side by side -/

/-- What is held of a string is legible. -/
def Mode.Legible : Mode → Prop
  | .inside .string text | .behind .string text => Quoting.Legible text
  | _ => True

theorem legible_enter (q c : Char) :
    (enter q c).2.Legible ∧ strings (enter q c).1 = [] := by
  unfold enter
  cases opened? q c with
  | none => exact ⟨trivial, rfl⟩
  | some kind =>
    cases kind with
    | identifier => exact ⟨trivial, rfl⟩
    | string => exact ⟨legible_nil, rfl⟩

/-- Only a backslash in a string makes it illegible. -/
theorem legible_step {m : Mode} (hm : m.Legible) (hc : ∀ text, m = .inside .string text → c ≠ '\\') :
    (step q m c).2.Legible ∧ ∀ s ∈ strings (step q m c).1, Legible s.toList := by
  cases m with
  | outside =>
    obtain ⟨hmode, hstrings⟩ := legible_enter q c
    exact ⟨hmode, fun s hs => by simp [step, hstrings] at hs⟩
  | inside kind text =>
    have hnone : ∀ s ∈ strings [], Legible s.toList := fun _ hs => absurd hs List.not_mem_nil
    cases kind with
    | identifier =>
      by_cases hmark : c = Kind.identifier.mark q
      · simpa only [step, if_pos hmark] using ⟨trivial, hnone⟩
      · simpa only [step, if_neg hmark] using ⟨trivial, hnone⟩
    | string =>
      by_cases hmark : c = Kind.string.mark q
      · simpa only [step, if_pos hmark] using ⟨hm, hnone⟩
      · simpa only [step, if_neg hmark] using
          ⟨Quoting.Legible.append hm (legible_singleton (hc text rfl)), hnone⟩
  | behind kind text =>
    obtain ⟨hmode, hstrings⟩ := legible_enter q c
    cases kind with
    | identifier =>
      by_cases hmark : c = Kind.identifier.mark q
      · simp only [step, if_pos hmark]
        exact ⟨trivial, fun _ hs => absurd hs List.not_mem_nil⟩
      · have hnone : strings (.token ⟨.identifier, String.ofList text⟩ :: (enter q c).1) = [] := hstrings
        simp only [step, if_neg hmark, hnone]
        exact ⟨hmode, fun _ hs => absurd hs List.not_mem_nil⟩
    | string =>
      by_cases hmark : c = Kind.string.mark q
      · have hc : c ≠ '\\' := by
          rw [hmark]
          exact (by decide : '\'' ≠ '\\')
        simp only [step, if_pos hmark]
        exact ⟨Quoting.Legible.append hm (legible_singleton hc), fun _ hs => absurd hs List.not_mem_nil⟩
      · simp only [step, if_neg hmark, strings_token, hstrings, List.mem_singleton]
        refine ⟨hmode, ?_⟩
        rintro s rfl
        rw [String.toList_ofList]
        exact hm

/-- The lexers have read the same, or the one with escapes waits for what a backslash escapes. -/
inductive InStep : Mode → EscapeMode → Prop
  | reading (m : Mode) : m.Legible → InStep m (.reading m)
  | escaped (text : List Char) : Legible text → InStep (.inside .string (text ++ ['\\'])) (.escaped text)

/-- Where all strings are legible the lexers read the same. -/
theorem lex_of_legible {m : Mode} {m' : EscapeMode} (hm : InStep m m')
    (h : lex false q (.reading m) cs = some ps) (hl : ∀ s ∈ strings ps, Legible s.toList) :
    lex true q m' cs = some ps := by
  induction cs generalizing m m' ps with
  | nil =>
    cases hm with
    | reading => exact h
    | escaped => cases h
  | cons c cs ih =>
    cases hm with
    | reading _ hmode =>
      by_cases hb : ∃ text, m = .inside .string text ∧ c = '\\'
      · obtain ⟨text, rfl, rfl⟩ := hb
        rw [lex_cons (lexStep_inside (.inl rfl) (by decide))] at h
        rw [lex_cons rfl]
        exact ih (.escaped text hmode) h hl
      · have hc : ∀ text, m = .inside .string text → c ≠ '\\' := fun text ht hc => hb ⟨text, ht, hc⟩
        obtain ⟨rs, hrs, rfl⟩ := Option.map_eq_some_iff.mp h
        rw [lexStep_reading (.inl rfl)] at hrs hl
        rw [lexStep_reading (.inl rfl), lex, lexStep_reading (.inr hc)]
        have htail := ih (.reading _ (legible_step hmode hc).1) hrs fun s hs =>
          hl s (by rw [strings_append]; exact List.mem_append_right _ hs)
        rw [htail, Option.map_some]
    | escaped text htext =>
      -- The string goes on behind the backslash with `c`, whatever `c` is.
      have hw : IsWildcard c := by
        by_cases hc : c = '\''
        · rw [hc, lex_cons lexStep_quote] at h
          obtain ⟨t, ts, hps, rest, ht, hrest⟩ := strings_of_behind h
          obtain ⟨d, hd, hw⟩ := hl t (hps ▸ List.mem_cons_self) text rest (by rw [ht]; simp)
          rw [hc]
          exact hrest d hd ▸ hw
        · rw [lex_cons (lexStep_inside (.inl rfl) hc)] at h
          obtain ⟨t, ts, hps, rest, ht⟩ := begins_of_pending .inside h
          obtain ⟨d, hd, hw⟩ := hl t (hps ▸ List.mem_cons_self) text (c :: rest) (by rw [← ht]; simp)
          exact Option.some.inj hd ▸ hw
      have hc : c ≠ '\'' := by rcases hw with rfl | rfl <;> decide
      rw [lex_cons (lexStep_inside (.inl rfl) hc)] at h
      rw [lex_cons rfl, unescape_wildcard hw, List.append_cons]
      have htext' : Legible (text ++ ['\\'] ++ [c]) := by
        rw [← List.append_cons]
        exact htext.append (legible_pair hw)
      exact ih (.reading _ htext') h hl

/-- Where the lexers read the same strings, all of them are legible. -/
theorem legible_of_strings_eq {m : Mode} {m' : EscapeMode} (hm : InStep m m')
    (h : lex false q (.reading m) cs = some ps) (h' : lex true q m' cs = some qs)
    (heq : strings ps = strings qs) : ∀ s ∈ strings ps, Legible s.toList := by
  induction cs generalizing m m' ps qs with
  | nil =>
    cases hm with
    | reading _ hmode =>
      cases m with
      | outside =>
        obtain rfl := Option.some.inj h
        exact fun s hs => nomatch hs
      | inside kind text => cases h
      | behind kind text =>
        obtain rfl := Option.some.inj h
        intro s hs
        cases kind with
        | identifier => cases hs
        | string =>
          obtain rfl := List.mem_singleton.mp hs
          rw [String.toList_ofList]
          exact hmode
    | escaped => cases h
  | cons c cs ih =>
    cases hm with
    | reading _ hmode =>
      by_cases hb : ∃ text, m = .inside .string text ∧ c = '\\'
      · obtain ⟨text, rfl, rfl⟩ := hb
        rw [lex_cons (lexStep_inside (.inl rfl) (by decide))] at h
        rw [lex_cons rfl] at h'
        exact ih (.escaped text hmode) h h' heq
      · have hc : ∀ text, m = .inside .string text → c ≠ '\\' := fun text ht hc => hb ⟨text, ht, hc⟩
        obtain ⟨hmode', hread⟩ := legible_step (q := q) hmode hc
        obtain ⟨rs, hrs, rfl⟩ := Option.map_eq_some_iff.mp h
        obtain ⟨rs', hrs', rfl⟩ := Option.map_eq_some_iff.mp h'
        rw [lexStep_reading (.inl rfl)] at hrs heq ⊢
        rw [lexStep_reading (.inr hc)] at hrs' heq
        rw [strings_append, strings_append] at heq
        have htail := ih (.reading _ hmode') hrs hrs' (List.append_cancel_left heq)
        intro s hs
        rw [strings_append] at hs
        exact (List.mem_append.mp hs).elim (hread s) (htail s)
    | escaped text htext =>
      have hbegins := begins_of_pending .inside h
      rw [lex_cons rfl] at h'
      by_cases hb : c = '\\'
      · subst hb
        rw [lex_cons (lexStep_inside (.inl rfl) (by decide))] at h
        exact absurd heq (strings_ne_of_swallowed (.inside (text ++ ['\\']) 0) h h')
      by_cases hw : IsWildcard c
      · have hc : c ≠ '\'' := by rcases hw with rfl | rfl <;> decide
        rw [lex_cons (lexStep_inside (.inl rfl) hc), ← List.append_cons] at h
        rw [unescape_wildcard hw] at h'
        exact ih (.reading (.inside .string _) (htext.append (legible_pair hw))) h h' heq
      · obtain ⟨d, hd, hne⟩ := unescape_other hw hb
        rw [hd] at h'
        exact absurd heq (ne_of_begins hne.symm hbegins (begins_of_pending .inside h'))

theorem inStep_start : InStep .outside (.reading .outside) := .reading _ trivial

variable {s : String}

/-- Of a text whose doubling reading is known, MySQL reads the same exactly if all its strings
are legible. -/
theorem readEscaped_eq_iff (h : read Grammar.backtick s = some ps) :
    readEscaped s = some ps ↔ ∀ t ∈ strings ps, Legible t.toList := by
  rw [read, ← lex_false] at h
  exact ⟨fun h' => legible_of_strings_eq inStep_start h h' rfl, lex_of_legible inStep_start h⟩

/-- Even of the strings alone, where one is illegible others are read or one is left open. -/
theorem escapedStrings_eq_iff (h : read Grammar.backtick s = some ps) :
    escapedStrings s = some (strings ps) ↔ ∀ t ∈ strings ps, Legible t.toList := by
  constructor
  · intro heq
    obtain ⟨qs, hqs, hstrings⟩ := Option.map_eq_some_iff.mp heq
    rw [read, ← lex_false] at h
    exact legible_of_strings_eq inStep_start h hqs hstrings.symm
  · intro hl
    rw [escapedStrings, (readEscaped_eq_iff h).mpr hl, Option.map_some]

end Schemata.Quoting

namespace Schemata

/-- The texts that a column's definition is written with: the values of an enum and a string
default. -/
def Column.inlinedTexts (c : Column) : List String :=
  (match c.type with
    | .enum values => values
    | _ => []) ++
  match c.default with
  | some (.string s) => [s]
  | _ => []

def Blueprint.inlinedTexts (b : Blueprint) : List String := b.columns.flatMap Column.inlinedTexts

namespace Quoting

/-- The contents of those tokens that are strings. -/
def stringTexts (ts : List Token) : List String := ts.filterMap Token.string?

@[simp] theorem stringTexts_append (ts us : List Token) :
    stringTexts (ts ++ us) = stringTexts ts ++ stringTexts us :=
  List.filterMap_append

theorem stringTexts_dotted (n : String) : stringTexts (Layout.dotted n) = [] := by
  refine List.filterMap_eq_nil_iff.mpr fun t ht => ?_
  obtain ⟨segment, -, hsegment⟩ := List.mem_flatMap.mp ht
  unfold Layout.name at hsegment
  split at hsegment
  · cases hsegment
  · obtain rfl := List.mem_singleton.mp hsegment
    rfl

theorem stringTexts_column (c : Column) :
    stringTexts (Layout.column .mysql c) = c.inlinedTexts := by
  obtain ⟨name, type, nullable, default, autoIncrement⟩ := c
  have htype : stringTexts (Layout.enumValues .mysql type) =
      match type with
      | .enum values => values
      | _ => [] := by
    cases type with
    | enum values =>
      simp [stringTexts, Layout.enumValues, List.filterMap_map, Function.comp_def, Token.string?]
    | _ => rfl
  have hdefault : stringTexts (Layout.default default) =
      match default with
      | some (.string s) => [s]
      | _ => [] := by
    cases default with
    | none => rfl
    | some v => cases v <;> rfl
  simp only [Layout.column, Column.inlinedTexts, stringTexts_append, stringTexts_dotted,
    htype, hdefault, List.nil_append]

theorem stringTexts_columns (b : Blueprint) :
    stringTexts (b.columns.flatMap (Layout.column .mysql)) = b.inlinedTexts := by
  simp only [stringTexts, Blueprint.inlinedTexts, List.filterMap_flatMap]
  exact congrArg b.columns.flatMap (funext stringTexts_column)

/-- A statement that holds the texts of the columns and no other strings. -/
theorem escapedStrings_eq_inlinedTexts_iff {b : Blueprint} {s : String} {ts : List Token}
    (h : [tokensOf Grammar.backtick s] = [ts].map some) (hts : stringTexts ts = b.inlinedTexts) :
    escapedStrings s = some b.inlinedTexts ↔ ∀ t ∈ b.inlinedTexts, Legible t.toList := by
  obtain ⟨ps, hps, rfl⟩ := Option.map_eq_some_iff.mp (List.singleton_inj.mp h)
  rw [← hts]
  exact escapedStrings_eq_iff hps

/-- On MySQL a literal denotes the text that it was made from exactly if that is legible, and
the texts of the columns that are created or added are read as they are exactly if all of them
are. -/
theorem mysql_literal_denotes_text_iff (s : String) (b : Blueprint) :
    (readEscaped (Text.quoteLiteral s) = some [.token ⟨.string, s⟩] ↔ Legible s.toList) ∧
      (∃ stmt, Grammar.mysql.compileCommand b .create = .ok [stmt] ∧
        (escapedStrings stmt = some b.inlinedTexts ↔ ∀ t ∈ b.inlinedTexts, Legible t.toList)) ∧
      ∃ stmt, Grammar.mysql.compileCommand b .add = .ok [stmt] ∧
        (escapedStrings stmt = some b.inlinedTexts ↔ ∀ t ∈ b.inlinedTexts, Legible t.toList) := by
  refine ⟨?_, ⟨_, rfl, ?_⟩, ⟨_, rfl, ?_⟩⟩
  · have hread : read Grammar.backtick (Text.quoteLiteral s) = some [.token ⟨.string, s⟩] :=
      read_quote (by decide) .string s
    have hstrings : strings [.token ⟨.string, s⟩] = [s] := rfl
    rw [readEscaped_eq_iff hread, hstrings, List.forall_mem_singleton]
  · obtain ⟨-, -, htokens, -⟩ := framedAll_compileCommand (d := .mysql) (b := b) (c := .create) rfl
    refine escapedStrings_eq_inlinedTexts_iff htokens ?_
    rw [stringTexts_append, stringTexts_append, stringTexts_dotted, stringTexts_columns]
    exact List.append_nil _
  · obtain ⟨-, -, htokens, -⟩ := framedAll_compileCommand (d := .mysql) (b := b) (c := .add) rfl
    refine escapedStrings_eq_inlinedTexts_iff htokens ?_
    rw [stringTexts_append, stringTexts_dotted, stringTexts_columns, List.nil_append]

/-- A text of one backslash leaves its literal open, and the statement with it. -/
theorem lone_backslash_leaves_literal_open :
    let b : Blueprint :=
      { table := "t"
        columns := [{ name := "a", type := .text, default := some (.string "\\") }]
        commands := [.create] }
    readEscaped (Text.quoteLiteral "\\") = none ∧
      ∃ s, Dialect.mysql.grammar.compile b = .ok [s] ∧ readEscaped s = none :=
  ⟨rfl, _, rfl, rfl⟩

end Quoting

end Schemata
