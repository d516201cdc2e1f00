import Schemata.Grammar.Dialects

/-!
# Reading a statement back

The doubling lexer of a dialect cuts a text into characters outside quotes and whole quoted
tokens. It is written independently of the grammars: it knows the two quote characters and
that a doubled quote stands for one. A text that ends inside a quote has no reading.

The main fact is `scan_resume`: behind a text that has a reading, the lexer goes on from a
character that is no quote as if nothing had come before.
-/
namespace Schemata.Quoting

inductive Kind where
  | identifier
  | string
  deriving DecidableEq, Repr

/-- The quote around tokens of a kind; `q` is the one around identifiers. -/
def Kind.mark (q : Char) : Kind → Char
  | .identifier => q
  | .string => '\''

/-- A quoted token with its contents, doubled quotes taken as one. -/
structure Token where
  kind : Kind
  text : String
  deriving DecidableEq, Repr

inductive Piece where
  /-- A character outside quotes. -/
  | bare (c : Char)
  | token (t : Token)
  deriving DecidableEq, Repr

/-- Where the lexer stands. Behind a quote it is open whether the token has ended. -/
inductive Mode where
  | outside
  | inside (kind : Kind) (text : List Char)
  | behind (kind : Kind) (text : List Char)
  deriving DecidableEq, Repr

def opened? (q c : Char) : Option Kind :=
  if c = q then some .identifier else if c = '\'' then some .string else none

/-- One character outside quotes. -/
def enter (q c : Char) : List Piece × Mode :=
  match opened? q c with
  | some kind => ([], .inside kind [])
  | none => ([.bare c], .outside)

def step (q : Char) : Mode → Char → List Piece × Mode
  | .outside, c => enter q c
  | .inside kind text, c =>
    if c = kind.mark q then ([], .behind kind text) else ([], .inside kind (text ++ [c]))
  | .behind kind text, c =>
    if c = kind.mark q then ([], .inside kind (text ++ [c]))
    else (.token ⟨kind, String.ofList text⟩ :: (enter q c).1, (enter q c).2)

/-- What the end of the text completes; nothing is read from an open token. -/
def finish : Mode → Option (List Piece)
  | .outside => some []
  | .inside _ _ => none
  | .behind kind text => some [.token ⟨kind, String.ofList text⟩]

def scan (q : Char) : Mode → List Char → Option (List Piece)
  | m, [] => finish m
  | m, c :: cs => (scan q (step q m c).2 cs).map ((step q m c).1 ++ ·)

/-- The pieces of a text, if it ends outside quotes. -/
def read (q : Char) (s : String) : Option (List Piece) := scan q .outside s.toList

def Piece.token? : Piece → Option Token
  | .bare _ => none
  | .token t => some t

def Piece.bare? : Piece → Option Char
  | .bare c => some c
  | .token _ => none

/-- The quoted tokens, in order of appearance. -/
def tokens (ps : List Piece) : List Token := ps.filterMap Piece.token?

/-- The text outside quotes, with `none` in the place of every token. -/
def frame (ps : List Piece) : List (Option Char) := ps.map Piece.bare?

@[simp] theorem tokens_append (ps qs : List Piece) : tokens (ps ++ qs) = tokens ps ++ tokens qs :=
  List.filterMap_append

@[simp] theorem frame_append (ps qs : List Piece) : frame (ps ++ qs) = frame ps ++ frame qs :=
  List.map_append

@[simp] theorem tokens_bare (cs : List Char) : tokens (cs.map .bare) = [] := by
  simp [tokens, Piece.token?]

@[simp] theorem frame_bare (cs : List Char) : frame (cs.map .bare) = cs.map some := by
  simp [frame, Piece.bare?]

/-- A quote character of some dialect, of identifiers or of strings. -/
def IsMark (c : Char) : Prop := c = Grammar.doubleQuote ∨ c = Grammar.backtick ∨ c = '\''

instance (c : Char) : Decidable (IsMark c) := inferInstanceAs (Decidable (_ ∨ _ ∨ _))

/-- The quote of a dialect around identifiers. -/
def IsQuote (q : Char) : Prop := q = Grammar.doubleQuote ∨ q = Grammar.backtick

instance (q : Char) : Decidable (IsQuote q) := inferInstanceAs (Decidable (_ ∨ _))

theorem isQuote_grammar (d : Dialect) : IsQuote d.grammar.quote := by cases d <;> decide

/-- A text without any quote character. -/
def Bare (s : String) : Prop := ∀ c ∈ s.toList, ¬ IsMark c

instance (s : String) : Decidable (Bare s) := List.decidableBAll _ _

/-- A text that does not begin with a quote character. -/
def Leads (s : String) : Prop := ∀ c ∈ s.toList.head?, ¬ IsMark c

theorem IsQuote.ne_string {q : Char} (hq : IsQuote q) : '\'' ≠ q := by
  rcases hq with rfl | rfl <;> decide

theorem opened?_eq_none {q c : Char} (hq : IsQuote q) (hc : ¬ IsMark c) : opened? q c = none := by
  have hn : c ≠ q := by
    rintro rfl
    exact hc (hq.elim .inl (.inr ∘ .inl))
  have hs : c ≠ '\'' := fun h => hc (.inr (.inr h))
  simp [opened?, hn, hs]

theorem opened?_mark {q : Char} (hq : IsQuote q) (kind : Kind) :
    opened? q (kind.mark q) = some kind := by
  cases kind
  · simp [opened?, Kind.mark]
  · simp [opened?, Kind.mark, hq.ne_string]

theorem enter_bare {q c : Char} (hq : IsQuote q) (hc : ¬ IsMark c) :
    enter q c = ([.bare c], .outside) := by
  simp [enter, opened?_eq_none hq hc]

theorem ne_mark {q c : Char} (hq : IsQuote q) (hc : ¬ IsMark c) (kind : Kind) :
    c ≠ kind.mark q := by
  rintro rfl
  have ho := opened?_mark hq kind
  rw [opened?_eq_none hq hc] at ho
  cases ho

/-- Behind a text that has a reading, a character that is no quote is read outside quotes,
whatever the mode in which that text ended. -/
theorem scan_resume {q c : Char} (hq : IsQuote q) (hc : ¬ IsMark c) (ds : List Char) :
    ∀ {cs : List Char} {m : Mode} {ps : List Piece}, scan q m cs = some ps →
      scan q m (cs ++ c :: ds) = (scan q .outside ds).map (ps ++ .bare c :: ·) := by
  intro cs
  induction cs with
  | nil =>
    intro m ps h
    cases m with
    | outside =>
      obtain rfl := Option.some.inj h
      simp [scan, step, enter_bare hq hc]
    | inside kind text => cases h
    | behind kind text =>
      obtain rfl := Option.some.inj h
      simp [scan, step, enter_bare hq hc, ne_mark hq hc kind]
  | cons d cs ih =>
    intro m ps h
    obtain ⟨rs, hr, rfl⟩ := Option.map_eq_some_iff.mp h
    simp only [List.cons_append, scan, ih hr, Option.map_map]
    congr 1
    funext qs
    simp

/-- Doubled contents lead up to the closing quote with exactly the contents collected. -/
theorem scan_double (q : Char) (kind : Kind) (rest : List Char) (cs text : List Char) :
    scan q (.inside kind text) (Text.double (kind.mark q) cs ++ rest) =
      scan q (.inside kind (text ++ cs)) rest := by
  induction cs generalizing text with
  | nil => simp [Text.double]
  | cons c cs ih =>
    by_cases hc : c = kind.mark q
    · simp [Text.double, scan, step, hc, ih]
    · simp [Text.double, scan, step, hc, ih]

/-- A quoted text reads as one token with its contents. -/
theorem read_quote {q : Char} (hq : IsQuote q) (kind : Kind) (s : String) :
    read q (Text.quote (kind.mark q) s) = some [.token ⟨kind, s⟩] := by
  unfold read
  rw [Text.toList_quote, scan]
  simp only [step, enter, opened?_mark hq kind, scan_double]
  simp [scan, step, finish]

/-- Characters that are no quotes are read one by one, whatever follows them. -/
theorem scan_bare {q : Char} (hq : IsQuote q) (ds : List Char) {cs : List Char}
    (h : ∀ c ∈ cs, ¬ IsMark c) :
    scan q .outside (cs ++ ds) = (scan q .outside ds).map (cs.map .bare ++ ·) := by
  induction cs with
  | nil => simp
  | cons c cs ih =>
    rw [List.cons_append, scan, step, enter_bare hq (h c List.mem_cons_self),
      ih fun d hd => h d (List.mem_cons_of_mem c hd), Option.map_map]
    rfl

theorem read_bare {q : Char} (hq : IsQuote q) {s : String} (hs : Bare s) :
    read q s = some (s.toList.map .bare) := by
  simpa [read, scan, finish] using scan_bare hq [] hs

/-- Readings of two texts join where the second does not begin with a quote. -/
theorem read_append {q : Char} (hq : IsQuote q) {s t : String} {ps qs : List Piece}
    (hs : read q s = some ps) (ht : read q t = some qs) (hl : Leads t) :
    read q (s ++ t) = some (ps ++ qs) := by
  unfold read at hs ht ⊢
  rw [String.toList_append]
  unfold Leads at hl
  cases hd : t.toList with
  | nil =>
    rw [hd] at ht
    obtain rfl := Option.some.inj ht
    simpa using hs
  | cons c ds =>
    rw [hd] at ht hl
    have hc : ¬ IsMark c := hl c rfl
    rw [scan_resume hq hc ds hs]
    simp only [scan, step, enter_bare hq hc, Option.map_eq_some_iff] at ht
    obtain ⟨rs, hr, rfl⟩ := ht
    simp [hr]

/-- A bare text may stand before any text that has a reading. -/
theorem read_bare_append {q : Char} (hq : IsQuote q) {p t : String} {qs : List Piece}
    (hp : Bare p) (ht : read q t = some qs) :
    read q (p ++ t) = some (p.toList.map .bare ++ qs) := by
  unfold read at ht ⊢
  rw [String.toList_append, scan_bare hq t.toList hp, ht, Option.map_some]

end Schemata.Quoting
