import Schemata.Proofs.Quoting.Cutting
import Schemata.Proofs.Quoting.Frame

/-!
# Columns added one by one or all at once

Where one `alter table` adds several columns, the clauses stand in a row with commas between
them, and so do the numbers of a decimal, the values of an enum and whatever commas the names
and texts of a blueprint hold. Every column definition reads to its end, closes the brackets
that it opens, and has no comma outside of them; so the commas that are left cut the statement
into the clauses that it was made of. The same holds of the columns that a statement drops.

`Spans q s n m` says of a text that begins at depth `n` in brackets that it ends at depth `m`.
-/
namespace Schemata

/-- The grammar under another table of capabilities. -/
def Grammar.withCapabilities (g : Grammar) (k : Capabilities) : Grammar :=
  { g with capabilities := k }

namespace Quoting

open Grammar

/-- The text has a reading that climbs from one depth to another. -/
def Spans (q : Char) (s : String) (n m : Nat) : Prop :=
  ∃ ps, read q s = some ps ∧ ps.foldlM climb n = some m

/-- A text without quotes that climbs from one depth to another. -/
def Climbs (p : String) (n m : Nat) : Prop :=
  Bare p ∧ (p.toList.map Piece.bare).foldlM climb n = some m

instance (p : String) (n m : Nat) : Decidable (Climbs p n m) :=
  inferInstanceAs (Decidable (_ ∧ _))

/-- Neither a quote nor a bracket nor a comma. -/
def IsFlat (c : Char) : Prop := ¬ IsMark c ∧ c ≠ '(' ∧ c ≠ ')' ∧ c ≠ ','

instance (c : Char) : Decidable (IsFlat c) := inferInstanceAs (Decidable (_ ∧ _))

def Flat (cs : List Char) : Prop := ∀ c ∈ cs, IsFlat c

instance (cs : List Char) : Decidable (Flat cs) := List.decidableBAll _ _

variable {q : Char} {s t p : String} {n k m : Nat}

/-! ## Texts without quotes -/

theorem climb_flat {c : Char} (hc : IsFlat c) (n : Nat) : climb n (.bare c) = some n := by
  obtain ⟨-, hopen, hclose, hcomma⟩ := hc
  unfold climb
  split
  · next h => exact absurd (Piece.bare.inj h) hopen
  · next h => exact absurd (Piece.bare.inj h) hclose
  · next h => exact absurd (Piece.bare.inj h) hclose
  · next h => exact absurd (Piece.bare.inj h) hcomma
  · rfl

theorem foldlM_climb_flat {cs : List Char} (h : Flat cs) (n : Nat) :
    (cs.map Piece.bare).foldlM climb n = some n := by
  induction cs with
  | nil => rfl
  | cons c cs ih =>
    rw [List.map_cons, List.foldlM_cons, climb_flat (h c List.mem_cons_self)]
    exact ih fun d hd => h d (List.mem_cons_of_mem c hd)

theorem climbs_flat (hp : Flat p.toList) (n : Nat) : Climbs p n n :=
  ⟨fun c hc => (hp c hc).1, foldlM_climb_flat hp n⟩

theorem Climbs.append (hs : Climbs s n k) (ht : Climbs t k m) : Climbs (s ++ t) n m := by
  refine ⟨bare_append.mpr ⟨hs.1, ht.1⟩, ?_⟩
  rw [String.toList_append, List.map_append, List.foldlM_append, hs.2]
  exact ht.2

theorem isFlat_of_isDigit {c : Char} (h : c.isDigit) : IsFlat c := by
  refine ⟨not_isMark_of_isDigit h, ?_, ?_, ?_⟩ <;>
    · rintro rfl
      exact absurd h (by decide)

theorem climbs_toString_nat (i n : Nat) : Climbs (toString i) n n :=
  climbs_flat (fun _ hc => isFlat_of_isDigit (Decimal.isDigit_of_mem_toString hc)) n

theorem climbs_toString_int (i : Int) (n : Nat) : Climbs (toString i) n n := by
  refine climbs_flat (fun c hc => ?_) n
  rcases Decimal.mem_toString_int hc with h | rfl
  · exact isFlat_of_isDigit h
  · decide

theorem climbs_sqlText (f : Float) (n : Nat) : Climbs (Decimal.sqlText f) n n := by
  refine climbs_flat (fun c hc => ?_) n
  rcases Decimal.mem_sqlText hc with h | h
  · exact isFlat_of_isDigit h
  · have hflat : Flat ['-', '.', 'i', 'n', 'f', 'N', 'a'] := by decide
    exact hflat c h

/-! ## Joining texts -/

theorem spans_climbs (hq : IsQuote q) (hp : Climbs p n m) : Spans q p n m :=
  ⟨_, read_bare hq hp.1, hp.2⟩

theorem spans_quote (hq : IsQuote q) (kind : Kind) (s : String) (n : Nat) :
    Spans q (Text.quote (kind.mark q) s) n n :=
  ⟨_, read_quote hq kind s, by cases n <;> rfl⟩

theorem spans_append (hq : IsQuote q) (hs : Spans q s n k) (ht : Spans q t k m) (hl : Leads t) :
    Spans q (s ++ t) n m := by
  obtain ⟨ps, hps, hclimb⟩ := hs
  obtain ⟨qs, hqs, hclimb'⟩ := ht
  refine ⟨ps ++ qs, read_append hq hps hqs hl, ?_⟩
  rw [List.foldlM_append, hclimb]
  exact hclimb'

theorem spans_climbs_append (hq : IsQuote q) (hp : Climbs p n k) (ht : Spans q t k m) :
    Spans q (p ++ t) n m := by
  obtain ⟨qs, hqs, hclimb⟩ := ht
  refine ⟨_, read_bare_append hq hp.1 hqs, ?_⟩
  rw [List.foldlM_append, hp.2]
  exact hclimb

theorem spans_append_climbs (hq : IsQuote q) (hs : Spans q s n k) (hp : Climbs p k m) :
    Spans q (s ++ p) n m :=
  spans_append hq hs (spans_climbs hq hp) hp.1.leads

/-- A text with a nonempty text without quotes between its two parts. -/
theorem spans_join (hq : IsQuote q) (hs : Spans q s n k) (hp : Climbs p k k) (hne : p ≠ "")
    (ht : Spans q t k m) : Spans q (s ++ p ++ t) n m := by
  rw [String.append_assoc]
  exact spans_append hq hs (spans_climbs_append hq hp ht) (leads_append hp.1 hne)

theorem spans_intercalate {α : Type} {f : α → String} (hq : IsQuote q) (hp : Climbs p n n)
    (hne : p ≠ "") (xs : List α) (h : ∀ x ∈ xs, Spans q (f x) n n) :
    Spans q (p.intercalate (xs.map f)) n n := by
  induction xs with
  | nil => exact spans_climbs hq (p := "") (climbs_flat (by decide) n)
  | cons x xs ih =>
    have hx := h x List.mem_cons_self
    have hxs := ih fun y hy => h y (List.mem_cons_of_mem x hy)
    cases xs with
    | nil => simpa using hx
    | cons y ys =>
      simp only [List.map_cons, String.intercalate_cons_cons] at hxs ⊢
      exact spans_join hq hx hp hne hxs

/-- Texts in a row with nothing between them, none of which begins with a quote. -/
theorem spans_concat {α : Type} {f : α → String} (hq : IsQuote q) (xs : List α)
    (h : ∀ x ∈ xs, Spans q (f x) n n ∧ Leads (f x)) :
    Spans q ("".intercalate (xs.map f)) n n ∧ Leads ("".intercalate (xs.map f)) := by
  induction xs with
  | nil => exact ⟨spans_climbs hq (p := "") (climbs_flat (by decide) n), leads_empty⟩
  | cons x xs ih =>
    obtain ⟨hx, hl⟩ := h x List.mem_cons_self
    obtain ⟨hxs, hm⟩ := ih fun y hy => h y (List.mem_cons_of_mem x hy)
    simp only [List.map_cons, concat_cons]
    exact ⟨spans_append hq hx hxs hm, hl.append hm⟩

/-! ## Column definitions -/

theorem spans_segment (hq : IsQuote q) (name : String) (n : Nat) :
    Spans q (Identifier.segment q name) n n := by
  unfold Identifier.segment
  split
  · next h => exact h ▸ spans_climbs hq (climbs_flat (by decide) n)
  · exact spans_quote hq .identifier name n

theorem spans_qualified (hq : IsQuote q) (name : String) (n : Nat) :
    Spans q (Identifier.qualified q name) n n :=
  spans_intercalate hq (climbs_flat (by decide) n) (by decide) _ fun s _ => spans_segment hq s n

theorem spans_literal (hq : IsQuote q) {boolean : Bool → String} (hb : ∀ b, Climbs (boolean b) 0 0)
    (v : DefaultValue) : Spans q (literal boolean v) 0 0 := by
  cases v with
  | boolean b => exact spans_climbs hq (hb b)
  | integer i => exact spans_climbs hq (climbs_toString_int _ 0)
  | float f => exact spans_climbs hq (climbs_sqlText f 0)
  | string s => exact spans_quote hq .string s 0

theorem spans_defaultSql (d : Dialect) (v : DefaultValue) :
    Spans d.grammar.quote (d.grammar.defaultSql v) 0 0 := by
  have hq := isQuote_grammar d
  cases d <;> exact spans_literal hq (by decide) v

theorem climbs_varchar (length : UInt32) : Climbs (varchar length) 0 0 := by
  have hopen : Climbs "varchar(" 0 1 := by decide
  have hclose : Climbs ")" 1 0 := by decide
  exact (hopen.append (climbs_toString_nat _ 1)).append hclose

theorem climbs_withScale {name : String} (h : Climbs name 0 0) (precision scale : UInt8) :
    Climbs (withScale name precision scale) 0 0 := by
  have hopen : Climbs "(" 0 1 := by decide
  have hcomma : Climbs ", " 1 1 := by decide
  have hclose : Climbs ")" 1 0 := by decide
  exact ((((h.append hopen).append (climbs_toString_nat _ 1)).append hcomma).append
    (climbs_toString_nat _ 1)).append hclose

/-- The values of an enum stand in brackets, and so do the commas between them. -/
theorem spans_enum (hq : IsQuote q) (values : List String) :
    Spans q ("enum(" ++ Text.commaJoin (values.map Text.quoteLiteral) ++ ")") 0 0 := by
  have hopen : Climbs "enum(" 0 1 := by decide
  have hvalues : Spans q (Text.commaJoin (values.map Text.quoteLiteral)) 1 1 :=
    spans_intercalate hq (by decide) (by decide) values fun v _ => spans_quote hq .string v 1
  have hclose : Climbs ")" 1 0 := by decide
  exact spans_append_climbs hq (spans_climbs_append hq hopen hvalues) hclose

theorem spans_typeSql (d : Dialect) (c : Column) :
    Spans d.grammar.quote (d.grammar.typeSql c) 0 0 := by
  have hq := isQuote_grammar d
  obtain ⟨name, type, nullable, default, autoIncrement⟩ := c
  cases d with
  | sqlite =>
    have hflat : Climbs (sqlite.typeSql ⟨name, type, nullable, default, autoIncrement⟩) 0 0 := by
      cases type <;> simp only [sqlite] <;> decide
    exact spans_climbs hq hflat
  | mysql =>
    cases type with
    | string length => exact spans_climbs hq (climbs_varchar length)
    | float precision scale => exact spans_climbs hq (climbs_withScale (by decide) precision scale)
    | decimal precision scale => exact spans_climbs hq (climbs_withScale (by decide) precision scale)
    | enum values => exact spans_enum hq values
    | _ => exact spans_climbs hq (by simp only [Dialect.grammar, Grammar.mysql]; decide)
  | postgres =>
    cases type with
    | string length => exact spans_climbs hq (climbs_varchar length)
    | decimal precision scale => exact spans_climbs hq (climbs_withScale (by decide) precision scale)
    | integer =>
      cases autoIncrement with
      | true => exact spans_climbs hq (p := "serial") (by decide)
      | false => exact spans_climbs hq (p := "integer") (by decide)
    | _ => exact spans_climbs hq (by simp only [Dialect.grammar, Grammar.postgres]; decide)

/-- What a modifier adds begins with a blank, if it adds anything. -/
theorem spans_modify (d : Dialect) (c : Column) (modifier : Modifier) :
    Spans d.grammar.quote ((d.grammar.modify c modifier).getD "") 0 0 ∧
      Leads ((d.grammar.modify c modifier).getD "") := by
  have hq := isQuote_grammar d
  cases modifier with
  | nullable =>
    have hclimbs : Climbs ((nullableClause c).getD "") 0 0 := by
      unfold nullableClause
      cases c.isIncrement <;> cases c.nullable <;> simp <;> decide
    exact ⟨spans_climbs hq hclimbs, hclimbs.1.leads⟩
  | default =>
    simp only [Grammar.modify, defaultClause]
    cases hv : c.default with
    | none => exact ⟨spans_climbs hq (p := "") (by decide), leads_empty⟩
    | some v =>
      exact ⟨spans_climbs_append hq (by decide) (spans_defaultSql d v),
        leads_append (by decide) (by decide)⟩
  | increment =>
    have hclimbs : Climbs ((d.grammar.incrementClause c).getD "") 0 0 := by
      unfold incrementClause
      cases c.isIncrement <;> cases d <;> decide
    exact ⟨spans_climbs hq hclimbs, hclimbs.1.leads⟩

theorem spans_columnDefinition (d : Dialect) (c : Column) :
    Spans d.grammar.quote (d.grammar.columnDefinition c) 0 0 := by
  have hq := isQuote_grammar d
  obtain ⟨hmodifiers, hl⟩ := spans_concat hq d.grammar.modifiers fun m _ => spans_modify d c m
  have hhead := spans_join hq (spans_qualified hq c.name 0) (p := " ") (by decide) (by decide)
    (spans_typeSql d c)
  unfold columnDefinition
  rw [concat_filterMap]
  exact spans_append hq hhead hmodifiers hl

/-! ## Clauses in a row -/

/-- Texts that close their brackets and have no comma outside of them are found again. -/
theorem clausesOf_commaJoin (hq : IsQuote q) {ss : List String} (hne : ss ≠ [])
    (h : ∀ s ∈ ss, Spans q s 0 0) : clausesOf q (Text.commaJoin ss) = some ss := by
  have hcut : ∃ ps, read q (Text.commaJoin ss) = some ps ∧
      (cutClauses 0 ps).map (write q) = ss := by
    induction ss with
    | nil => exact absurd rfl hne
    | cons s ss ih =>
      obtain ⟨ps, hps, hclimb⟩ := h s List.mem_cons_self
      cases ss with
      | nil =>
        refine ⟨ps, by simpa [Text.commaJoin] using hps, ?_⟩
        rw [cutClauses_eq_singleton hclimb, List.map_singleton, write_read hps]
      | cons s' ss =>
        obtain ⟨qs, hqs, hrest⟩ := ih (List.cons_ne_nil s' ss)
          fun t ht => h t (List.mem_cons_of_mem s ht)
        have hsep : read q (", " ++ Text.commaJoin (s' :: ss)) =
            some (.bare ',' :: .bare ' ' :: qs) := read_bare_append hq (by decide) hqs
        refine ⟨ps ++ .bare ',' :: .bare ' ' :: qs, ?_, ?_⟩
        · rw [Text.commaJoin, String.intercalate_cons_cons, String.append_assoc]
          exact read_append hq hps hsep (leads_append (by decide) (by decide))
        · rw [cutClauses_join hclimb, List.map_cons, hrest, write_read hps]
  obtain ⟨ps, hps, hparts⟩ := hcut
  rw [clausesOf, hps, Option.map_some, hparts]

/-- **The columns of an addition have the same definitions, one by one or all at once**, whatever
the other capabilities are. A statement that adds several columns is cut by its commas outside
brackets and quotes into one clause for each column, and so is one that drops several. -/
theorem additions_carry_same_definitions (d : Dialect) (k : Capabilities) (b : Blueprint)
    (hcolumns : b.columns ≠ []) :
    (k.multiColumnAdd = false →
      (d.grammar.withCapabilities k).add b = b.columns.map fun c =>
        "alter table " ++ Identifier.qualified d.grammar.quote b.table ++ " add column "
          ++ d.grammar.columnDefinition c) ∧
    (k.multiColumnAdd = true → ∃ clauses,
      (d.grammar.withCapabilities k).add b =
        ["alter table " ++ Identifier.qualified d.grammar.quote b.table ++ " " ++ clauses] ∧
      clausesOf d.grammar.quote clauses = some (b.columns.map fun c =>
        d.grammar.addColumnKeyword ++ " " ++ d.grammar.columnDefinition c)) ∧
    (k.dropColumn = true → ∀ names, names ≠ [] → ∃ clauses,
      (d.grammar.withCapabilities k).dropColumn b names =
        .ok ("alter table " ++ Identifier.qualified d.grammar.quote b.table ++ " " ++ clauses) ∧
      clausesOf d.grammar.quote clauses = some (names.map fun name =>
        "drop column " ++ Identifier.qualified d.grammar.quote name)) := by
  have hq := isQuote_grammar d
  refine ⟨fun hk => add_oneByOne hk b, fun hk => ⟨_, add_together hk b, ?_⟩,
    fun hk names hnames => ⟨_, if_pos hk, ?_⟩⟩
  · have hkeyword : Climbs (d.grammar.addColumnKeyword ++ " ") 0 0 := by cases d <;> decide
    rw [columnDefinitions, List.map_map]
    refine clausesOf_commaJoin hq (by simpa using hcolumns) fun s hs => ?_
    obtain ⟨c, -, rfl⟩ := List.mem_map.mp hs
    exact spans_climbs_append hq hkeyword (spans_columnDefinition d c)
  · refine clausesOf_commaJoin hq (by simpa using hnames) fun s hs => ?_
    obtain ⟨name, -, rfl⟩ := List.mem_map.mp hs
    exact spans_climbs_append hq (by decide) (spans_qualified hq name 0)

/-- Names, numbers, enum values and a default that are full of commas and brackets. -/
theorem commas_everywhere_cut_into_definitions :
    let b : Blueprint :=
      { table := "t"
        columns :=
          [{ name := "a, (b", type := .decimal 8 2 },
            { name := "c", type := .enum ["x, y)", "'("], default := some (.string "), ") }] }
    let g := Grammar.mysql.withCapabilities ⟨true, true, false⟩
    b.columns ≠ [] ∧ ∃ clauses,
      g.add b = ["alter table " ++ Identifier.qualified backtick "t" ++ " " ++ clauses] ∧
      clausesOf backtick clauses = some
        ["add \x60a, (b\x60 decimal(8, 2) not null",
          "add \x60c\x60 enum('x, y)', '''(') not null default '), '"] := by
  intro b g
  obtain ⟨clauses, hadd, hcut⟩ :=
    (additions_carry_same_definitions .mysql ⟨true, true, false⟩ b (by decide)).2.1 rfl
  exact ⟨by decide, clauses, hadd, hcut.trans (by decide)⟩

end Quoting

end Schemata
