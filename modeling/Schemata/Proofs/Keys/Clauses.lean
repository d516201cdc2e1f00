import Schemata.Compile
import Schemata.Proofs.Keys.Keywords

/-!
# Keywords of the clauses

What a statement is made of has no keyword, with three exceptions: the clauses of foreign and
primary keys, and what follows the definition of an auto-increment column.
-/
namespace Schemata.Keys

open Quoting Grammar

variable {q : Char} {k : KeyKind}

/-! ## Names and numbers -/

theorem counts_segment (hq : IsQuote q) (n : String) : Counts q k (Identifier.segment q n) 0 := by
  unfold Identifier.segment
  by_cases hn : n = "*"
  · rw [if_pos hn, hn]
    exact counts_silent hq (by decide)
  · rw [if_neg hn]
    exact counts_quote hq .identifier n

theorem counts_qualified (hq : IsQuote q) (n : String) :
    Counts q k (Identifier.qualified q n) 0 :=
  counts_intercalate_zero hq (by decide) _ fun s _ => counts_segment hq s

theorem counts_list (hq : IsQuote q) (ns : List String) : Counts q k (Identifier.list q ns) 0 :=
  counts_intercalate_zero hq (by decide) _ fun n _ => counts_qualified hq n

theorem counts_toString_nat (hq : IsQuote q) (n : Nat) : Counts q k (toString n) 0 := by
  refine counts_of_not_mem hq (bare_toString_nat n) fun h => ?_
  exact absurd (Decimal.isDigit_of_mem_toString h) (by decide)

theorem counts_toString_int (hq : IsQuote q) (i : Int) : Counts q k (toString i) 0 := by
  cases i with
  | ofNat n => exact counts_toString_nat hq n
  | negSucc n => exact counts_opens hq (p := "-") (by decide) (counts_toString_nat hq (n + 1))

theorem counts_sqlText (hq : IsQuote q) (f : Float) : Counts q k (Decimal.sqlText f) 0 := by
  refine counts_of_not_mem hq (bare_sqlText f) fun h => ?_
  rcases Decimal.mem_sqlText h with h | h
  · exact absurd h (by decide)
  · exact absurd h (by decide)

/-! ## Keys -/

/-- One keyword of this kind, none of the other. -/
def KeyKind.only (kind k : KeyKind) : Nat := if k = kind then 1 else 0

theorem counts_action (hq : IsQuote q) {event : String} (h : Separates event)
    (a : Option ForeignKeyAction) :
    Counts q k (foreignKeyClause.action event a) 0 ∧ Apart (foreignKeyClause.action event a) := by
  cases a with
  | none => exact ⟨counts_silent hq (by decide : Silent ""), (by decide : Apart "")⟩
  | some a =>
    have hsql : Silent a.sql := by cases a <;> decide
    exact ⟨counts_opens hq h.1 (counts_silent hq hsql), apart_append h.2.1 h.2.2⟩

theorem counts_foreignKeyClause (hq : IsQuote q) (key : ForeignKey) :
    Counts q k (foreignKeyClause q key) (KeyKind.foreign.only k) := by
  have hcolumns := counts_bare_append hq (p := "foreign key (") (by decide) (by decide)
    (counts_list (k := k) hq key.columns)
  have hon := counts_join hq hcolumns (p := ") references ") (by decide)
    (counts_qualified hq key.on)
  have hrefs := counts_join hq hon (p := " (") (by decide) (counts_list hq key.references)
  obtain ⟨hdelete, hd⟩ := counts_action (k := k) hq (by decide : Separates " on delete ")
    key.onDelete
  obtain ⟨hupdate, hu⟩ := counts_action (k := k) hq (by decide : Separates " on update ")
    key.onUpdate
  have hcount : textCount k "foreign key (" = KeyKind.foreign.only k := by cases k <;> decide
  rw [hcount] at hrefs
  have hclause := counts_closes hq hrefs (p := ")") (by decide)
  exact counts_append hq (counts_append hq hclause hdelete hd) hupdate hu

theorem counts_primaryKeyClause (d : Dialect) (i : Index) :
    Counts d.grammar.quote k (d.grammar.phrases.primaryKeyClause i) (KeyKind.primary.only k) := by
  have hq := isQuote_grammar d
  have hcolumns := counts_bare_append hq (p := "primary key (") (by decide) (by decide)
    (counts_list (k := k) hq i.columns)
  have hcount : textCount k "primary key (" = KeyKind.primary.only k := by cases k <;> decide
  rw [hcount] at hcolumns
  exact counts_closes hq hcolumns (by decide)

/-! ## Column definitions -/

theorem counts_quoteLiteral (hq : IsQuote q) (s : String) : Counts q k (Text.quoteLiteral s) 0 :=
  counts_quote hq .string s

theorem counts_literal (hq : IsQuote q) {boolean : Bool → String} (hb : ∀ b, Silent (boolean b))
    (v : DefaultValue) : Counts q k (literal boolean v) 0 := by
  cases v with
  | boolean b => exact counts_silent hq (hb b)
  | integer i => exact counts_toString_int hq _
  | float f => exact counts_sqlText hq f
  | string s => exact counts_quoteLiteral hq s

theorem counts_defaultSql (d : Dialect) (v : DefaultValue) :
    Counts d.grammar.quote k (d.grammar.defaultSql v) 0 := by
  have hq := isQuote_grammar d
  cases d <;> exact counts_literal hq (by decide) v

theorem counts_varchar (hq : IsQuote q) (length : UInt32) : Counts q k (varchar length) 0 :=
  counts_closes hq (counts_opens hq (by decide) (counts_toString_nat hq _)) (by decide)

theorem counts_withScale (hq : IsQuote q) {name : String} (h : Silent name)
    (precision scale : UInt8) : Counts q k (withScale name precision scale) 0 := by
  have hprecision := counts_join hq (counts_silent (k := k) hq h) (p := "(") (by decide)
    (counts_toString_nat hq precision.toNat)
  have hscale := counts_join hq hprecision (p := ", ") (by decide)
    (counts_toString_nat hq scale.toNat)
  exact counts_closes hq hscale (by decide)

theorem counts_typeSql (d : Dialect) (c : Column) :
    Counts d.grammar.quote k (d.grammar.typeSql c) 0 := by
  have hq := isQuote_grammar d
  obtain ⟨name, type, nullable, default, autoIncrement⟩ := c
  cases d with
  | sqlite =>
    refine counts_silent hq ?_
    cases type <;> simp only [Dialect.grammar, Grammar.sqlite] <;> decide
  | mysql =>
    cases type with
    | string length => exact counts_varchar hq length
    | float precision scale => exact counts_withScale hq (by decide) precision scale
    | decimal precision scale => exact counts_withScale hq (by decide) precision scale
    | enum values =>
      have hvalues := counts_intercalate_zero (k := k) hq (p := ", ") (by decide) values
        fun v _ => counts_quoteLiteral hq v
      exact counts_closes hq (counts_opens hq (p := "enum(") (by decide) hvalues) (by decide)
    | _ => exact counts_silent hq (by simp only [Dialect.grammar, Grammar.mysql]; decide)
  | postgres =>
    cases type with
    | string length => exact counts_varchar hq length
    | decimal precision scale => exact counts_withScale hq (by decide) precision scale
    | integer =>
      cases autoIncrement with
      | true => exact counts_silent hq (p := "serial") (by decide)
      | false => exact counts_silent hq (p := "integer") (by decide)
    | _ => exact counts_silent hq (by simp only [Dialect.grammar, Grammar.postgres]; decide)

/-- An auto-increment column is a primary key of its own. -/
def ofColumn (k : KeyKind) (c : Column) : Nat := if c.isIncrement then KeyKind.primary.only k else 0

def ofModifier (k : KeyKind) (c : Column) : Modifier → Nat
  | .increment => ofColumn k c
  | _ => 0

theorem counts_modify (d : Dialect) (c : Column) (m : Modifier) :
    Counts d.grammar.quote k ((d.grammar.modify c m).getD "") (ofModifier k c m) ∧
      Apart ((d.grammar.modify c m).getD "") := by
  have hq := isQuote_grammar d
  cases m with
  | nullable =>
    have hcloses : Closes ((nullableClause c).getD "") := by
      unfold nullableClause
      cases c.isIncrement <;> cases c.nullable <;> simp <;> decide
    exact ⟨counts_silent hq hcloses.1, hcloses.2⟩
  | default =>
    cases hv : c.default with
    | none =>
      simp only [Grammar.modify, defaultClause, hv, Option.map_none, Option.getD_none]
      exact ⟨counts_silent hq (by decide), by decide⟩
    | some v =>
      simp only [Grammar.modify, defaultClause, hv, Option.map_some, Option.getD_some]
      exact ⟨counts_opens hq (by decide) (counts_defaultSql d v),
        apart_append (by decide) (by decide)⟩
  | increment =>
    have hbare : Bare ((d.grammar.incrementClause c).getD "") := by
      unfold incrementClause
      cases c.isIncrement <;> cases d <;> decide
    have hapart : Apart ((d.grammar.incrementClause c).getD "") := by
      unfold incrementClause
      cases c.isIncrement <;> cases d <;> decide
    have hcount : textCount k ((d.grammar.incrementClause c).getD "") = ofColumn k c := by
      unfold incrementClause ofColumn
      cases c.isIncrement <;> cases d <;> cases k <;> decide
    refine ⟨?_, hapart⟩
    have h := counts_bare (k := k) hq hbare
    rwa [hcount] at h

theorem counts_columnDefinition (d : Dialect) (c : Column) :
    Counts d.grammar.quote k (d.grammar.columnDefinition c) (ofColumn k c) := by
  have hq := isQuote_grammar d
  obtain ⟨hm, ha⟩ := counts_concat hq d.grammar.modifiers fun m _ => counts_modify (k := k) d c m
  have hmods : (d.grammar.modifiers.map (ofModifier k c)).sum = ofColumn k c := by
    have hall : d.grammar.modifiers = Modifier.all := by cases d <;> rfl
    simp [hall, Modifier.all, ofModifier]
  rw [hmods] at hm
  unfold columnDefinition
  rw [concat_filterMap]
  have hhead := counts_join hq (counts_qualified hq c.name) (p := " ") (by decide)
    (counts_typeSql (k := k) d c)
  have h := counts_append hq hhead hm ha
  rwa [Nat.zero_add] at h

/-! ## Statements -/

theorem counts_alterTable {q : Char} (hq : IsQuote q) (b : Blueprint) {change : String} {n : Nat}
    (h : Counts q k change n) : Counts q k (alterTable q b change) n := by
  have htable := counts_opens (k := k) hq (p := "alter table ") (by decide)
    (counts_qualified hq b.table)
  have hall := counts_join hq htable (p := " ") (by decide) h
  rwa [Nat.zero_add] at hall

theorem counts_addColumn (d : Dialect) (b : Blueprint) (c : Column) :
    Counts d.grammar.quote k (d.grammar.addColumn b c) (ofColumn k c) := by
  have hq := isQuote_grammar d
  have htable := counts_opens (k := k) hq (p := "alter table ") (by decide)
    (counts_qualified hq b.table)
  have hall := counts_join hq htable (p := " add column ") (by decide) (counts_columnDefinition d c)
  rwa [Nat.zero_add] at hall

theorem counts_createIndex {q : Char} (hq : IsQuote q) {kind : String}
    (h : Opens ("create " ++ kind ++ " ")) (b : Blueprint) (i : Index) :
    Counts q k (createIndex q kind b i) 0 := by
  have hname := counts_opens (k := k) hq h (counts_segment hq i.name)
  have htable := counts_join hq hname (p := " on ") (by decide) (counts_qualified hq b.table)
  have hcolumns := counts_join hq htable (p := " (") (by decide) (counts_list hq i.columns)
  exact counts_closes hq hcolumns (by decide)

end Schemata.Keys
