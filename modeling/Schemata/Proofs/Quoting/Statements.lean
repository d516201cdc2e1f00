import Schemata.Compile
import Schemata.Proofs.Quoting.Layout

/-!
# No text leaves its quotes

Every statement that a command compiles to reads as exactly the tokens that its layout lists,
and its frame is the frame of the blank blueprint's statement. So neither the tokens' contents
nor anything outside them can be moved by a name, an enum value or a default, whatever
characters it holds.

Each lemma treats one way of building a statement; the dialects differ in which they use.
-/
namespace Schemata.Quoting

open Grammar

variable {q : Char}

/-! ## Names -/

theorem framed_segment (hq : IsQuote q) (n : String) :
    Framed q (Identifier.segment q n) (Layout.name n)
      (Identifier.segment q (Identifier.blankSegment n)) := by
  unfold Identifier.segment Layout.name Identifier.blankSegment
  by_cases hn : n = "*"
  · simpa [hn] using framed_bare hq (p := "*") (by decide)
  · simpa [hn, Kind.mark] using framed_quote hq .identifier n ""

theorem framed_qualified (hq : IsQuote q) (n : String) :
    Framed q (Identifier.qualified q n) (Layout.dotted n)
      (Identifier.qualified q (Identifier.blank n)) := by
  unfold Identifier.qualified Layout.dotted
  simp only [Identifier.splitAt_blank, List.map_map, Function.comp_def]
  exact framed_intercalate hq (by decide) (by decide) _ fun s _ => framed_segment hq s

theorem framed_list (hq : IsQuote q) (ns : List String) :
    Framed q (Identifier.list q ns) (Layout.dottedList ns)
      (Identifier.list q (ns.map Identifier.blank)) := by
  unfold Identifier.list Layout.dottedList Text.commaJoin
  simp only [List.map_map, Function.comp_def]
  exact framed_intercalate hq (by decide) (by decide) _ fun n _ => framed_qualified hq n

/-! ## Keys -/

theorem bare_action (event : String) (h : Bare event) (a : Option ForeignKeyAction) :
    Bare (foreignKeyClause.action event a) := by
  cases a with
  | none => exact (by decide : Bare "")
  | some a =>
    refine bare_append.mpr ⟨h, ?_⟩
    cases a <;> decide

theorem framed_foreignKeyClause (hq : IsQuote q) (k : ForeignKey) :
    Framed q (foreignKeyClause q k) (Layout.foreignKey k) (foreignKeyClause q k.blank) := by
  have hcolumns := framed_bare_append hq (p := "foreign key (") (by decide)
    (framed_list hq k.columns)
  have hon := framed_join hq hcolumns (p := ") references ") (by decide) (by decide)
    (framed_qualified hq k.on)
  have hrefs := framed_join hq hon (p := " (") (by decide) (by decide)
    (framed_list hq k.references)
  have hdelete := bare_action " on delete " (by decide) k.onDelete
  have hupdate := bare_action " on update " (by decide) k.onUpdate
  exact framed_append_bare hq (framed_append_bare hq (framed_append_bare hq hrefs
    (p := ")") (by decide)) hdelete) hupdate

theorem framed_columnsInBrackets (hq : IsQuote q) {p : String} (hp : Bare p) (ns : List String) :
    Framed q (p ++ Identifier.list q ns ++ ")") (Layout.dottedList ns)
      (p ++ Identifier.list q (ns.map Identifier.blank) ++ ")") :=
  framed_append_bare hq (framed_bare_append hq hp (framed_list hq ns)) (by decide)

/-! ## Column definitions -/

theorem framed_quoteLiteral (hq : IsQuote q) (s s' : String) :
    Framed q (Text.quoteLiteral s) [⟨.string, s⟩] (Text.quoteLiteral s') :=
  framed_quote hq .string s s'

theorem framed_literal (hq : IsQuote q) {boolean : Bool → String} (hb : ∀ b, Bare (boolean b))
    (v : DefaultValue) :
    Framed q (literal boolean v) (Layout.default (some v)) (literal boolean v.blank) := by
  cases v with
  | boolean b => exact framed_bare hq (hb b)
  | integer i => exact framed_bare hq (bare_toString_int _)
  | float f => exact framed_bare hq (bare_sqlText f)
  | string s => exact framed_quoteLiteral hq s ""

theorem framed_defaultSql (d : Dialect) (v : DefaultValue) :
    Framed d.grammar.quote (d.grammar.defaultSql v) (Layout.default (some v))
      (d.grammar.defaultSql v.blank) := by
  have hq := isQuote_grammar d
  cases d <;> exact framed_literal hq (by decide) v

theorem bare_varchar (length : UInt32) : Bare (varchar length) := by
  simp only [varchar, bare_append, bare_toString_nat, and_true]
  decide

theorem bare_withScale {name : String} (h : Bare name) (precision scale : UInt8) :
    Bare (withScale name precision scale) := by
  simp only [withScale, bare_append, bare_toString_nat, and_true, h, true_and]
  decide

/-- Types are written without quotes, except for the values of an enum on MySQL. -/
theorem framed_typeSql (d : Dialect) (c : Column) :
    Framed d.grammar.quote (d.grammar.typeSql c) (Layout.enumValues d c.type)
      (d.grammar.typeSql c.blank) := by
  have hq := isQuote_grammar d
  obtain ⟨name, type, nullable, default, autoIncrement⟩ := c
  cases d with
  | sqlite =>
    have hbare : Bare (sqlite.typeSql ⟨name, type, nullable, default, autoIncrement⟩) := by
      cases type <;> simp only [sqlite] <;> decide
    cases type <;> exact framed_bare hq hbare
  | mysql =>
    cases type with
    | string length => exact framed_bare hq (bare_varchar length)
    | float precision scale => exact framed_bare hq (bare_withScale (by decide) precision scale)
    | decimal precision scale => exact framed_bare hq (bare_withScale (by decide) precision scale)
    | enum values =>
      have hvalues := framed_intercalate hq (p := ", ") (by decide) (by decide) values
        fun v _ => framed_quoteLiteral hq v ""
      have henum := framed_append_bare hq (framed_bare_append hq (p := "enum(") (by decide) hvalues)
        (p := ")") (by decide)
      rw [← List.map_eq_flatMap] at henum
      simpa [Dialect.grammar, Grammar.mysql, Column.blank, ColumnType.blank, Layout.enumValues,
        Text.commaJoin, Function.comp_def] using henum
    | _ => exact framed_bare hq (by simp only [Dialect.grammar, Grammar.mysql]; decide)
  | postgres =>
    cases type with
    | string length => exact framed_bare hq (bare_varchar length)
    | decimal precision scale => exact framed_bare hq (bare_withScale (by decide) precision scale)
    | integer =>
      cases autoIncrement with
      | true => exact framed_bare hq (p := "serial") (by decide)
      | false => exact framed_bare hq (p := "integer") (by decide)
    | _ => exact framed_bare hq (by simp only [Dialect.grammar, Grammar.postgres]; decide)

/-- The tokens of what a modifier adds to a column definition. -/
def modifierTokens (c : Column) : Modifier → List Token
  | .default => Layout.default c.default
  | _ => []

/-- What a modifier adds begins with a blank, if it adds anything. -/
theorem framed_modify (d : Dialect) (c : Column) (m : Modifier) :
    Framed d.grammar.quote ((d.grammar.modify c m).getD "") (modifierTokens c m)
        ((d.grammar.modify c.blank m).getD "") ∧
      Leads ((d.grammar.modify c m).getD "") ∧ Leads ((d.grammar.modify c.blank m).getD "") := by
  have hq := isQuote_grammar d
  cases m with
  | nullable =>
    have hbare : Bare ((nullableClause c).getD "") := by
      unfold nullableClause
      cases c.isIncrement <;> cases c.nullable <;> simp <;> decide
    have heq : nullableClause c.blank = nullableClause c := by
      unfold nullableClause
      rw [Column.isIncrement_blank]
      rfl
    simp only [Grammar.modify, heq]
    exact ⟨framed_bare hq hbare, hbare.leads, hbare.leads⟩
  | default =>
    simp only [Grammar.modify, defaultClause, modifierTokens]
    cases hv : c.default with
    | none =>
      simp only [Column.blank, hv, Option.map_none, Option.getD_none]
      exact ⟨framed_bare hq (by decide), leads_empty, leads_empty⟩
    | some v =>
      simp only [Column.blank, hv, Option.map_some, Option.getD_some]
      have hlead : ∀ t, Leads (" default " ++ t) := fun t => leads_append (by decide) (by decide)
      exact ⟨framed_bare_append hq (by decide) (framed_defaultSql d v), hlead _, hlead _⟩
  | increment =>
    have hbare : Bare ((d.grammar.incrementClause c).getD "") := by
      unfold incrementClause
      cases c.isIncrement <;> cases d <;> decide
    have heq : d.grammar.incrementClause c.blank = d.grammar.incrementClause c := by
      simp [incrementClause]
    simp only [Grammar.modify, heq]
    exact ⟨framed_bare hq hbare, hbare.leads, hbare.leads⟩

theorem framed_columnDefinition (d : Dialect) (c : Column) :
    Framed d.grammar.quote (d.grammar.columnDefinition c) (Layout.column d c)
      (d.grammar.columnDefinition c.blank) := by
  have hq := isQuote_grammar d
  obtain ⟨hm, hl, hl'⟩ := framed_concat hq d.grammar.modifiers fun m _ => framed_modify d c m
  have hmods : d.grammar.modifiers.flatMap (modifierTokens c) = Layout.default c.default := by
    have hall : d.grammar.modifiers = Modifier.all := by cases d <;> rfl
    simp [hall, Modifier.all, modifierTokens]
  rw [hmods] at hm
  unfold columnDefinition Layout.column
  rw [concat_filterMap, concat_filterMap]
  have hhead := framed_join hq (framed_qualified hq c.name) (p := " ") (by decide) (by decide)
    (framed_typeSql d c)
  exact framed_append hq hhead hm hl hl'

/-- All column definitions, each perhaps with a text before it. -/
theorem framed_columnDefinitions (d : Dialect) (b : Blueprint) {p : String} (hp : Bare p) :
    Framed d.grammar.quote (Text.commaJoin ((d.grammar.columnDefinitions b).map (p ++ ·)))
      (b.columns.flatMap (Layout.column d))
      (Text.commaJoin ((d.grammar.columnDefinitions b.blank).map (p ++ ·))) := by
  have hq := isQuote_grammar d
  unfold Text.commaJoin columnDefinitions Blueprint.blank
  simp only [List.map_map, Function.comp_def]
  exact framed_intercalate hq (by decide) (by decide) b.columns
    fun c _ => framed_bare_append hq hp (framed_columnDefinition d c)

/-! ## Statements about a table -/

theorem framed_keyClauses (d : Dialect) (b : Blueprint) :
    Framed d.grammar.quote ("".intercalate ((d.grammar.phrases.keyClauses b).map (", " ++ ·)))
        (Layout.inlineKeys d b)
        ("".intercalate ((d.grammar.phrases.keyClauses b.blank).map (", " ++ ·))) ∧
      Leads ("".intercalate ((d.grammar.phrases.keyClauses b).map (", " ++ ·))) ∧
      Leads ("".intercalate ((d.grammar.phrases.keyClauses b.blank).map (", " ++ ·))) := by
  have hq := isQuote_grammar d
  have hlead : ∀ t, Leads (", " ++ t) := fun t => leads_append (by decide) (by decide)
  cases d with
  | sqlite =>
    obtain ⟨hf, hl, hl'⟩ := framed_concat hq b.foreignKeys fun k _ =>
      ⟨framed_bare_append hq (p := ", ") (by decide) (framed_foreignKeyClause hq k), hlead _, hlead _⟩
    obtain ⟨hp, hm, hm'⟩ := framed_concat hq b.primaryKeys.head?.toList fun i _ =>
      ⟨framed_bare_append hq (p := ", ") (by decide)
        (framed_columnsInBrackets hq (p := "primary key (") (by decide) i.columns), hlead _, hlead _⟩
    have hjoin := framed_append hq hf hp hm hm'
    have hleads := hl.append hm
    have hleads' := hl'.append hm'
    have hinline : Dialect.sqlite.grammar.phrases.capabilities.inlineKeys = true := rfl
    rw [Phrases.keyClauses_inline hinline, Phrases.keyClauses_inline hinline,
      Blueprint.foreignKeys_blank, Blueprint.primaryKeys_blank, List.head?_map, Option.toList_map]
    simp only [List.map_append, concat_append, List.map_map, Function.comp_def]
    exact ⟨hjoin, hleads, hleads'⟩
  | mysql => exact ⟨framed_bare hq (p := "") (by decide), leads_empty, leads_empty⟩
  | postgres => exact ⟨framed_bare hq (p := "") (by decide), leads_empty, leads_empty⟩

theorem framed_createTable (d : Dialect) (b : Blueprint) :
    Framed d.grammar.quote (d.grammar.createTable b)
      (Layout.dotted b.table ++ b.columns.flatMap (Layout.column d) ++ Layout.inlineKeys d b)
      (d.grammar.createTable b.blank) := by
  have hq := isQuote_grammar d
  have htable := framed_bare_append hq (p := "create table ") (by decide)
    (framed_qualified hq b.table)
  have hcolumns := framed_columnDefinitions d b (p := "") (by decide)
  simp only [String.empty_append, List.map_id'] at hcolumns
  obtain ⟨hkeys, hl, hl'⟩ := framed_keyClauses d b
  have hbody := framed_join hq htable (p := " (") (by decide) (by decide) hcolumns
  rw [createTable_eq, createTable_eq]
  exact framed_append_bare hq (framed_append hq hbody hkeys hl hl') (by decide)

/-- `alter table` with a change of the table. -/
theorem framed_alterTable (hq : IsQuote q) (b : Blueprint) {change change' : String}
    {ts : List Token} (h : Framed q change ts change') :
    Framed q (alterTable q b change) (Layout.dotted b.table ++ ts) (alterTable q b.blank change') :=
  framed_join hq (framed_bare_append hq (by decide) (framed_qualified hq b.table)) (by decide)
    (by decide) h

theorem framed_addForeignKey (hq : IsQuote q) (b : Blueprint) (k : ForeignKey) :
    Framed q (addForeignKey q b k) (Layout.dotted b.table ++ Layout.name k.name ++ Layout.foreignKey k)
      (addForeignKey q b.blank k.blank) := by
  have hname := framed_bare_append hq (p := "add constraint ") (by decide) (framed_segment hq k.name)
  have hkey := framed_join hq hname (p := " ") (by decide) (by decide) (framed_foreignKeyClause hq k)
  rw [List.append_assoc]
  exact framed_alterTable hq b hkey

theorem framed_createIndex (hq : IsQuote q) {kind : String} (hk : Bare kind) (b : Blueprint)
    (i : Index) :
    Framed q (createIndex q kind b i)
      (Layout.name i.name ++ Layout.dotted b.table ++ Layout.dottedList i.columns)
      (createIndex q kind b.blank i.blank) := by
  have hhead : Bare ("create " ++ kind ++ " ") := by
    simp only [bare_append, hk]
    decide
  have hname := framed_bare_append hq hhead (framed_segment hq i.name)
  have htable := framed_join hq hname (p := " on ") (by decide) (by decide)
    (framed_qualified hq b.table)
  have hcolumns := framed_join hq htable (p := " (") (by decide) (by decide)
    (framed_list hq i.columns)
  exact framed_append_bare hq hcolumns (by decide)

/-- A change that names an index or a constraint. -/
theorem framed_alterNamed (hq : IsQuote q) (b : Blueprint) {p : String} (hp : Bare p) (n : String) :
    Framed q (alterTable q b (p ++ Identifier.segment q n)) (Layout.dotted b.table ++ Layout.name n)
      (alterTable q b.blank (p ++ Identifier.segment q (Identifier.blankSegment n))) :=
  framed_alterTable hq b (framed_bare_append hq hp (framed_segment hq n))

theorem framed_addKey {kind : String} (hk : Bare kind) (b : Blueprint) (i : Index) :
    Framed backtick (addKey kind b i)
      (Layout.dotted b.table ++ Layout.name i.name ++ Layout.dottedList i.columns)
      (addKey kind b.blank i.blank) := by
  have hq : IsQuote backtick := by decide
  have hhead : Bare ("add " ++ kind ++ " ") := by
    simp only [bare_append, hk]
    decide
  have hname := framed_bare_append hq hhead (framed_segment hq i.name)
  have hcolumns := framed_join hq hname (p := "(") (by decide) (by decide)
    (framed_list hq i.columns)
  rw [List.append_assoc]
  exact framed_alterTable hq b (framed_append_bare hq hcolumns (by decide))

theorem framed_addConstraint {kind : String} (hk : Bare kind) (b : Blueprint) (i : Index) :
    Framed doubleQuote (addConstraint kind b i)
      (Layout.dotted b.table ++ Layout.name i.name ++ Layout.dottedList i.columns)
      (addConstraint kind b.blank i.blank) := by
  have hq : IsQuote doubleQuote := by decide
  have hname := framed_bare_append hq (p := "add constraint ") (by decide) (framed_segment hq i.name)
  have hkind := framed_append_bare hq (framed_append_bare hq hname (p := " ") (by decide)) hk
  have hcolumns := framed_join hq hkind (p := " (") (by decide) (by decide)
    (framed_list hq i.columns)
  rw [List.append_assoc]
  exact framed_alterTable hq b (framed_append_bare hq hcolumns (by decide))

theorem framed_dropColumns (hq : IsQuote q) (b : Blueprint) (cs : List String) :
    Framed q (alterTable q b (Text.commaJoin (cs.map fun c => "drop column " ++ Identifier.qualified q c)))
      (Layout.dotted b.table ++ Layout.dottedList cs)
      (alterTable q b.blank (Text.commaJoin
        ((cs.map Identifier.blank).map fun c => "drop column " ++ Identifier.qualified q c))) := by
  simp only [List.map_map, Function.comp_def]
  exact framed_alterTable hq b (framed_intercalate hq (by decide) (by decide) cs
    fun c _ => framed_bare_append hq (by decide) (framed_qualified hq c))

/-! ## Commands -/

/-- The tokens that a text reads as. -/
def tokensOf (q : Char) (s : String) : Option (List Token) := (read q s).map tokens

/-- The frame of a text that has a reading. -/
def frameOf (q : Char) (s : String) : Option (List (Option Char)) := (read q s).map frame

/-- Statement by statement, the tokens are those listed and the frame is that of another. -/
def FramedAll (q : Char) (ss : List String) (tss : List (List Token)) (ss' : List String) : Prop :=
  ss.map (tokensOf q) = tss.map some ∧ ss.map (frameOf q) = ss'.map (frameOf q)

theorem framedAll_map {α : Type} {f f' : α → String} {g : α → List Token} (xs : List α)
    (h : ∀ x ∈ xs, Framed q (f x) (g x) (f' x)) :
    FramedAll q (xs.map f) (xs.map g) (xs.map f') := by
  refine ⟨?_, ?_⟩
  · rw [List.map_map, List.map_map]
    refine List.map_congr_left fun x hx => ?_
    obtain ⟨ps, _, hps, _, ht, _⟩ := h x hx
    simp [tokensOf, hps, ht]
  · rw [List.map_map, List.map_map]
    refine List.map_congr_left fun x hx => ?_
    obtain ⟨ps, ps', hps, hps', _, hf⟩ := h x hx
    simp [frameOf, hps, hps', hf]

theorem framedAll_nil : FramedAll q [] [] [] := ⟨rfl, rfl⟩

theorem framedAll_one {s s' : String} {ts : List Token} (h : Framed q s ts s') :
    FramedAll q [s] [ts] [s'] :=
  framedAll_map [()] fun (_ : Unit) _ => h

theorem framedAll_add (d : Dialect) (b : Blueprint) :
    FramedAll d.grammar.quote (d.grammar.add b) (Layout.statements d b .add)
      (d.grammar.add b.blank) := by
  have hq := isQuote_grammar d
  have htable := framed_bare_append hq (p := "alter table ") (by decide)
    (framed_qualified hq b.table)
  cases hd : d.grammar.capabilities.multiColumnAdd with
  | true =>
    have hbare : Bare (d.grammar.addColumnKeyword ++ " ") := by cases d <;> decide
    have hcolumns := framed_columnDefinitions d b hbare
    have hlayout : Layout.statements d b .add =
        [Layout.dotted b.table ++ b.columns.flatMap (Layout.column d)] := by
      cases d with
      | sqlite => cases hd
      | mysql | postgres => rfl
    rw [add_together hd, add_together hd, hlayout]
    exact framedAll_one (framed_join hq htable (by decide) (by decide) hcolumns)
  | false =>
    have hlayout : Layout.statements d b .add =
        b.columns.map fun c => Layout.dotted b.table ++ Layout.column d c := by
      cases d with
      | sqlite => rfl
      | mysql | postgres => cases hd
    rw [add_oneByOne hd, add_oneByOne hd, hlayout]
    simp only [Blueprint.blank, List.map_map, Function.comp_def]
    exact framedAll_map b.columns fun c _ =>
      framed_join hq htable (by decide) (by decide) (framed_columnDefinition d c)

theorem framed_rename (d : Dialect) (b : Blueprint) (newName : String) :
    Framed d.grammar.quote (d.grammar.rename b newName) (Layout.dotted b.table ++ Layout.dotted newName)
      (d.grammar.rename b.blank (Identifier.blank newName)) := by
  have hq := isQuote_grammar d
  have hnew := framed_qualified hq newName
  cases d with
  | mysql =>
    exact framed_join hq (framed_bare_append hq (p := "rename table ") (by decide)
      (framed_qualified hq b.table)) (p := " to ") (by decide) (by decide) hnew
  | sqlite | postgres =>
    exact framed_alterTable hq b (framed_bare_append hq (p := "rename to ") (by decide) hnew)

theorem framedAll_unique (d : Dialect) (b : Blueprint) (i : Index) :
    FramedAll d.grammar.quote [d.grammar.unique b i] (Layout.statements d b (.unique i))
      [d.grammar.unique b.blank i.blank] := by
  have hq := isQuote_grammar d
  cases d with
  | sqlite => exact framedAll_one (framed_createIndex hq (by decide) b i)
  | mysql => exact framedAll_one (framed_addKey (by decide) b i)
  | postgres => exact framedAll_one (framed_addConstraint (by decide) b i)

theorem framedAll_index (d : Dialect) (b : Blueprint) (i : Index) :
    FramedAll d.grammar.quote [d.grammar.index b i] (Layout.statements d b (.index i))
      [d.grammar.index b.blank i.blank] := by
  have hq := isQuote_grammar d
  cases d with
  | mysql => exact framedAll_one (framed_addKey (by decide) b i)
  | sqlite | postgres =>
    exact framedAll_one (framed_createIndex hq (by decide) b i)

theorem framedAll_dropUnique (d : Dialect) (b : Blueprint) (n : String) :
    FramedAll d.grammar.quote [d.grammar.dropUnique b n] (Layout.statements d b (.dropUnique n))
      [d.grammar.dropUnique b.blank (Identifier.blankSegment n)] := by
  have hq := isQuote_grammar d
  cases d with
  | sqlite =>
    exact framedAll_one (framed_bare_append hq (p := "drop index ") (by decide) (framed_segment hq n))
  | mysql => exact framedAll_one (framed_alterNamed hq b (p := "drop index ") (by decide) n)
  | postgres => exact framedAll_one (framed_alterNamed hq b (p := "drop constraint ") (by decide) n)

theorem framedAll_dropIndex (d : Dialect) (b : Blueprint) (n : String) :
    FramedAll d.grammar.quote [d.grammar.dropIndex b n] (Layout.statements d b (.dropIndex n))
      [d.grammar.dropIndex b.blank (Identifier.blankSegment n)] := by
  have hq := isQuote_grammar d
  cases d with
  | mysql => exact framedAll_one (framed_alterNamed hq b (p := "drop index ") (by decide) n)
  | sqlite | postgres =>
    exact framedAll_one (framed_bare_append hq (p := "drop index ") (by decide) (framed_segment hq n))

theorem framedAll_foreign (d : Dialect) (b : Blueprint) (k : ForeignKey) :
    FramedAll d.grammar.quote (d.grammar.foreign b k).toList (Layout.statements d b (.foreign k))
      (d.grammar.foreign b.blank k.blank).toList := by
  have hq := isQuote_grammar d
  cases d with
  | sqlite => exact framedAll_nil
  | mysql | postgres => exact framedAll_one (framed_addForeignKey hq b k)

theorem framedAll_primary (d : Dialect) (b : Blueprint) (i : Index) :
    FramedAll d.grammar.quote (d.grammar.primary b i).toList (Layout.statements d b (.primary i))
      (d.grammar.primary b.blank i.blank).toList := by
  have hq := isQuote_grammar d
  cases d with
  | sqlite => exact framedAll_nil
  | mysql =>
    exact framedAll_one (framed_alterTable hq b
      (framed_columnsInBrackets hq (p := "add primary key (") (by decide) i.columns))
  | postgres => exact framedAll_one (framed_addConstraint (by decide) b i)

theorem framedAll_dropTable {p : String} (hp : Bare p) (d : Dialect) (b : Blueprint) :
    FramedAll d.grammar.quote [p ++ d.grammar.table b] [Layout.dotted b.table]
      [p ++ d.grammar.table b.blank] := by
  have hq := isQuote_grammar d
  exact framedAll_one (framed_bare_append hq hp (framed_qualified hq b.table))

/-- What a command compiles to compares with what the blank one compiles to. -/
theorem framedAll_compileCommand {d : Dialect} {b : Blueprint} {c : Command}
    {statements : List String} (h : d.grammar.compileCommand b c = .ok statements) :
    ∃ blanks, d.grammar.compileCommand b.blank c.blank = .ok blanks ∧
      FramedAll d.grammar.quote statements (Layout.statements d b c) blanks := by
  have hq := isQuote_grammar d
  cases c with
  | create =>
    obtain rfl := Except.ok.inj h
    exact ⟨_, rfl, framedAll_one (framed_createTable d b)⟩
  | add =>
    obtain rfl := Except.ok.inj h
    exact ⟨_, rfl, framedAll_add d b⟩
  | rename newName =>
    obtain rfl := Except.ok.inj h
    exact ⟨_, rfl, framedAll_one (framed_rename d b newName)⟩
  | dropTable =>
    obtain rfl := Except.ok.inj h
    exact ⟨_, rfl, framedAll_dropTable (by decide) d b⟩
  | dropTableIfExists =>
    obtain rfl := Except.ok.inj h
    exact ⟨_, rfl, framedAll_dropTable (by decide) d b⟩
  | dropColumn columns =>
    cases d with
    | sqlite => cases h
    | mysql | postgres =>
      obtain rfl := Except.ok.inj h
      exact ⟨_, rfl, framedAll_one (framed_dropColumns hq b columns)⟩
  | unique i =>
    obtain rfl := Except.ok.inj h
    exact ⟨_, rfl, framedAll_unique d b i⟩
  | index i =>
    obtain rfl := Except.ok.inj h
    exact ⟨_, rfl, framedAll_index d b i⟩
  | dropUnique n =>
    obtain rfl := Except.ok.inj h
    exact ⟨_, rfl, framedAll_dropUnique d b n⟩
  | dropIndex n =>
    obtain rfl := Except.ok.inj h
    exact ⟨_, rfl, framedAll_dropIndex d b n⟩
  | foreign k =>
    obtain rfl := Except.ok.inj h
    exact ⟨_, rfl, framedAll_foreign d b k⟩
  | primary i =>
    obtain rfl := Except.ok.inj h
    exact ⟨_, rfl, framedAll_primary d b i⟩
  | dropForeign n =>
    cases d with
    | sqlite => cases h
    | mysql =>
      obtain rfl := Except.ok.inj h
      exact ⟨_, rfl, framedAll_one (framed_alterNamed hq b (p := "drop foreign key ") (by decide) n)⟩
    | postgres =>
      obtain rfl := Except.ok.inj h
      exact ⟨_, rfl, framedAll_one (framed_alterNamed hq b (p := "drop constraint ") (by decide) n)⟩
  | dropPrimary n =>
    cases d with
    | sqlite => cases h
    | mysql =>
      obtain rfl := Except.ok.inj h
      have hdrop := framed_alterTable hq b
        (framed_bare hq (p := "drop primary key") (by decide))
      rw [List.append_nil] at hdrop
      exact ⟨_, rfl, framedAll_one hdrop⟩
    | postgres =>
      obtain rfl := Except.ok.inj h
      exact ⟨_, rfl, framedAll_one (framed_alterNamed hq b (p := "drop constraint ") (by decide) n)⟩

/-- Whatever the texts of a blueprint hold, every statement of a command ends outside quotes,
quotes exactly the texts that the layout lists, and has outside its quotes the text of the
blueprint in which all of them are emptied. -/
theorem compileCommand_reads_as_layout {d : Dialect} {b : Blueprint} {c : Command}
    {statements : List String} (h : d.grammar.compileCommand b c = .ok statements) :
    statements.map (tokensOf d.grammar.quote) = (Layout.statements d b c).map some ∧
      ∃ blanks, d.grammar.compileCommand b.blank c.blank = .ok blanks ∧
        statements.map (frameOf d.grammar.quote) = blanks.map (frameOf d.grammar.quote) := by
  obtain ⟨blanks, hblanks, htokens, hframes⟩ := framedAll_compileCommand h
  exact ⟨htokens, blanks, hblanks, hframes⟩

/-- A table of which the name, an enum value and the default all try to close their quotes. -/
theorem mysql_create_reads_as_layout :
    let b : Blueprint :=
      { table := "app.\x60;"
        columns := [{ name := "a, b", type := .enum ["'", "x')"], default := some (.string "''") }] }
    ∃ statements, Dialect.mysql.grammar.compileCommand b .create = .ok statements ∧
      statements.map (tokensOf Grammar.backtick) = [some
        [⟨.identifier, "app"⟩, ⟨.identifier, "\x60;"⟩, ⟨.identifier, "a, b"⟩, ⟨.string, "'"⟩,
          ⟨.string, "x')"⟩, ⟨.string, "''"⟩]] :=
  ⟨_, rfl, (compileCommand_reads_as_layout (d := .mysql) (c := .create) rfl).1.trans (by decide)⟩

end Schemata.Quoting
