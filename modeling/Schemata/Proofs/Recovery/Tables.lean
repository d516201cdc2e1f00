import Schemata.Grammar.Dialects
import Schemata.Proofs.Recovery.Prefixes

/-!
# The table behind a statement

The text of `create table` on MySQL gives away what table it creates: names, types with all their
parameters, and everything about a column that MySQL is told. What it is not told is whether an
auto-increment column may be null, whether the flag is set on a column that is no integer, and
which of two values with the same text a default was.

The pieces of the statement are taken in their order. Modifiers are optional and have no marks
around them, so there the beginnings of what may follow have to be told apart.
-/
namespace Schemata.Recovery

open Grammar Quoting

variable {q : Char} {marks : List String}

/-! ## Names -/

theorem splitAt_inj {n n' : String} (h : Text.splitAt '.' n = Text.splitAt '.' n') : n = n' := by
  have hpieces : n.toList.splitOn '.' = n'.toList.splitOn '.' :=
    List.map_injective_iff.mpr (fun _ _ => String.ofList_inj.mp) h
  rw [← String.toList_inj]
  calc n.toList = ['.'].intercalate (n.toList.splitOn '.') := (List.intercalate_splitOn '.').symm
    _ = ['.'].intercalate (n'.toList.splitOn '.') := by rw [hpieces]
    _ = n'.toList := List.intercalate_splitOn '.'

/-- A segment begins with a quote, or it is the star. -/
theorem goesOn_segment (q : Char) (n r : String) :
    GoesOn ["*", String.singleton q] (Identifier.segment q n ++ r) := by
  unfold Identifier.segment
  split
  · next hn =>
    rw [hn]
    exact goesOn_append (by simp) r
  · exact (goesOn_quote q n r).mono (List.subset_cons_self _ _)

theorem clash_star (hq : IsQuote q) : Clash "*" (String.singleton q) := by
  rcases hq with rfl | rfl <;> decide

theorem settles_segment (hq : IsQuote q) (hmarks : ∀ m ∈ marks, stops (· == q) m) (n n' : String) :
    Settles marks (Identifier.segment q n) (Identifier.segment q n') (n = n') := by
  have hstar : ∀ r, GoesOn marks r → GoesOn ["*"] ("*" ++ r) :=
    fun r _ => goesOn_self "*" r
  have hquote : ∀ n r, GoesOn marks r → GoesOn [String.singleton q] (Text.quote q n ++ r) :=
    fun n r _ => goesOn_quote q n r
  have hclash : ∀ m ∈ ["*"], ∀ k ∈ [String.singleton q], Clash m k := by
    intro m hm k hk
    rw [List.mem_singleton.mp hm, List.mem_singleton.mp hk]
    exact clash_star hq
  unfold Identifier.segment
  by_cases hn : n = "*" <;> by_cases hn' : n' = "*"
  · rw [if_pos hn, if_pos hn', hn, hn']
    exact settles_same _ rfl
  · rw [if_pos hn, if_neg hn', hn]
    exact settles_of_clash hstar (hquote n') hclash
  · rw [if_neg hn, if_pos hn', hn']
    exact (settles_of_clash hstar (hquote n) hclash).symm
  · rw [if_neg hn, if_neg hn']
    exact settles_quote hmarks n n'

theorem goesOn_qualified (q : Char) (n r : String) :
    GoesOn ["*", String.singleton q] (Identifier.qualified q n ++ r) := by
  unfold Identifier.qualified
  cases hn : Text.splitAt '.' n with
  | nil => simp [Text.splitAt] at hn
  | cons m ms =>
    rw [intercalate_cons, String.append_assoc]
    exact goesOn_segment q m _

/-- All names in `create table` are followed by a blank. -/
theorem settles_qualified (hq : IsQuote q) (n n' : String) :
    Settles [" "] (Identifier.qualified q n) (Identifier.qualified q n') (n = n') := by
  have hstops : ∀ m ∈ [".", " "], stops (· == q) m := by
    rcases hq with rfl | rfl <;> decide
  have hclash : ∀ h ∈ ["*", String.singleton q], ∀ m ∈ [" "], Clash h m := by
    rcases hq with rfl | rfl <;> decide
  have hsegments : Settles [" "] (Identifier.qualified q n) (Identifier.qualified q n')
      (List.Forall₂ Eq (Text.splitAt '.' n) (Text.splitAt '.' n')) :=
    settles_intercalate (settles_segment hq hstops) (by decide) (goesOn_segment q) hclash _ _
  exact hsegments.imp fun h => splitAt_inj (List.forall₂_eq_eq_eq ▸ h)

/-! ## Types -/

/-- The word that a type begins with. -/
def typeWord : ColumnType → String
  | .string _ => "varchar"
  | .text => "text"
  | .integer => "int"
  | .float _ _ => "float"
  | .decimal _ _ => "decimal"
  | .boolean => "tinyint"
  | .enum _ => "enum"
  | .date => "date"
  | .dateTime => "datetime"
  | .time => "time"
  | .timestamp => "timestamp"
  | .binary => "blob"

/-- What a type has in brackets behind its word. -/
def typeArguments : ColumnType → String
  | .string length => "(" ++ (toString length.toNat ++ ")")
  | .integer => "(11)"
  | .float precision scale | .decimal precision scale =>
    "(" ++ (toString precision.toNat ++ (", " ++ (toString scale.toNat ++ ")")))
  | .boolean => "(1)"
  | .enum values => "(" ++ (Text.commaJoin (values.map Text.quoteLiteral) ++ ")")
  | _ => ""

theorem typeSql_eq (c : Column) : mysql.typeSql c = typeWord c.type ++ typeArguments c.type := by
  obtain ⟨name, type, nullable, default, autoIncrement⟩ := c
  cases type with
  | string length =>
    have hopen : "varchar(" = "varchar" ++ "(" := by decide
    show "varchar(" ++ toString length.toNat ++ ")" = _
    rw [hopen, String.append_assoc, String.append_assoc]
    rfl
  | float precision scale | decimal precision scale =>
    show withScale _ precision scale = _
    simp only [withScale, String.append_assoc]
    rfl
  | enum values =>
    have hopen : "enum(" = "enum" ++ "(" := by decide
    show "enum(" ++ Text.commaJoin (values.map Text.quoteLiteral) ++ ")" = _
    rw [hopen, String.append_assoc, String.append_assoc]
    rfl
  | integer =>
    show "int(11)" = "int" ++ "(11)"
    decide
  | boolean =>
    show "tinyint(1)" = "tinyint" ++ "(1)"
    decide
  | text | date | dateTime | time | timestamp | binary => exact String.append_empty.symm

theorem settles_scale (p k p' k' : UInt8) :
    Settles marks ("(" ++ (toString p.toNat ++ (", " ++ (toString k.toNat ++ ")"))))
      ("(" ++ (toString p'.toNat ++ (", " ++ (toString k'.toNat ++ ")")))) (p = p' ∧ k = k') := by
  have hfirst : Settles [", "] (toString p.toNat) (toString p'.toNat) (p.toNat = p'.toNat) :=
    settles_nat (by decide) _ _
  have hsecond : Settles [")"] (toString k.toNat) (toString k'.toNat) (k.toNat = k'.toNat) :=
    settles_nat (by decide) _ _
  refine ((hfirst.between fun _ => hsecond.close).prepend "(").imp ?_
  exact fun ⟨hp, hk⟩ => ⟨UInt8.toNat_inj.mp hp, UInt8.toNat_inj.mp hk⟩

theorem settles_values (vs vs' : List String) :
    Settles marks ("(" ++ (Text.commaJoin (vs.map Text.quoteLiteral) ++ ")"))
      ("(" ++ (Text.commaJoin (vs'.map Text.quoteLiteral) ++ ")")) (vs = vs') := by
  have hlist : Settles [")"] (Text.commaJoin (vs.map Text.quoteLiteral))
      (Text.commaJoin (vs'.map Text.quoteLiteral)) (List.Forall₂ Eq vs vs') :=
    settles_intercalate (settles_quote (by decide)) (by decide) (goesOn_quote '\'') (by decide) _ _
  exact (hlist.imp fun h => List.forall₂_eq_eq_eq ▸ h).close.prepend "("

/-- Types of the same word are told apart by what they have in brackets. -/
theorem settles_typeArguments {t t' : ColumnType} (h : typeWord t = typeWord t') :
    Settles marks (typeArguments t) (typeArguments t') (t = t') := by
  cases t with
  | string length =>
    cases t' <;> simp [typeWord] at h
    next length' =>
    have hlength : Settles [")"] (toString length.toNat) (toString length'.toNat)
        (length.toNat = length'.toNat) := settles_nat (by decide) _ _
    exact (hlength.close.prepend "(").imp fun h =>
      congrArg ColumnType.string (UInt32.toNat_inj.mp h)
  | float precision scale | decimal precision scale =>
    cases t' <;> simp [typeWord] at h
    exact (settles_scale _ _ _ _).imp fun ⟨hp, hs⟩ => by rw [hp, hs]
  | enum values =>
    cases t' <;> simp [typeWord] at h
    next values' => exact (settles_values values values').imp (congrArg ColumnType.enum)
  | text | integer | boolean | date | dateTime | time | timestamp | binary =>
    cases t' <;> simp [typeWord] at h
    exact settles_same _ rfl

theorem goesOn_typeArguments (t : ColumnType) {r : String} (h : GoesOn [" "] r) :
    GoesOn ["(", " "] (typeArguments t ++ r) := by
  cases t with
  | string | float | decimal | enum => exact (goesOn_append List.mem_cons_self _).append r
  | integer | boolean => exact GoesOn.append (by decide) r
  | text | date | dateTime | time | timestamp | binary =>
    show GoesOn ["(", " "] ("" ++ r)
    rw [String.empty_append]
    exact h.mono (List.subset_cons_self _ _)

theorem typeWord_lower (t : ColumnType) : (typeWord t).toList.all Char.isLower := by
  cases t <;> (rw [typeWord]; decide)

theorem settles_typeSql (c c' : Column) :
    Settles [" "] (mysql.typeSql c) (mysql.typeSql c') (c.type = c'.type) := by
  have hword : Settles ["(", " "] (typeWord c.type) (typeWord c'.type)
      (typeWord c.type = typeWord c'.type) :=
    settles_chars (typeWord_lower c.type) (typeWord_lower c'.type) (by decide)
  rw [typeSql_eq, typeSql_eq]
  exact (hword.append settles_typeArguments (fun _ => goesOn_typeArguments c.type)
    fun _ => goesOn_typeArguments c'.type).imp And.right

/-! ## Modifiers -/

/-- The characters of all default values but texts. -/
def plain (c : Char) : Bool := c.isDigit || ['-', '.', 'i', 'n', 'f', 'N', 'a'].contains c

theorem plain_of_isDigit {c : Char} (h : c.isDigit) : plain c := by rw [plain, h, Bool.true_or]

/-- A default value is written without a quote, or as a quoted text. -/
theorem defaultSql_cases (v : DefaultValue) :
    (mysql.defaultSql v).toList.all plain ∨ ∃ s, mysql.defaultSql v = Text.quote '\'' s := by
  cases v with
  | boolean b => cases b <;> exact .inl (by decide)
  | integer i =>
    refine .inl (List.all_eq_true.mpr fun c hc => ?_)
    rcases Decimal.mem_toString_int hc with h | rfl
    · exact plain_of_isDigit h
    · decide
  | float f =>
    refine .inl (List.all_eq_true.mpr fun c hc => ?_)
    rcases Decimal.mem_sqlText hc with h | h
    · exact plain_of_isDigit h
    · rw [plain, List.contains_iff_mem.mpr h, Bool.or_true]
  | string s => exact .inr ⟨s, rfl⟩

/-- What may follow the definition of a column in `create table`. -/
def afterColumn : List String := [", ", ")"]

/-- What may follow a default value, or its absence. -/
def afterDefault : List String := " auto_increment primary key" :: afterColumn

/-- What may follow a nullable clause, or its absence. -/
def afterNullable : List String := " default " :: afterDefault

theorem settles_defaultSql (v v' : DefaultValue) :
    Settles afterDefault (mysql.defaultSql v) (mysql.defaultSql v')
      (mysql.defaultSql v = mysql.defaultSql v') := by
  rcases defaultSql_cases v with h | ⟨s, h⟩ <;> rcases defaultSql_cases v' with h' | ⟨s', h'⟩
  · exact settles_chars h h' (by decide)
  · rw [h']
    exact settles_chars_quote h (by decide) (by decide)
  · rw [h]
    exact (settles_chars_quote h' (by decide) (by decide)).symm
  · rw [h, h']
    exact (settles_quote (by decide) s s').imp (congrArg (Text.quote '\''))

theorem goesOn_defaultClause (c : Column) :
    ∀ s ∈ mysql.defaultClause c, ∀ r, GoesOn [" default "] (s ++ r) := by
  intro s hs r
  obtain ⟨v, -, rfl⟩ := Option.map_eq_some_iff.mp hs
  rw [String.append_assoc]
  exact goesOn_self " default " _

theorem settles_defaultClause (c c' : Column) :
    Settles afterDefault ((mysql.defaultClause c).getD "") ((mysql.defaultClause c').getD "")
      (mysql.defaultClause c = mysql.defaultClause c') := by
  refine settles_optional ?_ (goesOn_defaultClause c) (goesOn_defaultClause c') (by decide)
  intro s hs s' hs'
  obtain ⟨v, -, rfl⟩ := Option.map_eq_some_iff.mp hs
  obtain ⟨v', -, rfl⟩ := Option.map_eq_some_iff.mp hs'
  exact ((settles_defaultSql v v').prepend " default ").imp (congrArg (" default " ++ ·))

theorem mem_nullableClause {c : Column} {s : String} (hs : s ∈ nullableClause c) :
    s = " null" ∨ s = " not null" := by
  unfold nullableClause at hs
  split at hs
  · cases hs
  · obtain rfl := Option.some.inj hs
    cases c.nullable
    · exact .inr rfl
    · exact .inl rfl

theorem goesOn_nullableClause (c : Column) :
    ∀ s ∈ nullableClause c, ∀ r, GoesOn [" null", " not null"] (s ++ r) := by
  intro s hs r
  rcases mem_nullableClause hs with rfl | rfl
  · exact goesOn_append (by decide) r
  · exact goesOn_append (by decide) r

theorem settles_nullableClause (c c' : Column) :
    Settles afterNullable ((nullableClause c).getD "") ((nullableClause c').getD "")
      (nullableClause c = nullableClause c') := by
  have hapart : Settles afterNullable " null" " not null" (" null" = " not null") :=
    settles_of_clash (fun r _ => goesOn_self " null" r) (fun r _ => goesOn_self " not null" r)
      (by decide)
  refine settles_optional ?_ (goesOn_nullableClause c) (goesOn_nullableClause c') (by decide)
  intro s hs s' hs'
  rcases mem_nullableClause hs with rfl | rfl <;> rcases mem_nullableClause hs' with rfl | rfl
  · exact settles_same _ rfl
  · exact hapart
  · exact hapart.symm.imp Eq.symm
  · exact settles_same _ rfl

/-- The nullable clause shows which columns are auto-increment columns, and of the others which
may be null. -/
theorem nullableClause_eq_iff {c c' : Column} : nullableClause c = nullableClause c' ↔
    c.isIncrement = c'.isIncrement ∧ (c.isIncrement = false → c.nullable = c'.nullable) := by
  unfold nullableClause
  cases c.isIncrement <;> cases c'.isIncrement <;> cases c.nullable <;> cases c'.nullable <;> simp

theorem defaultClause_eq_iff {c c' : Column} : mysql.defaultClause c = mysql.defaultClause c' ↔
    c.default.map mysql.defaultSql = c'.default.map mysql.defaultSql := by
  unfold defaultClause
  cases c.default <;> cases c'.default <;> simp

/-- The modifiers of a column, as they follow its type. -/
def modifierSql (c : Column) : String :=
  (nullableClause c).getD "" ++
    ((mysql.defaultClause c).getD "" ++ (mysql.incrementClause c).getD "")

theorem mysql_columnDefinition (c : Column) : mysql.columnDefinition c =
    Identifier.qualified backtick c.name ++ (" " ++ (mysql.typeSql c ++ modifierSql c)) := by
  have hmodifiers :
      "".intercalate (mysql.modifiers.filterMap (mysql.modify c)) = modifierSql c := by
    have hall : mysql.modifiers = [.nullable, .default, .increment] := rfl
    rw [concat_filterMap, hall]
    simp only [List.map_cons, List.map_nil, concat_cons, String.intercalate_nil,
      String.append_empty]
    rfl
  rw [columnDefinition, hmodifiers, String.append_assoc, String.append_assoc]
  rfl

theorem goesOn_incrementClause (c : Column) :
    ∀ s ∈ mysql.incrementClause c, ∀ r, GoesOn [" auto_increment primary key"] (s ++ r) := by
  intro s hs r
  unfold incrementClause at hs
  split at hs
  · obtain rfl := Option.some.inj hs
    exact goesOn_self _ r
  · cases hs

/-- Some modifier always applies, whatever the column, and each begins with a blank. -/
theorem goesOn_modifierSql (c : Column) (r : String) : GoesOn [" "] (modifierSql c ++ r) := by
  cases hi : c.isIncrement with
  | false =>
    obtain ⟨s, hs⟩ : ∃ s, nullableClause c = some s := by
      rw [nullableClause, hi]
      exact ⟨_, rfl⟩
    rw [modifierSql, hs, Option.getD_some, String.append_assoc]
    exact (goesOn_nullableClause c s hs _).shorten (by decide)
  | true =>
    have hnull : nullableClause c = none := by
      rw [nullableClause, hi]
      rfl
    have hincrement : mysql.incrementClause c = some " auto_increment primary key" := by
      rw [incrementClause, hi]
      rfl
    rw [modifierSql, hnull, hincrement, Option.getD_none, Option.getD_some, String.empty_append,
      String.append_assoc]
    exact (goesOn_optional (goesOn_defaultClause c) (goesOn_self _ r)).shorten (by decide)

theorem settles_modifierSql (c c' : Column) :
    Settles afterColumn (modifierSql c) (modifierSql c')
      (nullableClause c = nullableClause c' ∧ mysql.defaultClause c = mysql.defaultClause c') := by
  have hincrement : ∀ (c : Column) r, GoesOn afterColumn r →
      GoesOn afterDefault ((mysql.incrementClause c).getD "" ++ r) :=
    fun c _ hr => goesOn_optional (goesOn_incrementClause c) hr
  have hdefault : ∀ (c : Column) r, GoesOn afterColumn r → GoesOn afterNullable
      ((mysql.defaultClause c).getD "" ++ (mysql.incrementClause c).getD "" ++ r) := by
    intro c r hr
    rw [String.append_assoc]
    exact goesOn_optional (goesOn_defaultClause c) (hincrement c r hr)
  refine (settles_nullableClause c c').append (fun h => ?_) (hdefault c) (hdefault c')
  have hsame : mysql.incrementClause c = mysql.incrementClause c' := by
    rw [incrementClause, incrementClause, (nullableClause_eq_iff.mp h).1]
  have hend : Settles afterColumn ((mysql.incrementClause c).getD "")
      ((mysql.incrementClause c').getD "") True := by
    rw [hsame]
    exact settles_same _ trivial
  have hboth := (settles_defaultClause c c').append (fun _ => hend) (hincrement c) (hincrement c')
  exact hboth.imp And.left

/-! ## Tables -/

/-- What MySQL is told of a column is the same: everything but whether an auto-increment column
may be null, what an auto-increment flag does not count on, and how a default value is stored. -/
structure Alike (c c' : Column) : Prop where
  name : c.name = c'.name
  type : c.type = c'.type
  isIncrement : c.isIncrement = c'.isIncrement
  nullable : c.isIncrement = false → c.nullable = c'.nullable
  default : c.default.map mysql.defaultSql = c'.default.map mysql.defaultSql

theorem settles_columnDefinition (c c' : Column) :
    Settles afterColumn (mysql.columnDefinition c) (mysql.columnDefinition c') (Alike c c') := by
  have htype : Settles afterColumn (mysql.typeSql c ++ modifierSql c)
      (mysql.typeSql c' ++ modifierSql c') (c.type = c'.type ∧
        nullableClause c = nullableClause c' ∧ mysql.defaultClause c = mysql.defaultClause c') :=
    (settles_typeSql c c').append (fun _ => settles_modifierSql c c')
      (fun r _ => goesOn_modifierSql c r) fun r _ => goesOn_modifierSql c' r
  rw [mysql_columnDefinition, mysql_columnDefinition]
  refine ((settles_qualified (.inr rfl) c.name c'.name).between fun _ => htype).imp ?_
  rintro ⟨hname, htype, hnullable, hdefault⟩
  obtain ⟨hincrement, hnull⟩ := nullableClause_eq_iff.mp hnullable
  exact ⟨hname, htype, hincrement, hnull, defaultClause_eq_iff.mp hdefault⟩

theorem Alike.columnDefinition_eq {c c' : Column} (h : Alike c c') :
    mysql.columnDefinition c = mysql.columnDefinition c' := by
  rw [mysql_columnDefinition, mysql_columnDefinition, typeSql_eq, typeSql_eq, modifierSql,
    modifierSql, h.name, h.type, nullableClause_eq_iff.mpr ⟨h.isIncrement, h.nullable⟩,
    defaultClause_eq_iff.mpr h.default, incrementClause, incrementClause, h.isIncrement]

theorem mysql_createTable (b : Blueprint) : mysql.createTable b = "create table " ++
    (Identifier.qualified backtick b.table ++
      (" (" ++ (Text.commaJoin (b.columns.map mysql.columnDefinition) ++ ")"))) := by
  rw [Grammar.createTable_eq, Phrases.keyClauses_apart rfl, List.map_nil, String.intercalate_nil,
    String.append_empty]
  simp only [String.append_assoc]
  rfl

theorem goesOn_columnDefinition (c : Column) (r : String) :
    GoesOn ["*", String.singleton backtick] (mysql.columnDefinition c ++ r) := by
  rw [mysql_columnDefinition, String.append_assoc]
  exact goesOn_qualified backtick c.name _

theorem columnDefinitions_eq {cs cs' : List Column} (h : List.Forall₂ Alike cs cs') :
    cs.map mysql.columnDefinition = cs'.map mysql.columnDefinition := by
  induction h with
  | nil => rfl
  | cons h _ ih => rw [List.map_cons, List.map_cons, h.columnDefinition_eq, ih]

/-- **What a statement tells.** The statements that create two tables are the same text exactly
when the tables have the same name and, one by one, columns that MySQL is told the same of. -/
theorem same_createTable_iff (b b' : Blueprint) : mysql.createTable b = mysql.createTable b' ↔
    b.table = b'.table ∧ List.Forall₂ Alike b.columns b'.columns := by
  rw [mysql_createTable, mysql_createTable]
  constructor
  · have htable : Settles [" ("] (Identifier.qualified backtick b.table)
        (Identifier.qualified backtick b'.table) (b.table = b'.table) :=
      (settles_qualified (.inr rfl) b.table b'.table).shorten (by decide)
    have hcolumns : Settles [")"] (Text.commaJoin (b.columns.map mysql.columnDefinition))
        (Text.commaJoin (b'.columns.map mysql.columnDefinition))
        (List.Forall₂ Alike b.columns b'.columns) :=
      settles_intercalate settles_columnDefinition (by decide) goesOn_columnDefinition (by decide)
        _ _
    exact ((htable.between fun _ => hcolumns.close).prepend "create table ").of_eq
  · rintro ⟨htable, hcolumns⟩
    rw [htable, columnDefinitions_eq hcolumns]

/-- Whether an auto-increment column may be null is not written. -/
example : mysql.createTable { table := "t", columns := [(Column.increments "id").allowNull] } =
    mysql.createTable { table := "t", columns := [Column.increments "id"] } := rfl

end Schemata.Recovery
