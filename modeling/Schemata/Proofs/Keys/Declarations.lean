import Schemata.Proofs.Compile.Inversion
import Schemata.Proofs.Keys.Clauses

/-!
# Where keys are declared

Two laws that the rules for blueprints are meant to give, each with the exact condition under
which they do. One `create table` declares at most one primary key only as long as there is at
most one auto-increment column: the rules count the commands, and compare them with the
columns, but never count the columns. And where keys can be declared in `create table` only,
an auto-increment column that is added later declares one elsewhere.
-/
namespace Schemata.Keys

open Quoting Grammar

variable {k : KeyKind}

/-! ## How statements begin -/

def Starts (p s : String) : Prop := p.toList <+: s.toList

instance (p s : String) : Decidable (Starts p s) := inferInstanceAs (Decidable (_ <+: _))

def IsCreateTable (s : String) : Prop := Starts "create table " s

instance (s : String) : Decidable (IsCreateTable s) := inferInstanceAs (Decidable (Starts _ _))

/-- How the statements begin that do not create a table. -/
def otherStarts : List String :=
  ["alter table ", "rename table ", "drop table ", "drop index ", "create index ",
    "create unique index "]

variable {p s : String}

theorem starts_append (p t : String) : Starts p (p ++ t) := by
  rw [Starts, String.toList_append]
  exact List.prefix_append _ _

theorem Starts.append (h : Starts p s) (t : String) : Starts p (s ++ t) := by
  rw [Starts, String.toList_append]
  exact h.trans (List.prefix_append _ _)

/-- Begins, but not like `create table`. -/
def StartsOtherwise (s : String) : Prop := ∃ p ∈ otherStarts, Starts p s

theorem StartsOtherwise.not_isCreateTable (h : StartsOtherwise s) : ¬ IsCreateTable s := by
  intro hc
  obtain ⟨p, hp, hs⟩ := h
  have hapart : ∀ p ∈ otherStarts, ¬ Starts p "create table " ∧ ¬ Starts "create table " p := by
    decide
  rcases List.prefix_or_prefix_of_prefix hs hc with hpc | hcp
  · exact (hapart p hp).1 hpc
  · exact (hapart p hp).2 hcp

theorem isCreateTable_createTable (g : Grammar) (b : Blueprint) :
    IsCreateTable (g.createTable b) := by
  rw [createTable_eq]
  exact ((((starts_append _ _).append _).append _).append _).append _

theorem startsOtherwise_alterTable (q : Char) (b : Blueprint) (change : String) :
    StartsOtherwise (alterTable q b change) :=
  ⟨"alter table ", by decide, ((starts_append _ _).append _).append _⟩

theorem startsOtherwise_addColumn (g : Grammar) (b : Blueprint) (c : Column) :
    StartsOtherwise (g.addColumn b c) :=
  ⟨"alter table ", by decide, ((starts_append _ _).append _).append _⟩

theorem startsOtherwise_add {d : Dialect} {b : Blueprint} (hs : s ∈ d.grammar.add b) :
    StartsOtherwise s := by
  cases hd : d.grammar.capabilities.multiColumnAdd with
  | true =>
    rw [add_together hd] at hs
    obtain rfl := List.mem_singleton.mp hs
    exact ⟨"alter table ", by decide, ((starts_append _ _).append _).append _⟩
  | false =>
    rw [add_oneByOne hd] at hs
    obtain ⟨c, -, rfl⟩ := List.mem_map.mp hs
    exact startsOtherwise_addColumn _ b c

theorem startsOtherwise_dropIndex (q : Char) (n : String) :
    StartsOtherwise ("drop index " ++ Identifier.segment q n) :=
  ⟨"drop index ", by decide, starts_append _ _⟩

theorem startsOtherwise_createIndex {kind : String}
    (h : StartsOtherwise ("create " ++ kind ++ " ")) (q : Char) (b : Blueprint) (i : Index) :
    StartsOtherwise (createIndex q kind b i) := by
  obtain ⟨p, hp, hs⟩ := h
  exact ⟨p, hp, (((((hs.append _).append _).append _).append _).append _).append _⟩

theorem startsOtherwise_of_compileCommand {d : Dialect} {b : Blueprint} {c : Command}
    {block : List String} (h : d.grammar.compileCommand b c = .ok block) (hc : c ≠ .create) :
    ∀ s ∈ block, StartsOtherwise s := by
  intro s hs
  cases c with
  | create => exact absurd rfl hc
  | add =>
    obtain rfl := Except.ok.inj h
    exact startsOtherwise_add hs
  | rename newName =>
    obtain rfl := Except.ok.inj h
    obtain rfl := List.mem_singleton.mp hs
    cases d with
    | mysql => exact ⟨"rename table ", by decide, ((starts_append _ _).append _).append _⟩
    | sqlite | postgres => exact startsOtherwise_alterTable _ b _
  | dropTable =>
    obtain rfl := Except.ok.inj h
    obtain rfl := List.mem_singleton.mp hs
    exact ⟨"drop table ", by decide, starts_append _ _⟩
  | dropTableIfExists =>
    obtain rfl := Except.ok.inj h
    obtain rfl := List.mem_singleton.mp hs
    have hhead : Starts "drop table " "drop table if exists " := by decide
    exact ⟨"drop table ", by decide, hhead.append _⟩
  | unique i =>
    obtain rfl := Except.ok.inj h
    obtain rfl := List.mem_singleton.mp hs
    cases d with
    | sqlite => exact startsOtherwise_createIndex ⟨"create unique index ", by decide, by decide⟩ _ b i
    | mysql | postgres => exact startsOtherwise_alterTable _ b _
  | index i =>
    obtain rfl := Except.ok.inj h
    obtain rfl := List.mem_singleton.mp hs
    cases d with
    | mysql => exact startsOtherwise_alterTable _ b _
    | sqlite | postgres =>
      exact startsOtherwise_createIndex ⟨"create index ", by decide, by decide⟩ _ b i
  | dropUnique n =>
    obtain rfl := Except.ok.inj h
    obtain rfl := List.mem_singleton.mp hs
    cases d with
    | sqlite => exact startsOtherwise_dropIndex _ n
    | mysql | postgres => exact startsOtherwise_alterTable _ b _
  | dropIndex n =>
    obtain rfl := Except.ok.inj h
    obtain rfl := List.mem_singleton.mp hs
    cases d with
    | mysql => exact startsOtherwise_alterTable _ b _
    | sqlite | postgres => exact startsOtherwise_dropIndex _ n
  | foreign | primary =>
    obtain rfl := Except.ok.inj h
    cases d with
    | sqlite => cases hs
    | mysql | postgres =>
      obtain rfl := List.mem_singleton.mp hs
      exact startsOtherwise_alterTable _ b _
  | dropColumn | dropForeign | dropPrimary =>
    cases d with
    | sqlite => cases h
    | mysql | postgres =>
      obtain rfl := Except.ok.inj h
      obtain rfl := List.mem_singleton.mp hs
      exact startsOtherwise_alterTable _ b _

theorem eq_createTable_of_mem {d : Dialect} {b : Blueprint} {statements : List String}
    (h : d.grammar.compile b = .ok statements) (hs : s ∈ statements) (hc : IsCreateTable s) :
    s = d.grammar.createTable b := by
  obtain ⟨c, -, block, hblock, hmem⟩ := Spelling.exists_command_of_mem h hs
  by_cases hcreate : c = .create
  · subst hcreate
    obtain rfl := Except.ok.inj hblock
    exact List.mem_singleton.mp hmem
  · exact absurd hc (startsOtherwise_of_compileCommand hblock hcreate s hmem).not_isCreateTable

/-! ## One primary key -/

theorem sum_ofColumn (cs : List Column) :
    (cs.map (ofColumn .primary)).sum = cs.countP Column.isIncrement := by
  induction cs with
  | nil => rfl
  | cons c cs ih =>
    rw [List.map_cons, List.sum_cons, ih, List.countP_cons, Nat.add_comm]
    rfl

/-- The key clauses hold a primary key if the commands do and keys stand inside. -/
theorem counts_keyClauses (d : Dialect) (b : Blueprint) :
    Counts d.grammar.quote .primary
        ("".intercalate ((d.grammar.phrases.keyClauses b).map (", " ++ ·)))
        (if d.grammar.capabilities.inlineKeys then b.primaryKeys.head?.toList.length else 0) ∧
      Apart ("".intercalate ((d.grammar.phrases.keyClauses b).map (", " ++ ·))) := by
  have hq := isQuote_grammar d
  have hopens : Opens ", " := by decide
  have hlead : ∀ t, Apart (", " ++ t) := fun t => apart_append (by decide) (by decide)
  cases hd : d.grammar.capabilities.inlineKeys with
  | true =>
    obtain ⟨hf, ha⟩ := counts_concat (k := .primary) hq b.foreignKeys fun key _ =>
      ⟨counts_opens hq hopens (counts_foreignKeyClause hq key), hlead _⟩
    obtain ⟨hp, ha'⟩ := counts_concat (k := .primary) hq b.primaryKeys.head?.toList fun i _ =>
      ⟨counts_opens hq hopens (counts_primaryKeyClause d i), hlead _⟩
    have hforeign : (b.foreignKeys.map fun _ => KeyKind.foreign.only .primary).sum = 0 := by
      simp [KeyKind.only]
    have hprimary : (b.primaryKeys.head?.toList.map fun _ => KeyKind.primary.only .primary).sum =
        b.primaryKeys.head?.toList.length := by
      simp [KeyKind.only]
    rw [hforeign] at hf
    rw [hprimary] at hp
    have hboth := counts_append hq hf hp ha'
    rw [Nat.zero_add] at hboth
    rw [if_pos rfl, Phrases.keyClauses_inline hd, List.map_append, concat_append,
      List.map_map, List.map_map]
    exact ⟨hboth, ha.append ha'⟩
  | false =>
    rw [if_neg Bool.false_ne_true, Phrases.keyClauses_apart hd]
    exact ⟨counts_silent hq (p := "") (by decide), (by decide : Apart "")⟩

theorem counts_createTable (d : Dialect) (b : Blueprint) :
    Counts d.grammar.quote .primary (d.grammar.createTable b) (b.columns.countP Column.isIncrement
      + if d.grammar.capabilities.inlineKeys then b.primaryKeys.head?.toList.length else 0) := by
  have hq := isQuote_grammar d
  have htable := counts_opens (k := .primary) hq (p := "create table ") (by decide)
    (counts_qualified hq b.table)
  have hcolumns := counts_intercalate hq (p := ", ") (by decide) b.columns
    fun c _ => counts_columnDefinition (k := .primary) d c
  rw [sum_ofColumn] at hcolumns
  obtain ⟨hkeys, ha⟩ := counts_keyClauses d b
  have hbody := counts_join hq htable (p := " (") (by decide) hcolumns
  rw [Nat.zero_add] at hbody
  rw [createTable_eq]
  exact counts_closes hq (counts_append hq hbody hkeys ha) (by decide)

/-- The primary keys of a `create table`: one for every auto-increment column and, where keys
stand inside, one for every command that declares one. -/
def declaredPrimaryKeys (d : Dialect) (b : Blueprint) : Nat :=
  b.columns.countP Column.isIncrement
    + if d.grammar.capabilities.inlineKeys then b.primaryKeys.length else 0

/-- The rules keep commands and auto-increment columns apart, so that one of the two terms is
zero and the second at most one. Nothing bounds the first. -/
theorem declaredPrimaryKeys_le_one_iff {d : Dialect} {b : Blueprint} {g : Spelling}
    (h : g.Accepted b) :
    declaredPrimaryKeys d b ≤ 1 ↔ b.columns.countP Column.isIncrement ≤ 1 := by
  unfold declaredPrimaryKeys
  cases hkeys : b.primaryKeys with
  | nil => simp
  | cons i is =>
    have hlength := h.primaryKeys_le_one
    have hzero : b.columns.countP Column.isIncrement = 0 := by
      rw [List.countP_eq_zero]
      intro c hc
      rw [h.no_conflict (hkeys ▸ List.cons_ne_nil i is) c hc]
      exact Bool.false_ne_true
    rw [hkeys] at hlength
    split <;> omega

/-- Every `create table` of an accepted blueprint has the keyword as often as the blueprint
declares primary keys for it, which is at most once exactly as long as there is at most one
auto-increment column. -/
theorem createTable_declares_one_primaryKey_iff {d : Dialect} {b : Blueprint}
    {statements : List String} {s : String} (h : d.grammar.compile b = .ok statements)
    (hs : s ∈ statements) (hc : IsCreateTable s) :
    occurrences d.grammar.quote .primary s = some (declaredPrimaryKeys d b) ∧
      (declaredPrimaryKeys d b ≤ 1 ↔ b.columns.countP Column.isIncrement ≤ 1) := by
  have haccepted := Spelling.accepted_of_compile h
  refine ⟨?_, declaredPrimaryKeys_le_one_iff haccepted⟩
  obtain rfl := eq_createTable_of_mem h hs hc
  have hcount := counts_createTable d b
  rwa [Blueprint.head?_primaryKeys haccepted.primaryKeys_le_one] at hcount

/-- With one auto-increment column. -/
theorem one_increment_declares_one_primaryKey :
    let b : Blueprint :=
      { table := "t", columns := [.increments "a"], commands := [.create] }
    ∃ s, Dialect.sqlite.grammar.compile b = .ok [s] ∧
      occurrences Grammar.doubleQuote .primary s = some 1 := by
  intro b
  have h : Dialect.sqlite.grammar.compile b = .ok [Dialect.sqlite.grammar.createTable b] := rfl
  exact ⟨_, h, (createTable_declares_one_primaryKey_iff h List.mem_cons_self
    (isCreateTable_createTable _ _)).1⟩

/-- With two of them the rules are passed as well, and the table gets two primary keys. -/
theorem two_increments_declare_two_primaryKeys :
    let b : Blueprint :=
      { table := "t", columns := [.increments "a", .increments "b"], commands := [.create] }
    ∃ s, Dialect.sqlite.grammar.compile b = .ok [s] ∧ IsCreateTable s ∧
      occurrences Grammar.doubleQuote .primary s = some 2 :=
  ⟨_, rfl, isCreateTable_createTable _ _, counts_createTable .sqlite _⟩

/-! ## Keys inside `create table` only -/

/-- On SQLite no statement has a keyword unless it creates a table or adds a column. -/
theorem counts_sqlite {b : Blueprint} {c : Command} {block : List String}
    (h : Dialect.sqlite.grammar.compileCommand b c = .ok block) (hcreate : c ≠ .create)
    (hadd : c ≠ .add) : ∀ s ∈ block, Counts doubleQuote k s 0 := by
  have hq : IsQuote doubleQuote := by decide
  intro s hs
  cases c with
  | create => exact absurd rfl hcreate
  | add => exact absurd rfl hadd
  | foreign | primary =>
    obtain rfl := Except.ok.inj h
    cases hs
  | dropColumn | dropForeign | dropPrimary => cases h
  | rename newName =>
    obtain rfl := Except.ok.inj h
    obtain rfl := List.mem_singleton.mp hs
    exact counts_alterTable hq b (counts_opens hq (by decide) (counts_qualified hq newName))
  | dropTable | dropTableIfExists =>
    obtain rfl := Except.ok.inj h
    obtain rfl := List.mem_singleton.mp hs
    exact counts_opens hq (by decide) (counts_qualified hq b.table)
  | unique i =>
    obtain rfl := Except.ok.inj h
    obtain rfl := List.mem_singleton.mp hs
    exact counts_createIndex hq (by decide) b i
  | index i =>
    obtain rfl := Except.ok.inj h
    obtain rfl := List.mem_singleton.mp hs
    exact counts_createIndex hq (by decide) b i
  | dropUnique n | dropIndex n =>
    obtain rfl := Except.ok.inj h
    obtain rfl := List.mem_singleton.mp hs
    exact counts_opens hq (by decide) (counts_segment hq n)

/-- A statement that declares a key of either kind. -/
def DeclaresKey (q : Char) (s : String) : Prop := ∃ k n, occurrences q k s = some n ∧ 0 < n

theorem not_declaresKey {q : Char} {s : String} (h : ∀ k, Counts q k s 0) : ¬ DeclaresKey q s := by
  rintro ⟨k, n, hn, hpos⟩
  obtain rfl := Option.some.inj (hn.symm.trans (h k))
  exact absurd hpos (Nat.lt_irrefl 0)

theorem mem_add_sqlite {b : Blueprint} {s : String} :
    s ∈ Dialect.sqlite.grammar.add b ↔
      ∃ c ∈ b.columns, Dialect.sqlite.grammar.addColumn b c = s := by
  rw [add_oneByOne rfl, List.mem_map]

theorem declaresKey_addColumn_iff {d : Dialect} {b : Blueprint} {c : Column} :
    DeclaresKey d.grammar.quote (d.grammar.addColumn b c) ↔ c.isIncrement = true := by
  constructor
  · intro h
    by_contra hno
    refine not_declaresKey (fun k => ?_) h
    have hzero : ofColumn k c = 0 := if_neg hno
    rw [← hzero]
    exact counts_addColumn d b c
  · intro hincrement
    have hone : ofColumn .primary c = 1 := if_pos hincrement
    exact ⟨.primary, _, counts_addColumn d b c, hone ▸ Nat.one_pos⟩

/-- The statements of an accepted blueprint declare keys in `create table` only, as SQLite
demands, exactly unless an auto-increment column is added to a table that exists. -/
theorem keys_declared_in_createTable_iff {b : Blueprint} {statements : List String}
    (h : Dialect.sqlite.grammar.compile b = .ok statements) :
    (∀ s ∈ statements, DeclaresKey doubleQuote s → IsCreateTable s) ↔
      ¬ (Command.add ∈ b.commands ∧ ∃ c ∈ b.columns, c.isIncrement = true) := by
  constructor
  · rintro hall ⟨hadd, c, hc, hincrement⟩
    obtain ⟨block, hblock, hmem⟩ := Spelling.exists_block_of_mem h hadd
    obtain rfl := Except.ok.inj hblock
    have hs := hmem _ (mem_add_sqlite.mpr ⟨c, hc, rfl⟩)
    have hdeclares := (declaresKey_addColumn_iff (d := .sqlite) (b := b)).mpr hincrement
    exact (startsOtherwise_addColumn _ b c).not_isCreateTable (hall _ hs hdeclares)
  · intro hno s hs hdeclares
    obtain ⟨c, hc, block, hblock, hmem⟩ := Spelling.exists_command_of_mem h hs
    by_cases hcreate : c = .create
    · subst hcreate
      obtain rfl := Except.ok.inj hblock
      obtain rfl := List.mem_singleton.mp hmem
      exact isCreateTable_createTable _ b
    by_cases hadd : c = .add
    · subst hadd
      obtain rfl := Except.ok.inj hblock
      obtain ⟨column, hcolumn, rfl⟩ := mem_add_sqlite.mp hmem
      have hincrement := (declaresKey_addColumn_iff (d := .sqlite) (b := b)).mp hdeclares
      exact absurd ⟨hc, column, hcolumn, hincrement⟩ hno
    · exact absurd hdeclares (not_declaresKey fun k => counts_sqlite hblock hcreate hadd s hmem)

/-- A table that is created with an auto-increment column declares its key there. -/
theorem created_increment_declared_in_createTable :
    let b : Blueprint :=
      { table := "t", columns := [.increments "id"], commands := [.create] }
    ∃ s, Dialect.sqlite.grammar.compile b = .ok [s] ∧ DeclaresKey doubleQuote s ∧
      IsCreateTable s := by
  intro b
  have h : Dialect.sqlite.grammar.compile b = .ok [Dialect.sqlite.grammar.createTable b] := rfl
  have hno : ¬ (Command.add ∈ b.commands ∧ ∃ c ∈ b.columns, c.isIncrement = true) := by decide
  have hdeclares : DeclaresKey doubleQuote (Dialect.sqlite.grammar.createTable b) :=
    ⟨.primary, _, counts_createTable .sqlite b, Nat.one_pos⟩
  exact ⟨_, h, hdeclares,
    (keys_declared_in_createTable_iff h).mpr hno _ List.mem_cons_self hdeclares⟩

/-- The rules let an auto-increment column be added, and its statement declares a primary key
without creating a table. -/
theorem added_increment_declared_elsewhere :
    let b : Blueprint :=
      { table := "t", columns := [.increments "id"], commands := [.add] }
    ∃ s, Dialect.sqlite.grammar.compile b = .ok [s] ∧ DeclaresKey doubleQuote s ∧
      ¬ IsCreateTable s := by
  intro b
  have h : Dialect.sqlite.grammar.compile b =
      .ok [Dialect.sqlite.grammar.addColumn b (.increments "id")] := rfl
  have hdeclares := (declaresKey_addColumn_iff (d := .sqlite) (b := b) (c := .increments "id")).mpr rfl
  exact ⟨_, h, hdeclares, (startsOtherwise_addColumn _ b _).not_isCreateTable⟩

end Schemata.Keys
