import Schemata.Proofs.Keys.Declarations

/-!
# The place of every key

Three parts of the compiler have to agree on a key that a command declares: the body of
`create table`, which takes keys in where they stand inside; the statement of the command
itself, which must be missing there; and the rule that refuses such a key without a table to
create. A spelling that `KeepsKeys` gives every key one place. What it writes there outside
`create table` is its own affair: the clause of the key, where it `WritesClauses` as the
dialects do, and anything at all where it does not.
-/
namespace Schemata

/-- A key that a command declares. -/
inductive Key where
  | foreign (key : ForeignKey)
  | primary (key : Index)
  deriving DecidableEq, Repr

def Command.key? : Command → Option Key
  | .foreign key => some (.foreign key)
  | .primary key => some (.primary key)
  | _ => none

theorem Command.key?_eq_none_iff {c : Command} : c.key? = none ↔ c.declaresKey = false := by
  cases c <;> simp [key?, declaresKey]

def Phrases.keyClause (p : Phrases) : Key → String
  | .foreign key => p.foreignKeyClause key
  | .primary key => p.primaryKeyClause key

namespace Spelling

variable {g : Spelling} {b : Blueprint} {c : Command} {block : List String}

/-- The statement of a key's own command. -/
def ownStatement (g : Spelling) (b : Blueprint) : Key → Except SchemaError (Option String)
  | .foreign key => g.foreign b key
  | .primary key => g.primary b key

/-- `create table` has the usual body, and keys have statements of their own exactly where they
do not stand inside it. -/
structure KeepsKeys (g : Spelling) : Prop where
  create_eq : ∀ b, g.create b = .ok (g.createTable b)
  ownStatement_eq_none_iff : ∀ b k s, g.ownStatement b k = .ok s →
    (s = none ↔ g.capabilities.inlineKeys = true)

/-- The keys that the statements of a command are written with. -/
def carriedKeys (g : Spelling) (b : Blueprint) (c : Command) : List Key :=
  if g.capabilities.inlineKeys then
    if c = .create then b.foreignKeys.map .foreign ++ b.primaryKeys.map .primary else []
  else c.key?.toList

/-- `create table` with all column definitions and then the clauses of the given keys. -/
def tableWith (g : Spelling) (b : Blueprint) (keys : List Key) : String :=
  "create table " ++ g.table b.table ++ " (" ++ Text.commaJoin (g.columnDefinitions b)
    ++ "".intercalate (keys.map fun k => ", " ++ g.keyClause k) ++ ")"

/-- The statements of a command hold the keys that it carries, and no others. -/
structure Placed (g : Spelling) (b : Blueprint) (c : Command) (block : List String) : Prop where
  compiles : g.compileCommand b c = .ok block
  create : c = .create → block = [g.tableWith b (g.carriedKeys b c)]
  inside : g.capabilities.inlineKeys = true → ∀ k, c.key? = some k → block = []
  own : g.capabilities.inlineKeys = false → ∀ k, c.key? = some k →
    ∃ s, g.ownStatement b k = .ok (some s) ∧ block = [s]

theorem compileCommand_key {k : Key} (hk : c.key? = some k) :
    g.compileCommand b c = (g.ownStatement b k).map Option.toList := by
  cases c with
  | foreign key | primary key =>
    obtain rfl := Option.some.inj hk
    rfl
  | _ => cases hk

/-- With at most one primary key, `create table` holds the clauses of all keys it carries. -/
theorem createTable_eq_tableWith (h : b.primaryKeys.length ≤ 1) :
    g.createTable b = g.tableWith b (g.carriedKeys b .create) := by
  have hclauses : g.keyClauses b = (g.carriedKeys b .create).map g.keyClause := by
    unfold carriedKeys
    cases hd : g.capabilities.inlineKeys with
    | true =>
      rw [Phrases.keyClauses_inline hd, Blueprint.head?_primaryKeys h, if_pos rfl, if_pos rfl,
        List.map_append, List.map_map, List.map_map]
      rfl
    | false =>
      rw [Phrases.keyClauses_apart hd]
      rfl
  unfold tableWith Phrases.createTable
  rw [hclauses, List.map_map]
  rfl

theorem placed_of_compileCommand (hg : g.KeepsKeys) (hkeys : b.primaryKeys.length ≤ 1)
    (h : g.compileCommand b c = .ok block) : g.Placed b c block where
  compiles := h
  create := by
    rintro rfl
    rw [compileCommand, hg.create_eq, createTable_eq_tableWith hkeys] at h
    exact (Except.ok.inj h).symm
  inside := by
    intro hd k hk
    rw [compileCommand_key hk] at h
    obtain ⟨s, hs, rfl⟩ := map_eq_ok.mp h
    rw [(hg.ownStatement_eq_none_iff b k s hs).mpr hd]
    rfl
  own := by
    intro hd k hk
    rw [compileCommand_key hk] at h
    obtain ⟨s, hs, rfl⟩ := map_eq_ok.mp h
    cases s with
    | none =>
      have htrue := (hg.ownStatement_eq_none_iff b k none hs).mp rfl
      rw [hd] at htrue
      cases htrue
    | some s => exact ⟨s, hs, rfl⟩

/-! ## None lost, none twice -/

/-- The two lists of keys hold every key once. -/
theorem keys_perm (cs : List Command) :
    ((cs.filterMap Command.foreign?).map Key.foreign ++
      (cs.filterMap Command.primary?).map Key.primary).Perm (cs.filterMap Command.key?) := by
  induction cs with
  | nil => exact .nil
  | cons c cs ih =>
    cases c with
    | foreign key => exact ih.cons _
    | primary key => exact List.perm_middle.trans (ih.cons _)
    | _ => exact ih

theorem flatMap_create (keys : List Key) (cs : List Command) :
    (cs.flatMap fun c => if c = .create then keys else []) =
      (List.replicate (cs.count .create) keys).flatten := by
  induction cs with
  | nil => rfl
  | cons c cs ih =>
    rw [List.flatMap_cons, ih]
    by_cases hc : c = .create
    · rw [if_pos hc, hc, List.count_cons_self, List.replicate_succ, List.flatten_cons]
    · rw [if_neg hc, List.count_cons_of_ne hc, List.nil_append]

/-- Where keys stand inside and none may be without a table, the one `create table` carries
them all; elsewhere every command carries its own. -/
theorem carriedKeys_perm (haccepted : g.Accepted b) (hone : b.commands.count .create ≤ 1) :
    (b.commands.flatMap (g.carriedKeys b)).Perm (b.commands.filterMap Command.key?) := by
  unfold carriedKeys
  cases hd : g.capabilities.inlineKeys with
  | true =>
    simp only [↓reduceIte]
    rw [flatMap_create]
    by_cases hzero : b.commands.count .create = 0
    · have hcreates : b.createsTable = false := by
        simpa [Blueprint.createsTable] using List.count_eq_zero.mp hzero
      have hnone : b.commands.filterMap Command.key? = [] := by
        rw [List.filterMap_eq_nil_iff]
        intro c hc
        exact Command.key?_eq_none_iff.mpr (haccepted.creates_keys hd hcreates c hc)
      rw [hzero, hnone]
      exact .nil
    · have hcount : b.commands.count .create = 1 := by omega
      rw [hcount, List.replicate_one, List.flatten_singleton]
      exact keys_perm b.commands
  | false =>
    simp only [Bool.false_eq_true, ↓reduceIte]
    rw [← List.filterMap_eq_flatMap_toList]

/-- What a spelling adds to `KeepsKeys` whose texts can be read: the statement of a key ends in
the key's clause and has no other, and no statement but `create table` depends on the commands. -/
structure WritesClauses (g : Spelling) (q : Char) : Prop where
  own : ∀ b k s, g.ownStatement b k = .ok (some s) →
    ∃ head, s = head ++ g.keyClause k ∧ ∀ kind, Keys.occurrences q kind head = some 0
  others : ∀ b c commands, c ≠ .create →
    g.compileCommand { b with commands } c = g.compileCommand b c

/-- Outside `create table` the clause of a key is written by the key's own command, once, and by
no other: what another command is written as is the same whatever keys there are. -/
structure WrittenOnce (g : Spelling) (q : Char) (b : Blueprint) (c : Command)
    (block : List String) : Prop where
  own : g.capabilities.inlineKeys = false → ∀ k, c.key? = some k →
    ∃ head, block = [head ++ g.keyClause k] ∧ ∀ kind, Keys.occurrences q kind head = some 0
  others : c ≠ .create → ∀ commands, g.compileCommand { b with commands } c = .ok block

theorem Placed.writtenOnce {q : Char} (h : g.Placed b c block) (hw : g.WritesClauses q) :
    g.WrittenOnce q b c block where
  own := by
    intro hd k hk
    obtain ⟨s, hs, rfl⟩ := h.own hd k hk
    obtain ⟨head, rfl, hhead⟩ := hw.own b k s hs
    exact ⟨head, rfl, hhead⟩
  others := fun hc commands => (hw.others b c commands hc).trans h.compiles

end Spelling

namespace Keys

open Quoting Grammar

theorem keepsKeys_dialect (d : Dialect) : d.grammar.spelling.KeepsKeys where
  create_eq _ := rfl
  ownStatement_eq_none_iff := by
    intro b k s h
    cases k with
    | foreign key | primary key =>
      obtain rfl := Except.ok.inj h
      cases d with
      | sqlite => exact ⟨fun _ => rfl, fun _ => rfl⟩
      | mysql | postgres => exact ⟨fun h => (nomatch h), fun h => (nomatch h)⟩

theorem counts_constraintHead {q : Char} (hq : IsQuote q) (b : Blueprint) (n : String)
    (kind : KeyKind) :
    Counts q kind (alterTable q b ("add constraint " ++ Identifier.segment q n ++ " ")) 0 := by
  have hname := counts_opens (k := kind) hq (p := "add constraint ") (by decide)
    (counts_segment hq n)
  exact counts_alterTable hq b (counts_closes hq hname (by decide))

theorem alterTable_append (q : Char) (b : Blueprint) (s t : String) :
    alterTable q b (s ++ t) = alterTable q b s ++ t := by
  simp only [alterTable, String.append_assoc]

theorem addPrimaryKey_eq (q : Char) (b : Blueprint) (columns : String) :
    alterTable q b ("add primary key (" ++ columns ++ ")") =
      alterTable q b "add " ++ ("primary key (" ++ columns ++ ")") := by
  have hsplit : "add primary key (" = "add " ++ "primary key (" := by decide
  rw [hsplit, ← alterTable_append]
  simp only [String.append_assoc]

theorem addConstraint_primaryKey_eq (b : Blueprint) (i : Index) :
    addConstraint "primary key" b i =
      alterTable doubleQuote b ("add constraint " ++ Identifier.segment doubleQuote i.name ++ " ")
        ++ ("primary key (" ++ Identifier.list doubleQuote i.columns ++ ")") := by
  have hsplit : "primary key (" = "primary key" ++ " (" := by decide
  rw [← alterTable_append, hsplit]
  simp only [addConstraint, String.append_assoc]

theorem writesClauses_dialect (d : Dialect) :
    d.grammar.spelling.WritesClauses d.grammar.quote where
  own := by
    intro b k s h
    have hq := isQuote_grammar d
    cases k with
    | foreign key =>
      cases d with
      | sqlite => cases h
      | mysql | postgres =>
        obtain rfl := Option.some.inj (Except.ok.inj h)
        exact ⟨_, alterTable_append _ b _ _, counts_constraintHead hq b key.name⟩
    | primary key =>
      cases d with
      | sqlite => cases h
      | mysql =>
        obtain rfl := Option.some.inj (Except.ok.inj h)
        refine ⟨_, addPrimaryKey_eq _ b _, fun kind => ?_⟩
        exact counts_alterTable hq b (counts_silent hq (by decide))
      | postgres =>
        obtain rfl := Option.some.inj (Except.ok.inj h)
        exact ⟨_, addConstraint_primaryKey_eq b key, counts_constraintHead hq b key.name⟩
  others := by
    intro b c commands hc
    cases c with
    | create => exact absurd rfl hc
    | _ => cases d <;> rfl

/-- For every spelling that keeps keys and every blueprint with at most one `create`, the keys that
the commands carry are the keys that they declare, each as often as it is declared. Where keys
stand inside `create table`, that statement holds the clauses of all of them, foreign keys first
and in order, and the commands of keys have no statements; elsewhere it holds the columns alone,
and every such command has one statement in its place. That the statement has the clause is not
for `KeepsKeys` to say; where the spelling also writes clauses, it ends in the clause and has no
other. The dialects do both, so with them no key is lost and none is written twice. -/
theorem keys_placed_once :
    (∀ d : Dialect, d.grammar.spelling.KeepsKeys ∧
      d.grammar.spelling.WritesClauses d.grammar.quote) ∧
    ∀ (g : Spelling) (b : Blueprint) (statements : List String), g.KeepsKeys →
      b.commands.count .create ≤ 1 → g.compile b = .ok statements →
        ∃ blocks, statements = blocks.flatten ∧
          List.Forall₂ (g.Placed b) b.commands blocks ∧
          (b.commands.flatMap (g.carriedKeys b)).Perm (b.commands.filterMap Command.key?) ∧
          b.primaryKeys.length ≤ 1 ∧
          ∀ q, g.WritesClauses q → List.Forall₂ (g.WrittenOnce q b) b.commands blocks := by
  refine ⟨fun d => ⟨keepsKeys_dialect d, writesClauses_dialect d⟩, ?_⟩
  intro g b statements hg hone h
  obtain ⟨haccepted, blocks, hblocks, rfl⟩ := Spelling.compile_eq_ok.mp h
  have hkeys := haccepted.primaryKeys_le_one
  have hplaced : List.Forall₂ (g.Placed b) b.commands blocks :=
    hblocks.imp fun c block hblock => Spelling.placed_of_compileCommand hg hkeys hblock
  refine ⟨blocks, rfl, hplaced, Spelling.carriedKeys_perm haccepted hone, hkeys, ?_⟩
  intro q hw
  exact hplaced.imp fun c block hblock => hblock.writtenOnce hw

/-- Keys on both sides of the `create`: one dialect takes both in, the other gives each a statement
that ends in its clause. -/
theorem keys_around_create_placed_once :
    let b : Blueprint :=
      { table := "t", columns := [{ name := "a", type := .text }],
        commands := [.primary ⟨"p", ["a"]⟩, .create, .foreign ⟨"f", ["a"], "u", ["b"], none, none⟩] }
    (∃ blocks, Dialect.sqlite.grammar.compile b = .ok blocks.flatten ∧
      List.Forall₂ (Dialect.sqlite.grammar.spelling.Placed b) b.commands blocks ∧
      (b.commands.flatMap (Dialect.sqlite.grammar.spelling.carriedKeys b)).Perm
        (b.commands.filterMap Command.key?) ∧
      b.primaryKeys.length ≤ 1) ∧
    ∃ blocks, Dialect.mysql.grammar.compile b = .ok blocks.flatten ∧
      List.Forall₂ (Dialect.mysql.grammar.spelling.Placed b) b.commands blocks ∧
      List.Forall₂ (Dialect.mysql.grammar.spelling.WrittenOnce backtick b) b.commands blocks := by
  intro b
  have hsqlite : Dialect.sqlite.grammar.compile b =
      .ok [Dialect.sqlite.grammar.createTable b] := rfl
  have hmysql : ∃ statements, Dialect.mysql.grammar.compile b = .ok statements := ⟨_, rfl⟩
  obtain ⟨statements, hmysql⟩ := hmysql
  obtain ⟨blocks, hblocks, hplaced, hperm, hle, -⟩ :=
    keys_placed_once.2 _ b _ (keys_placed_once.1 .sqlite).1 (by decide) hsqlite
  obtain ⟨blocks', hblocks', hplaced', -, -, hwritten⟩ :=
    keys_placed_once.2 _ b _ (keys_placed_once.1 .mysql).1 (by decide) hmysql
  refine ⟨⟨blocks, by rw [hsqlite, hblocks], hplaced, hperm, hle⟩, blocks', ?_, hplaced', ?_⟩
  · rw [hmysql, hblocks']
  · exact hwritten backtick (keys_placed_once.1 .mysql).2

/-- A spelling that keeps keys and does not write clauses: the command of the foreign key has one
statement in its place, and the clause of the key is in no statement. -/
theorem statement_of_key_without_clause :
    let g : Spelling :=
      { Dialect.mysql.grammar.spelling with foreign := fun _ _ => .ok (some "select 1") }
    let key : ForeignKey := ⟨"f", ["a"], "u", ["b"], none, none⟩
    let b : Blueprint :=
      { table := "t", columns := [{ name := "a", type := .text }],
        commands := [.create, .foreign key] }
    let statements := ["create table `t` (`a` text not null)", "select 1"]
    g.KeepsKeys ∧ g.compile b = .ok statements ∧
      g.foreignKeyClause key = "foreign key (`a`) references `u` (`b`)" ∧
      ∀ s ∈ statements, ¬ (g.foreignKeyClause key).toList <:+: s.toList := by
  have hkeeps : Spelling.KeepsKeys
      { Dialect.mysql.grammar.spelling with foreign := fun _ _ => .ok (some "select 1") } := by
    refine ⟨fun _ => rfl, ?_⟩
    rintro b (key | key) s h
    all_goals
      obtain rfl := Except.ok.inj h
      exact ⟨fun h => (nomatch h), fun h => (nomatch h)⟩
  exact ⟨hkeeps, by decide +kernel, by decide +kernel, by decide +kernel⟩

end Keys

end Schemata
