import Schemata.Proofs.Compile.Inversion

/-!
# Where key commands stand

On SQLite the body of `create table` takes in every key, whichever command declares it, and the
commands that declare keys have no statements of their own. So it makes no difference where they
stand among the other commands, as long as foreign keys stay in order and primary keys do.

Of an error no more than the kind is kept: it may name the operation of the first command at
fault, and that can become another one.
-/
namespace Schemata

namespace SchemaError

/-- What an error says without its details. -/
inductive Kind where
  | unsupportedOperation
  | duplicatePrimaryKey
  | conflictingPrimaryKey
  | emptyEnum
  | emptyColumns
  deriving DecidableEq, Repr

def kind : SchemaError → Kind
  | unsupportedOperation _ _ => .unsupportedOperation
  | duplicatePrimaryKey _ _ => .duplicatePrimaryKey
  | conflictingPrimaryKey _ _ _ => .conflictingPrimaryKey
  | emptyEnum _ _ => .emptyEnum
  | emptyColumns _ _ => .emptyColumns

end SchemaError

section Lists

variable {α β ε : Type} {xs ys : List α}

/-- Whether something is found depends only on what there is, not on its order. -/
theorem map_find?_const (h : ∀ x, x ∈ xs ↔ x ∈ ys) (p : α → Bool) (k : β) :
    ((xs.find? p).map fun _ => k) = (ys.find? p).map fun _ => k := by
  have hsome : (xs.find? p).isSome = (ys.find? p).isSome := by
    rw [Bool.eq_iff_iff, List.find?_isSome, List.find?_isSome]
    exact exists_congr fun x => and_congr_left fun _ => h x
  cases hx : xs.find? p with
  | none =>
    rw [hx, Option.isSome_none] at hsome
    have hy : ys.find? p = none := by simpa using hsome.symm
    rw [hy]
  | some x =>
    rw [hx, Option.isSome_some] at hsome
    obtain ⟨y, hy⟩ := Option.isSome_iff_exists.mp hsome.symm
    rw [hy, Option.map_some, Option.map_some]

/-- A traversal that gathers blocks may pass over the elements that have an empty one. -/
theorem flatten_mapM_filter {f : α → Except ε (List β)} {p : α → Bool}
    (h : ∀ x, p x = false → f x = .ok []) (xs : List α) :
    ((xs.filter p).mapM f).map List.flatten = (xs.mapM f).map List.flatten := by
  induction xs with
  | nil => rfl
  | cons x xs ih =>
    cases hp : p x with
    | false =>
      rw [List.filter_cons_of_neg (by simp [hp]), ih, List.mapM_cons, h x hp]
      cases xs.mapM f <;> rfl
    | true =>
      rw [List.filter_cons_of_pos hp, List.mapM_cons, List.mapM_cons]
      cases f x with
      | error e => rfl
      | ok block =>
        revert ih
        cases (xs.filter p).mapM f <;> cases xs.mapM f <;> intro ih
        · exact ih
        · cases ih
        · cases ih
        · exact congrArg (Except.map (block ++ ·)) ih

end Lists

namespace Blueprint

variable {b b' : Blueprint}

/-- The two blueprints differ only in how the foreign keys, the primary keys and the other
commands are merged into one list. -/
structure KeysMoved (b b' : Blueprint) : Prop where
  table : b.table = b'.table
  columns : b.columns = b'.columns
  foreignKeys : b.foreignKeys = b'.foreignKeys
  primaryKeys : b.primaryKeys = b'.primaryKeys
  others : b.commands.filter (!·.declaresKey) = b'.commands.filter (!·.declaresKey)

theorem mem_foreignKeys {k : ForeignKey} : k ∈ b.foreignKeys ↔ .foreign k ∈ b.commands := by
  simp only [foreignKeys, List.mem_filterMap, Command.foreign?_eq_some, exists_eq_right]

theorem mem_primaryKeys {i : Index} : i ∈ b.primaryKeys ↔ .primary i ∈ b.commands := by
  simp only [primaryKeys, List.mem_filterMap, Command.primary?_eq_some, exists_eq_right]

namespace KeysMoved

theorem mem_iff (h : b.KeysMoved b') (c : Command) : c ∈ b.commands ↔ c ∈ b'.commands := by
  have hother : c.declaresKey = false → (c ∈ b.commands ↔ c ∈ b'.commands) := by
    intro hc
    have hfilter : ∀ cs : List Command, c ∈ cs ↔ c ∈ cs.filter (!·.declaresKey) := by
      intro cs
      rw [List.mem_filter]
      simp [hc]
    rw [hfilter, hfilter b'.commands, h.others]
  cases c with
  | foreign k => rw [← mem_foreignKeys, ← mem_foreignKeys, h.foreignKeys]
  | primary i => rw [← mem_primaryKeys, ← mem_primaryKeys, h.primaryKeys]
  | _ => exact hother rfl

theorem createsTable (h : b.KeysMoved b') : b.createsTable = b'.createsTable := by
  rw [Blueprint.createsTable, Blueprint.createsTable, Bool.eq_iff_iff, List.contains_iff_mem,
    List.contains_iff_mem, h.mem_iff]

theorem lacksColumns (h : b.KeysMoved b') (c : Command) :
    Spelling.lacksColumns b c = Spelling.lacksColumns b' c := by
  cases c with
  | create | add => simp only [Spelling.lacksColumns, h.columns]
  | _ => rfl

/-- The rules are broken alike. -/
theorem kind_violation? (h : b.KeysMoved b') (g : Grammar) :
    (g.spelling.violation? b).map SchemaError.kind =
      (g.spelling.violation? b').map SchemaError.kind := by
  have hduplicate : g.spelling.duplicatePrimaryKey? b = g.spelling.duplicatePrimaryKey? b' := by
    rw [Spelling.duplicatePrimaryKey?, Spelling.duplicatePrimaryKey?, h.primaryKeys, h.table]
  have hconflicting :
      g.spelling.conflictingPrimaryKey? b = g.spelling.conflictingPrimaryKey? b' := by
    rw [Spelling.conflictingPrimaryKey?, Spelling.conflictingPrimaryKey?, h.primaryKeys, h.columns,
      h.table]
  have henum : Spelling.emptyEnum? b = Spelling.emptyEnum? b' := by
    rw [Spelling.emptyEnum?, Spelling.emptyEnum?, h.columns, h.table]
  have hstray : (g.spelling.strayKey? b).map SchemaError.kind =
      (g.spelling.strayKey? b').map SchemaError.kind := by
    rw [Spelling.strayKey?, Spelling.strayKey?, h.createsTable]
    split
    · rw [Option.map_map, Option.map_map]
      exact map_find?_const h.mem_iff Command.declaresKey SchemaError.Kind.unsupportedOperation
    · rfl
  have hcolumns : (Spelling.emptyColumns? b).map SchemaError.kind =
      (Spelling.emptyColumns? b').map SchemaError.kind := by
    rw [Spelling.emptyColumns?, Spelling.emptyColumns?, Option.map_map, Option.map_map,
      funext h.lacksColumns]
    exact map_find?_const h.mem_iff _ SchemaError.Kind.emptyColumns
  simp only [Spelling.violation?, Option.map_or, hduplicate, hconflicting, henum, hstray, hcolumns]

/-- The keys of `create table` are read off the whole list of commands. -/
theorem keyClauses (h : b.KeysMoved b') (p : Phrases) : p.keyClauses b = p.keyClauses b' := by
  rw [Phrases.keyClauses, Phrases.keyClauses, h.foreignKeys, h.primaryKeys]

theorem compileCommand_sqlite (h : b.KeysMoved b') (c : Command) :
    Grammar.sqlite.compileCommand b c = Grammar.sqlite.compileCommand b' c := by
  have hclauses := h.keyClauses Grammar.sqlite.phrases
  obtain ⟨table, columns, commands⟩ := b
  obtain ⟨table', columns', commands'⟩ := b'
  obtain rfl : table = table' := h.table
  obtain rfl : columns = columns' := h.columns
  cases c with
  | create =>
    show Except.ok [Grammar.sqlite.createTable _] = Except.ok [Grammar.sqlite.createTable _]
    rw [Grammar.createTable_eq, Grammar.createTable_eq, hclauses]
    rfl
  | _ => rfl

/-- The statements of all commands are those of the commands that declare no key. -/
theorem flatten_mapM_sqlite (b : Blueprint) (cs : List Command) :
    ((cs.filter (!·.declaresKey)).mapM (Grammar.sqlite.compileCommand b)).map List.flatten =
      (cs.mapM (Grammar.sqlite.compileCommand b)).map List.flatten := by
  refine flatten_mapM_filter (fun c hc => ?_) cs
  cases c with
  | foreign k | primary i => rfl
  | _ => cases hc

theorem statements_sqlite (h : b.KeysMoved b') :
    (b.commands.mapM (Grammar.sqlite.compileCommand b)).map List.flatten =
      (b'.commands.mapM (Grammar.sqlite.compileCommand b')).map List.flatten := by
  rw [← flatten_mapM_sqlite, ← flatten_mapM_sqlite b', h.others, funext h.compileCommand_sqlite]

end KeysMoved

end Blueprint

/-- Key commands that stand elsewhere on SQLite leave the statements as they are, or the kind of
the error. -/
theorem compile_of_keysMoved {b b' : Blueprint} (h : b.KeysMoved b') :
    (Dialect.sqlite.grammar.compile b).mapError SchemaError.kind =
      (Dialect.sqlite.grammar.compile b').mapError SchemaError.kind := by
  have hkind := h.kind_violation? Grammar.sqlite
  have hstatements := h.statements_sqlite
  show (Grammar.sqlite.spelling.compile b).mapError SchemaError.kind =
    (Grammar.sqlite.spelling.compile b').mapError SchemaError.kind
  rw [Spelling.compile, Spelling.compile]
  cases hv : Grammar.sqlite.spelling.violation? b with
  | none =>
    rw [hv, Option.map_none, eq_comm, Option.map_eq_none_iff] at hkind
    rw [hkind]
    exact congrArg (Except.mapError SchemaError.kind) hstatements
  | some e =>
    rw [hv, Option.map_some, eq_comm] at hkind
    obtain ⟨e', hv', he⟩ := Option.map_eq_some_iff.mp hkind
    rw [hv']
    exact congrArg Except.error he.symm

/-- Keys before and behind the `create` that takes them in. -/
theorem keys_moved_around_create :
    let k : ForeignKey := { name := "f", columns := ["a"], on := "u", references := ["id"] }
    let b : Blueprint :=
      { table := "t", columns := [{ name := "a", type := .integer }]
        commands := [.foreign k, .create, .index ⟨"i", ["a"]⟩, .primary ⟨"p", ["a"]⟩] }
    let b' :=
      { b with commands := [.primary ⟨"p", ["a"]⟩, .create, .foreign k, .index ⟨"i", ["a"]⟩] }
    b.KeysMoved b' ∧ (Dialect.sqlite.grammar.compile b).mapError SchemaError.kind =
      (Dialect.sqlite.grammar.compile b').mapError SchemaError.kind :=
  ⟨⟨rfl, rfl, rfl, rfl, rfl⟩, compile_of_keysMoved ⟨rfl, rfl, rfl, rfl, rfl⟩⟩

/-- Both commands lack columns, and the error names the first of them. -/
example :
    let b : Blueprint :=
      { table := "t", columns := [{ name := "a", type := .text }]
        commands := [.create, .primary ⟨"p", []⟩, .unique ⟨"u", []⟩] }
    Dialect.sqlite.grammar.compile b = .error (.emptyColumns "primary" "t") ∧
      Dialect.sqlite.grammar.compile
          { b with commands := [.create, .unique ⟨"u", []⟩, .primary ⟨"p", []⟩] } =
        .error (.emptyColumns "unique" "t") :=
  ⟨rfl, rfl⟩

end Schemata
