import Schemata.Proofs.Compile.Inversion

/-!
# Which error is reported

What may be wrong with a blueprint is listed here without the compiler: six rules in the order
of their rank, each with the error that it reports. Five of them concern the blueprint as a
whole. The last is met command by command, when statements are already being written, so it
must never hide one of the others, wherever the commands stand.

The compiler reports the first rule that is broken, and it compiles what breaks none.
-/
namespace Schemata

section FirstOf

variable {α β ε : Type} {p : α → Prop} {x y : α} {xs : List α}

/-- `x` is the first element of the list with the property. -/
def FirstOf (p : α → Prop) (xs : List α) (x : α) : Prop :=
  ∃ before after, xs = before ++ x :: after ∧ p x ∧ ∀ y ∈ before, ¬ p y

theorem FirstOf.holds (h : FirstOf p xs x) : p x := h.choose_spec.choose_spec.2.1

theorem not_firstOf_nil : ¬ FirstOf p [] x := by
  rintro ⟨before, after, h, -⟩
  exact absurd h.symm (List.append_ne_nil_of_right_ne_nil _ (List.cons_ne_nil x after))

theorem firstOf_cons : FirstOf p (x :: xs) y ↔ p x ∧ y = x ∨ ¬ p x ∧ FirstOf p xs y := by
  constructor
  · rintro ⟨before, after, h, hy, hbefore⟩
    cases before with
    | nil =>
      obtain ⟨rfl, -⟩ := List.cons.inj h
      exact .inl ⟨hy, rfl⟩
    | cons z before =>
      obtain ⟨rfl, rfl⟩ := List.cons.inj h
      exact .inr ⟨hbefore x List.mem_cons_self, before, after, rfl, hy,
        fun w hw => hbefore w (List.mem_cons_of_mem x hw)⟩
  · rintro (⟨hx, rfl⟩ | ⟨hx, before, after, rfl, hy, hbefore⟩)
    · exact ⟨[], xs, rfl, hx, fun z hz => (nomatch hz)⟩
    · refine ⟨x :: before, after, rfl, hy, fun z hz => ?_⟩
      rcases List.mem_cons.mp hz with rfl | hz
      · exact hx
      · exact hbefore z hz

theorem find?_eq_some_iff_firstOf {q : α → Bool} (h : ∀ x, q x = true ↔ p x) :
    xs.find? q = some x ↔ FirstOf p xs x := by
  induction xs with
  | nil => exact ⟨fun hx => (nomatch hx), fun hx => absurd hx not_firstOf_nil⟩
  | cons y ys ih =>
    rw [firstOf_cons, ← ih, ← h y]
    cases hy : q y with
    | true => simp [List.find?_cons_of_pos hy, eq_comm]
    | false => simp [List.find?_cons_of_neg (p := q) (by simp [hy] : ¬ q y = true)]

/-- What is said of the first element with a property. -/
theorem map_find?_eq_some {q : α → Bool} (h : ∀ x, q x = true ↔ p x) {f : α → β} {z : β} :
    (xs.find? q).map f = some z ↔ ∃ x, FirstOf p xs x ∧ z = f x := by
  simp only [Option.map_eq_some_iff, find?_eq_some_iff_firstOf h, eq_comm]

/-- A traversal fails with the error of the first element that has one. -/
theorem mapM_eq_error {f : α → Except ε β} {e : ε} :
    xs.mapM f = .error e ↔ ∃ x, FirstOf (fun x => ∃ e, f x = .error e) xs x ∧ f x = .error e := by
  induction xs with
  | nil =>
    refine ⟨fun h => (nomatch h), ?_⟩
    rintro ⟨x, hx, -⟩
    exact absurd hx not_firstOf_nil
  | cons x xs ih =>
    rw [List.mapM_cons]
    simp only [firstOf_cons]
    cases hx : f x with
    | error e' =>
      constructor
      · intro h
        obtain rfl := Except.error.inj h
        exact ⟨x, .inl ⟨⟨e', rfl⟩, rfl⟩, hx⟩
      · rintro ⟨y, ⟨-, rfl⟩ | ⟨hno, -⟩, hy⟩
        · obtain rfl := Except.error.inj (hx.symm.trans hy)
          rfl
        · exact absurd ⟨e', rfl⟩ hno
    | ok z =>
      have hno : ¬ ∃ e, (Except.ok z : Except ε β) = .error e := fun ⟨_, h⟩ => (nomatch h)
      simp only [hno, false_and, not_false_eq_true, true_and, false_or, ← ih]
      cases xs.mapM f with
      | error e' => exact Iff.rfl
      | ok zs => exact ⟨fun h => (nomatch h), fun h => (nomatch h)⟩

end FirstOf

/-! ## The rules -/

namespace Command

inductive DeclaresPrimaryKey : Command → Prop
  | primary (i : Index) : DeclaresPrimaryKey (.primary i)

inductive DeclaresKey : Command → Prop
  | primary (i : Index) : DeclaresKey (.primary i)
  | foreign (k : ForeignKey) : DeclaresKey (.foreign k)

/-- A command that is given no columns where it needs some; `create` and `add` need those of
the blueprint. -/
inductive LacksColumns (b : Blueprint) : Command → Prop
  | create : b.columns = [] → LacksColumns b .create
  | add : b.columns = [] → LacksColumns b .add
  | dropColumn : LacksColumns b (.dropColumn [])
  | unique (name : String) : LacksColumns b (.unique ⟨name, []⟩)
  | index (name : String) : LacksColumns b (.index ⟨name, []⟩)
  | primary (name : String) : LacksColumns b (.primary ⟨name, []⟩)
  | foreign (k : ForeignKey) : k.columns = [] ∨ k.references = [] → LacksColumns b (.foreign k)

/-- What SQLite cannot do to a table that exists. -/
inductive BeyondSqlite : Command → Prop
  | dropColumn (columns : List String) : BeyondSqlite (.dropColumn columns)
  | dropForeign (name : String) : BeyondSqlite (.dropForeign name)
  | dropPrimary (name : String) : BeyondSqlite (.dropPrimary name)

end Command

/-- What can be wrong with a blueprint. -/
inductive Rule where
  | duplicatePrimaryKey
  | conflictingPrimaryKey
  | emptyEnum
  | strayKey
  | emptyColumns
  | beyondDialect
  deriving DecidableEq, Repr

namespace Rule

/-- The rules, in the order of their rank. -/
def all : List Rule :=
  [.duplicatePrimaryKey, .conflictingPrimaryKey, .emptyEnum, .strayKey, .emptyColumns,
    .beyondDialect]

/-- The rule is broken, and this is the error that says so. -/
def Reports (d : Dialect) (b : Blueprint) : Rule → SchemaError → Prop
  | .duplicatePrimaryKey, e =>
    (∃ i j before between after,
      b.commands = before ++ .primary i :: between ++ .primary j :: after) ∧
      e = .duplicatePrimaryKey d b.table
  | .conflictingPrimaryKey, e =>
    (∃ c ∈ b.commands, c.DeclaresPrimaryKey) ∧
      ∃ c, FirstOf (fun c => c.autoIncrement = true ∧ c.type = .integer) b.columns c ∧
        e = .conflictingPrimaryKey d b.table c.name
  | .emptyEnum, e =>
    ∃ c, FirstOf (·.type = .enum []) b.columns c ∧ e = .emptyEnum b.table c.name
  | .strayKey, e =>
    d = .sqlite ∧ .create ∉ b.commands ∧
      ∃ c, FirstOf Command.DeclaresKey b.commands c ∧ e = .unsupportedOperation .sqlite c.name
  | .emptyColumns, e =>
    ∃ c, FirstOf (Command.LacksColumns b) b.commands c ∧ e = .emptyColumns c.name b.table
  | .beyondDialect, e =>
    d = .sqlite ∧
      ∃ c, FirstOf Command.BeyondSqlite b.commands c ∧ e = .unsupportedOperation .sqlite c.name

/-- The blueprint breaks the rule. -/
def Broken (d : Dialect) (b : Blueprint) (rule : Rule) : Prop := ∃ e, rule.Reports d b e

end Rule

/-! ## The compiler looks for the same -/

variable {d : Dialect} {b : Blueprint} {c : Command} {e : SchemaError}

theorem Command.declaresKey_iff : c.declaresKey = true ↔ c.DeclaresKey := by
  constructor
  · intro h
    cases c with
    | foreign k => exact .foreign k
    | primary i => exact .primary i
    | _ => cases h
  · rintro (i | k) <;> rfl

theorem lacksColumns_iff : Spelling.lacksColumns b c = true ↔ c.LacksColumns b := by
  constructor
  · intro h
    cases c with
    | create => exact .create (List.isEmpty_iff.mp h)
    | add => exact .add (List.isEmpty_iff.mp h)
    | dropColumn columns =>
      obtain rfl := List.isEmpty_iff.mp h
      exact .dropColumn
    | unique i =>
      obtain ⟨name, columns⟩ := i
      obtain rfl : columns = [] := List.isEmpty_iff.mp h
      exact .unique name
    | index i =>
      obtain ⟨name, columns⟩ := i
      obtain rfl : columns = [] := List.isEmpty_iff.mp h
      exact .index name
    | primary i =>
      obtain ⟨name, columns⟩ := i
      obtain rfl : columns = [] := List.isEmpty_iff.mp h
      exact .primary name
    | foreign k =>
      refine .foreign k ?_
      simpa [Spelling.lacksColumns] using h
    | _ => cases h
  · intro h
    cases h with
    | create h | add h => exact List.isEmpty_iff.mpr h
    | foreign k h => simpa [Spelling.lacksColumns] using h
    | _ => rfl

theorem isIncrement_iff {c : Column} :
    c.isIncrement = true ↔ c.autoIncrement = true ∧ c.type = .integer := by
  simp [Column.isIncrement]

theorem one_lt_primaryKeys_iff :
    1 < b.primaryKeys.length ↔ ∃ i j before between after,
      b.commands = before ++ .primary i :: between ++ .primary j :: after := by
  constructor
  · intro h
    unfold Blueprint.primaryKeys at h
    cases hkeys : b.commands.filterMap Command.primary? with
    | nil => simp [hkeys] at h
    | cons i keys =>
      cases keys with
      | nil => simp [hkeys] at h
      | cons j keys =>
        obtain ⟨before, c, rest, hb, -, hc, hrest⟩ := List.filterMap_eq_cons_iff.mp hkeys
        obtain ⟨between, c', after, rfl, -, hc', -⟩ := List.filterMap_eq_cons_iff.mp hrest
        obtain rfl := Command.primary?_eq_some.mp hc
        obtain rfl := Command.primary?_eq_some.mp hc'
        exact ⟨i, j, before, between, after, by simpa using hb⟩
  · rintro ⟨i, j, before, between, after, hb⟩
    simp only [Blueprint.primaryKeys, hb, List.filterMap_append, List.filterMap_cons,
      Command.primary?, List.length_append, List.length_cons]
    omega

theorem primaryKeys_ne_nil_iff :
    b.primaryKeys.isEmpty = false ↔ ∃ c ∈ b.commands, c.DeclaresPrimaryKey := by
  rw [← Bool.not_eq_true, List.isEmpty_iff, Blueprint.primaryKeys, List.filterMap_eq_nil_iff]
  constructor
  · intro h
    push Not at h
    obtain ⟨c, hc, hkey⟩ := h
    obtain ⟨i, hi⟩ := Option.ne_none_iff_exists'.mp hkey
    obtain rfl := Command.primary?_eq_some.mp hi
    exact ⟨_, hc, .primary i⟩
  · rintro ⟨c, hc, hkey⟩ h
    obtain ⟨i⟩ := hkey
    exact nomatch h _ hc

/-- Of all commands SQLite alone refuses to write some. -/
theorem compileCommand_eq_error :
    d.grammar.compileCommand b c = .error e ↔
      d = .sqlite ∧ c.BeyondSqlite ∧ e = .unsupportedOperation .sqlite c.name := by
  constructor
  · intro h
    cases c with
    | dropColumn columns =>
      cases d with
      | sqlite => exact ⟨rfl, .dropColumn columns, (Except.error.inj h).symm⟩
      | mysql | postgres => cases h
    | dropForeign name =>
      cases d with
      | sqlite => exact ⟨rfl, .dropForeign name, (Except.error.inj h).symm⟩
      | mysql | postgres => cases h
    | dropPrimary name =>
      cases d with
      | sqlite => exact ⟨rfl, .dropPrimary name, (Except.error.inj h).symm⟩
      | mysql | postgres => cases h
    | _ => cases h
  · rintro ⟨rfl, hc, rfl⟩
    cases hc <;> rfl

namespace Rule

/-- The error that the compiler finds when it looks for a breach of the rule. -/
def found? (d : Dialect) (b : Blueprint) : Rule → Option SchemaError
  | .duplicatePrimaryKey => d.grammar.spelling.duplicatePrimaryKey? b
  | .conflictingPrimaryKey => d.grammar.spelling.conflictingPrimaryKey? b
  | .emptyEnum => Spelling.emptyEnum? b
  | .strayKey => d.grammar.spelling.strayKey? b
  | .emptyColumns => Spelling.emptyColumns? b
  | .beyondDialect =>
    match b.commands.mapM (d.grammar.compileCommand b) with
    | .error e => some e
    | .ok _ => none

theorem dialect_spelling (d : Dialect) : d.grammar.spelling.dialect = d := by cases d <;> rfl

theorem inlineKeys_iff (d : Dialect) :
    d.grammar.spelling.capabilities.inlineKeys = true ↔ d = .sqlite := by
  cases d <;> decide

theorem found?_eq_some (rule : Rule) : rule.found? d b = some e ↔ rule.Reports d b e := by
  cases rule with
  | duplicatePrimaryKey =>
    simp only [found?, Reports, Spelling.duplicatePrimaryKey?, dialect_spelling,
      ← one_lt_primaryKeys_iff]
    by_cases h : 1 < b.primaryKeys.length
    · simp [h, eq_comm]
    · simp [h]
  | conflictingPrimaryKey =>
    simp only [found?, Reports, Spelling.conflictingPrimaryKey?, dialect_spelling,
      ← primaryKeys_ne_nil_iff]
    cases b.primaryKeys.isEmpty with
    | true => simp
    | false => simpa using map_find?_eq_some fun _ => isIncrement_iff
  | emptyEnum => exact map_find?_eq_some fun _ => beq_iff_eq
  | strayKey =>
    have hcreates : b.createsTable = true ↔ .create ∈ b.commands := List.contains_iff_mem
    simp only [found?, Reports, Spelling.strayKey?, ← inlineKeys_iff, ← hcreates]
    cases hinline : d.grammar.spelling.capabilities.inlineKeys with
    | false => simp
    | true =>
      obtain rfl := (inlineKeys_iff d).mp hinline
      cases b.createsTable with
      | true => simp
      | false =>
        simp only [Bool.not_false, Bool.and_true, if_true, true_and, Bool.false_eq_true,
          not_false_eq_true]
        exact map_find?_eq_some fun _ => Command.declaresKey_iff
  | emptyColumns => exact map_find?_eq_some fun _ => lacksColumns_iff
  | beyondDialect =>
    have hfails : found? d b .beyondDialect = some e ↔
        b.commands.mapM (d.grammar.compileCommand b) = .error e := by
      unfold found?
      cases b.commands.mapM (d.grammar.compileCommand b) with
      | error e' => simp
      | ok blocks => simp
    rw [hfails, mapM_eq_error]
    simp only [compileCommand_eq_error]
    by_cases hd : d = .sqlite
    · simp only [Reports, hd, true_and, exists_and_left, exists_eq, and_true]
      refine exists_congr fun c => and_congr_right fun hc => ?_
      simp only [FirstOf.holds hc, true_and]
    · simp [Reports, hd]

/-- The compiler looks for breaches in the order of the rules. -/
theorem compile_eq_error_iff_findSome? :
    d.grammar.compile b = .error e ↔ all.findSome? (found? d b) = some e := by
  have hcons : ∀ rule rest, (rule :: rest).findSome? (found? d b) =
      (found? d b rule).or (rest.findSome? (found? d b)) := by
    intro rule rest
    rw [List.findSome?_cons]
    cases found? d b rule <;> rfl
  have hall : all.findSome? (found? d b) =
      (d.grammar.spelling.violation? b).or (found? d b .beyondDialect) := by
    simp only [all, hcons, List.findSome?_nil, Option.or_none, Spelling.violation?, Option.or_assoc]
    rfl
  rw [hall]
  unfold Grammar.compile Spelling.compile
  cases d.grammar.spelling.violation? b with
  | some e' => simp
  | none =>
    unfold found?
    change (b.commands.mapM (d.grammar.compileCommand b)).map List.flatten = .error e ↔ _
    cases b.commands.mapM (d.grammar.compileCommand b) with
    | error e' => simp [Except.map]
    | ok blocks => simp [Except.map]

theorem found?_eq_none (rule : Rule) : rule.found? d b = none ↔ ¬ rule.Broken d b := by
  simp only [Broken, ← found?_eq_some, ← Option.isSome_iff_exists, Option.not_isSome_iff_eq_none]

theorem mem_all (rule : Rule) : rule ∈ all := by cases rule <;> decide

/-- A blueprint compiles exactly if no rule is broken. -/
theorem compile_eq_ok_iff :
    (∃ statements, d.grammar.compile b = .ok statements) ↔ ∀ rule, ¬ Broken d b rule := by
  have hnone : all.findSome? (found? d b) = none ↔ ∀ rule, ¬ Broken d b rule := by
    simp only [List.findSome?_eq_none_iff, found?_eq_none, mem_all, true_implies]
  rw [← hnone]
  cases hfound : all.findSome? (found? d b) with
  | some e =>
    rw [compile_eq_error_iff_findSome?.mpr hfound]
    simp
  | none =>
    cases hcompile : d.grammar.compile b with
    | error e => exact nomatch (compile_eq_error_iff_findSome?.mp hcompile).symm.trans hfound
    | ok statements => simp

end Rule

/-- The error is that of the first rule that the blueprint breaks, wherever the columns and
commands at fault stand, and without a broken rule there are statements. Two of the rules
concern SQLite only. -/
theorem compile_reports_first_broken_rule (d : Dialect) (b : Blueprint) :
    (∀ e, d.grammar.compile b = .error e ↔
      ∃ rule, FirstOf (Rule.Broken d b) Rule.all rule ∧ rule.Reports d b e) ∧
    ((∃ statements, d.grammar.compile b = .ok statements) ↔ ∀ rule, ¬ Rule.Broken d b rule) ∧
    (d ≠ .sqlite → ¬ Rule.Broken d b .strayKey ∧ ¬ Rule.Broken d b .beyondDialect) := by
  refine ⟨fun e => ?_, Rule.compile_eq_ok_iff, ?_⟩
  · rw [Rule.compile_eq_error_iff_findSome?, List.findSome?_eq_some_iff]
    simp only [FirstOf, Rule.found?_eq_some, Rule.found?_eq_none]
    constructor
    · rintro ⟨before, rule, after, hall, hreports, hbefore⟩
      exact ⟨rule, ⟨before, after, hall, ⟨e, hreports⟩, hbefore⟩, hreports⟩
    · rintro ⟨rule, ⟨before, after, hall, -, hbefore⟩, hreports⟩
      exact ⟨before, rule, after, hall, hreports, hbefore⟩
  · intro hd
    exact ⟨fun ⟨_, h, _⟩ => hd h, fun ⟨_, h, _⟩ => hd h⟩

/-- On SQLite the second command cannot be written, but the third breaks a rule of higher rank. -/
example :
    Dialect.sqlite.grammar.compile
        { table := "t", columns := [{ name := "a", type := .text }]
          commands := [.add, .dropColumn ["a"], .unique ⟨"i", []⟩] } =
      .error (.emptyColumns "unique" "t") := rfl

end Schemata
