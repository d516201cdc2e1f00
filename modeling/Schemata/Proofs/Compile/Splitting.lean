import Schemata.Proofs.Compile.Rules

/-!
# Migrations in parts

On MySQL and PostgreSQL every command has one statement, and it reads the table and the columns
but not the commands beside it. Of the rules that a blueprint has to keep only the one on the
number of primary keys counts over the whole list of commands; the others look at one command,
at one column, or ask whether there is a primary key at all. So a list of commands may be cut
anywhere and its parts compiled one after the other, as long as the parts together declare no
second primary key.
-/
namespace Schemata

section Lists

variable {α β ε : Type} {R : α → β → Prop} {xs ys : List α} {zs : List β}

theorem forall₂_append_left_iff :
    List.Forall₂ R (xs ++ ys) zs ↔
      ∃ us vs, List.Forall₂ R xs us ∧ List.Forall₂ R ys vs ∧ zs = us ++ vs := by
  induction xs generalizing zs with
  | nil =>
    constructor
    · intro h
      exact ⟨[], zs, .nil, h, rfl⟩
    · rintro ⟨us, vs, hus, hvs, rfl⟩
      obtain rfl := List.forall₂_nil_left_iff.mp hus
      exact hvs
  | cons x xs ih =>
    rw [List.cons_append, List.forall₂_cons_left_iff]
    constructor
    · rintro ⟨z, zs, hz, hzs, rfl⟩
      obtain ⟨us, vs, hus, hvs, rfl⟩ := ih.mp hzs
      exact ⟨z :: us, vs, .cons hz hus, hvs, rfl⟩
    · rintro ⟨us, vs, hus, hvs, rfl⟩
      obtain ⟨u, rest, hu, hrest, rfl⟩ := List.forall₂_cons_left_iff.mp hus
      exact ⟨u, rest ++ vs, hu, ih.mpr ⟨rest, vs, hrest, hvs, rfl⟩, rfl⟩

/-- Where every element has a block of one, the blocks in a row are those single results. -/
theorem exists_blocks_iff {f : α → Except ε (List β)}
    (hone : ∀ x, ∃ y, f x = .ok [y]) (xs : List α) (zs : List β) :
    (∃ blocks, List.Forall₂ (fun x block => f x = .ok block) xs blocks ∧ zs = blocks.flatten) ↔
      List.Forall₂ (fun x y => f x = .ok [y]) xs zs := by
  induction xs generalizing zs with
  | nil => simp
  | cons x xs ih =>
    obtain ⟨y, hy⟩ := hone x
    simp only [List.forall₂_cons_left_iff]
    constructor
    · rintro ⟨blocks, ⟨block, rest, hblock, hrest, rfl⟩, rfl⟩
      obtain rfl := Except.ok.inj (hy.symm.trans hblock)
      exact ⟨y, rest.flatten, hy, (ih _).mp ⟨rest, hrest, rfl⟩, rfl⟩
    · rintro ⟨z, zs, hz, hzs, rfl⟩
      obtain ⟨blocks, hblocks, rfl⟩ := (ih zs).mpr hzs
      exact ⟨[z] :: blocks, ⟨[z], blocks, hz, hblocks, rfl⟩, rfl⟩

end Lists

namespace Dialect

variable {d : Dialect} {table : String} {columns : List Column} {c : Command}

/-- The command has this one statement, whatever commands the blueprint has. -/
def StatementOf (d : Dialect) (table : String) (columns : List Column) (c : Command) (s : String) :
    Prop :=
  ∀ commands, d.grammar.compileCommand ⟨table, columns, commands⟩ c = .ok [s]

theorem compileCommand_commands (hd : d ≠ .sqlite) (cs cs' : List Command) (c : Command) :
    d.grammar.compileCommand ⟨table, columns, cs⟩ c =
      d.grammar.compileCommand ⟨table, columns, cs'⟩ c := by
  cases d with
  | sqlite => exact absurd rfl hd
  | mysql | postgres => cases c <;> rfl

theorem exists_statementOf (hd : d ≠ .sqlite) (table : String) (columns : List Column)
    (c : Command) : ∃ s, d.StatementOf table columns c s := by
  have hone : ∃ s, d.grammar.compileCommand ⟨table, columns, []⟩ c = .ok [s] := by
    cases d with
    | sqlite => exact absurd rfl hd
    | mysql | postgres => cases c <;> exact ⟨_, rfl⟩
  obtain ⟨s, hs⟩ := hone
  exact ⟨s, fun commands => (compileCommand_commands hd commands [] c).trans hs⟩

theorem compileCommand_eq_singleton_iff (hd : d ≠ .sqlite) (commands : List Command) {s : String} :
    d.grammar.compileCommand ⟨table, columns, commands⟩ c = .ok [s] ↔
      d.StatementOf table columns c s := by
  constructor
  · intro h commands'
    exact (compileCommand_commands hd commands' commands c).trans h
  · intro h
    exact h commands

theorem compile_eq_ok_iff_statementOf (hd : d ≠ .sqlite) {commands : List Command}
    {statements : List String} :
    d.grammar.compile ⟨table, columns, commands⟩ = .ok statements ↔
      d.grammar.spelling.Accepted ⟨table, columns, commands⟩ ∧
        List.Forall₂ (d.StatementOf table columns) commands statements := by
  have hone : ∀ c, ∃ s, d.grammar.compileCommand ⟨table, columns, commands⟩ c = .ok [s] := by
    intro c
    obtain ⟨s, hs⟩ := exists_statementOf hd table columns c
    exact ⟨s, hs commands⟩
  have hblocks := exists_blocks_iff hone commands statements
  simp only [compileCommand_eq_singleton_iff hd] at hblocks
  rw [← hblocks]
  exact Spelling.compile_eq_ok

/-! ## The rules for two lists of commands -/

theorem lacksColumns_commands (cs cs' : List Command) (c : Command) :
    Spelling.lacksColumns ⟨table, columns, cs⟩ c =
      Spelling.lacksColumns ⟨table, columns, cs'⟩ c := by
  cases c <;> rfl

/-- Apart from the number of primary keys, two lists together keep the rules if both do. -/
theorem accepted_append_iff (hd : d ≠ .sqlite) {xs ys : List Command} :
    d.grammar.spelling.Accepted ⟨table, columns, xs ++ ys⟩ ↔
      ((xs ++ ys).filterMap Command.primary?).length ≤ 1 ∧
        d.grammar.spelling.Accepted ⟨table, columns, xs⟩ ∧
        d.grammar.spelling.Accepted ⟨table, columns, ys⟩ := by
  have hapart : d.grammar.spelling.capabilities.inlineKeys ≠ true :=
    mt (Rule.inlineKeys_iff d).mp hd
  have hkeys : ∀ cs, Blueprint.primaryKeys ⟨table, columns, cs⟩ = cs.filterMap Command.primary? :=
    fun _ => rfl
  constructor
  · intro h
    have hle := h.primaryKeys_le_one
    have hconflict := h.no_conflict
    have hcolumns := h.has_columns
    simp only [hkeys, List.filterMap_append, List.length_append] at hle hconflict
    refine ⟨by rwa [List.filterMap_append, List.length_append], ?left, ?right⟩
    case left =>
      refine ⟨Nat.le_trans (Nat.le_add_right _ _) hle, fun hne => hconflict ?_, h.no_emptyEnum,
        fun hinline => absurd hinline hapart, fun c hc => ?_⟩
      · exact List.append_ne_nil_of_left_ne_nil hne _
      · rw [lacksColumns_commands xs (xs ++ ys)]
        exact hcolumns c (List.mem_append_left ys hc)
    case right =>
      refine ⟨Nat.le_trans (Nat.le_add_left _ _) hle, fun hne => hconflict ?_, h.no_emptyEnum,
        fun hinline => absurd hinline hapart, fun c hc => ?_⟩
      · exact List.append_ne_nil_of_right_ne_nil _ hne
      · rw [lacksColumns_commands ys (xs ++ ys)]
        exact hcolumns c (List.mem_append_right xs hc)
  · rintro ⟨hle, hxs, hys⟩
    refine ⟨hle, fun hne => ?_, hxs.no_emptyEnum, fun hinline => absurd hinline hapart,
      fun c hc => ?_⟩
    · rw [hkeys, List.filterMap_append, Ne, List.append_eq_nil_iff, not_and_or] at hne
      exact hne.elim hxs.no_conflict hys.no_conflict
    · rcases List.mem_append.mp hc with hc | hc
      · rw [lacksColumns_commands (xs ++ ys) xs]
        exact hxs.has_columns c hc
      · rw [lacksColumns_commands (xs ++ ys) ys]
        exact hys.has_columns c hc

end Dialect

/-- Two lists of commands compile together exactly if they compile apart and declare one primary
key between them at most, and then to the statements of the first followed by those of the
second. Of a list that compiles every command has its one statement in its place. -/
theorem compile_in_parts {d : Dialect} (hd : d ≠ .sqlite) (table : String) (columns : List Column) :
    (∀ xs ys statements, d.grammar.compile ⟨table, columns, xs ++ ys⟩ = .ok statements ↔
      ((xs ++ ys).filterMap Command.primary?).length ≤ 1 ∧
        ∃ before after, d.grammar.compile ⟨table, columns, xs⟩ = .ok before ∧
          d.grammar.compile ⟨table, columns, ys⟩ = .ok after ∧ statements = before ++ after) ∧
    ∀ commands statements, d.grammar.compile ⟨table, columns, commands⟩ = .ok statements →
      List.Forall₂ (d.StatementOf table columns) commands statements := by
  constructor
  · intro xs ys statements
    simp only [Dialect.compile_eq_ok_iff_statementOf hd, Dialect.accepted_append_iff hd,
      forall₂_append_left_iff]
    constructor
    · rintro ⟨⟨hle, hxs, hys⟩, before, after, hbefore, hafter, rfl⟩
      exact ⟨hle, before, after, ⟨hxs, hbefore⟩, ⟨hys, hafter⟩, rfl⟩
    · rintro ⟨hle, before, after, ⟨hxs, hbefore⟩, ⟨hys, hafter⟩, rfl⟩
      exact ⟨⟨hle, hxs, hys⟩, before, after, hbefore, hafter, rfl⟩
  · intro commands statements h
    exact ((Dialect.compile_eq_ok_iff_statementOf hd).mp h).2

/-- A table is created in one migration and gets its index in the next. -/
theorem index_in_second_part :
    let columns : List Column := [.increments "id", { name := "email", type := .string 100 }]
    let xs : List Command := [.create, .unique ⟨"u", ["email"]⟩]
    let ys : List Command := [.index ⟨"i", ["id", "email"]⟩, .dropUnique "u"]
    Dialect.postgres ≠ .sqlite ∧
      ∃ before after, Dialect.postgres.grammar.compile ⟨"t", columns, xs⟩ = .ok before ∧
        Dialect.postgres.grammar.compile ⟨"t", columns, ys⟩ = .ok after ∧
        Dialect.postgres.grammar.compile ⟨"t", columns, xs ++ ys⟩ = .ok (before ++ after) :=
  ⟨by decide, _, _, rfl, rfl,
    ((compile_in_parts (by decide) "t" _).1 _ _ _).mpr ⟨by decide, _, _, rfl, rfl, rfl⟩⟩

/-- Either part has a primary key, and together they have one too many. -/
example :
    let columns : List Column := [{ name := "a", type := .text }]
    let xs : List Command := [.create, .primary ⟨"p", ["a"]⟩]
    let ys : List Command := [.primary ⟨"q", ["a"]⟩]
    Dialect.mysql.grammar.compile ⟨"t", columns, xs ++ ys⟩ =
      .error (.duplicatePrimaryKey .mysql "t") :=
  rfl

end Schemata
