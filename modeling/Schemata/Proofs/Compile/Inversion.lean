import Schemata.Compile
import Schemata.Proofs.Results

/-!
# What a successful compilation says

A blueprint compiles when it breaks no rule and every command compiles; the statements are
those of the commands, one block after the other. `Accepted` spells out what it means to
break no rule. Nothing here depends on the spelling.
-/
namespace Schemata

theorem exists_right_of_mem {α β : Type} {R : α → β → Prop} {xs : List α} {ys : List β}
    (h : List.Forall₂ R xs ys) {x : α} (hx : x ∈ xs) : ∃ y ∈ ys, R x y := by
  induction h with
  | nil => cases hx
  | cons hr _ ih =>
    rcases List.mem_cons.mp hx with rfl | hx
    · exact ⟨_, List.mem_cons_self, hr⟩
    · obtain ⟨y, hy, hr'⟩ := ih hx
      exact ⟨y, List.mem_cons_of_mem _ hy, hr'⟩

theorem Command.foreign?_eq_some {c : Command} {k : ForeignKey} :
    c.foreign? = some k ↔ c = .foreign k := by
  cases c <;> simp [foreign?]

theorem Command.primary?_eq_some {c : Command} {i : Index} :
    c.primary? = some i ↔ c = .primary i := by
  cases c <;> simp [primary?]

theorem Blueprint.head?_primaryKeys {b : Blueprint} (h : b.primaryKeys.length ≤ 1) :
    b.primaryKeys.head?.toList = b.primaryKeys := by
  cases hkeys : b.primaryKeys with
  | nil => rfl
  | cons i is =>
    rw [hkeys, List.length_cons] at h
    have hnil : is = [] := List.length_eq_zero_iff.mp (by omega)
    rw [hnil, List.head?_cons, Option.toList_some]

namespace Spelling

variable {g : Spelling} {b : Blueprint} {statements : List String}

/-- No rule is broken. -/
structure Accepted (g : Spelling) (b : Blueprint) : Prop where
  primaryKeys_le_one : b.primaryKeys.length ≤ 1
  no_conflict : b.primaryKeys ≠ [] → ∀ c ∈ b.columns, c.isIncrement = false
  no_emptyEnum : ∀ c ∈ b.columns, c.type ≠ .enum []
  creates_keys : g.capabilities.inlineKeys = true → b.createsTable = false →
    ∀ c ∈ b.commands, c.declaresKey = false
  has_columns : ∀ c ∈ b.commands, lacksColumns b c = false

theorem duplicatePrimaryKey?_eq_none :
    g.duplicatePrimaryKey? b = none ↔ b.primaryKeys.length ≤ 1 := by
  unfold duplicatePrimaryKey?
  split
  · simp only [reduceCtorEq, false_iff]
    omega
  · simp only [true_iff]
    omega

theorem conflictingPrimaryKey?_eq_none :
    g.conflictingPrimaryKey? b = none ↔
      (b.primaryKeys ≠ [] → ∀ c ∈ b.columns, c.isIncrement = false) := by
  unfold conflictingPrimaryKey?
  split
  · rename_i h
    simp [List.isEmpty_iff.mp h]
  · rename_i h
    have hne : b.primaryKeys ≠ [] := by simpa [List.isEmpty_iff] using h
    simp [hne]

theorem emptyEnum?_eq_none : emptyEnum? b = none ↔ ∀ c ∈ b.columns, c.type ≠ .enum [] := by
  simp [emptyEnum?]

theorem strayKey?_eq_none :
    g.strayKey? b = none ↔ (g.capabilities.inlineKeys = true → b.createsTable = false →
      ∀ c ∈ b.commands, c.declaresKey = false) := by
  unfold strayKey?
  cases g.capabilities.inlineKeys <;> cases b.createsTable <;> simp

theorem emptyColumns?_eq_none :
    emptyColumns? b = none ↔ ∀ c ∈ b.commands, lacksColumns b c = false := by
  simp [emptyColumns?]

theorem violation?_eq_none : g.violation? b = none ↔ g.Accepted b := by
  simp only [violation?, Option.or_eq_none_iff, duplicatePrimaryKey?_eq_none,
    conflictingPrimaryKey?_eq_none, emptyEnum?_eq_none, strayKey?_eq_none, emptyColumns?_eq_none]
  exact ⟨fun ⟨h₁, h₂, h₃, h₄, h₅⟩ => ⟨h₁, h₂, h₃, h₄, h₅⟩,
    fun h => ⟨h.1, h.2, h.3, h.4, h.5⟩⟩

/-- The statements are the blocks of the commands, in order. -/
theorem compile_eq_ok :
    g.compile b = .ok statements ↔ g.Accepted b ∧
      ∃ blocks, List.Forall₂ (fun c block => g.compileCommand b c = .ok block) b.commands blocks ∧
        statements = blocks.flatten := by
  rw [← violation?_eq_none]
  unfold compile
  cases hv : g.violation? b with
  | some e =>
    refine ⟨fun h => (nomatch h), ?_⟩
    rintro ⟨h, -⟩
    cases h
  | none =>
    simp only [true_and, ← mapM_eq_ok]
    rw [map_eq_ok]
    simp only [eq_comm]

theorem accepted_of_compile (h : g.compile b = .ok statements) : g.Accepted b :=
  (compile_eq_ok.mp h).1

/-- Every statement is one of some command. -/
theorem exists_command_of_mem (h : g.compile b = .ok statements) {s : String}
    (hs : s ∈ statements) :
    ∃ c ∈ b.commands, ∃ block, g.compileCommand b c = .ok block ∧ s ∈ block := by
  obtain ⟨-, blocks, hblocks, rfl⟩ := compile_eq_ok.mp h
  obtain ⟨block, hblock, hmem⟩ := List.mem_flatten.mp hs
  obtain ⟨c, hc, hcompiles⟩ := exists_right_of_mem hblocks.flip hblock
  exact ⟨c, hc, block, hcompiles, hmem⟩

/-- Every command has its statements among all. -/
theorem exists_block_of_mem (h : g.compile b = .ok statements) {c : Command}
    (hc : c ∈ b.commands) :
    ∃ block, g.compileCommand b c = .ok block ∧ ∀ s ∈ block, s ∈ statements := by
  obtain ⟨-, blocks, hblocks, rfl⟩ := compile_eq_ok.mp h
  obtain ⟨block, hblock, hcompiles⟩ := exists_right_of_mem hblocks hc
  exact ⟨block, hcompiles, fun s hs => List.mem_flatten.mpr ⟨block, hblock, hs⟩⟩

end Spelling

end Schemata
