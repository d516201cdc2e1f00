import Mathlib.Data.List.Forall2
import Schemata.Database
import Schemata.Proofs.Dispatch.Journal

/-!
# Running a blueprint

The statements of a blueprint are run one by one until one fails. `Migrates` tells this along the
list of statements, with what the backend is asked for each; a step of the loop is a call on its
own, so its part of the journal is an `Exchange`.
-/
namespace Schemata.Database

open Dispatch

variable {σ : Type} {d : Dispatcher}

/-- Statements run in order up to the first failure: how that ends, and what the backend is
asked. -/
inductive Migrates (d : Dispatcher) : List String → Except ClientError Unit → Journal → Prop
  | done : Migrates d [] (.ok ()) []
  | ran {sql : String} {rest : List String} {answer : ResultSet} {result : Except ClientError Unit}
      {now later : Journal} (h : Exchange d { sql } (.ok answer) now)
      (hrest : Migrates d rest result later) : Migrates d (sql :: rest) result (now ++ later)
  | failed {sql : String} {rest : List String} {e : ClientError} {now : Journal}
      (h : Exchange d { sql } (.error e) now) : Migrates d (sql :: rest) (.error e) now

/-- Every statement has run and succeeded, in order. -/
def AllSucceed (d : Dispatcher) (statements : List String) (journal : Journal) : Prop :=
  ∃ journals,
    List.Forall₂ (fun sql now => ∃ answer, Exchange d { sql } (.ok answer) now) statements
      journals ∧
    journal = journals.flatten

theorem AllSucceed.cons {sql : String} {rest : List String} {answer : ResultSet}
    {now later : Journal} (h : Exchange d { sql } (.ok answer) now)
    (hrest : AllSucceed d rest later) : AllSucceed d (sql :: rest) (now ++ later) := by
  obtain ⟨journals, hall, rfl⟩ := hrest
  exact ⟨now :: journals, .cons ⟨answer, h⟩ hall, rfl⟩

theorem AllSucceed.statements {statements : List String} {journal : Journal}
    (h : AllSucceed d statements journal) : journal.statements = statements.map (·, []) := by
  obtain ⟨journals, hall, rfl⟩ := h
  induction hall with
  | nil => rfl
  | cons h _ ih =>
    obtain ⟨answer, h⟩ := h
    rw [List.flatten_cons, statements_append, h.statements_ok, ih]
    rfl

/-- Either all statements succeed, or one fails and those before it succeed. -/
theorem Migrates.succeeds_or_fails {statements : List String} {result : Except ClientError Unit}
    {journal : Journal} (h : Migrates d statements result journal) :
    (result = .ok () ∧ AllSucceed d statements journal) ∨
    ∃ done sql rest e before now, statements = done ++ sql :: rest ∧ result = .error e ∧
      AllSucceed d done before ∧ Exchange d { sql } (.error e) now ∧ journal = before ++ now := by
  induction h with
  | done => exact .inl ⟨rfl, [], .nil, rfl⟩
  | failed h =>
    exact .inr ⟨[], _, _, _, [], _, rfl, rfl, ⟨[], .nil, rfl⟩, h, rfl⟩
  | ran h _ ih =>
    rcases ih with ⟨rfl, hall⟩ | ⟨done, sql, rest, e, before, now, rfl, rfl, hall, hfailed, rfl⟩
    · exact .inl ⟨rfl, hall.cons h⟩
    · refine .inr ⟨_ :: done, sql, rest, e, _ ++ before, now, rfl, rfl, hall.cons h, hfailed, ?_⟩
      rw [List.append_assoc]

/-- The statements that connections are handed are the first ones of the list. -/
theorem Migrates.statements_prefix {statements : List String} {result : Except ClientError Unit}
    {journal : Journal} (h : Migrates d statements result journal) :
    journal.statements <+: statements.map (·, []) := by
  induction h with
  | done => exact List.nil_prefix
  | failed h => exact h.statements_prefix.trans (List.prefix_append _ _)
  | ran h _ ih =>
    rw [statements_append, h.statements_ok]
    exact (List.prefix_append_right_inj _).mpr ih

/-- When no statement fails, connections are handed all of them. -/
theorem Migrates.statements_ok {statements : List String} {journal : Journal}
    (h : Migrates d statements (.ok ()) journal) :
    journal.statements = statements.map (·, []) := by
  rcases h.succeeds_or_fails with ⟨-, hall⟩ | ⟨_, _, _, _, _, _, _, hfailed, _⟩
  · exact hall.statements
  · cases hfailed

section Runs

variable (backend : Backend σ) (db : Database)

theorem executeAll_journaled (statements : List String) (w : World σ) (past : Journal) :
    ∃ now, Migrates db.dispatcher statements (db.executeAll backend statements w).1 now ∧
      db.executeAll backend.journaled statements (w.keeping past) =
        ((db.executeAll backend statements w).1,
          (db.executeAll backend statements w).2.keeping (past ++ now)) := by
  induction statements generalizing w past with
  | nil => exact ⟨[], .done, by rw [List.append_nil]; rfl⟩
  | cons sql rest ih =>
    obtain ⟨now, hnow, hrun⟩ := execute_journaled backend db.dispatcher { sql } w past
    simp only [executeAll, Database.execute, hrun]
    rcases hanswer : Dispatch.execute backend db.dispatcher w { sql } with ⟨_ | answer, w'⟩ <;>
      rw [hanswer] at hnow
    · exact ⟨now, .failed hnow, rfl⟩
    · obtain ⟨later, hlater, hrest⟩ := ih w' (past ++ now)
      rw [List.append_assoc] at hrest
      exact ⟨now ++ later, .ran hnow hlater, hrest⟩

variable {db} {b : Blueprint}

theorem runBlueprint_error {e : SchemaError} (h : db.dialect.grammar.compile b = .error e)
    (w : World σ) : db.runBlueprint backend b w = (.error (.schema e), w) := by
  simp only [runBlueprint, Database.compile, h]

/-- A blueprint that compiles is run over a backend with a journal as it is over the backend. -/
theorem runBlueprint_journaled {statements : List String}
    (h : db.dialect.grammar.compile b = .ok statements) (w : World σ) (past : Journal) :
    ∃ outcome now, Migrates db.dispatcher statements outcome now ∧
      (db.runBlueprint backend b w).1 = outcome.map (fun _ => statements) ∧
      db.runBlueprint backend.journaled b (w.keeping past) =
        ((db.runBlueprint backend b w).1,
          (db.runBlueprint backend b w).2.keeping (past ++ now)) := by
  have hlog : log .debug (.compiled db.dialect b.table statements.length) (w.keeping past) =
      (log .debug (.compiled db.dialect b.table statements.length) w).keeping past := rfl
  obtain ⟨now, hmigrates, hrun⟩ := executeAll_journaled backend db statements
    (log .debug (.compiled db.dialect b.table statements.length) w) past
  simp only [runBlueprint, Database.compile, h, hlog, hrun]
  rcases hall : db.executeAll backend statements
    (log .debug (.compiled db.dialect b.table statements.length) w) with ⟨outcome, w'⟩
  rw [hall] at hmigrates
  refine ⟨outcome, now, hmigrates, ?_⟩
  cases outcome <;> exact ⟨rfl, rfl⟩

end Runs

/-! ## Opening and closing -/

/-- **A blueprint is applied as a prefix of its statements**, whatever the pool and the
connections do. If it does not compile, nothing is asked of the backend. Otherwise the statements
that connections are handed are the first ones of the compiled list, each once and without
parameters, and over a pool each under a lease of its own. They are all of them, and the result
is the compiled list, unless one fails: then its error is the result, and it is the last. -/
theorem runBlueprint_applies_prefix (backend : Backend σ) (db : Database) (b : Blueprint)
    (w : World σ) :
    ∃ journal,
      db.runBlueprint backend.journaled b (w.keeping []) =
        ((db.runBlueprint backend b w).1, (db.runBlueprint backend b w).2.keeping journal) ∧
      match db.dialect.grammar.compile b with
      | .error e => db.runBlueprint backend b w = (.error (.schema e), w) ∧ journal = []
      | .ok statements =>
        journal.statements <+: statements.map (·, []) ∧
        (((db.runBlueprint backend b w).1 = .ok statements ∧
            AllSucceed db.dispatcher statements journal ∧
            journal.statements = statements.map (·, [])) ∨
          ∃ done sql rest e before now, statements = done ++ sql :: rest ∧
            (db.runBlueprint backend b w).1 = .error e ∧
            AllSucceed db.dispatcher done before ∧
            Exchange db.dispatcher { sql } (.error e) now ∧
            journal = before ++ now) := by
  cases hcompile : db.dialect.grammar.compile b with
  | error e =>
    refine ⟨[], ?_, runBlueprint_error backend hcompile w, rfl⟩
    rw [runBlueprint_error _ hcompile, runBlueprint_error _ hcompile]
  | ok statements =>
    obtain ⟨outcome, journal, hmigrates, hresult, hrun⟩ :=
      runBlueprint_journaled backend hcompile w []
    refine ⟨journal, hrun, hmigrates.statements_prefix, ?_⟩
    rw [hresult]
    rcases hmigrates.succeeds_or_fails with ⟨rfl, hsucceed⟩ |
      ⟨done, sql, rest, e, before, now, hsplit, rfl, hrest⟩
    · exact .inl ⟨rfl, hsucceed, hsucceed.statements⟩
    · exact .inr ⟨done, sql, rest, e, before, now, hsplit, rfl, hrest⟩

/-- A pool that has one connection to give stops a migration before its second statement. -/
example :
    let backend : Backend Nat :=
      { acquireTime := fun _ => 0
        acquire := fun n => if n = 0 then (.ok 7, 1) else (.error (.poolExhausted "closed"), n)
        release := fun _ n => n
        start := fun _ _ _ n => (0, n)
        finish := fun _ _ _ n => (.ok {}, n)
        close := id
        endConnection := fun _ n => (.ok (), n) }
    let db : Database := ⟨⟨"sqlite::memory:", none⟩, .sqlite, ⟨.pool, false⟩⟩
    let b : Blueprint := { table := "old", columns := [], commands := [.rename "new", .dropTable] }
    let (result, w) := db.runBlueprint backend.journaled b { resources := (0, []) }
    result = .error (.poolExhausted "closed") ∧
      w.resources.2.statements = [("alter table \"old\" rename to \"new\"", [])] :=
  ⟨rfl, rfl⟩

end Schemata.Database
