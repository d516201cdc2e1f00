import Schemata.Compile
import Schemata.Dispatch.Session
import Schemata.Url.Basic

/-!
# Databases

A database context joins a dialect's grammar with a dispatcher over some backend. A
blueprint is run statement by statement, outside any transaction, up to the first failure.
-/
namespace Schemata

open Dispatch

structure Database where
  settings : ConnectionSettings
  dialect : Dialect
  dispatcher : Dispatcher
  deriving DecidableEq, Repr

namespace Database

/-- A computation on a backend that may fail. -/
abbrev Action (σ α : Type) := World σ → Except ClientError α × World σ

variable {σ : Type}

def log (level : Log.Level) (event : Log.Event) (w : World σ) : World σ :=
  { w with records := w.records ++ [⟨level, event⟩] }

/-- Opens a connection outside the pool and logs it. -/
def openConnection (opening : σ → Except ClientError ConnectionId × σ) : Action σ ConnectionId :=
  fun w =>
    let (answer, resources) := opening w.resources
    let w := { w with resources }
    match answer with
    | .ok c => (.ok c, log .info (.connectionOpened c) w)
    | .error e => (.error e, w)

/-- The dispatcher that the pooling setting asks for: a pool needs a URL but opens nothing yet, a
single connection is opened now. -/
def openDispatcher (opening : σ → Except ClientError ConnectionId × σ)
    (settings : ConnectionSettings) (debug : Bool) : Pooling → Action σ Dispatcher
  | .enabled bounds => fun w =>
    match Url.ofText settings.url with
    | .ok _ => (.ok ⟨.pool, debug⟩, log .info (.poolCreated bounds) w)
    | .error e => (.error (.connect ("error with configuration: " ++ e.message)), w)
  | .disabled => fun w =>
    match openConnection opening w with
    | (.ok c, w) => (.ok ⟨.single c, debug⟩, w)
    | (.error e, w) => (.error e, w)

/-- What a configuration asks for, before anything is opened. -/
def target (config : Config) : Except ConfigError (ConnectionSettings × Dialect) := do
  config.validate
  let some settings := config.connection | .error .noConnection
  let dialect ← settings.dialect
  pure (settings, dialect)

def connect (opening : σ → Except ClientError ConnectionId × σ) (config : Config) :
    Action σ Database := fun w =>
  match target config with
  | .error e => (.error (.configuration e), w)
  | .ok (settings, dialect) =>
    match openDispatcher opening settings config.debug config.pooling w with
    | (.error e, w) => (.error e, w)
    | (.ok dispatcher, w) =>
      (.ok ⟨settings, dialect, dispatcher⟩, log .info (.initialized dialect dispatcher.isPooled) w)

def init (opening : σ → Except ClientError ConnectionId × σ) (config : Config) :
    Action σ (Option Database) := fun w =>
  match config.connection with
  | none => (.ok none, log .warn .initializationSkipped w)
  | some _ =>
    match connect opening config w with
    | (.ok db, w) => (.ok (some db), w)
    | (.error e, w) => (.error e, w)

def freshWorld (resources : σ) : World σ := { resources }

variable (backend : Backend σ) (db : Database)

/-- Runs a statement through the dispatcher. -/
def execute (r : Request) : Action σ ResultSet := fun w =>
  Dispatch.execute backend db.dispatcher w r

/-- Compiles a blueprint for the target and logs that it did. -/
def compile (b : Blueprint) : Action σ (List String) := fun w =>
  match db.dialect.grammar.compile b with
  | .ok statements =>
    (.ok statements, log .debug (.compiled db.dialect b.table statements.length) w)
  | .error e => (.error (.schema e), w)

/-- Runs statements in order up to the first failure. -/
def executeAll : List String → Action σ Unit
  | [], w => (.ok (), w)
  | sql :: rest, w =>
    match db.execute backend { sql } w with
    | (.ok _, w) => executeAll rest w
    | (.error e, w) => (.error e, w)

/-- Compiles a blueprint and runs its statements; gives back the statements. -/
def runBlueprint (b : Blueprint) : Action σ (List String) := fun w =>
  match db.compile b w with
  | (.error e, w) => (.error e, w)
  | (.ok statements, w) =>
    match db.executeAll backend statements w with
    | (.ok _, w) => (.ok statements, log .debug (.applied b.table statements.length) w)
    | (.error e, w) => (.error e, w)

/-- What the query for a table is given: MySQL also asks for the schema. -/
def probeParams (table : String) : Except ConfigError (List Value) :=
  match db.dialect with
  | .mysql =>
    match db.settings.databaseName? with
    | some schema => .ok [.text schema, .text table]
    | none => .error (.noDatabase db.settings.url)
  | .sqlite | .postgres => .ok [.text table]

/-- Whether the target has a table of this name. -/
def tableExists (table : String) : Action σ Bool := fun w =>
  match db.probeParams table with
  | .error e => (.error (.configuration e), w)
  | .ok params =>
    match db.execute backend { sql := db.dialect.grammar.tableExistsSql, params } w with
    | (.ok result, w) => (.ok !result.rows.isEmpty, w)
    | (.error e, w) => (.error e, w)

/-- Closes the pool or the single connection. -/
def close : Action σ Unit := Dispatch.close backend db.dispatcher

end Database

end Schemata
