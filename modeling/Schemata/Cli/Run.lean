import Schemata.Blueprint.Document
import Schemata.Cli.Arguments
import Schemata.Config.Document
import Schemata.Database
import Schemata.Json.Writer
import Schemata.Memory.Servers
import Schemata.Value.Literal

/-!
# Running a command

What a command prints and how it ends, given the files it may read. The configuration is
loaded before anything else, and log lines stand among the printed lines in the order in which
they arise.
-/
namespace Schemata.Cli

open Dispatch Memory

/-- Why a command fails, as reported on its outermost level. -/
inductive Failure where
  | configFile (path : String)
  | blueprintFile (path : String)
  | blueprintDocument (path : String)
  | noDatabase
  | noDialect
  | client (e : ClientError)
  deriving DecidableEq, Repr

def Failure.message : Failure → String
  | .configFile path => "failed to load configuration from " ++ path
  | .blueprintFile path => "failed to read blueprint " ++ path
  | .blueprintDocument path => "invalid blueprint JSON in " ++ path
  | .noDatabase => "no database configured; pass --database-url or --config"
  | .noDialect => "--dialect is required without a configured database"
  | .client e => e.message

inductive Output where
  | printed (line : String)
  | logged (record : Log.Record)
  deriving DecidableEq, Repr

abbrev Files := String → FileContent

/-- A part of a command, over what the connections are there for: whether the command goes on, and
what the part puts out. -/
abbrev Step (σ α : Type) := World σ → Except Failure α × World σ × List Output

namespace Step

variable {σ α β : Type}

def pure (a : α) : Step σ α := fun w => (.ok a, w, [])

def bind (x : Step σ α) (f : α → Step σ β) : Step σ β := fun w =>
  match x w with
  | (.ok a, w, out) =>
    let (r, w, more) := f a w
    (r, w, out ++ more)
  | (.error e, w, out) => (.error e, w, out)

instance : Monad (Step σ) where
  pure := pure
  bind := bind

def fail (e : Failure) : Step σ α := fun w => (.error e, w, [])

def put (out : Output) : Step σ Unit := fun w => (.ok (), w, [out])

def info (event : Log.Event) : Step σ Unit := put (.logged ⟨.info, event⟩)

def ofExcept {ε : Type} (f : ε → Failure) : Except ε α → Step σ α
  | .ok a => pure a
  | .error e => fail (f e)

/-- An action on the database; the log lines that it adds are put out. -/
def ofAction (action : Database.Action σ α) : Step σ α := fun w =>
  let (r, w) := action { w with records := [] }
  (r.mapError .client, w, w.records.map .logged)

end Step

/-- The configuration file, if one is named, and then the URL that stands above it. -/
def loadConfig (files : Files) (path url : Option String) : Except Failure Config := do
  let config ←
    match path with
    | some path => (Config.ofFile (files path)).mapError fun _ => .configFile path
    | none => .ok {}
  pure (match url with
    | some url => config.withUrl url
    | none => config)

def readBlueprint (files : Files) (path : String) : Except Failure Blueprint :=
  match files path with
  | .unreadable => .error (.blueprintFile path)
  | .text s => (Blueprint.ofDocument (.ofText s)).mapError fun _ => .blueprintDocument path

def configuredDialect (config : Config) (missing : Failure) : Except Failure Dialect :=
  match config.connection with
  | none => .error missing
  | some settings => settings.dialect.mapError fun e => .client (.configuration e)

section Commands

variable {σ : Type} (opening : σ → Except ClientError ConnectionId × σ) (backend : Backend σ)

/-- Compiles a blueprint and prints each statement with a semicolon behind it. -/
def printStatements (dialect : Dialect) (b : Blueprint) : Step σ Unit := do
  let statements ← Step.ofExcept (.client ∘ .schema) (dialect.grammar.compile b)
  Step.put (.logged ⟨.debug, .compiled dialect b.table statements.length⟩)
  statements.forM fun s => Step.put (.printed (s ++ ";"))

def connect (config : Config) : Step σ Database := do
  match ← Step.ofAction (Database.init opening config) with
  | some db => pure db
  | none => Step.fail .noDatabase

def sql (files : Files) (config : Config) (dialect : Option Dialect) (path : String) :
    Step σ Unit := do
  let dialect ← Step.ofExcept id
    (match dialect with
      | some d => .ok d
      | none => configuredDialect config .noDialect)
  let b ← Step.ofExcept id (readBlueprint files path)
  printStatements dialect b

def dryRun (config : Config) (b : Blueprint) : Step σ Unit := do
  let dialect ← Step.ofExcept id (configuredDialect config .noDatabase)
  Step.info .dryRun
  printStatements dialect b

def apply (config : Config) (b : Blueprint) : Step σ Unit := do
  let db ← connect opening config
  let statements ← Step.ofAction (db.runBlueprint backend b)
  Step.info (.appliedTo statements.length b.table)
  Step.ofAction (db.close backend)

def tableExists (config : Config) (table : String) : Step σ Unit := do
  let db ← connect opening config
  let found ← Step.ofAction (db.tableExists backend table)
  Step.put (.printed (Log.Event.truth found))
  Step.ofAction (db.close backend)

def query (config : Config) (sql : String) (params : List String) : Step σ Unit := do
  let db ← connect opening config
  let request : Request := { sql, params := params.map Value.ofLiteral }
  let result ← Step.ofAction (db.execute backend request)
  if result.columns.isEmpty then Step.info (.rowsAffected result.affected)
  else Step.put (.printed result.toJson.renderIndented)
  Step.ofAction (db.close backend)

def runCommand (files : Files) (config : Config) : Command → Step σ Unit
  | .sql dialect path => sql files config dialect path
  | .apply path isDryRun => do
    let b ← Step.ofExcept id (readBlueprint files path)
    if isDryRun then dryRun config b else apply opening backend config b
  | .tableExists table => tableExists opening backend config table
  | .query text params => query opening backend config text params

end Commands

/-- How a run of the program ends, and what it has printed. -/
structure Transcript where
  code : Nat
  stdout : String := ""
  stderr : String := ""
  deriving DecidableEq, Repr

/-- The printed form of an output; records for debugging only where they are asked for. -/
def Output.text (debug : Bool) : Output → String
  | .printed line => line ++ "\n"
  | .logged record => if record.level == .debug && !debug then "" else record.line ++ "\n"

namespace Transcript

/-- A run that fails, after it has printed something or nothing. -/
def failed (e : Failure) (stdout : String := "") : Transcript :=
  { code := 1, stdout, stderr := "Error: " ++ e.message ++ "\n" }

/-- What a command has put out, and whether it went through. -/
def ofResult (debug : Bool) (result : Except Failure Unit) (out : List Output) : Transcript :=
  let stdout := String.join (out.map (Output.text debug))
  match result with
  | .ok _ => { code := 0, stdout }
  | .error e => failed e stdout

end Transcript

/-- Runs a command, given what the connections of a configuration lead to. -/
def runArguments {σ : Type} (opening : σ → Except ClientError ConnectionId × σ)
    (backend : Backend σ) (resources : Config → σ) (files : Files) (a : Arguments) : Transcript :=
  match loadConfig files a.config a.databaseUrl with
  | .error e => .failed e
  | .ok config =>
    let (result, _, out) := runCommand opening backend files config a.command
      (Database.freshWorld (resources config))
    .ofResult (a.verbose || config.debug) result out

def run (files : Files) (environmentUrl : Option String) (args : List String) : Transcript :=
  match readArguments environmentUrl args with
  | .ok a => runArguments Servers.openConnection Servers.backend Servers.ofConfig files a
  | .error .version => { code := 0, stdout := "keel 0.1.0\n" }
  | .error (.help page) => { code := 0, stdout := page.text environmentUrl }
  | .error .usage => { code := 2, stderr := Page.program.text environmentUrl }

end Schemata.Cli
