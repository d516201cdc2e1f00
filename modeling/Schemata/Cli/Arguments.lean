import Schemata.Cli.Help
import Schemata.Dialect

/-!
# Command-line arguments

Arguments are read from left to right and the first problem wins. Options of the program
stand before the command, those of a command behind it. No option may be given twice, a value
may not look like an option, and what follows `--` is never taken for one.
-/
namespace Schemata.Cli

inductive Command where
  /-- Prints the statements of a blueprint. -/
  | sql (dialect : Option Dialect) (blueprint : String)
  /-- Runs a blueprint, or only prints its statements. -/
  | apply (blueprint : String) (dryRun : Bool)
  | tableExists (table : String)
  /-- Runs one statement; the parameters are literals. -/
  | query (sql : String) (params : List String)
  deriving DecidableEq, Repr

structure Arguments where
  config : Option String
  databaseUrl : Option String
  verbose : Bool
  command : Command
  deriving DecidableEq, Repr

/-- Why there is nothing to run. -/
inductive Refusal where
  | usage
  | help (page : Page)
  | version
  deriving DecidableEq, Repr

/-- An option: its long name, its letter, and which values it takes; a flag takes none. -/
structure Switch where
  long : String
  short : Option Char := none
  accepts : Option (String → Bool) := none

/-- What may stand on one level of the command line. -/
structure Level where
  page : Page
  options : List Switch
  /-- Whether `--version` is known. -/
  version : Bool := false
  /-- Whether a word is acceptable at a position; the first unacceptable one is refused. -/
  accepts : Nat → String → Bool

structure Reading where
  flags : List String := []
  values : List (String × String) := []
  words : List String := []
  deriving DecidableEq, Repr

namespace Level

variable (level : Level)

def byLong? (name : String) : Option Switch := level.options.find? (·.long == name)

def byShort? (c : Char) : Option Switch := level.options.find? (·.short == some c)

def flag (r : Reading) (o : Switch) : Except Refusal Reading :=
  if r.flags.contains o.long then .error .usage else .ok { r with flags := o.long :: r.flags }

def value (r : Reading) (o : Switch) (accepts : String → Bool) (v : String) :
    Except Refusal Reading :=
  if (r.values.lookup o.long).isSome || !accepts v then .error .usage
  else .ok { r with values := (o.long, v) :: r.values }

def word (r : Reading) (w : String) : Except Refusal Reading :=
  if level.accepts r.words.length w then .ok { r with words := r.words ++ [w] }
  else .error .usage

/-- What an argument turns out to be. -/
inductive Outcome where
  | done (r : Reading)
  /-- An option whose value is the next argument. -/
  | needs (r : Reading) (o : Switch) (accepts : String → Bool)

def long (r : Reading) (cs : List Char) : Except Refusal Outcome :=
  let name := String.ofList (cs.takeWhile (· ≠ '='))
  let attached := (cs.dropWhile (· ≠ '=')).tail?.map String.ofList
  match level.byLong? name, attached with
  | none, none =>
    if name = "help" then .error (.help level.page)
    else if name = "version" ∧ level.version then .error .version
    else .error .usage
  | none, some _ => .error .usage
  | some o, attached =>
    match o.accepts, attached with
    | none, none => (flag r o).map .done
    | none, some _ => .error .usage
    | some accepts, some v => (value r o accepts v).map .done
    | some accepts, none => .ok (.needs r o accepts)

def short (r : Reading) : List Char → Except Refusal Outcome
  | [] => .ok (.done r)
  | c :: cs =>
    match level.byShort? c with
    | none =>
      if c = 'h' then .error (.help level.page)
      else if c = 'V' ∧ level.version then .error .version
      else .error .usage
    | some o =>
      match o.accepts with
      | none =>
        match flag r o with
        | .ok r => short r cs
        | .error e => .error e
      | some accepts =>
        match cs with
        | [] => .ok (.needs r o accepts)
        | '=' :: v => (value r o accepts (String.ofList v)).map .done
        | v => (value r o accepts (String.ofList v)).map .done

def looksLikeOption (arg : String) : Bool :=
  match arg.toList with
  | '-' :: _ :: _ => true
  | _ => false

/-- Reads the arguments of a level. Where `words` are not taken, the first one ends the level,
and it is returned with what follows it. -/
def read (takesWords : Bool) : Reading → List String → Except Refusal (Reading × List String)
  | r, [] => .ok (r, [])
  | r, arg :: args =>
    match arg.toList with
    | ['-', '-'] =>
      if takesWords then (args.foldlM level.word r).map (·, []) else .error .usage
    | '-' :: c :: cs =>
      match if c = '-' then level.long r cs else level.short r (c :: cs) with
      | .error e => .error e
      | .ok (.done r) => read takesWords r args
      | .ok (.needs r o accepts) =>
        match args with
        | [] => .error .usage
        | v :: args =>
          if looksLikeOption v then .error .usage
          else
            match value r o accepts v with
            | .ok r => read takesWords r args
            | .error e => .error e
    | _ =>
      if takesWords then
        match level.word r arg with
        | .ok r => read takesWords r args
        | .error e => .error e
      else .ok (r, arg :: args)

end Level

/-- Paths are not empty. -/
def isPath (s : String) : Bool := s ≠ ""

/-- Options of the program; they stand before the command. -/
def programLevel : Level where
  page := .program
  options :=
    [{ long := "config", short := some 'c', accepts := some isPath },
      { long := "database-url", short := some 'd', accepts := some fun _ => true },
      { long := "verbose", short := some 'v' }]
  version := true
  accepts _ _ := false

def oneWord (page : Page) (options : List Switch) (accepts : String → Bool) : Level where
  page
  options
  accepts i w := i = 0 && accepts w

def sqlLevel : Level :=
  oneWord .sql [{ long := "dialect", accepts := some fun v => (Dialect.parse? v).isSome }] isPath

def applyLevel : Level := oneWord .apply [{ long := "dry-run" }] isPath

def tableExistsLevel : Level := oneWord .tableExists [] fun _ => true

def queryLevel : Level where
  page := .query
  options := []
  accepts _ _ := true

/-- Reads a command and its arguments. -/
def readCommand : List String → Except Refusal Command
  | "sql" :: args => do
    let (r, _) ← sqlLevel.read true {} args
    let [blueprint] := r.words | .error .usage
    pure (.sql ((r.values.lookup "dialect").bind Dialect.parse?) blueprint)
  | "apply" :: args => do
    let (r, _) ← applyLevel.read true {} args
    let [blueprint] := r.words | .error .usage
    pure (.apply blueprint (r.flags.contains "dry-run"))
  | "table-exists" :: args => do
    let (r, _) ← tableExistsLevel.read true {} args
    let [table] := r.words | .error .usage
    pure (.tableExists table)
  | "query" :: args => do
    let (r, _) ← queryLevel.read true {} args
    let sql :: params := r.words | .error .usage
    pure (.query sql params)
  | ["help"] => .error (.help .program)
  | ["help", topic] => (Page.ofCommand? topic).elim (.error .usage) fun page => .error (.help page)
  | _ => .error .usage

/-- Reads a command line; a URL from the environment serves where none is given. -/
def readArguments (environmentUrl : Option String) (args : List String) :
    Except Refusal Arguments := do
  let (r, rest) ← programLevel.read false {} args
  let command ← readCommand rest
  pure
    { config := r.values.lookup "config"
      databaseUrl := (r.values.lookup "database-url").or environmentUrl
      verbose := r.flags.contains "verbose"
      command }

end Schemata.Cli
