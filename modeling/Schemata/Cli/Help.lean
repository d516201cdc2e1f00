/-!
# Help

The pages that explain the program and its commands. A page says what its command is for, how
it is used, and then lists, each list with its texts below one another, what may stand there.
-/
namespace Schemata.Cli

inductive Page where
  | program
  | sql
  | apply
  | tableExists
  | query
  | help
  deriving DecidableEq, Repr

namespace Page

/-- The pages of the commands, under the names of the commands, with what they are for. -/
def commands : List (Page × String × String) :=
  [(.sql, "sql", "Print the statements a blueprint compiles to"),
    (.apply, "apply", "Compile a blueprint and run it against the database"),
    (.tableExists, "table-exists", "Check whether a table exists"),
    (.query, "query", "Run one statement and print the rows as JSON"),
    (.help, "help", "Print this message or the help of the given subcommand(s)")]

/-- The page of the command of a name. -/
def ofCommand? (name : String) : Option Page := (commands.find? (·.2.1 == name)).map (·.1)

/-- What the program or a command is for. -/
def purpose (page : Page) : String :=
  match commands.find? (·.1 == page) with
  | some (_, _, text) => text
  | none => "Multi-dialect schema compiler and query runner"

/-- What follows the name of the program on a command line. -/
def usage : Page → String
  | .program => "[OPTIONS] <COMMAND>"
  | .sql => "sql [OPTIONS] <BLUEPRINT>"
  | .apply => "apply [OPTIONS] <BLUEPRINT>"
  | .tableExists => "table-exists <TABLE>"
  | .query => "query <SQL> [PARAMS]..."
  | .help => "help [COMMAND]..."

def arguments : Page → List (String × String)
  | .program => []
  | .sql | .apply => [("<BLUEPRINT>", "Blueprint JSON file")]
  | .tableExists => [("<TABLE>", "Table name")]
  | .query =>
    [("<SQL>", "SQL text with positional placeholders"),
      ("[PARAMS]...", "Parameters; numbers, \x60true\x60/\x60false\x60 and \x60null\x60 are typed, "
        ++ "the rest bind as text")]
  | .help => [("[COMMAND]...", "Print help for the subcommand(s)")]

/-- The options, those of the program with the value of the environment. -/
def options (environmentUrl : Option String) : Page → List (String × String)
  | .program =>
    [("-c, --config <CONFIG>", "JSON configuration file"),
      ("-d, --database-url <DATABASE_URL>",
        "Database URL; overrides the configuration file's connection [env: DATABASE_URL="
          ++ environmentUrl.getD "" ++ "]"),
      ("-v, --verbose", "Enable verbose output"), help, ("-V, --version", "Print version")]
  | .sql =>
    [("    --dialect <DIALECT>",
      "Target dialect (sqlite, mysql, postgres). Defaults to the configured database's dialect"),
      help]
  | .apply => [("    --dry-run", "Show SQL without executing"), help]
  | .tableExists | .query => [help]
  | .help => []
where
  help : String × String := ("-h, --help", "Print help")

private def blanks (n : Nat) : String := String.ofList (List.replicate n ' ')

/-- A list with its texts below one another; a line break in a text keeps to them. Without
items there is no list. -/
def listing? (title : String) (items : List (String × String)) : Option String :=
  if items.isEmpty then none
  else
    let width := items.foldl (fun w (item, _) => max w item.length) 0
    let line (item text : String) : String :=
      "  " ++ item ++ blanks (width - item.length) ++ "  "
        ++ String.join (text.toList.map fun c =>
          if c = '\n' then "\n" ++ blanks (width + 4) else String.singleton c) ++ "\n"
    some (title ++ ":\n" ++ String.join (items.map fun (item, text) => line item text))

def text (environmentUrl : Option String) (page : Page) : String :=
  let listed := if page = .program then commands.map (·.2) else []
  let listings :=
    [listing? "Commands" listed, listing? "Arguments" page.arguments,
      listing? "Options" (page.options environmentUrl)].filterMap id
  page.purpose ++ "\n\nUsage: keel " ++ page.usage ++ "\n\n" ++ "\n".intercalate listings

end Page

end Schemata.Cli
