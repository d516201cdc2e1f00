import Schemata.Cli.Run

/-!
# The program

Reads the files that the arguments name, runs the command, and prints what it puts out.
-/
open Schemata Schemata.Cli

/-- The paths that the arguments name. -/
def Schemata.Cli.Arguments.paths (a : Arguments) : List String :=
  a.config.toList ++
    match a.command with
    | .sql _ path | .apply path _ => [path]
    | _ => []

/-- Reads a file; one that cannot be read, or holds no text, has no content. -/
def readContent (path : String) : IO (String × FileContent) := do
  try
    let text ← IO.FS.readFile path
    pure (path, .text text)
  catch _ => pure (path, .unreadable)

def main (args : List String) : IO UInt32 := do
  let url ← IO.getEnv "DATABASE_URL"
  let paths :=
    match readArguments url args with
    | .ok a => a.paths
    | .error _ => []
  let contents ← paths.mapM readContent
  let transcript := run (fun path => (contents.lookup path).getD .unreadable) url args
  IO.print transcript.stdout
  IO.eprint transcript.stderr
  pure transcript.code.toUInt32
