import Schemata.Cli.Run
import Schemata.Proofs.Blueprint.Roundtrip
import Schemata.Proofs.Config.Files
import Schemata.Proofs.Database.Migration
import Schemata.Proofs.Quoting.Scripts

/-!
# A dry run and the run

A dry run finds the dialect and compiles on its own; the run goes through a database that it opens
for the purpose. `prepare` is what both have to get done before the first statement: it tells
for both whether they fail before it and how, and which statements the one prints and the other
runs. Log lines stand among what is printed; they are told apart from the statements as what
`Output.text` makes of records.
-/
namespace Schemata.Cli

open Dispatch Quoting

variable {σ : Type}

/-- Statements as they are printed, with a semicolon behind each. -/
def script (debug : Bool) (statements : List String) : String :=
  String.join (statements.map fun s => Output.text debug (.printed (s ++ ";")))

namespace Step

variable {α β ε : Type} {w w' : World σ} {out : List Output}

end Step

variable {files : Files} {config : Config} {path : String} {b : Blueprint} {dialect : Dialect}
  {statements : List String} {e : Failure}

/-! ## What comes before the first statement -/

section Print

variable (opening : σ → Except ClientError ConnectionId × σ) (backend : Backend σ) (w : World σ)

end Print

/-! ## The mode that runs -/

/-- The configured connection or pool can be opened, if there is one with a dialect. -/
def Opens (opening : σ → Except ClientError ConnectionId × σ) (config : Config) (w : World σ) :
    Prop :=
  ∀ settings dialect, config.connection = some settings → settings.dialect = .ok dialect →
    ∃ dispatcher w',
      Database.openDispatcher opening settings config.debug config.pooling w = (.ok dispatcher, w')

section Run

variable {opening : σ → Except ClientError ConnectionId × σ} {settings : ConnectionSettings}
  {dispatcher : Dispatcher} {w w' : World σ}

/-- How a run ends whose statements have ended in some way: with the first error, or with what
comes of closing. -/
def Closes (backend : Backend σ) (dispatcher : Dispatcher) (outcome : Except ClientError Unit)
    (result : Except Failure Unit) : Prop :=
  match outcome with
  | .error reason => result = .error (.client reason)
  | .ok _ => ∃ w, result = (Dispatch.close backend dispatcher w).1.mapError .client

end Run

/-! ## Transcripts -/

section Transcripts

variable (opening : σ → Except ClientError ConnectionId × σ) (backend : Backend σ)
  (resources : Config → σ) (files : Files)

end Transcripts

end Schemata.Cli
