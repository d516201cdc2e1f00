import Schemata.Blueprint.Document
import Schemata.Cli.Run
import Schemata.Compile
import Schemata.Config.Document
import Schemata.Database
import Schemata.Dispatch.Rehearsal
import Schemata.Main
import Schemata.Memory.Servers
import Schemata.Proofs.Blueprint.Roundtrip
import Schemata.Proofs.Cli.DryRun
import Schemata.Proofs.Compile.KeyOrder
import Schemata.Proofs.Compile.Rules
import Schemata.Proofs.Compile.Splitting
import Schemata.Proofs.Database.UrlPath
import Schemata.Proofs.Dispatch.Journal
import Schemata.Proofs.Dispatch.Leases
import Schemata.Proofs.Dispatch.Limits
import Schemata.Proofs.Dispatch.Turns
import Schemata.Proofs.Keys.Placement
import Schemata.Proofs.Quoting.Additions
import Schemata.Proofs.Quoting.Escapes
import Schemata.Proofs.Quoting.Scripts
import Schemata.Proofs.Quoting.Statements
import Schemata.Proofs.Recovery.Tables
import Schemata.Proofs.Value.Literals
import Schemata.Value.Literal
import Schemata.Proofs.ResultSet.Objects
import Schemata.Proofs.Json.Members
import Schemata.Proofs.ResultSet.Streams
import Schemata.Proofs.Blueprint.Members
import Schemata.Proofs.Blueprint.Rearranging
import Schemata.Proofs.Dispatch.Starts
import Schemata.Proofs.Dispatch.Logging
