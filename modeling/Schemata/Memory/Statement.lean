import Schemata.Decimal.Literal
import Schemata.Json.Number
import Schemata.Memory.Token
import Schemata.Text.Quoted
import Schemata.Value.Basic

/-!
# Statements

The statements that an in-memory database understands: those that create, rename, extend and
drop tables and indexes, the query for a table of a given name, and selections of parameters
and literals. Any other text is no statement.
-/
namespace Schemata.Memory

/-- A name, perhaps with the schema that it is looked up in. -/
structure QualifiedName where
  schema : Option String
  name : String
  deriving DecidableEq, Repr

/-- What the definition of a column says that matters for whether it is accepted. -/
structure ColumnDefinition where
  name : String
  /-- Whether the type is the single word `integer`. -/
  isInteger : Bool := false
  primaryKey : Bool := false
  autoIncrement : Bool := false
  unique : Bool := false
  deriving DecidableEq, Repr

structure IndexColumn where
  name : String
  /-- Whether the name may stand for a text where no column has it. -/
  maybeText : Bool
  deriving DecidableEq, Repr

/-- A constraint that stands behind the columns. -/
inductive TableConstraint where
  | primaryKey (columns : List IndexColumn)
  | unique (columns : List IndexColumn)
  /-- A foreign key, and how many columns it names in the other table, if it names any. -/
  | foreignKey (columns : List String) (references : Option Nat)
  | check
  deriving DecidableEq, Repr

inductive Operand where
  | placeholder
  | literal (v : Value)
  deriving DecidableEq, Repr

inductive Statement where
  | createTable (table : QualifiedName) (ifNotExists : Bool) (columns : List ColumnDefinition)
      (constraints : List TableConstraint)
  | dropTable (table : QualifiedName) (ifExists : Bool)
  | renameTable (table : QualifiedName) (newName : String)
  | addColumn (table : QualifiedName) (column : ColumnDefinition)
  | createIndex (index : QualifiedName) (table : String) (columns : List IndexColumn)
  | dropIndex (index : QualifiedName)
  | tableNamed
  /-- A selection; each operand with the name of its column. -/
  | select (operands : List (Operand × String))
  deriving DecidableEq, Repr

namespace Statement

/-- Words that are no names unless they are quoted. -/
def reservedWords : List String :=
  ["add", "all", "alter", "and", "as", "autoincrement", "between", "case", "check", "collate",
    "commit", "constraint", "create", "default", "deferrable", "delete", "distinct", "drop",
    "else", "escape", "except", "exists", "foreign", "from", "group", "having", "in", "index",
    "insert", "intersect", "into", "is", "isnull", "join", "limit", "not", "nothing", "notnull",
    "null", "on", "or", "order", "primary", "references", "returning", "select", "set", "table",
    "then", "to", "transaction", "union", "unique", "update", "using", "values", "when", "where"]

/-- The name that a token is. -/
def name? : Token → Option String
  | .word lower text => if reservedWords.contains lower then none else some text
  | .quoted _ name => some name
  | .literal text => some text
  | _ => none

/-- A name at the start of the tokens. -/
def name : List Token → Option (String × List Token)
  | t :: rest => (name? t).map (·, rest)
  | [] => none

/-- A name at the start of the tokens, perhaps behind the name of a schema. -/
def qualifiedName (ts : List Token) : Option (QualifiedName × List Token) := do
  let (first, rest) ← name ts
  match rest with
  | .symbol '.' :: rest =>
    let (second, rest) ← name rest
    pure (⟨some first, second⟩, rest)
  | _ => pure (⟨none, first⟩, rest)

/-- Takes the given words, in lowercase, off the tokens. -/
def words : List String → List Token → Option (List Token)
  | [], ts => some ts
  | w :: ws, .word lower _ :: ts => if w = lower then words ws ts else none
  | _ :: _, _ => none

/-- Takes the given words off if they are there, and says whether they are. -/
def optionalWords (ws : List String) (ts : List Token) : Bool × List Token :=
  match words ws ts with
  | some rest => (true, rest)
  | none => (false, ts)

/-- What stands in brackets, split at its outermost commas, and what follows the brackets.
The opening bracket has been taken off, and `depth` more are open. -/
def pieces (depth : Nat) (rev : List Token) : List Token → Option (List (List Token) × List Token)
  | [] => none
  | t :: ts =>
    match t, depth with
    | .symbol ')', 0 => some ([rev.reverse], ts)
    | .symbol ',', 0 => (pieces 0 [] ts).map fun (ps, rest) => (rev.reverse :: ps, rest)
    | .symbol ')', depth + 1 => pieces depth (t :: rev) ts
    | .symbol '(', depth => pieces (depth + 1) (t :: rev) ts
    | t, depth => pieces depth (t :: rev) ts

def bracketed : List Token → Option (List (List Token) × List Token)
  | .symbol '(' :: ts => pieces 0 [] ts
  | _ => none

/-- An expression in brackets, which is not looked into. -/
def expression (ts : List Token) : Option (List Token) := do
  let (ps, rest) ← bracketed ts
  if ps.all (!·.isEmpty) then some rest else none

/-- One piece that is a name. -/
def onlyName? : List Token → Option String
  | [t] => name? t
  | _ => none

def names (ts : List Token) : Option (List String × List Token) := do
  let (ps, rest) ← bracketed ts
  let ns ← ps.mapM onlyName?
  pure (ns, rest)

/-- A column of an index, perhaps with its direction. -/
def indexColumn? : List Token → Option IndexColumn
  | t :: rest => do
    let name ← name? t
    let maybeText :=
      match t with
      | .quoted '"' _ | .literal _ => true
      | _ => false
    match rest with
    | [] | [.word "asc" _] | [.word "desc" _] => some ⟨name, maybeText⟩
    | _ => none
  | [] => none

def indexColumns (ts : List Token) : Option (List IndexColumn × List Token) := do
  let (ps, rest) ← bracketed ts
  let cs ← ps.mapM indexColumn?
  pure (cs, rest)

/-- Whether a piece is a number with an optional sign. -/
def isSignedNumber : List Token → Bool
  | [.number _] | [.symbol '+', .number _] | [.symbol '-', .number _] => true
  | _ => false

/-- Takes off the words of a type, and one or two numbers in brackets behind them; says whether
the type is the single word `integer`. -/
def typeName (ts : List Token) : Option (Bool × List Token) :=
  let ws := (ts.takeWhile fun t => (name? t).isSome).filterMap name?
  match ts.drop ws.length with
  | .symbol '(' :: rest => do
    let (ps, rest) ← pieces 0 [] rest
    if ps.all isSignedNumber && ps.length ≤ 2 && !ws.isEmpty then some (false, rest) else none
  | rest => some (ws.map (·.map Char.toLower) == ["integer"], rest)

def defaultValue : List Token → Option (List Token)
  | .literal _ :: rest | .number _ :: rest => some rest
  | .symbol '+' :: .number _ :: rest | .symbol '-' :: .number _ :: rest => some rest
  | .word "null" _ :: rest => some rest
  | .symbol '(' :: rest => expression (.symbol '(' :: rest)
  | t :: rest => (name? t).map fun _ => rest
  | [] => none

/-- What a foreign key does when the other table changes. -/
def actions : List Token → Option (List Token)
  | .word "on" _ :: .word event _ :: rest =>
    if event = "delete" ∨ event = "update" then
      match rest with
      | .word "cascade" _ :: rest | .word "restrict" _ :: rest => actions rest
      | .word "set" _ :: .word "null" _ :: rest => actions rest
      | .word "set" _ :: .word "default" _ :: rest => actions rest
      | .word "no" _ :: .word "action" _ :: rest => actions rest
      | _ => none
    else none
  | ts => some ts

/-- The table that a foreign key refers to, with the number of its columns. -/
def references (ts : List Token) : Option (Option Nat × List Token) := do
  let (_, rest) ← name ts
  match rest with
  | .symbol '(' :: _ =>
    let (ns, rest) ← names rest
    let rest ← actions rest
    pure (some ns.length, rest)
  | _ =>
    let rest ← actions rest
    pure (none, rest)

def columnConstraint (c : ColumnDefinition) : List Token → Option (ColumnDefinition × List Token)
  | .word "null" _ :: rest => some (c, rest)
  | .word "not" _ :: .word "null" _ :: rest => some (c, rest)
  | .word "default" _ :: rest => (defaultValue rest).map (c, ·)
  | .word "primary" _ :: .word "key" _ :: rest =>
    let (_, rest) := optionalWords ["asc"] rest
    let (autoIncrement, rest) := optionalWords ["autoincrement"] rest
    if c.primaryKey then none else some ({ c with primaryKey := true, autoIncrement }, rest)
  | .word "unique" _ :: rest => some ({ c with unique := true }, rest)
  | .word "check" _ :: rest => (expression rest).map (c, ·)
  | .word "collate" _ :: t :: rest => (name? t).map fun _ => (c, rest)
  | .word "references" _ :: rest => (references rest).map fun (_, rest) => (c, rest)
  | .word "constraint" _ :: t :: rest => (name? t).map fun _ => (c, rest)
  | _ => none

/-- The constraints of a column; each takes at least one token. -/
def columnConstraints (c : ColumnDefinition) : Nat → List Token → Option ColumnDefinition
  | _, [] => some c
  | 0, _ => none
  | fuel + 1, ts => do
    let (c, rest) ← columnConstraint c ts
    columnConstraints c fuel rest

/-- The definition of a column: its name, type and constraints. -/
def columnDefinition (ts : List Token) : Option ColumnDefinition := do
  let (name, rest) ← name ts
  let (isInteger, rest) ← typeName rest
  columnConstraints { name, isInteger } rest.length rest

def tableConstraint : List Token → Option TableConstraint
  | .word "primary" _ :: .word "key" _ :: rest => do
    let (cs, []) ← indexColumns rest | none
    pure (.primaryKey cs)
  | .word "unique" _ :: rest => do
    let (cs, []) ← indexColumns rest | none
    pure (.unique cs)
  | .word "foreign" _ :: .word "key" _ :: rest => do
    let (columns, rest) ← names rest
    let rest ← words ["references"] rest
    let (count, []) ← references rest | none
    pure (.foreignKey columns count)
  | .word "check" _ :: rest => do
    let [] ← expression rest | none
    pure .check
  | _ => none

/-- Whether the words that introduce a constraint of a table stand here. -/
def isTableConstraint : List Token → Bool
  | .word lower _ :: _ => ["constraint", "primary", "unique", "foreign", "check"].contains lower
  | _ => false

/-- A constraint of a table, perhaps with a name. -/
def namedTableConstraint : List Token → Option TableConstraint
  | .word "constraint" _ :: t :: rest => do
    let _ ← name? t
    tableConstraint rest
  | ts => tableConstraint ts

/-- `create table`, a name, and the columns with the constraints behind them. -/
def createTable? (ts : List Token) : Option Statement := do
  let rest ← words ["create", "table"] ts
  let (ifNotExists, rest) := optionalWords ["if", "not", "exists"] rest
  let (table, rest) ← qualifiedName rest
  let (items, rest) ← bracketed rest
  let columns ← (items.takeWhile (!isTableConstraint ·)).mapM columnDefinition
  let constraints ← (items.dropWhile (!isTableConstraint ·)).mapM namedTableConstraint
  if columns.isEmpty || !rest.isEmpty then none
  else some (.createTable table ifNotExists columns constraints)

def dropTable? (ts : List Token) : Option Statement := do
  let rest ← words ["drop", "table"] ts
  let (ifExists, rest) := optionalWords ["if", "exists"] rest
  let (table, rest) ← qualifiedName rest
  if rest.isEmpty then some (.dropTable table ifExists) else none

def renameTable? (ts : List Token) : Option Statement := do
  let (table, rest) ← words ["alter", "table"] ts >>= qualifiedName
  let (newName, rest) ← words ["rename", "to"] rest >>= name
  if rest.isEmpty then some (.renameTable table newName) else none

def addColumn? (ts : List Token) : Option Statement := do
  let (table, rest) ← words ["alter", "table"] ts >>= qualifiedName
  let (_, rest) := optionalWords ["column"] (← words ["add"] rest)
  let column ← columnDefinition rest
  some (.addColumn table column)

def createIndex? (ts : List Token) : Option Statement := do
  let (_, rest) := optionalWords ["unique"] (← words ["create"] ts)
  let (index, rest) ← words ["index"] rest >>= qualifiedName
  let (table, rest) ← words ["on"] rest >>= name
  let (columns, rest) ← indexColumns rest
  if rest.isEmpty then some (.createIndex index table columns) else none

def dropIndex? (ts : List Token) : Option Statement := do
  let (index, rest) ← words ["drop", "index"] ts >>= qualifiedName
  if rest.isEmpty then some (.dropIndex index) else none

/-- The query that asks for a table of a given name. -/
def tableNamed? (ts : List Token) : Option Statement :=
  if Token.ofText "select * from sqlite_master where type = 'table' and name = ?" = some ts then
    some .tableNamed
  else none

/-- A number as a value: an integer if it is one that fits. -/
def numberValue? (text : String) : Option Value :=
  match (Decimal.integer? text).bind Json.int64? with
  | some i => some (.integer i)
  | none => (Decimal.float? text).map .float

/-- What a token selects, and the name of the column if no other is given. -/
def operand? : Token → Option (Operand × String)
  | .placeholder => some (.placeholder, "?")
  | .number text => (numberValue? text).map fun v => (.literal v, text)
  | .literal text => some (.literal (.text text), Text.quoteLiteral text)
  | .word "null" text => some (.literal .null, text)
  | _ => none

/-- An operand, perhaps with the name of its column behind it. -/
def selected? : List Token → Option (Operand × String)
  | [t] => operand? t
  | [t, .word "as" _, n] | [t, n] => do
    let (operand, _) ← operand? t
    let name ← name? n
    pure (operand, name)
  | _ => none

/-- The operands of a selection, the comma between two of them taken off; `rev` holds the
tokens of the first one so far. -/
def selectedList (rev : List Token) : List Token → Option (List (Operand × String))
  | [] => (selected? rev.reverse).map ([·])
  | .symbol ',' :: ts => do
    let first ← selected? rev.reverse
    let others ← selectedList [] ts
    pure (first :: others)
  | t :: ts => selectedList (t :: rev) ts

def select? (ts : List Token) : Option Statement := do
  let rest ← words ["select"] ts
  let operands ← selectedList [] rest
  some (.select operands)

/-- The statement that the tokens are, if it is one that the database understands. -/
def ofTokens? (ts : List Token) : Option Statement :=
  (createTable? ts).or <| (dropTable? ts).or <| (renameTable? ts).or <| (addColumn? ts).or <|
    (createIndex? ts).or <| (dropIndex? ts).or <| (tableNamed? ts).or (select? ts)

/-- How many parameters a statement takes. -/
def placeholders : Statement → Nat
  | .select operands => (operands.filter (·.1 == .placeholder)).length
  | .tableNamed => 1
  | _ => 0

/-- The tokens of the statements of a text, which semicolons keep apart. -/
def split (ts : List Token) : List (List Token) :=
  (ts.splitOn (.symbol ';')).filter (!·.isEmpty)

end Statement

end Schemata.Memory
