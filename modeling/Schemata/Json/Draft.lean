import Schemata.Json.Basic

/-!
# Drafts of JSON documents

A text is read once, leniently, into a draft: a JSON value in which damaged places are
kept where they stand. Decoders walk the draft in reading order and report the first
problem they meet, so a damaged place is a fault only for a decoder that gets there.

A damaged place carries two faults. One is met by a decoder that wants the value; the
other, if any, by one that only skips it: a lone surrogate or an overflowing number can be
skipped, an open string cannot. It also tells how it begins, for decoders that go by the
first character.
-/
namespace Schemata.Json

inductive Key where
  | name (s : String)
  | damaged (read : Fault) (skip : Option Fault)
  deriving DecidableEq, Repr

/-- What stands at the beginning of a damaged value. -/
inductive Lead where
  | nothing
  | quote
  | null
  | other
  deriving DecidableEq, Repr

/-- `ending` is `none` for a container that is closed properly, or that ends with a damaged
place inside it. -/
inductive Draft where
  | null
  | bool (b : Bool)
  | int (i : Int)
  | float (f : Float)
  | str (s : String)
  | damaged (lead : Lead) (read : Fault) (skip : Option Fault)
  | arr (items : List Draft) (ending : Option Fault)
  | obj (members : List (Key × Draft)) (ending : Option Fault)
  deriving Repr

instance : Inhabited Draft := ⟨.null⟩

/-- The most arrays and objects that may stand inside each other where values are read. -/
def depthLimit : Nat := 127

/-- Reports how a container ends. -/
def endsWell : Option Fault → Except Fault Unit
  | none => pure ()
  | some fault => .error fault

def Key.read : Key → Except Fault String
  | .name s => pure s
  | .damaged fault _ => .error fault

def Key.skip : Key → Except Fault Unit
  | .damaged _ (some fault) => .error fault
  | _ => pure ()

namespace Draft

def ofJson : Json → Draft
  | .null => .null
  | .bool b => .bool b
  | .int i => .int i
  | .float f => .float f
  | .str s => .str s
  | .arr items => .arr (ofItems items) none
  | .obj members => .obj (ofMembers members) none
where
  ofItems : List Json → List Draft
    | [] => []
    | v :: vs => ofJson v :: ofItems vs
  ofMembers : List (String × Json) → List (Key × Draft)
    | [] => []
    | (k, v) :: ms => (.name k, ofJson v) :: ofMembers ms

/-- Reads the whole value; `depth` more containers may be opened. -/
def read (depth : Nat) : Draft → Except Fault Json
  | .null => pure .null
  | .bool b => pure (.bool b)
  | .int i => pure (.int i)
  | .float f => pure (.float f)
  | .str s => pure (.str s)
  | .damaged _ fault _ => .error fault
  | .arr items ending =>
    if depth = 0 then .error .malformed
    else do
      let vs ← readItems (depth - 1) items
      endsWell ending
      pure (.arr vs)
  | .obj members ending =>
    if depth = 0 then .error .malformed
    else do
      let ms ← readMembers (depth - 1) members
      endsWell ending
      pure (.obj ms)
where
  readItems (depth : Nat) : List Draft → Except Fault (List Json)
    | [] => pure []
    | d :: ds => do
      let v ← read depth d
      let vs ← readItems depth ds
      pure (v :: vs)
  readMembers (depth : Nat) : List (Key × Draft) → Except Fault (List (String × Json))
    | [] => pure []
    | (k, d) :: ms => do
      let k ← k.read
      let v ← read depth d
      let ms ← readMembers depth ms
      pure ((k, v) :: ms)

/-- Passes over the value, however deep it is nested. -/
def skip : Draft → Except Fault Unit
  | .damaged _ _ (some fault) => .error fault
  | .arr items ending => do
    skipItems items
    endsWell ending
  | .obj members ending => do
    skipMembers members
    endsWell ending
  | _ => pure ()
where
  skipItems : List Draft → Except Fault Unit
    | [] => pure ()
    | d :: ds => do
      skip d
      skipItems ds
  skipMembers : List (Key × Draft) → Except Fault Unit
    | [] => pure ()
    | (k, d) :: ms => do
      k.skip
      skip d
      skipMembers ms

/-- The fault met by a decoder that wants a value of another kind: at a bracket it is known
at once, a scalar is read first. -/
def mismatch : Draft → Fault
  | .damaged _ fault _ => fault
  | _ => .mismatched

end Draft

/-- A text as a document: its value, and what is wrong with what follows it. -/
structure Document where
  root : Draft
  ending : Option Fault
  deriving Repr

def Document.ofJson (v : Json) : Document := ⟨.ofJson v, none⟩

end Schemata.Json
