import Schemata.Json.Draft

/-!
# Decoders

A decoder walks a draft in reading order and reports the first problem. A value either
is decoded as it is read, or has been read as a whole before its shape is looked at; the
two differ in how some shapes are refused.
-/
namespace Schemata.Json

/-- Where a value stands: how many more containers may be opened, and whether the value
has already been read as a whole. -/
structure Place where
  depth : Nat
  buffered : Bool
  deriving DecidableEq, Repr

namespace Place

def root : Place := ⟨depthLimit, false⟩

/-- A value that has been read as a whole. -/
def whole : Place := ⟨depthLimit, true⟩

def enter (p : Place) : Except Fault Place :=
  if p.depth = 0 then .error .malformed else pure { p with depth := p.depth - 1 }

def surplus (p : Place) : Fault := if p.buffered then .mismatched else .malformed

end Place

abbrev Decoder (α : Type) := Place → Draft → Except Fault α

namespace Decoder

variable {α σ : Type}

def string : Decoder String
  | _, .str s => pure s
  | _, d => .error d.mismatch

def bool : Decoder Bool
  | _, .bool b => pure b
  | _, d => .error d.mismatch

/-- A natural number below `bound`; nothing but an integer literal will do. -/
def natBelow (bound : Nat) : Decoder Nat
  | _, .int (.ofNat n) => if n < bound then pure n else .error .mismatched
  | _, d => .error d.mismatch

/-- `null` stands for nothing. -/
def optional (decoder : Decoder α) : Decoder (Option α)
  | _, .null => pure none
  | _, .damaged .null fault _ => .error fault
  | p, d => some <$> decoder p d

def list (decoder : Decoder α) : Decoder (List α)
  | p, .arr items ending => do
    let p ← p.enter
    let as ← items.mapM (decoder p)
    endsWell ending
    pure as
  | _, d => .error d.mismatch

/-- Reads the whole value first and looks at its shape afterwards. -/
def buffered (decode : Json → Except Fault α) : Decoder α
  | p, d => d.read p.depth >>= decode

/-- One of a set of names: a string, or an object whose only key is the name and whose
value is `null`. What begins otherwise is refused unread. -/
def choice (ofName? : String → Option α) : Decoder α
  | _, .str s => named s
  | _, .damaged .nothing fault _ => .error fault
  | _, .damaged .quote fault _ => .error fault
  | p, .obj members ending => do
    let _ ← p.enter
    if p.buffered then
      match members with
      | [(k, d)] => do
        let a ← k.read >>= named
        if isEmpty d then pure a else .error .mismatched
      | _ => .error .mismatched
    else
      match members with
      | [] => .error .malformed
      | (k, d) :: rest => do
        let a ← k.read >>= named
        match d with
        | .null => pure ()
        | d => .error d.mismatch
        if rest.isEmpty then endsWell ending else .error .malformed
        pure a
  | p, _ => .error p.surplus
where
  named (s : String) : Except Fault α :=
    match ofName? s with
    | some a => pure a
    | none => .error .mismatched
  isEmpty : Draft → Bool
    | .null => true
    | .obj [] _ => true
    | _ => false

/-- Decodes the value of a key that may stand only once. -/
def once (slot : Option α) (decoder : Decoder α) : Decoder (Option α)
  | p, d => if slot.isSome then .error .mismatched else some <$> decoder p d

/-- Takes the members one after the other into `s`. -/
def foldMembers (step : σ → String → Draft → Except Fault σ) (s : σ) :
    List (Key × Draft) → Except Fault σ
  | [] => pure s
  | (k, d) :: ms => do
    let k ← k.read
    let s ← step s k d
    foldMembers step s ms

/-- The next item of a record written as an array, or `absent` where the array has ended. -/
def nextItem (decode : Draft → Except Fault α) (absent : Except Fault α) (ending : Option Fault) :
    List Draft → Except Fault (α × List Draft)
  | [] => do
    endsWell ending
    let a ← absent
    pure (a, [])
  | d :: ds => do
    let a ← decode d
    pure (a, ds)

/-- Checks that a record written as an array has no more items. -/
def noMore (p : Place) (ending : Option Fault) : List Draft → Except Fault Unit
  | [] => endsWell ending
  | _ :: _ => .error p.surplus

end Decoder

/-- Decodes the value first and looks at what follows it after that. -/
def Document.decode {α : Type} (doc : Document) (decoder : Decoder α) : Except Fault α := do
  let a ← decoder .root doc.root
  endsWell doc.ending
  pure a

end Schemata.Json
