import Schemata.Value.Basic

/-!
# Result sets

What a query text gives back. Its statements yield one stream of counts and rows, which is taken
in item by item. The column names are those of the first row that brings any; a row as a JSON
object has its cells under these names, in the order of the names.
-/
namespace Schemata

structure ResultSet where
  columns : List String := []
  rows : List (List Value) := []
  /-- The rows that were changed; beyond 64 bits the count begins again at zero. -/
  affected : UInt64 := 0
  deriving DecidableEq, Repr

namespace ResultSet

def rowsAffected (r : ResultSet) : Nat := r.affected.toNat

/-- One item of the stream that a query text yields. -/
inductive Item where
  /-- A statement is done and has changed so many rows. -/
  | affected (count : UInt64)
  /-- A row, each cell under the name of its column. -/
  | row (cells : List (String × Value))
  deriving DecidableEq, Repr

/-- Appends a row; the first names stay. -/
def pushRow (r : ResultSet) (cells : List (String × Value)) : ResultSet :=
  { r with
    columns := if r.columns.isEmpty then cells.map Prod.fst else r.columns
    rows := r.rows ++ [cells.map Prod.snd] }

def push (r : ResultSet) : Item → ResultSet
  | .affected count => { r with affected := r.affected + count }
  | .row cells => r.pushRow cells

/-- The result set of a stream. -/
def ofItems (items : List Item) : ResultSet := items.foldl push {}

/-- Puts a value under a key, in the order of the keys; an earlier value of the key goes. -/
def insertMember (key : String) (v : Json) : List (String × Json) → List (String × Json)
  | [] => [(key, v)]
  | (k, w) :: ms =>
    if key < k then (key, v) :: (k, w) :: ms
    else if key = k then (key, v) :: ms
    else (k, w) :: insertMember key v ms

/-- A row as an object: names without a cell and cells without a name are left out, and of
the cells under one name the last one stays. -/
def rowObject (columns : List String) (row : List Value) : Json :=
  .obj ((columns.zip row).foldl (fun ms (k, v) => insertMember k v.toJson ms) [])

/-- The rows as a list of objects. -/
def toJson (r : ResultSet) : Json := .arr (r.rows.map (rowObject r.columns))

end ResultSet

end Schemata
