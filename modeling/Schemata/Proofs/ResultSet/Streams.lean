import Mathlib.Algebra.Ring.Nat
import Mathlib.Data.List.Induction
import Schemata.Memory.Catalog
import Schemata.Proofs.Results

/-!
# Result sets of streams

A stream of counts and rows is taken in item by item. All rows are kept, and the counts are summed
in 64 bits; the columns are those of the first row that brings any, and stay when later rows come
from another statement under other names. So the rows are stored under their own columns, with the
sum of the counts, exactly if all rows of the stream bring the same names and the sum fits into
64 bits (`stored_under_own_columns_iff`).
-/
namespace Schemata.ResultSet

open Memory

namespace Item

def cells? : Item → Option (List (String × Value))
  | affected _ => none
  | row cells => some cells

def count : Item → UInt64
  | affected count => count
  | row _ => 0

end Item

/-- The rows of a stream, each with its own names. -/
def returned (items : List Item) : List (List (String × Value)) := items.filterMap Item.cells?

/-- How many rows the statements of a stream have changed, however many these are. -/
def total (items : List Item) : Nat := (items.map fun item => item.count.toNat).sum

/-- All rows are there in their order, and the sum of the counts. A row has one value for each
column, each value at the place of the name under which it came, and its object has it under this
name. -/
structure StoredUnderOwnColumns (items : List Item) (r : ResultSet) : Prop where
  rows : r.rows = (returned items).map (·.map Prod.snd)
  rowsAffected : r.rowsAffected = total items
  full : ∀ row ∈ r.rows, row.length = r.columns.length
  own : ∀ cells ∈ returned items, ∀ (i : Nat) (cell : String × Value),
    cells[i]? = some cell → r.columns[i]? = some cell.1
  labelled : r.toJson = .arr ((returned items).map fun cells =>
    rowObject (cells.map Prod.fst) (cells.map Prod.snd))

/-! ## Taking in a stream -/

theorem ofItems_concat (items : List Item) (item : Item) :
    ofItems (items ++ [item]) = (ofItems items).push item :=
  List.foldl_append

theorem returned_concat (items : List Item) (item : Item) :
    returned (items ++ [item]) = returned items ++ item.cells?.toList := by
  rw [returned, List.filterMap_append, List.filterMap_cons]
  cases item <;> rfl

theorem rows_push (r : ResultSet) (item : Item) :
    (r.push item).rows = r.rows ++ (item.cells?.toList).map (·.map Prod.snd) := by
  cases item with
  | affected count => exact (List.append_nil _).symm
  | row cells => rfl

theorem affected_push (r : ResultSet) (item : Item) :
    (r.push item).affected = r.affected + item.count := by
  cases item with
  | affected count => rfl
  | row cells => exact (UInt64.add_zero _).symm

theorem total_concat (items : List Item) (item : Item) :
    total (items ++ [item]) = total items + item.count.toNat := by
  rw [total, List.map_append, List.sum_append, List.map_singleton, List.sum_singleton]
  rfl

/-- No row is lost and none comes out of its turn. -/
theorem rows_ofItems (items : List Item) :
    (ofItems items).rows = (returned items).map (·.map Prod.snd) := by
  induction items using List.reverseRecOn with
  | nil => rfl
  | append_singleton items item ih =>
    rw [ofItems_concat, rows_push, ih, returned_concat, List.map_append]

/-- The sum is counted in 64 bits. -/
theorem rowsAffected_ofItems (items : List Item) :
    (ofItems items).rowsAffected = total items % 2 ^ 64 := by
  induction items using List.reverseRecOn with
  | nil => rfl
  | append_singleton items item ih =>
    rw [rowsAffected] at ih ⊢
    rw [ofItems_concat, affected_push, UInt64.toNat_add, ih, total_concat, Nat.mod_add_mod]

theorem rowsAffected_eq_total_iff (items : List Item) :
    (ofItems items).rowsAffected = total items ↔ total items < 2 ^ 64 := by
  rw [rowsAffected_ofItems]
  exact ⟨fun h => h ▸ Nat.mod_lt _ (by decide), Nat.mod_eq_of_lt⟩

example : (ofItems [.affected (.ofNat (2 ^ 64 - 1)), .affected 1]).rowsAffected = 0 := by decide +kernel

/-- A row that brings the names that are there, or the first ones, leaves its own names. -/
theorem columns_pushRow {r : ResultSet} {cells : List (String × Value)}
    (h : r.columns = [] ∨ cells.map Prod.fst = r.columns) :
    (r.pushRow cells).columns = cells.map Prod.fst := by
  show (if r.columns.isEmpty then cells.map Prod.fst else r.columns) = _
  split
  · rfl
  · next hne =>
    rcases h with h | h
    · exact absurd (List.isEmpty_iff.mpr h) hne
    · exact h.symm

/-- As long as all rows bring the same names, these are the columns. -/
theorem columns_ofItems {names : List String} {items : List Item}
    (h : ∀ cells ∈ returned items, cells.map Prod.fst = names) :
    (ofItems items).columns = if returned items = [] then [] else names := by
  induction items using List.reverseRecOn with
  | nil => rfl
  | append_singleton items item ih =>
    rw [returned_concat] at h ⊢
    have hcolumns := ih fun cells hc => h cells (List.mem_append_left _ hc)
    rw [ofItems_concat]
    cases item with
    | affected count =>
      rw [Item.cells?, Option.toList_none, List.append_nil]
      exact hcolumns
    | row cells =>
      have hcells : cells.map Prod.fst = names :=
        h cells (List.mem_append_right _ (List.mem_singleton_self cells))
      have hknown : (ofItems items).columns = [] ∨ cells.map Prod.fst = (ofItems items).columns := by
        rw [hcolumns, hcells]
        split
        · exact .inl rfl
        · exact .inr rfl
      have hsome : returned items ++ (Item.row cells).cells?.toList ≠ [] :=
        List.append_ne_nil_of_right_ne_nil _ (List.cons_ne_nil cells [])
      rw [if_neg hsome, ← hcells]
      exact columns_pushRow hknown

/-! ## Names -/

/-- A row whose names are the columns is stored under them. -/
theorem StoredUnderOwnColumns.of_names {items : List Item}
    (h : ∀ cells ∈ returned items, cells.map Prod.fst = (ofItems items).columns)
    (hfits : total items < 2 ^ 64) : StoredUnderOwnColumns items (ofItems items) where
  rows := rows_ofItems items
  rowsAffected := (rowsAffected_eq_total_iff items).mpr hfits
  full := by
    rw [rows_ofItems, List.forall_mem_map]
    intro cells hc
    rw [← h cells hc, List.length_map, List.length_map]
  own cells hc i cell hcell := by
    rw [← h cells hc, List.getElem?_map, hcell]
    rfl
  labelled := by
    rw [toJson, rows_ofItems, List.map_map]
    refine congrArg Json.arr (List.map_congr_left fun cells hc => ?_)
    rw [h cells hc]
    rfl

/-- What is stored under its own columns came under these names. -/
theorem StoredUnderOwnColumns.names {items : List Item} {r : ResultSet}
    (h : StoredUnderOwnColumns items r) {cells : List (String × Value)}
    (hc : cells ∈ returned items) : cells.map Prod.fst = r.columns := by
  have hrow : cells.map Prod.snd ∈ r.rows := h.rows ▸ List.mem_map_of_mem hc
  have hlength : cells.length = r.columns.length := by
    rw [← h.full _ hrow, List.length_map]
  refine List.ext_getElem (by rw [List.length_map, hlength]) fun i hi hi' => ?_
  rw [List.length_map] at hi
  obtain ⟨_, hname⟩ := List.getElem?_eq_some_iff.mp
    (h.own cells hc i _ (List.getElem?_eq_getElem hi))
  rw [List.getElem_map, hname]

/-- What a text gives back is what its statements yield, taken in. -/
theorem runText_eq_ok {s : Catalog} {sql : String} {params : List Value} {r : ResultSet} :
    (s.runText sql params).1 = .ok r ↔ ∃ items, (s.stream sql params).1 = .ok items ∧
      ofItems items = r :=
  map_eq_ok

/-- **When rows are stored under their own columns**: for every stream, and so for whatever the
statements of a text yield, all rows are kept in their order and the counts are summed in 64 bits.
Each row has one value for each column, at the place of its own name and labelled with it, and the
sum is that of the counts, exactly if all rows of the stream bring the same names and the sum fits
into 64 bits. -/
theorem stored_under_own_columns_iff (items : List Item) :
    (ofItems items).rows = (returned items).map (·.map Prod.snd) ∧
    (ofItems items).rowsAffected = total items % 2 ^ 64 ∧
    (StoredUnderOwnColumns items (ofItems items) ↔
      (∀ cells ∈ returned items, ∀ cells' ∈ returned items,
        cells.map Prod.fst = cells'.map Prod.fst) ∧ total items < 2 ^ 64) ∧
    ∀ (s : Catalog) (sql : String) (params : List Value), (s.stream sql params).1 = .ok items →
      (s.runText sql params).1 = .ok (ofItems items) := by
  refine ⟨rows_ofItems items, rowsAffected_ofItems items, ⟨fun h => ⟨?_, ?_⟩, ?_⟩,
    fun s sql params h => runText_eq_ok.mpr ⟨items, h, rfl⟩⟩
  · intro cells hc cells' hc'
    rw [h.names hc, h.names hc']
  · exact (rowsAffected_eq_total_iff items).mp h.rowsAffected
  · rintro ⟨hnames, hfits⟩
    refine .of_names (fun cells hc => ?_) hfits
    rw [columns_ofItems fun cells' hc' => hnames cells' hc' cells hc,
      if_neg (List.ne_nil_of_mem hc)]

/-- Rows of one statement, with the count between them. -/
theorem rows_of_one_statement_stored_under_own_columns :
    let items : List Item :=
      [.row [("id", .integer 1), ("id", .text "x")], .affected 2, .row [("id", .null), ("id", .null)]]
    StoredUnderOwnColumns items (ofItems items) := by
  intro items
  refine (stored_under_own_columns_iff items).2.2.1.mpr ⟨?_, by decide⟩
  simp [items, returned, Item.cells?]

/-- Two selections in one text: the rows of the second are stored under the columns of the first,
and the surplus value gets no name at all. -/
theorem second_selection_under_columns_of_first :
    let items : List Item :=
      [.row [("a", .integer 1)], .affected 0, .row [("b", .integer 2), ("c", .integer 3)],
        .affected 0]
    (Catalog.runText {} "select ? as a; select ? as b, ? as c"
        [.integer 1, .integer 2, .integer 3]).1 = .ok (ofItems items) ∧
      (ofItems items).toJson = .arr [.obj [("a", .int 1)], .obj [("a", .int 2)]] ∧
      ¬ StoredUnderOwnColumns items (ofItems items) := by
  intro items
  have hstream : (Catalog.stream {} "select ? as a; select ? as b, ? as c"
      [.integer 1, .integer 2, .integer 3]).1 = .ok items := by
    decide +kernel
  refine ⟨runText_eq_ok.mpr ⟨items, hstream, rfl⟩, rfl, fun h => ?_⟩
  have hreturned : [("b", .integer 2), ("c", .integer 3)] ∈ returned items :=
    List.mem_of_getElem? (i := 1) rfl
  have hsecond : ["b", "c"] = (ofItems items).columns := h.names hreturned
  exact absurd hsecond (by decide)

end Schemata.ResultSet
