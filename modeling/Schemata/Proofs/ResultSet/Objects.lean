import Mathlib.Data.List.Forall2
import Mathlib.Data.List.Induction
import Mathlib.Data.List.Nodup
import Mathlib.Order.Bounds.Basic
import Schemata.Proofs.Json.Decoding
import Schemata.ResultSet

/-!
# Rows as objects

A row becomes an object whose members are put in one after the other, each in the order of the
keys and over an earlier one of its key. Looked up, the object gives what the cells give when the
last one counts (`lookup_members`); from this follow the keys that there are and, where no
column is repeated and every cell has a name, the whole row (`toJson_keeps_named_cells`). Values
are told from their JSON, unless they are floats that JSON has no form for.
-/
namespace Schemata

open Json

namespace Value

/-- Whether the value is not an infinity and not a NaN. -/
def IsFinite : Value → Prop
  | .float f => Decimal.isFinite f
  | _ => True

theorem mapM_byte? (bs : List UInt8) : (bs.map fun b => .int b.toNat).mapM byte? = some bs := by
  induction bs with
  | nil => rfl
  | cons b bs ih =>
    have hbyte : byte? (.int b.toNat) = some b := by
      show (if b.toNat < UInt8.size then some b.toNat.toUInt8 else none) = _
      rw [if_pos b.toNat_lt]
      simp
    rw [List.map_cons, List.mapM_cons, hbyte, ih]
    rfl

/-- A value is told from its JSON, if JSON has a form for it. -/
theorem ofJson_toJson {v : Value} (hv : v.IsFinite) : ofJson v.toJson = .ok v := by
  cases v with
  | null | bool b | text s => rfl
  | integer i =>
    rw [toJson, ofJson, int64?_eq_some_iff.mpr rfl]
    rfl
  | float f =>
    have hfloat : toJson (.float f) = .float f := if_pos hv
    rw [hfloat]
    rfl
  | bytes bs =>
    rw [toJson, ofJson, mapM_byte?]
    rfl

/-- A float that JSON has no form for is lost. -/
theorem toJson_eq_null {v : Value} (hv : ¬ v.IsFinite) : v.toJson = .null := by
  cases v with
  | float f => exact if_neg hv
  | null | bool b | integer i | text s | bytes bs => exact absurd trivial hv

theorem nesting_toJson (v : Value) : v.toJson.nesting ≤ 1 := by
  cases v with
  | float f =>
    rw [toJson, Json.ofFloat]
    split <;> exact Nat.zero_le 1
  | bytes bs =>
    have hitems : nesting.nestingItems (bs.map fun b => .int b.toNat) = 0 := by
      induction bs with
      | nil => rfl
      | cons b bs ih => rw [List.map_cons, nesting.nestingItems, ih]; rfl
    rw [toJson, nesting, hitems]
  | null | bool b | integer i | text s => exact Nat.zero_le 1

/-- The same, from the value's document. -/
theorem decode_toJson {v : Value} (hv : v.IsFinite) :
    (Document.ofJson v.toJson).decode decode = .ok v := by
  have hread : Draft.read Place.root.depth (.ofJson v.toJson) = .ok v.toJson :=
    Draft.read_ofJson _ (Nat.le_trans v.nesting_toJson (by decide))
  have hdecode : decode .root (.ofJson v.toJson) = .ok v := by
    rw [decode, Decoder.buffered, hread]
    exact ofJson_toJson hv
  rw [Document.decode, Document.ofJson, hdecode]
  rfl

end Value

namespace ResultSet

variable {k key : String} {v : Json} {ms : List (String × Json)}

/-! ## Members in the order of their keys -/

/-- The keys ascend, so that none is repeated. -/
def Ascending (ms : List (String × Json)) : Prop := (ms.map Prod.fst).Pairwise (· < ·)

theorem Ascending.nodup (h : Ascending ms) : (ms.map Prod.fst).Nodup := by
  refine List.Pairwise.imp ?_ h
  rintro a b hlt rfl
  exact String.lt_irrefl _ hlt

theorem keys_insertMember :
    k ∈ (insertMember key v ms).map Prod.fst ↔ k = key ∨ k ∈ ms.map Prod.fst := by
  induction ms with
  | nil => simp [insertMember]
  | cons m ms ih =>
    obtain ⟨k', w⟩ := m
    rw [insertMember]
    split
    · simp
    · split
      · next heq => subst heq; simp
      · simp only [List.map_cons, List.mem_cons, ih]
        exact or_left_comm

theorem Ascending.insertMember (h : Ascending ms) (key : String) (v : Json) :
    Ascending (insertMember key v ms) := by
  induction ms with
  | nil => exact List.pairwise_singleton _ _
  | cons m ms ih =>
    obtain ⟨k', w⟩ := m
    obtain ⟨hhead, htail⟩ := List.pairwise_cons.mp h
    rw [ResultSet.insertMember]
    split
    · next hlt =>
      refine List.pairwise_cons.mpr ⟨?_, h⟩
      intro k hk
      rcases List.mem_cons.mp hk with rfl | hk
      · exact hlt
      · exact String.lt_trans hlt (hhead k hk)
    · next hnlt =>
      split
      · next heq => subst heq; exact h
      · next hne =>
        have hgt : k' < key :=
          (Std.lt_trichotomy key k').elim (absurd · hnlt) (·.resolve_left hne)
        refine List.pairwise_cons.mpr ⟨?_, ih htail⟩
        intro k hk
        rcases keys_insertMember.mp hk with rfl | hk
        · exact hgt
        · exact hhead k hk

theorem lookup_cons {α : Type} (k key : String) (a : α) (ms : List (String × α)) :
    ((key, a) :: ms).lookup k = if k = key then some a else ms.lookup k := by
  by_cases hk : k = key
  · rw [if_pos hk, hk, List.lookup_cons_self]
  · rw [if_neg hk, List.lookup_cons, beq_eq_false_iff_ne.mpr hk]

/-- An inserted member is found, and the others are found as before. -/
theorem lookup_insertMember (k key : String) (v : Json) (ms : List (String × Json)) :
    (insertMember key v ms).lookup k = if k = key then some v else ms.lookup k := by
  induction ms with
  | nil => exact lookup_cons k key v []
  | cons m ms ih =>
    obtain ⟨k', w⟩ := m
    rw [insertMember]
    split
    · exact lookup_cons k key v _
    · split
      · next heq =>
        subst heq
        rw [lookup_cons, lookup_cons]
        split <;> rfl
      · next hne =>
        rw [lookup_cons, ih, lookup_cons]
        by_cases hk : k = key
        · have hk' : k ≠ k' := fun h => hne (hk.symm.trans h)
          rw [if_neg hk', if_pos hk, if_pos hk]
        · rw [if_neg hk, if_neg hk]

/-! ## The members of a row -/

/-- The members of the object of some cells, each under its name. -/
def members (cells : List (String × Value)) : List (String × Json) :=
  cells.foldl (fun ms (k, v) => insertMember k v.toJson ms) []

theorem rowObject_eq (columns : List String) (row : List Value) :
    rowObject columns row = .obj (members (columns.zip row)) := rfl

theorem members_concat (cells : List (String × Value)) (k : String) (v : Value) :
    members (cells ++ [(k, v)]) = insertMember k v.toJson (members cells) :=
  List.foldl_append

theorem ascending_members (cells : List (String × Value)) : Ascending (members cells) := by
  induction cells using List.reverseRecOn with
  | nil => exact .nil
  | append_singleton cells cell ih => exact members_concat cells _ _ ▸ ih.insertMember _ _

theorem keys_members (k : String) (cells : List (String × Value)) :
    k ∈ (members cells).map Prod.fst ↔ k ∈ cells.map Prod.fst := by
  induction cells using List.reverseRecOn with
  | nil => rfl
  | append_singleton cells cell ih =>
    obtain ⟨key, v⟩ := cell
    rw [members_concat, keys_insertMember, ih, List.map_append, List.mem_append, or_comm]
    exact or_congr_right List.mem_singleton.symm

/-- Of the cells under one name the last one counts. -/
theorem lookup_members (k : String) (cells : List (String × Value)) :
    (members cells).lookup k = (cells.reverse.lookup k).map Value.toJson := by
  induction cells using List.reverseRecOn with
  | nil => rfl
  | append_singleton cells cell ih =>
    obtain ⟨key, v⟩ := cell
    rw [members_concat, lookup_insertMember, ih, List.reverse_concat, lookup_cons]
    split <;> rfl

/-- The columns that have a cell in the row. -/
def named (columns : List String) (row : List Value) : List String :=
  columns.take (min columns.length row.length)

theorem map_fst_zip (columns : List String) (row : List Value) :
    (columns.zip row).map Prod.fst = named columns row := by
  rw [List.zip_eq_zip_take_min, List.map_fst_zip]
  · rfl
  · simp

/-- The last cell under a name is the one at the greatest index. -/
theorem lookup_reverse_zip {columns : List String} {row : List Value} {i : Nat}
    (hi : IsGreatest {j | (named columns row)[j]? = some k} i) :
    ∃ cell, row[i]? = some cell ∧ (columns.zip row).reverse.lookup k = some cell := by
  have hnamed : ∀ j, (named columns row)[j]? = ((columns.zip row)[j]?).map Prod.fst := fun j => by
    rw [← map_fst_zip, List.getElem?_map]
  have hcell : ((columns.zip row)[i]?).map Prod.fst = some k := hnamed i ▸ hi.1
  obtain ⟨⟨_, cell⟩, hzip, rfl⟩ := Option.map_eq_some_iff.mp hcell
  refine ⟨cell, (List.getElem?_zip_eq_some.mp hzip).2, ?_⟩
  obtain ⟨hlt, hget⟩ := List.getElem?_eq_some_iff.mp hzip
  rw [List.lookup_eq_some_iff]
  refine ⟨((columns.zip row).drop (i + 1)).reverse, ((columns.zip row).take i).reverse, ?_, ?_⟩
  · have hsplit : columns.zip row =
        (columns.zip row).take i ++ (columns.zip row)[i] :: (columns.zip row).drop (i + 1) := by
      rw [List.getElem_cons_drop, List.take_append_drop]
    rw [hget] at hsplit
    conv_lhs => rw [hsplit]
    simp
  · -- behind the greatest index there is no cell of this name
    intro p hp
    rw [List.mem_reverse, List.mem_iff_getElem?] at hp
    obtain ⟨j, hj⟩ := hp
    rw [List.getElem?_drop] at hj
    rw [bne_iff_ne]
    rintro heq
    have hgreater : (named columns row)[i + 1 + j]? = some p.1 := by rw [hnamed, hj]; rfl
    have hle : i + 1 + j ≤ i := hi.2 (heq ▸ hgreater)
    omega

/-- What the object of a row has: the names of the columns that have a cell, each once, and under
each name the last cell. -/
structure Labels (columns : List String) (row : List Value) (members : List (String × Json)) :
    Prop where
  distinct : (members.map Prod.fst).Nodup
  keys : ∀ k, k ∈ members.map Prod.fst ↔ k ∈ named columns row
  last : ∀ (k : String) (i : Nat), IsGreatest {j | (named columns row)[j]? = some k} i →
    ∃ cell : Value, row[i]? = some cell ∧ members.lookup k = some cell.toJson

theorem labels_members (columns : List String) (row : List Value) :
    Labels columns row (members (columns.zip row)) where
  distinct := (ascending_members _).nodup
  keys k := by rw [keys_members, map_fst_zip]
  last k i hi := by
    obtain ⟨cell, hrow, hlookup⟩ := lookup_reverse_zip hi
    exact ⟨cell, hrow, by rw [lookup_members, hlookup]; rfl⟩

/-! ## Reading rows back -/

/-- The value under a column's name. -/
def cellOf? (members : List (String × Json)) (column : String) : Option Value :=
  (members.lookup column).bind fun v => ((Document.ofJson v).decode Value.decode).toOption

def rowOf? (columns : List String) : Json → Option (List Value)
  | .obj members => columns.mapM (cellOf? members)
  | _ => none

/-- The rows of a list of objects, given the columns. -/
def rowsOf? (columns : List String) : Json → Option (List (List Value))
  | .arr items => items.mapM (rowOf? columns)
  | _ => none

theorem mapM_eq_some_of_forall₂ {α β : Type} {f : α → Option β} {as : List α} {bs : List β}
    (h : List.Forall₂ (fun a b => f a = some b) as bs) : as.mapM f = some bs := by
  induction h with
  | nil => rfl
  | cons ha _ ih => rw [List.mapM_cons, ha, ih]; rfl

/-- Every cell has a name of its own, and a form in JSON. -/
structure Recoverable (columns : List String) (row : List Value) : Prop where
  full : row.length = columns.length
  finite : ∀ cell ∈ row, cell.IsFinite

theorem rowOf?_rowObject {columns : List String} {row : List Value} (hcolumns : columns.Nodup)
    (hrow : Recoverable columns row) : rowOf? columns (rowObject columns row) = some row := by
  have hnamed : named columns row = columns := by
    rw [named, hrow.full, Nat.min_self, List.take_length]
  rw [rowObject_eq]
  refine mapM_eq_some_of_forall₂ (List.forall₂_iff_get.mpr ⟨hrow.full.symm, fun i hc hr => ?_⟩)
  have hgreatest : IsGreatest {j | (named columns row)[j]? = some columns[i]} i := by
    rw [hnamed]
    refine ⟨List.getElem?_eq_getElem hc, fun j hj => ?_⟩
    obtain ⟨hj, hget⟩ := List.getElem?_eq_some_iff.mp hj
    exact Nat.le_of_eq (hcolumns.getElem_inj_iff.mp hget)
  obtain ⟨cell, hcell, hlookup⟩ := (labels_members columns row).last _ _ hgreatest
  obtain ⟨_, rfl⟩ := List.getElem?_eq_some_iff.mp hcell
  show ((members (columns.zip row)).lookup columns[i]).bind _ = some row[i]
  rw [hlookup, Option.bind_some, Value.decode_toJson (hrow.finite _ (List.getElem_mem hr))]
  rfl

/-- **Rows as objects keep every cell that has a name.** There is one object for each row, in the
order of the rows; its keys are the names of the first columns, as many as the row has cells, each
once, and the value under a name is that of the last cell under it. A value is told from its
JSON, and only a float that is not finite is lost; so rows of finite values under distinct names
are read back as they were, whatever kinds of values they have. -/
theorem toJson_keeps_named_cells (r : ResultSet) :
    (∃ objects : List (List (String × Json)),
      r.toJson = .arr (objects.map .obj) ∧ List.Forall₂ (Labels r.columns) r.rows objects) ∧
    (∀ v : Value, (v.IsFinite → (Document.ofJson v.toJson).decode Value.decode = .ok v) ∧
      (¬ v.IsFinite → v.toJson = .null)) ∧
    (r.columns.Nodup → (∀ row ∈ r.rows, Recoverable r.columns row) →
      rowsOf? r.columns r.toJson = some r.rows) := by
  refine ⟨⟨r.rows.map fun row => members (r.columns.zip row), ?_, ?_⟩, fun v =>
    ⟨Value.decode_toJson, Value.toJson_eq_null⟩, fun hcolumns hrows => ?_⟩
  · rw [toJson, List.map_map]
    rfl
  · rw [List.forall₂_map_right_iff, List.forall₂_same]
    exact fun row _ => labels_members r.columns row
  · show (r.rows.map (rowObject r.columns)).mapM (rowOf? r.columns) = _
    refine mapM_eq_some_of_forall₂ ?_
    rw [List.forall₂_map_left_iff, List.forall₂_same]
    exact fun row hrow => rowOf?_rowObject hcolumns (hrows row hrow)

/-- The last cell of a repeated name counts, and a cell beyond the columns has no name. -/
example : rowObject ["b", "a", "b"] [.integer 1, .null, .text "x", .bool true] =
    .obj [("a", .null), ("b", .str "x")] := rfl

/-- Two, the float two, the text 2 and the byte 2 are kept apart. -/
theorem kinds_of_two_kept_apart :
    let r : ResultSet :=
      { columns := ["b", "a", "d", "c"]
        rows := [[.integer 2, .float 2.0, .text "2", .bytes [2]], [.null, .bool true, .text "", .bytes []]] }
    rowsOf? r.columns r.toJson = some r.rows := by
  intro r
  refine (toJson_keeps_named_cells r).2.2 (by decide) fun row hrow => ?_
  have hfloat : Decimal.isFinite 2.0 := by decide +kernel
  simp only [r, List.mem_cons, List.not_mem_nil, or_false] at hrow
  rcases hrow with rfl | rfl
  · refine ⟨rfl, ?_⟩
    simp only [List.forall_mem_cons]
    exact ⟨trivial, hfloat, trivial, trivial, by simp⟩
  · refine ⟨rfl, ?_⟩
    simp only [List.forall_mem_cons]
    exact ⟨trivial, trivial, trivial, trivial, by simp⟩

end ResultSet

end Schemata
