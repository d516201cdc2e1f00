import Schemata.Blueprint.Document
import Schemata.Proofs.Json.Decoding

/-!
# Decoders of blueprints invert their encoders

Part by part, from the parameters of a column type up to the whole blueprint: what the decoder
has met after each member of the object that the encoder writes. A part needs as much depth as
arrays and objects stand inside it. A column's type and a command's fields take two turns: they
are kept as they are read, and decoded once the type or the command is known.
-/
namespace Schemata

open Json

namespace ColumnType

/-- The kind of a type, which its name stands for. -/
def kind : ColumnType → Kind
  | .string _ => .string
  | .float _ _ => .float
  | .decimal _ _ => .decimal
  | .enum _ => .enum
  | t => .plain t

/-- What the members of a type tell about its parameters. -/
def parameters : ColumnType → Parameters
  | .string length => { length := some length.toNat }
  | .float precision scale | .decimal precision scale =>
    { precision := some precision.toNat, scale := some scale.toNat }
  | .enum values => { values := some values }
  | _ => {}

theorem filter_type (t : ColumnType) :
    t.toMembers.filter (·.1 == "type") = [("type", .str t.name)] := by
  cases t <;> rfl

theorem kind?_name (t : ColumnType) : kind? (.str t.name) = some t.kind := by
  cases t <;> rfl

theorem step_type (k : Kind) (s : Parameters) (d : Draft) : k.step s "type" d = .ok s := by
  cases k <;> rfl

theorem step_length (s : Parameters) (hs : s.length = none) (length : UInt32) :
    Kind.string.step s "length" (.ofJson (.int length.toNat)) =
      .ok { s with length := some length.toNat } := by
  show (Decoder.once s.length _ _ _ >>= _) = _
  rw [Decoder.once_ok hs (Decoder.natBelow_ofNat length.toNat_lt .whole)]
  rfl

theorem step_precision {k : Kind} (hk : k = .float ∨ k = .decimal) (s : Parameters)
    (hs : s.precision = none) (precision : UInt8) :
    k.step s "precision" (.ofJson (.int precision.toNat)) =
      .ok { s with precision := some precision.toNat } := by
  have h := Decoder.once_ok hs (Decoder.natBelow_ofNat precision.toNat_lt .whole)
  rcases hk with rfl | rfl <;>
    · show (Decoder.once s.precision _ _ _ >>= _) = _
      rw [h]
      rfl

theorem step_scale {k : Kind} (hk : k = .float ∨ k = .decimal) (s : Parameters)
    (hs : s.scale = none) (scale : UInt8) :
    k.step s "scale" (.ofJson (.int scale.toNat)) = .ok { s with scale := some scale.toNat } := by
  have h := Decoder.once_ok hs (Decoder.natBelow_ofNat scale.toNat_lt .whole)
  rcases hk with rfl | rfl <;>
    · show (Decoder.once s.scale _ _ _ >>= _) = _
      rw [h]
      rfl

theorem step_values (s : Parameters) (hs : s.values = none) (values : List String) :
    Kind.enum.step s "values" (.ofJson (strings values)) = .ok { s with values := some values } := by
  have hvalues : Decoder.list Decoder.string .whole (.ofJson (strings values)) = .ok values :=
    Decoder.list_strings values (by decide)
  show (Decoder.once s.values _ _ _ >>= _) = _
  rw [Decoder.once_ok hs hvalues]
  rfl

theorem foldMembers_toMembers (t : ColumnType) :
    Decoder.foldMembers t.kind.step {} (Draft.ofJson.ofMembers t.toMembers) = .ok t.parameters := by
  rw [toMembers.eq_def, Decoder.foldMembers_cons (step_type _ _ _)]
  cases t with
  | string length => exact Decoder.foldMembers_cons (step_length {} rfl length)
  | float precision scale =>
    have hk : Kind.float = .float ∨ Kind.float = .decimal := .inl rfl
    exact (Decoder.foldMembers_cons (step_precision hk {} rfl precision)).trans
      (Decoder.foldMembers_cons (step_scale hk _ rfl scale))
  | decimal precision scale =>
    have hk : Kind.decimal = .float ∨ Kind.decimal = .decimal := .inr rfl
    exact (Decoder.foldMembers_cons (step_precision hk {} rfl precision)).trans
      (Decoder.foldMembers_cons (step_scale hk _ rfl scale))
  | enum values => exact Decoder.foldMembers_cons (step_values {} rfl values)
  | _ => rfl

theorem build_parameters (t : ColumnType) : t.kind.build t.parameters = .ok t := by
  cases t with
  | string length =>
    show Except.ok (ColumnType.string length.toNat.toUInt32) = _
    simp
  | float precision scale =>
    show Except.ok (ColumnType.float precision.toNat.toUInt8 scale.toNat.toUInt8) = _
    simp
  | decimal precision scale =>
    show Except.ok (ColumnType.decimal precision.toNat.toUInt8 scale.toNat.toUInt8) = _
    simp
  | _ => rfl

/-- A type is found among its members. -/
theorem ofMembers_toMembers (t : ColumnType) : ofMembers t.toMembers = .ok t := by
  rw [ofMembers, filter_type]
  simp only [kind?_name, bind, Except.bind]
  rw [foldMembers_toMembers]
  exact build_parameters t

end ColumnType

namespace DefaultValue

/-- Whether the default is not an infinity and not a NaN. -/
def IsFinite : DefaultValue → Prop
  | .float f => Decimal.isFinite f
  | _ => True

theorem toJson_float {f : Float} (hf : IsFinite (.float f)) : (float f).toJson = .float f :=
  if_pos hf

/-- A finite default is a scalar that stands for it. -/
theorem ofJson_toJson {v : DefaultValue} (hv : v.IsFinite) : ofJson v.toJson = .ok v := by
  cases v with
  | boolean b => rfl
  | integer i =>
    rw [toJson, ofJson, int64?_eq_some_iff.mpr rfl]
    rfl
  | float f => rw [toJson_float hv, ofJson]; rfl
  | string s => rfl

theorem nesting_toJson (v : DefaultValue) : v.toJson.nesting = 0 := by
  cases v with
  | float f =>
    rw [toJson, Json.ofFloat]
    split <;> rfl
  | _ => rfl

theorem decode_toJson {v : DefaultValue} (hv : v.IsFinite) (p : Place) :
    decode p (.ofJson v.toJson) = .ok v := by
  have hread : Draft.read p.depth (.ofJson v.toJson) = .ok v.toJson :=
    Draft.read_ofJson _ (by rw [nesting_toJson]; exact Nat.zero_le _)
  show Draft.read p.depth (.ofJson v.toJson) >>= ofJson = _
  rw [hread]
  exact ofJson_toJson hv

/-- A default that is there is not taken for one that is not. -/
theorem optional_decode_toJson {v : DefaultValue} (hv : v.IsFinite) (p : Place) :
    Decoder.optional decode p (.ofJson v.toJson) = .ok (some v) := by
  have hdecode : some <$> decode p (.ofJson v.toJson) = .ok (some v) := by
    rw [decode_toJson hv]
    rfl
  cases v with
  | float f =>
    rw [toJson_float hv] at hdecode ⊢
    exact hdecode
  | _ => exact hdecode

end DefaultValue

namespace Column

/-- The keys of a column's own. -/
def ownKeys : List String := ["name", "nullable", "defaultValue", "autoIncrement"]

theorem Fields.step_other {key : String} (hkey : key ∉ ownKeys) {v : Json} {p : Place}
    (hv : v.nesting ≤ p.depth) (s : Fields) :
    Fields.step p s key (.ofJson v) = .ok { s with others := (key, v) :: s.others } := by
  simp only [ownKeys, List.mem_cons, List.not_mem_nil, or_false, not_or] at hkey
  obtain ⟨hname, hnullable, hdefault, hincrement⟩ := hkey
  rw [Fields.step]
  · rw [Draft.read_ofJson v hv]
    rfl
  all_goals assumption

/-- The members that are not a column's own are kept, last first. -/
theorem foldMembers_others {p : Place} {ms : List (String × Json)}
    (hms : ∀ m ∈ ms, m.1 ∉ ownKeys ∧ m.2.nesting ≤ p.depth) (s : Fields) :
    Decoder.foldMembers (Fields.step p) s (Draft.ofJson.ofMembers ms) =
      .ok { s with others := ms.reverse ++ s.others } := by
  induction ms generalizing s with
  | nil => rfl
  | cons m ms ih =>
    obtain ⟨hkey, hv⟩ := hms m List.mem_cons_self
    rw [Decoder.foldMembers_cons (Fields.step_other hkey hv s),
      ih (fun m hm => hms m (List.mem_cons_of_mem _ hm))]
    simp

/-- The members of a type are not a column's own, and are one array deep at most. -/
theorem type_toMembers (t : ColumnType) :
    ∀ m ∈ t.toMembers, m.1 ∉ ownKeys ∧ m.2.nesting ≤ 1 := by
  have hvalues : ∀ values, (strings values).nesting ≤ 1 := fun values =>
    Nat.le_of_eq (nesting_strings values)
  cases t <;> simp [ColumnType.toMembers, ownKeys, nesting, hvalues]

section

variable {p : Place} {s : Fields}

theorem step_name (hs : s.name = none) (name : String) :
    Fields.step p s "name" (.str name) = .ok { s with name := some name } := by
  show (Decoder.once s.name _ _ _ >>= _) = _
  rw [hs]
  rfl

theorem step_nullable (hs : s.nullable = none) (b : Bool) :
    Fields.step p s "nullable" (.bool b) = .ok { s with nullable := some b } := by
  show (Decoder.once s.nullable _ _ _ >>= _) = _
  rw [hs]
  rfl

theorem step_autoIncrement (hs : s.autoIncrement = none) (b : Bool) :
    Fields.step p s "autoIncrement" (.bool b) = .ok { s with autoIncrement := some b } := by
  show (Decoder.once s.autoIncrement _ _ _ >>= _) = _
  rw [hs]
  rfl

theorem step_default (hs : s.default = none) {v : DefaultValue} (hv : v.IsFinite) :
    Fields.step p s "defaultValue" (.ofJson v.toJson) = .ok { s with default := some (some v) } := by
  show (Decoder.once s.default _ _ _ >>= _) = _
  rw [Decoder.once_ok hs (DefaultValue.optional_decode_toJson hv p)]
  rfl

end

/-- Every float among the column's defaults is finite. -/
def IsFinite (c : Column) : Prop := ∀ v, c.default = some v → v.IsFinite

/-- What is met of a column's own keys, and all others, among the members of a column. -/
theorem foldMembers_toMembers {c : Column} (hc : c.IsFinite) {p : Place} (hp : 1 ≤ p.depth) :
    Decoder.foldMembers (Fields.step p) {} (Draft.ofJson.ofMembers c.toMembers) =
      .ok { name := some c.name, nullable := some c.nullable, default := c.default.map some,
            autoIncrement := some c.autoIncrement, others := c.type.toMembers.reverse } := by
  obtain ⟨name, type, nullable, default, autoIncrement⟩ := c
  have htype := foldMembers_others (s := { name := some name }) fun m hm =>
    ⟨(type_toMembers type m hm).1, Nat.le_trans (type_toMembers type m hm).2 hp⟩
  rw [toMembers, List.append_assoc, List.cons_append,
    Decoder.foldMembers_cons (step_name rfl name), Decoder.foldMembers_append htype,
    List.append_nil, List.cons_append, Decoder.foldMembers_cons (step_nullable rfl nullable)]
  cases default with
  | none => exact Decoder.foldMembers_cons (step_autoIncrement rfl autoIncrement)
  | some v =>
    exact (Decoder.foldMembers_cons (step_default rfl (hc v rfl))).trans
      (Decoder.foldMembers_cons (step_autoIncrement rfl autoIncrement))

/-- A column is told from its object. -/
theorem decode_toJson {c : Column} (hc : c.IsFinite) {p : Place} (hp : 2 ≤ p.depth) :
    decode p (.ofJson c.toJson) = .ok c := by
  have hfold := foldMembers_toMembers hc (p := { p with depth := p.depth - 1 })
    (Nat.le_sub_of_add_le hp)
  obtain ⟨name, type, nullable, default, autoIncrement⟩ := c
  rw [toJson, Draft.ofJson, decode, Place.enter_eq_ok (Nat.le_of_succ_le hp)]
  simp only [bind, Except.bind]
  rw [hfold]
  simp only [endsWell, pure, Except.pure, Fields.build, List.reverse_reverse,
    ColumnType.ofMembers_toMembers, bind, Except.bind, Option.getD_some]
  cases default <;> rfl

end Column

namespace Index

section

variable {p : Place} {s : Fields}

theorem step_name (hs : s.name = none) (name : String) :
    Fields.step p s "index" (.str name) = .ok { s with name := some name } := by
  show (Decoder.once s.name _ _ _ >>= _) = _
  rw [hs]
  rfl

theorem step_columns (hs : s.columns = none) (hp : 1 ≤ p.depth) (columns : List String) :
    Fields.step p s "columns" (.ofJson (strings columns)) =
      .ok { s with columns := some columns } := by
  show (Decoder.once s.columns _ _ _ >>= _) = _
  rw [Decoder.once_ok hs (Decoder.list_strings columns hp)]
  rfl

end

theorem decode_toMembers (i : Index) {p : Place} (hp : 2 ≤ p.depth) :
    decode p (.ofJson (.obj i.toMembers)) = .ok i := by
  have hp' : 1 ≤ p.depth - 1 := Nat.le_sub_of_add_le hp
  have hfold : Decoder.foldMembers (Fields.step { p with depth := p.depth - 1 }) {}
      (Draft.ofJson.ofMembers i.toMembers) = .ok ⟨some i.name, some i.columns⟩ := by
    rw [toMembers, Decoder.foldMembers_cons (step_name rfl i.name)]
    exact Decoder.foldMembers_cons (step_columns rfl hp' i.columns)
  rw [Draft.ofJson, decode, Place.enter_eq_ok (Nat.le_of_succ_le hp)]
  simp only [bind, Except.bind]
  rw [hfold]
  rfl

end Index

namespace ForeignKeyAction

theorem ofName?_name (a : ForeignKeyAction) : ofName? a.name = some a := by
  cases a <;> decide

theorem decode_toJson (a : ForeignKeyAction) (p : Place) :
    decode p (.ofJson a.toJson) = .ok (some a) := by
  have hchoice : Decoder.choice ofName? p (.str a.name) = .ok a := by
    show Decoder.choice.named ofName? a.name = _
    rw [Decoder.choice.named, ofName?_name]
    rfl
  show some <$> Decoder.choice ofName? p (.str a.name) = _
  rw [hchoice]
  rfl

end ForeignKeyAction

namespace ForeignKey

section

variable {p : Place} {s : Fields}

theorem step_name (hs : s.name = none) (name : String) :
    Fields.step p s "index" (.str name) = .ok { s with name := some name } := by
  show (Decoder.once s.name _ _ _ >>= _) = _
  rw [hs]
  rfl

theorem step_columns (hs : s.columns = none) (hp : 1 ≤ p.depth) (columns : List String) :
    Fields.step p s "columns" (.ofJson (strings columns)) =
      .ok { s with columns := some columns } := by
  show (Decoder.once s.columns _ _ _ >>= _) = _
  rw [Decoder.once_ok hs (Decoder.list_strings columns hp)]
  rfl

theorem step_on (hs : s.on = none) (on : String) :
    Fields.step p s "on" (.str on) = .ok { s with on := some on } := by
  show (Decoder.once s.on _ _ _ >>= _) = _
  rw [hs]
  rfl

theorem step_references (hs : s.references = none) (hp : 1 ≤ p.depth) (references : List String) :
    Fields.step p s "references" (.ofJson (strings references)) =
      .ok { s with references := some references } := by
  show (Decoder.once s.references _ _ _ >>= _) = _
  rw [Decoder.once_ok hs (Decoder.list_strings references hp)]
  rfl

theorem step_onDelete (hs : s.onDelete = none) (a : ForeignKeyAction) :
    Fields.step p s "onDelete" (.ofJson a.toJson) = .ok { s with onDelete := some (some a) } := by
  show (Decoder.once s.onDelete _ _ _ >>= _) = _
  rw [Decoder.once_ok hs (a.decode_toJson p)]
  rfl

theorem step_onUpdate (hs : s.onUpdate = none) (a : ForeignKeyAction) :
    Fields.step p s "onUpdate" (.ofJson a.toJson) = .ok { s with onUpdate := some (some a) } := by
  show (Decoder.once s.onUpdate _ _ _ >>= _) = _
  rw [Decoder.once_ok hs (a.decode_toJson p)]
  rfl

end

/-- The actions that are there are met, and no others. -/
theorem foldMembers_toMembers (k : ForeignKey) {p : Place} (hp : 1 ≤ p.depth) :
    Decoder.foldMembers (Fields.step p) {} (Draft.ofJson.ofMembers k.toMembers) =
      .ok { name := some k.name, columns := some k.columns, on := some k.on,
            references := some k.references, onDelete := k.onDelete.map some,
            onUpdate := k.onUpdate.map some } := by
  obtain ⟨name, columns, on, references, onDelete, onUpdate⟩ := k
  simp only [toMembers, List.append_assoc, List.cons_append]
  rw [Decoder.foldMembers_cons (step_name rfl name),
    Decoder.foldMembers_cons (step_columns rfl hp columns),
    Decoder.foldMembers_cons (step_on rfl on),
    Decoder.foldMembers_cons (step_references rfl hp references), List.nil_append]
  cases onDelete with
  | none =>
    cases onUpdate with
    | none => rfl
    | some u => exact Decoder.foldMembers_cons (step_onUpdate rfl u)
  | some a =>
    refine (Decoder.foldMembers_cons (step_onDelete rfl a)).trans ?_
    cases onUpdate with
    | none => rfl
    | some u => exact Decoder.foldMembers_cons (step_onUpdate rfl u)

theorem decode_toMembers (k : ForeignKey) {p : Place} (hp : 2 ≤ p.depth) :
    decode p (.ofJson (.obj k.toMembers)) = .ok k := by
  have hfold := k.foldMembers_toMembers (p := { p with depth := p.depth - 1 })
    (Nat.le_sub_of_add_le hp)
  obtain ⟨name, columns, on, references, onDelete, onUpdate⟩ := k
  rw [Draft.ofJson, decode, Place.enter_eq_ok (Nat.le_of_succ_le hp)]
  simp only [bind, Except.bind]
  rw [hfold]
  cases onDelete <;> cases onUpdate <;> rfl

end ForeignKey

namespace Command

/-- The decoder of a command's fields. -/
def decoder : Command → Decoder Command
  | .create => decodeBare .create
  | .add => decodeBare .add
  | .rename _ => decodeSingle "to" Decoder.string .rename
  | .dropTable => decodeBare .dropTable
  | .dropTableIfExists => decodeBare .dropTableIfExists
  | .dropColumn _ => decodeSingle "columns" (.list Decoder.string) .dropColumn
  | .unique _ => fun p d => Command.unique <$> Index.decode p d
  | .index _ => fun p d => Command.index <$> Index.decode p d
  | .dropUnique _ => decodeSingle "index" Decoder.string .dropUnique
  | .dropIndex _ => decodeSingle "index" Decoder.string .dropIndex
  | .foreign _ => fun p d => Command.foreign <$> ForeignKey.decode p d
  | .primary _ => fun p d => Command.primary <$> Index.decode p d
  | .dropForeign _ => decodeSingle "index" Decoder.string .dropForeign
  | .dropPrimary _ => decodeSingle "index" Decoder.string .dropPrimary

theorem lookup_decoders (c : Command) : decoders.lookup c.name = some c.decoder := by
  cases c <;> rfl

theorem decodeSingle_member {α : Type} {key : String} {field : Decoder α} {build : α → Command}
    {v : Json} {a : α} {p : Place} (hp : 1 ≤ p.depth)
    (h : field { p with depth := p.depth - 1 } (.ofJson v) = .ok a) :
    decodeSingle key field build p (.ofJson (.obj [(key, v)])) = .ok (build a) := by
  have hfold : Decoder.foldMembers
      (fun (s : Option α) k d =>
        if k == key then Decoder.once s field { p with depth := p.depth - 1 } d else pure s)
      none (Draft.ofJson.ofMembers [(key, v)]) = .ok (some a) := by
    refine Decoder.foldMembers_cons ?_
    rw [if_pos (beq_self_eq_true key)]
    exact Decoder.once_ok rfl h
  rw [Draft.ofJson, decodeSingle, Place.enter_eq_ok hp]
  simp only [bind, Except.bind]
  rw [hfold]
  rfl

/-- The fields of a command are told by its decoder. -/
theorem decoder_toMembers (c : Command) :
    c.decoder .whole (.ofJson (.obj c.toMembers)) = .ok c := by
  have hp : 2 ≤ Place.whole.depth := by decide
  have hp' : 1 ≤ Place.whole.depth := by decide
  cases c with
  | create | add | dropTable | dropTableIfExists => rfl
  | rename name | dropUnique name | dropIndex name | dropForeign name | dropPrimary name =>
    exact decodeSingle_member hp' rfl
  | dropColumn columns => exact decodeSingle_member hp' (Decoder.list_strings columns (by decide))
  | unique i | index i | primary i =>
    show _ <$> Index.decode _ _ = _
    rw [toMembers, i.decode_toMembers hp]
    rfl
  | foreign k =>
    show _ <$> ForeignKey.decode _ _ = _
    rw [toMembers, k.decode_toMembers hp]
    rfl

theorem name_notMem_toMembers (c : Command) :
    ∀ m ∈ c.toMembers, (m.1 == "name") = false ∧ m.2.nesting ≤ 1 := by
  have hstrings : ∀ xs, (strings xs).nesting ≤ 1 := fun xs => Nat.le_of_eq (nesting_strings xs)
  have hindex : ∀ i : Index, ∀ m ∈ i.toMembers, (m.1 == "name") = false ∧ m.2.nesting ≤ 1 := by
    intro i
    simp [Index.toMembers, nesting, hstrings]
  cases c with
  | unique i | index i | primary i => exact hindex i
  | foreign k =>
    obtain ⟨name, columns, on, references, onDelete, onUpdate⟩ := k
    cases onDelete <;> cases onUpdate <;>
      simp [toMembers, ForeignKey.toMembers, ForeignKeyAction.toJson, nesting, hstrings]
  | _ => simp [toMembers, nesting, hstrings]

/-- The fields of a command are kept, last first. -/
theorem foldMembers_fields {p : Place} {ms : List (String × Json)}
    (hms : ∀ m ∈ ms, (m.1 == "name") = false ∧ m.2.nesting ≤ p.depth) (s : Fields) :
    Decoder.foldMembers (Fields.step p) s (Draft.ofJson.ofMembers ms) =
      .ok { s with others := ms.reverse ++ s.others } := by
  induction ms generalizing s with
  | nil => rfl
  | cons m ms ih =>
    obtain ⟨key, v⟩ := m
    obtain ⟨hkey, hv⟩ := hms (key, v) List.mem_cons_self
    have hstep : Fields.step p s key (.ofJson v) = .ok { s with others := (key, v) :: s.others } := by
      rw [Fields.step, hkey, Draft.read_ofJson v hv]
      rfl
    rw [Decoder.foldMembers_cons hstep, ih fun m hm => hms m (List.mem_cons_of_mem _ hm)]
    simp

/-- A command is told from its object. -/
theorem decode_toJson (c : Command) {p : Place} (hp : 2 ≤ p.depth) :
    decode p (.ofJson c.toJson) = .ok c := by
  have hp' : 1 ≤ p.depth - 1 := Nat.le_sub_of_add_le hp
  have htag : Fields.step { p with depth := p.depth - 1 } {} "name" (.ofJson (.str c.name)) =
      .ok { tag := some c.decoder } := by
    have hselect : decodeTag (.str c.name) = .ok c.decoder := by
      rw [decodeTag, lookup_decoders]
      rfl
    rw [Fields.step, if_pos (by decide), Draft.ofJson]
    simp only [Decoder.once, hselect]
    rfl
  have hfields := foldMembers_fields (p := { p with depth := p.depth - 1 })
    (fun m hm => ⟨(c.name_notMem_toMembers m hm).1, Nat.le_trans (c.name_notMem_toMembers m hm).2 hp'⟩)
    { tag := some c.decoder }
  rw [toJson, Draft.ofJson, decode, Place.enter_eq_ok (Nat.le_of_succ_le hp)]
  simp only [bind, Except.bind]
  rw [Decoder.foldMembers_cons htag, hfields]
  simp only [endsWell, pure, Except.pure, List.append_nil, List.reverse_reverse]
  exact c.decoder_toMembers

end Command

namespace Blueprint

/-- Every float among the defaults is finite. -/
def IsFinite (b : Blueprint) : Prop := ∀ c ∈ b.columns, c.IsFinite

section

variable {p : Place} {s : Fields}

theorem step_table (hs : s.table = none) (table : String) :
    Fields.step p s "table" (.str table) = .ok { s with table := some table } := by
  show (Decoder.once s.table _ _ _ >>= _) = _
  rw [hs]
  rfl

theorem step_columns (hs : s.columns = none) (hp : 3 ≤ p.depth) {columns : List Column}
    (hcolumns : ∀ c ∈ columns, c.IsFinite) :
    Fields.step p s "columns" (.ofJson (.arr (columns.map Column.toJson))) =
      .ok { s with columns := some columns } := by
  have hlist := Decoder.list_map (p := p) (Nat.le_trans (by decide) hp) fun c hc =>
    Column.decode_toJson (hcolumns c hc) (p := { p with depth := p.depth - 1 })
      (Nat.le_sub_of_add_le hp)
  show (Decoder.once s.columns _ _ _ >>= _) = _
  rw [Decoder.once_ok hs hlist]
  rfl

theorem step_commands (hs : s.commands = none) (hp : 3 ≤ p.depth) (commands : List Command) :
    Fields.step p s "commands" (.ofJson (.arr (commands.map Command.toJson))) =
      .ok { s with commands := some commands } := by
  have hlist := Decoder.list_map (p := p) (Nat.le_trans (by decide) hp) fun c (_ : c ∈ commands) =>
    c.decode_toJson (p := { p with depth := p.depth - 1 }) (Nat.le_sub_of_add_le hp)
  show (Decoder.once s.commands _ _ _ >>= _) = _
  rw [Decoder.once_ok hs hlist]
  rfl

end

/-- A blueprint is told from its object. -/
theorem decode_toJson {b : Blueprint} (hb : b.IsFinite) {p : Place} (hp : 4 ≤ p.depth) :
    decode p (.ofJson b.toJson) = .ok b := by
  have hp' : 3 ≤ p.depth - 1 := Nat.le_sub_of_add_le hp
  have hfold : Decoder.foldMembers (Fields.step { p with depth := p.depth - 1 }) {}
      (Draft.ofJson.ofMembers [("table", .str b.table),
        ("columns", .arr (b.columns.map Column.toJson)),
        ("commands", .arr (b.commands.map Command.toJson))]) =
      .ok ⟨some b.table, some b.columns, some b.commands⟩ := by
    rw [Decoder.foldMembers_cons (step_table rfl b.table),
      Decoder.foldMembers_cons (step_columns rfl hp' hb)]
    exact Decoder.foldMembers_cons (step_commands rfl hp' b.commands)
  rw [toJson, Draft.ofJson, decode, Place.enter_eq_ok (Nat.le_trans (by decide) hp)]
  simp only [bind, Except.bind]
  rw [hfold]
  rfl

/-- A blueprint is told from the document that it is saved as. -/
theorem ofDocument_ofJson {b : Blueprint} (hb : b.IsFinite) :
    ofDocument (.ofJson b.toJson) = .ok b := by
  rw [ofDocument, Document.decode, Document.ofJson, decode_toJson hb (by decide)]
  rfl

end Blueprint

end Schemata
