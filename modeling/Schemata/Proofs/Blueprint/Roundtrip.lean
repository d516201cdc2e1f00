import Schemata.Compile
import Schemata.Proofs.Blueprint.Decoding
import Schemata.Proofs.Json.Reading

/-!
# Saving and loading

A blueprint is saved as the text of its object, and loaded by reading the text and decoding
what it holds. All that a blueprint is made of is read back as it was written: its integers
have 64 bits, and of its floats it is required.
-/
namespace Schemata

open Json

theorem ColumnType.faithful_toMembers (t : ColumnType) : ∀ m ∈ t.toMembers, Faithful m.2 := by
  have hsmall : ∀ n : UInt8, Faithful (.int n.toNat) := fun n =>
    faithful_natCast (Nat.lt_trans n.toNat_lt (by decide))
  have hlength : ∀ n : UInt32, Faithful (.int n.toNat) := fun n =>
    faithful_natCast (Nat.lt_trans n.toNat_lt (by decide))
  have hstr : ∀ s, Faithful (.str s) := fun _ => trivial
  cases t <;> simp [ColumnType.toMembers, hsmall, hlength, hstr, faithful_strings]

/-- Whether the default is read back from its text. -/
def DefaultValue.ReadsBack : DefaultValue → Prop
  | .float f => Json.ReadsBack f
  | _ => True

theorem DefaultValue.faithful_toJson {v : DefaultValue} (hfinite : v.IsFinite)
    (hback : v.ReadsBack) : Faithful v.toJson := by
  cases v with
  | integer i =>
    have hlt : i.toInt < (UInt64.size : Int) := Int.lt_of_le_of_lt i.toInt_le (by decide)
    exact ⟨i.minValue_le_toInt, hlt⟩
  | float f => rw [toJson_float hfinite]; exact hback
  | boolean b => trivial
  | string s => trivial

theorem Column.faithful_toJson {c : Column} (hfinite : c.IsFinite)
    (hback : ∀ v, c.default = some v → v.ReadsBack) : Faithful c.toJson := by
  obtain ⟨name, type, nullable, default, autoIncrement⟩ := c
  rw [toJson, Faithful, faithfulMembers_iff]
  have hbool : ∀ b, Faithful (.bool b) := fun _ => trivial
  simp only [toMembers, List.forall_mem_append, List.forall_mem_cons, List.cons_append]
  refine ⟨trivial, ⟨type.faithful_toMembers, hbool _, ?default⟩, hbool _, by simp⟩
  cases default with
  | none => simp
  | some v =>
    rw [List.forall_mem_singleton]
    exact DefaultValue.faithful_toJson (hfinite v rfl) (hback v rfl)

theorem Command.faithful_toJson (c : Command) : Faithful c.toJson := by
  rw [toJson, Faithful, faithfulMembers_iff, List.forall_mem_cons]
  refine ⟨trivial, ?_⟩
  have hstr : ∀ s, Faithful (.str s) := fun _ => trivial
  cases c with
  | foreign k =>
    obtain ⟨name, columns, on, references, onDelete, onUpdate⟩ := k
    cases onDelete <;> cases onUpdate <;>
      simp [toMembers, ForeignKey.toMembers, ForeignKeyAction.toJson, hstr, faithful_strings]
  | _ => simp [toMembers, Index.toMembers, hstr, faithful_strings]

namespace Blueprint

theorem faithful_toJson {b : Blueprint} (hfinite : b.IsFinite)
    (hback : ∀ c ∈ b.columns, ∀ v, c.default = some v → v.ReadsBack) : Faithful b.toJson := by
  rw [toJson, Faithful, faithfulMembers_iff]
  simp only [List.forall_mem_cons]
  refine ⟨trivial, ?_, ?_, by simp⟩
  · rw [Faithful, faithfulItems_iff, List.forall_mem_map]
    exact fun c hc => Column.faithful_toJson (hfinite c hc) (hback c hc)
  · rw [Faithful, faithfulItems_iff, List.forall_mem_map]
    exact fun c _ => c.faithful_toJson

/-- **Saving and loading loses nothing.** With finite floats a blueprint is told from its
document; if the text of each of its floats reads as that float, it is told from the text of
the document too, and compiles for every dialect to what it compiled to before. -/
theorem load_save {b : Blueprint}
    (hfinite : ∀ c ∈ b.columns, ∀ f, c.default = some (.float f) → Decimal.isFinite f) :
    ofDocument (.ofJson b.toJson) = .ok b ∧
      ((∀ c ∈ b.columns, ∀ f, c.default = some (.float f) → ReadsBack f) →
        ofDocument (.ofText (render b.toJson)) = .ok b ∧
        ∀ d : Dialect, (ofDocument (.ofText (render b.toJson))).map d.grammar.compile =
          .ok (d.grammar.compile b)) := by
  have hfinite : b.IsFinite := by
    intro c hc v hv
    cases v with
    | float f => exact hfinite c hc f hv
    | boolean _ | integer _ | string _ => trivial
  refine ⟨ofDocument_ofJson hfinite, fun hback => ?_⟩
  have hback : ∀ c ∈ b.columns, ∀ v, c.default = some v → v.ReadsBack := by
    intro c hc v hv
    cases v with
    | float f => exact hback c hc f hv
    | boolean _ | integer _ | string _ => trivial
  have hload : ofDocument (.ofText (render b.toJson)) = .ok b := by
    rw [ofText_render (faithful_toJson hfinite hback)]
    exact ofDocument_ofJson hfinite
  refine ⟨hload, fun d => ?_⟩
  rw [hload]
  rfl

/-- A float that is a whole number comes back as a float. -/
theorem load_save_whole_float :
    let b : Blueprint :=
      { table := "prices"
        columns :=
          [{ name := "id", type := .integer, autoIncrement := true },
            { name := "price", type := .decimal 10 2, default := some (.float 2.0) },
            { name := "state", type := .enum ["new", "it's"], default := some (.string "2") }]
        commands := [.create, .foreign ⟨"fk", ["id"], "items", ["id"], some .cascade, none⟩] }
    ofDocument (.ofText (render b.toJson)) = .ok b := by
  intro b
  have hfloat : ∀ c ∈ b.columns, ∀ f, c.default = some (.float f) → f = 2.0 := by
    intro c hc f hf
    simp only [b, List.mem_cons, List.not_mem_nil, or_false] at hc
    rcases hc with rfl | rfl | rfl
    · cases hf
    · cases hf; rfl
    · cases hf
  have hfinite : Decimal.isFinite 2.0 := by decide +kernel
  have hback : ReadsBack 2.0 := by
    unfold ReadsBack
    with_unfolding_all rfl
  refine ((load_save fun c hc f hf => ?_).2 fun c hc f hf => ?_).1
  · rw [hfloat c hc f hf]; exact hfinite
  · rw [hfloat c hc f hf]; exact hback

end Blueprint

end Schemata
