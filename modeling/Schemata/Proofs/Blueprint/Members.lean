import Schemata.Proofs.Blueprint.Decoding
import Schemata.Proofs.Json.Members

/-!
# The members of columns and commands

Each record of a blueprint is told slot by slot, so the members of its object may change places
and those under unknown keys do not count. Which keys are known to a column depends on its type,
and which to a command on its name. The other members are kept until the type or the name is
known, so they are compared by those that will count in the end (`Alike`).
-/
namespace Schemata

open Json
open Decoder (slot passOver keep both Alike Lenient slot_other lenient_slot lenient_slot_key
  lenient_passOver lenient_keep both_eq_ok once_eq_ok object_eq_ok foldMembers_keeps)
open Draft.ofJson (ofMembers)

theorem mem_snd_of_lookup {α : Type} {entries : List (String × α)} {key : String} {a : α}
    (h : entries.lookup key = some a) : a ∈ entries.map Prod.snd := by
  obtain ⟨before, after, rfl, -⟩ := List.lookup_eq_some_iff.mp h
  simp

/-! ## Types -/

namespace ColumnType

/-- The keys that a type knows: `type` and its parameters. -/
def keys (t : ColumnType) : List String := t.toMembers.map Prod.fst

/-- The parameters that a kind of types has. -/
def Kind.keys : Kind → List String
  | .plain _ => []
  | .string => ["length"]
  | .float | .decimal => ["precision", "scale"]
  | .enum => ["values"]

/-- Whether a key is the parameter `key` of the kind. -/
def Kind.takes (kind : Kind) (key k : String) : Bool := key ∈ kind.keys && k == key

def Parameters.parts (s : Parameters) := (s.length, s.precision, s.scale, s.values)

section

variable {kind : Kind}

theorem parts_step (kind : Kind) (s : Parameters) (k : String) (d : Draft) :
    Parameters.parts <$> kind.step s k d =
      both (slot (kind.takes "length") (Decoder.natBelow UInt32.size) .whole)
        (both (slot (kind.takes "precision") (Decoder.natBelow UInt8.size) .whole)
          (both (slot (kind.takes "scale") (Decoder.natBelow UInt8.size) .whole)
            (slot (kind.takes "values") (.list Decoder.string) .whole))) s.parts k d := by
  cases kind <;> unfold Kind.step <;> split <;>
    simp_all [both, slot, Parameters.parts, Kind.takes, Kind.keys]

theorem lenient_step (kind : Kind) :
    Lenient kind.step Eq (fun k => decide (k ∈ kind.keys) = false) (fun d => d.skip = .ok ()) := by
  have hother : ∀ key k, decide (k ∈ kind.keys) = false → kind.takes key k = false := by
    intro key k hk
    have hk : k ∉ kind.keys := of_decide_eq_false hk
    by_cases heq : k = key
    · subst heq; simp [Kind.takes, hk]
    · simp [Kind.takes, heq]
  refine (Lenient.of_parts (parts_step kind)
    (.both (lenient_slot (hother "length"))
      (.both (lenient_slot (hother "precision"))
        (.both (lenient_slot (hother "scale")) (lenient_slot (hother "values")))))).of_iff
    fun s t => ?_
  cases s
  cases t
  simp [Parameters.parts]

theorem mem_kinds {tag : Json} (h : kind? tag = some kind) : kind ∈ kinds.map Prod.snd := by
  unfold kind? at h
  split at h
  · exact mem_snd_of_lookup h
  · obtain ⟨⟨name, _⟩, hget, rfl⟩ := Option.map_eq_some_iff.mp h
    exact List.mem_map_of_mem (List.mem_of_getElem? hget)
  · cases h

/-- The keys of a type are those of its kind. -/
theorem keys_of_build {t : ColumnType} {s : Parameters} {tag : Json} (hkind : kind? tag = some kind)
    (h : kind.build s = .ok t) : t.keys = "type" :: kind.keys := by
  have hmem := mem_kinds hkind
  simp only [kinds, List.map_cons, List.map_nil, List.mem_cons, List.not_mem_nil, or_false] at hmem
  rcases hmem with rfl | rfl | rfl | rfl | rfl | rfl | rfl | rfl | rfl | rfl | rfl | rfl
  case inr.inr.inr.inr.inr.inr.inl =>
    -- only the values of an enum are needed
    cases hvalues : s.values with
    | none => simp only [Kind.build, hvalues] at h; cases h
    | some values => simp only [Kind.build, hvalues] at h; cases h; rfl
  all_goals cases h; rfl

end

/-- Only the members under a type's keys count for it, in any order. -/
theorem ofMembers_alike {t : ColumnType} {ms ms' : List (String × Json)}
    (halike : Alike (· ∈ t.keys) ms ms') (h : ofMembers ms = .ok t) : ofMembers ms' = .ok t := by
  unfold ofMembers at h ⊢
  split at h
  · next _ key tag htag =>
    cases hkind : kind? tag with
    | none => simp only [hkind] at h; cases h
    | some kind =>
      simp only [hkind] at h
      obtain ⟨s, hfold, hbuild⟩ := bind_eq_ok.mp h
      have hkeys := keys_of_build hkind hbuild
      have htype : ms'.filter (·.1 == "type") = [(key, tag)] := by
        have hperm : Alike (· == "type") ms ms' :=
          halike.mono fun k hk => by simp [hkeys, beq_iff_eq.mp hk]
        rw [Alike, htag] at hperm
        exact (List.singleton_perm.mp hperm).symm
      have hknown : Alike (· ∈ kind.keys) ms ms' :=
        halike.mono fun k hk => by simp [hkeys, of_decide_eq_true hk]
      rw [htype]
      simp only [hkind]
      exact bind_eq_ok.mpr ⟨s, (lenient_step kind).foldMembers_known hknown hfold, hbuild⟩
  · cases h

end ColumnType

/-! ## Columns -/

namespace Column

def Fields.parts (s : Fields) := (s.name, s.nullable, s.default, s.autoIncrement, s.others)

theorem parts_step (p : Place) (s : Fields) (k : String) (d : Draft) :
    Fields.parts <$> Fields.step p s k d =
      both (slot (· == "name") Decoder.string p)
        (both (slot (· == "nullable") Decoder.bool p)
          (both (slot (· == "defaultValue") (.optional DefaultValue.decode) p)
            (both (slot (· == "autoIncrement") Decoder.bool p) (keep ownKeys p)))) s.parts k d := by
  unfold Fields.step
  split <;> simp_all [both, slot, keep, Fields.parts, ownKeys]

/-- Keys that mean nothing to a column of this type. -/
def Unknown (t : ColumnType) (k : String) : Prop := k ∉ ownKeys ∧ k ∉ t.keys

/-- The same has been met, as far as it counts for a column of this type. -/
def Fields.Same (t : ColumnType) (s s' : Fields) : Prop :=
  s.name = s'.name ∧ s.nullable = s'.nullable ∧ s.default = s'.default ∧
    s.autoIncrement = s'.autoIncrement ∧ Alike (· ∈ t.keys) s.others s'.others

theorem lenient_step (t : ColumnType) (p : Place) :
    Lenient (Fields.step p) (Fields.Same t) (Unknown t) (Fits p.depth) := by
  have hunknown : ∀ k, Unknown t k → k ∉ ownKeys := fun _ hk => hk.1
  have hothers : Lenient (keep ownKeys p) (Alike (· ∈ t.keys)) (Unknown t) (Fits p.depth) :=
    lenient_keep (fun k hk => decide_eq_false hk.2) fun _ hd => hd
  have hparts := Lenient.of_parts (parts_step p)
    (.both (lenient_slot_key hunknown (by decide))
      (.both (lenient_slot_key hunknown (by decide))
        (.both (lenient_slot_key hunknown (by decide))
          (.both (lenient_slot_key hunknown (by decide)) hothers))))
  exact hparts

theorem build_same {c : Column} {s s' : Fields} (hsame : s.Same c.type s')
    (h : s.build = .ok c) : s'.build = .ok c := by
  obtain ⟨hname, hnullable, hdefault, hincrement, hothers⟩ := hsame
  unfold Fields.build at h ⊢
  rw [← hname, ← hnullable, ← hdefault, ← hincrement]
  cases hname : s.name with
  | none => simp only [hname] at h; cases h
  | some name =>
    simp only [hname] at h
    obtain ⟨t, ht, hc⟩ := bind_eq_ok.mp h
    cases hc
    exact bind_eq_ok.mpr ⟨t, ColumnType.ofMembers_alike hothers.reverse ht, rfl⟩

/-- The members of a column may change places, and unknown ones may come and go. -/
theorem decode_edit {c : Column} {p : Place} {ms ms' : List (Key × Draft)} {ending : Option Fault}
    (hedit : MemberEdit (Unknown c.type) (Fits (p.depth - 1)) ms ms')
    (h : decode p (.obj ms ending) = .ok c) : decode p (.obj ms' ending) = .ok c :=
  (lenient_step c.type _).object build_same hedit h

end Column

/-! ## Commands -/

namespace Index

/-- The fields of an index. -/
def keys : List String := ["index", "columns"]

def Fields.parts (s : Fields) := (s.name, s.columns, ())

theorem parts_step (p : Place) (s : Fields) (k : String) (d : Draft) :
    Fields.parts <$> Fields.step p s k d =
      both (slot (· == "index") Decoder.string p)
        (both (slot (· == "columns") (.list Decoder.string) p) (passOver keys)) s.parts k d := by
  unfold Fields.step
  split <;> simp_all [both, slot, passOver, Fields.parts, keys]

theorem lenient_step (p : Place) :
    Lenient (Fields.step p) Eq (fun k => decide (k ∈ keys) = false) (fun d => d.skip = .ok ()) := by
  have hunknown : ∀ k, decide (k ∈ keys) = false → k ∉ keys := fun _ => of_decide_eq_false
  have hparts := Lenient.of_parts (parts_step p)
    (.both (lenient_slot_key hunknown (by decide))
      (.both (lenient_slot_key hunknown (by decide)) (lenient_passOver fun _ hd => hd)))
  refine hparts.of_iff fun s t => ?_
  cases s
  cases t
  simp [Fields.parts]

/-- Only the fields of an index count, in any order. -/
theorem decode_alike {i : Index} {p : Place} {ms ms' : List (String × Json)}
    (halike : Alike (· ∈ keys) ms ms') (h : decode p (.ofJson (.obj ms)) = .ok i) :
    decode p (.ofJson (.obj ms')) = .ok i :=
  (lenient_step _).object_known halike h

end Index

namespace ForeignKey

/-- The fields of a foreign key. -/
def keys : List String := ["index", "columns", "on", "references", "onDelete", "onUpdate"]

def Fields.parts (s : Fields) :=
  (s.name, s.columns, s.on, s.references, s.onDelete, s.onUpdate, ())

theorem parts_step (p : Place) (s : Fields) (k : String) (d : Draft) :
    Fields.parts <$> Fields.step p s k d =
      both (slot (· == "index") Decoder.string p)
        (both (slot (· == "columns") (.list Decoder.string) p)
          (both (slot (· == "on") Decoder.string p)
            (both (slot (· == "references") (.list Decoder.string) p)
              (both (slot (· == "onDelete") ForeignKeyAction.decode p)
                (both (slot (· == "onUpdate") ForeignKeyAction.decode p) (passOver keys))))))
        s.parts k d := by
  unfold Fields.step
  split <;> simp_all [both, slot, passOver, Fields.parts, keys]

theorem lenient_step (p : Place) :
    Lenient (Fields.step p) Eq (fun k => decide (k ∈ keys) = false) (fun d => d.skip = .ok ()) := by
  have hunknown : ∀ k, decide (k ∈ keys) = false → k ∉ keys := fun _ => of_decide_eq_false
  have hparts := Lenient.of_parts (parts_step p)
    (.both (lenient_slot_key hunknown (by decide))
      (.both (lenient_slot_key hunknown (by decide))
        (.both (lenient_slot_key hunknown (by decide))
          (.both (lenient_slot_key hunknown (by decide))
            (.both (lenient_slot_key hunknown (by decide))
              (.both (lenient_slot_key hunknown (by decide))
                (lenient_passOver fun _ hd => hd)))))))
  refine hparts.of_iff fun s t => ?_
  cases s
  cases t
  simp [Fields.parts]

/-- Only the fields of a foreign key count, in any order. -/
theorem decode_alike {f : ForeignKey} {p : Place} {ms ms' : List (String × Json)}
    (halike : Alike (· ∈ keys) ms ms') (h : decode p (.ofJson (.obj ms)) = .ok f) :
    decode p (.ofJson (.obj ms')) = .ok f :=
  (lenient_step _).object_known halike h

end ForeignKey

namespace Command

/-- The fields that a command knows, its name apart. -/
def keys : Command → List String
  | .create | .add | .dropTable | .dropTableIfExists => []
  | .rename _ => ["to"]
  | .dropColumn _ => ["columns"]
  | .unique _ | .index _ | .primary _ => Index.keys
  | .foreign _ => ForeignKey.keys
  | .dropUnique _ | .dropIndex _ | .dropForeign _ | .dropPrimary _ => ["index"]

/-- Only the field counts. -/
theorem decodeSingle_alike {α : Type} {key : String} {field : Decoder α} {build : α → Command}
    {c : Command} {p : Place} {ms ms' : List (String × Json)}
    (hkeys : ∀ a, (build a).keys = [key]) (halike : Alike (· ∈ c.keys) ms ms')
    (h : decodeSingle key field build p (.ofJson (.obj ms)) = .ok c) :
    decodeSingle key field build p (.ofJson (.obj ms')) = .ok c := by
  obtain ⟨p', hp, h⟩ := bind_eq_ok.mp h
  obtain ⟨s, hs, hc⟩ := bind_eq_ok.mp h
  have hknown : Alike (· == key) ms ms' := by
    cases s with
    | none => cases hc
    | some a =>
      obtain rfl := Except.ok.inj hc
      exact halike.mono fun k hk => by simp [hkeys, beq_iff_eq.mp hk]
  have hs' := (lenient_slot fun _ hk => hk).foldMembers_known hknown hs
  exact bind_eq_ok.mpr ⟨p', hp, bind_eq_ok.mpr ⟨s, hs', hc⟩⟩

/-- Whatever the command, only its fields count. -/
theorem decoders_alike {decoder : Decoder Command} (hmem : decoder ∈ decoders.map Prod.snd)
    {c : Command} {p : Place} {ms ms' : List (String × Json)} (halike : Alike (· ∈ c.keys) ms ms')
    (h : decoder p (.ofJson (.obj ms)) = .ok c) : decoder p (.ofJson (.obj ms')) = .ok c := by
  have hindex : ∀ build : Index → Command, (∀ i, (build i).keys = Index.keys) →
      build <$> Index.decode p (.ofJson (.obj ms)) = .ok c →
      build <$> Index.decode p (.ofJson (.obj ms')) = .ok c := by
    intro build hkeys h
    obtain ⟨i, hi, rfl⟩ := map_eq_ok.mp h
    rw [hkeys] at halike
    exact map_eq_ok.mpr ⟨i, Index.decode_alike halike hi, rfl⟩
  simp only [decoders, List.map_cons, List.map_nil, List.mem_cons, List.not_mem_nil, or_false]
    at hmem
  rcases hmem with rfl | rfl | rfl | rfl | rfl | rfl | rfl | rfl | rfl | rfl | rfl | rfl | rfl | rfl
  · exact h
  · exact h
  · exact decodeSingle_alike (fun _ => rfl) halike h
  · exact h
  · exact h
  · exact decodeSingle_alike (fun _ => rfl) halike h
  · exact hindex _ (fun _ => rfl) h
  · exact hindex _ (fun _ => rfl) h
  · exact decodeSingle_alike (fun _ => rfl) halike h
  · exact decodeSingle_alike (fun _ => rfl) halike h
  · obtain ⟨f, hf, rfl⟩ := map_eq_ok.mp h
    exact map_eq_ok.mpr ⟨f, ForeignKey.decode_alike halike hf, rfl⟩
  · exact hindex _ (fun _ => rfl) h
  · exact decodeSingle_alike (fun _ => rfl) halike h
  · exact decodeSingle_alike (fun _ => rfl) halike h

/-- A name stands for one of the commands. -/
theorem decodeTag_mem {d : Draft} {decoder : Decoder Command} (h : decodeTag d = .ok decoder) :
    decoder ∈ decoders.map Prod.snd := by
  unfold decodeTag at h
  split at h
  · next name =>
    cases hlookup : decoders.lookup name with
    | none => simp only [hlookup] at h; cases h
    | some decoder' =>
      simp only [hlookup] at h
      cases h
      exact mem_snd_of_lookup hlookup
  · cases h

def Fields.parts (s : Fields) := (s.tag, s.others)

theorem parts_step (p : Place) (s : Fields) (k : String) (d : Draft) :
    Fields.parts <$> Fields.step p s k d =
      both (slot (· == "name") (fun _ => decodeTag) p) (keep ["name"] p) s.parts k d := by
  unfold Fields.step
  split <;> simp_all [both, slot, keep, Fields.parts]

theorem step_tag_mem {p : Place} {s s' : Fields} {k : String} {d : Draft}
    (hs : ∀ decoder ∈ s.tag, decoder ∈ decoders.map Prod.snd) (h : Fields.step p s k d = .ok s') :
    ∀ decoder ∈ s'.tag, decoder ∈ decoders.map Prod.snd := by
  intro decoder hdecoder
  have hparts := parts_step p s k d
  rw [h] at hparts
  have htag := (both_eq_ok.mp hparts.symm).1
  cases hk : k == "name" with
  | false =>
    have hsame : s.tag = s'.tag := Except.ok.inj ((slot_other hk).symm.trans htag)
    exact hs decoder (hsame ▸ hdecoder)
  | true =>
    rw [slot, if_pos hk] at htag
    obtain ⟨-, decoder', hdecode, hsome⟩ := once_eq_ok.mp htag
    obtain rfl : decoder' = decoder := Option.some.inj (hsome.symm.trans hdecoder)
    exact decodeTag_mem hdecode

/-- Keys that mean nothing to this command. -/
def Unknown (c : Command) (k : String) : Prop := k ≠ "name" ∧ k ∉ c.keys

theorem lenient_step (c : Command) (p : Place) :
    Lenient (Fields.step p) (fun s s' => s.tag = s'.tag ∧ Alike (· ∈ c.keys) s.others s'.others)
      (Unknown c) (Fits p.depth) := by
  have hothers : Lenient (keep ["name"] p) (Alike (· ∈ c.keys)) (Unknown c) (Fits p.depth) :=
    lenient_keep (fun k hk => decide_eq_false hk.2) fun _ hd => hd
  have hparts := Lenient.of_parts (parts_step p)
    (.both (lenient_slot fun k hk => beq_false_of_ne hk.1) hothers)
  exact hparts

/-- The members of a command may change places, and unknown ones may come and go. -/
theorem decode_edit {c : Command} {p : Place} {ms ms' : List (Key × Draft)}
    {ending : Option Fault}
    (hedit : MemberEdit (Unknown c) (Fits (p.depth - 1)) ms ms')
    (h : decode p (.obj ms ending) = .ok c) : decode p (.obj ms' ending) = .ok c := by
  obtain ⟨hdepth, hending, s, hs, hc⟩ := object_eq_ok.mp h
  obtain ⟨s', hs', htag', hothers⟩ := (lenient_step c _).foldMembers hedit hs
  have hmem : ∀ decoder ∈ s.tag, decoder ∈ decoders.map Prod.snd :=
    foldMembers_keeps step_tag_mem (by simp) hs
  refine object_eq_ok.mpr ⟨hdepth, hending, s', hs', ?_⟩
  rw [← htag']
  cases htag : s.tag with
  | none => simp only [htag] at hc; cases hc
  | some decoder =>
    simp only [htag] at hc
    exact decoders_alike (hmem decoder htag) hothers.reverse hc

end Command

end Schemata
