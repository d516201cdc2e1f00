import Mathlib.Logic.Relation
import Schemata.Compile
import Schemata.Json.Reader
import Schemata.Proofs.Blueprint.Members

/-!
# Rearranging a blueprint's document

The document of a blueprint may be edited without touching the blueprint: the members of its
object, of a column or of a command change places, and members under keys that are unknown there
come and go (`Edit`). One edit leaves the decoded blueprint as it is, so any number of them do.

An unknown key does not excuse its value from being read. A column and a command keep all that
they do not know until their type or tag has told what to make of it, so such a value is read as
a whole and thrown away; at the top it is passed over.
-/
namespace Schemata.Blueprint

open Json
open Decoder (slot passOver both Lenient lenient_slot_key lenient_passOver object_eq_ok
  once_list_exchange)

def keys : List String := ["table", "columns", "commands"]

def Fields.parts (s : Fields) := (s.table, s.columns, s.commands, ())

theorem parts_step (p : Place) (s : Fields) (k : String) (d : Draft) :
    Fields.parts <$> Fields.step p s k d =
      both (slot (· == "table") Decoder.string p)
        (both (slot (· == "columns") (.list Column.decode) p)
          (both (slot (· == "commands") (.list Command.decode) p) (passOver keys))) s.parts k d := by
  unfold Fields.step
  split <;> simp_all [both, slot, passOver, Fields.parts, keys]

/-- A value under an unknown key is only skipped. -/
theorem lenient_step (p : Place) :
    Lenient (Fields.step p) Eq (· ∉ keys) (fun d => d.skip = .ok ()) := by
  have hunknown : ∀ k, k ∉ keys → k ∉ keys := fun _ hk => hk
  refine (Lenient.of_parts (parts_step p)
    (.both (lenient_slot_key hunknown (by decide))
      (.both (lenient_slot_key hunknown (by decide))
        (.both (lenient_slot_key hunknown (by decide))
          (lenient_passOver fun _ hd => hd))))).of_iff fun s t => ?_
  cases s
  cases t
  simp [Fields.parts]

/-- The object that is an item of the array under a key has its members edited. -/
inductive ItemEdit (key : String) (i : Nat)
    (edit : List (Key × Draft) → List (Key × Draft) → Prop) : Draft → Draft → Prop
  | mk {before after : List (Key × Draft)} {items more : List Draft}
      {ms ms' : List (Key × Draft)} {outer middle inner : Option Fault} (hi : items.length = i)
      (h : edit ms ms') :
      ItemEdit key i edit
        (.obj (before ++ (.name key, .arr (items ++ .obj ms inner :: more) middle) :: after) outer)
        (.obj (before ++ (.name key, .arr (items ++ .obj ms' inner :: more) middle) :: after) outer)

/-- One edit of the document of a blueprint. Which keys are unknown to a column or a command is
told from what the blueprint has in its place. What comes under such a key is read as a whole
(`Fits`): it must not be nested too deep where it stands, have no number beyond the floats, and no
string or key with an escape that stands for no character. At the top it need only be fit to be
passed over. -/
inductive Edit (b : Blueprint) : Draft → Draft → Prop
  | top {ms ms' : List (Key × Draft)} {ending : Option Fault}
      (h : MemberEdit (· ∉ keys) (fun d => d.skip = .ok ()) ms ms') :
      Edit b (.obj ms ending) (.obj ms' ending)
  | column {i : Nat} {c : Column} {d d' : Draft} (hc : b.columns[i]? = some c)
      (h : ItemEdit "columns" i (MemberEdit (Column.Unknown c.type) (Fits (depthLimit - 3))) d d') :
      Edit b d d'
  | command {i : Nat} {c : Command} {d d' : Draft} (hc : b.commands[i]? = some c)
      (h : ItemEdit "commands" i (MemberEdit (Command.Unknown c) (Fits (depthLimit - 3))) d d') :
      Edit b d d'

variable {b : Blueprint}

/-- What a blueprint is built of. -/
theorem decode_obj {ms : List (Key × Draft)} {ending : Option Fault} :
    decode .root (.obj ms ending) = .ok b ↔ ending = none ∧ ∃ s,
      Decoder.foldMembers (Fields.step ⟨depthLimit - 1, false⟩) {} ms = .ok s ∧
        s.table = some b.table ∧ s.columns.getD [] = b.columns ∧
          s.commands.getD [] = b.commands := by
  constructor
  · intro h
    obtain ⟨-, hending, s, hs, hb⟩ := object_eq_ok.mp h
    cases htable : s.table with
    | none => simp only [htable] at hb; cases hb
    | some table =>
      simp only [htable] at hb
      obtain rfl := Except.ok.inj hb
      exact ⟨hending, s, hs, htable, rfl, rfl⟩
  · rintro ⟨hending, s, hs, htable, hcolumns, hcommands⟩
    refine object_eq_ok.mpr ⟨by decide, hending, s, hs, ?_⟩
    simp only [htable, hcolumns, hcommands]
    rfl

/-- One edit does not touch the blueprint. -/
theorem decode_edit {d d' : Draft} (h : Edit b d d') (hd : decode .root d = .ok b) :
    decode .root d' = .ok b := by
  cases h with
  | top h =>
    refine (lenient_step _).object (fun heq hb => ?_) h hd
    rwa [← heq]
  | @column i c _ _ hc h =>
    obtain ⟨hi, hedit⟩ := h
    obtain ⟨hending, s, hs, htable, hcolumns, hcommands⟩ := decode_obj.mp hd
    obtain ⟨t, ht, hexchange⟩ := (lenient_step _).foldMembers_exchange hs
    obtain ⟨slot, honce, hslot⟩ := bind_eq_ok.mp ht
    obtain rfl := Except.ok.inj hslot
    obtain ⟨columns, rfl, hitem⟩ := once_list_exchange honce
    have hc : columns[i]? = some c := by rw [← hc, ← hcolumns]; rfl
    have honce := hitem (hi ▸ hc) (Column.decode_edit hedit)
    exact decode_obj.mpr ⟨hending, _, hexchange _ (bind_eq_ok.mpr ⟨_, honce, rfl⟩), htable,
      hcolumns, hcommands⟩
  | @command i c _ _ hc h =>
    obtain ⟨hi, hedit⟩ := h
    obtain ⟨hending, s, hs, htable, hcolumns, hcommands⟩ := decode_obj.mp hd
    obtain ⟨t, ht, hexchange⟩ := (lenient_step _).foldMembers_exchange hs
    obtain ⟨slot, honce, hslot⟩ := bind_eq_ok.mp ht
    obtain rfl := Except.ok.inj hslot
    obtain ⟨commands, rfl, hitem⟩ := once_list_exchange honce
    have hc : commands[i]? = some c := by rw [← hc, ← hcommands]; rfl
    have honce := hitem (hi ▸ hc) (Command.decode_edit hedit)
    exact decode_obj.mpr ⟨hending, _, hexchange _ (bind_eq_ok.mpr ⟨_, honce, rfl⟩), htable,
      hcolumns, hcommands⟩

theorem decode_edits {d d' : Draft} (h : Relation.ReflTransGen (Edit b) d d')
    (hd : decode .root d = .ok b) : decode .root d' = .ok b := by
  induction h with
  | refl => exact hd
  | tail _ hedit ih => exact decode_edit hedit ih

/-- **Neither the order of keys nor unknown keys matter**, as long as what comes under an unknown
key of a column or a command can be read. However often the document of a blueprint is edited so,
it remains a document of that blueprint, and compiles for every dialect to what it compiled to
before. -/
theorem ofDocument_edited {b : Blueprint} {doc doc' : Document} (h : ofDocument doc = .ok b)
    (hedits : Relation.ReflTransGen (Edit b) doc.root doc'.root)
    (hending : doc'.ending = doc.ending) :
    ofDocument doc' = .ok b ∧ ∀ d : Dialect,
      (ofDocument doc').map d.grammar.compile = (ofDocument doc).map d.grammar.compile := by
  have hdoc' : ofDocument doc' = .ok b := by
    obtain ⟨a, ha, h⟩ := bind_eq_ok.mp h
    obtain ⟨u, hends, hb⟩ := bind_eq_ok.mp h
    obtain rfl := Except.ok.inj hb
    exact bind_eq_ok.mpr ⟨a, decode_edits hedits ha, bind_eq_ok.mpr ⟨u, hending ▸ hends, rfl⟩⟩
  exact ⟨hdoc', fun d => by rw [hdoc', h]⟩

/-- A type's parameter may come before the type, and `precision` means nothing to a string. -/
theorem ofDocument_parameter_first :
    let b : Blueprint :=
      { table := "t", columns := [{ name := "a", type := .string 9 }]
        commands := [.dropIndex "i"] }
    let doc := Document.ofJson (.obj
      [("table", .str "t"),
        ("columns", .arr [.obj [("name", .str "a"), ("type", .str "string"), ("length", .int 9)]]),
        ("commands", .arr [.obj [("name", .str "dropIndex"), ("index", .str "i")]])])
    let doc' := Document.ofJson (.obj
      [("version", .int 2),
        ("commands", .arr [.obj [("to", .null), ("index", .str "i"), ("name", .str "dropIndex")]]),
        ("columns", .arr [.obj
          [("length", .int 9), ("precision", .bool true), ("type", .str "string"),
            ("name", .str "a")]]),
        ("table", .str "t")])
    ofDocument doc = .ok b ∧ ofDocument doc' = .ok b := by
  intro b doc doc'
  have hdoc : ofDocument doc = .ok b := rfl
  let table : Key × Draft := (.name "table", .str "t")
  let name : Key × Draft := (.name "name", .str "a")
  let type : Key × Draft := (.name "type", .str "string")
  let length : Key × Draft := (.name "length", .int 9)
  let tag : Key × Draft := (.name "name", .str "dropIndex")
  let index : Key × Draft := (.name "index", .str "i")
  let column (ms : List (Key × Draft)) : Key × Draft := (.name "columns", .arr [.obj ms none] none)
  let command (ms : List (Key × Draft)) : Key × Draft :=
    (.name "commands", .arr [.obj ms none] none)
  have hcolumn : ∀ {ms ms' : List (Key × Draft)},
      MemberEdit (Column.Unknown (.string 9)) (Fits (depthLimit - 3)) ms ms' →
      Edit b (.obj [table, column ms, command [tag, index]] none)
        (.obj [table, column ms', command [tag, index]] none) :=
    fun {ms ms'} h => .column (i := 0) rfl
      (@ItemEdit.mk "columns" 0 _ [table] [command [tag, index]] [] [] ms ms' none none none rfl h)
  have hcommand : ∀ {ms ms' : List (Key × Draft)} {columns : Key × Draft},
      MemberEdit (Command.Unknown (.dropIndex "i")) (Fits (depthLimit - 3)) ms ms' →
      Edit b (.obj [table, columns, command ms] none) (.obj [table, columns, command ms'] none) :=
    fun {ms ms' columns} h => .command (i := 0) rfl
      (@ItemEdit.mk "commands" 0 _ [table, columns] [] [] [] ms ms' none none none rfl h)
  have hprecision := @MemberEdit.add (Column.Unknown (.string 9)) (Fits (depthLimit - 3)) [length]
    [type, name] "precision" _ ⟨by decide, by decide⟩ (fits_ofJson (v := .bool true) (by decide))
  have hto := @MemberEdit.add (Command.Unknown (.dropIndex "i")) (Fits (depthLimit - 3)) []
    [index, tag] "to" _ ⟨by decide, by decide⟩ (fits_ofJson (v := .null) (by decide))
  let top := [command [(.name "to", .null), index, tag],
    column [length, (.name "precision", .bool true), type, name], table]
  have hversion := @MemberEdit.add (· ∉ keys) (fun d => d.skip = .ok ()) [] top "version" _
    (by decide) (Draft.skip_ofJson (.int 2))
  have hedits : Relation.ReflTransGen (Edit b) doc.root doc'.root :=
    Relation.ReflTransGen.refl
      |>.tail (hcolumn (.reorder (List.reverse_perm [name, type, length]).symm))
      |>.tail (hcolumn hprecision)
      |>.tail (hcommand (.reorder (List.reverse_perm [tag, index]).symm))
      |>.tail (hcommand hto)
      |>.tail (.top (.reorder (List.reverse_perm top)))
      |>.tail (.top hversion)
  exact ⟨hdoc, (ofDocument_edited hdoc hedits rfl).1⟩

/-- Half of a surrogate pair under a key that no column has. At the top it is passed over; in a
column it is read, and the document is rejected. -/
theorem lone_surrogate_under_unknown_key :
    let b : Blueprint := { table := "t", columns := [{ name := "a", type := .text }] }
    let text (top column : String) :=
      "\x7b" ++ top ++ "\"table\":\"t\",\"columns\":[\x7b" ++ column ++
        "\"name\":\"a\",\"type\":\"text\"\x7d]\x7d"
    let member := "\"x\":\"\\ud800\","
    "x" ∉ keys ∧ Column.Unknown .text "x" ∧ ofDocument (.ofText (text "" "")) = .ok b ∧
      ofDocument (.ofText (text member "")) = .ok b ∧
      ofDocument (.ofText (text "" member)) = .error .malformed :=
  ⟨by decide, ⟨by decide, by decide⟩, by decide +kernel, by decide +kernel, by decide +kernel⟩

end Schemata.Blueprint
