import Mathlib.Data.List.DropRight
import Schemata.Proofs.Json.Numbers
import Schemata.Proofs.Json.Strings

/-!
# What is written is read

The reader gives back what the compact writer has written, whatever stands behind it. The
induction is on the value; what it needs of the text behind a value is that it does not go
on with a number, which holds of a comma, of a closing bracket and of the end.
-/
namespace Schemata.Json

open Number (Stops)

/-- All integers stay integers and all floats read back. -/
def Faithful : Json → Prop
  | .int i => IsInteger i
  | .float f => ReadsBack f
  | .arr items => faithfulItems items
  | .obj members => faithfulMembers members
  | _ => True
where
  faithfulItems : List Json → Prop
    | [] => True
    | v :: vs => Faithful v ∧ faithfulItems vs
  faithfulMembers : List (String × Json) → Prop
    | [] => True
    | (_, v) :: ms => Faithful v ∧ faithfulMembers ms

theorem faithfulItems_iff {vs : List Json} :
    Faithful.faithfulItems vs ↔ ∀ v ∈ vs, Faithful v := by
  induction vs with
  | nil => simp [Faithful.faithfulItems]
  | cons v vs ih => rw [Faithful.faithfulItems, ih, List.forall_mem_cons]

theorem faithfulMembers_iff {ms : List (String × Json)} :
    Faithful.faithfulMembers ms ↔ ∀ m ∈ ms, Faithful m.2 := by
  induction ms with
  | nil => simp [Faithful.faithfulMembers]
  | cons m ms ih => rw [Faithful.faithfulMembers, ih, List.forall_mem_cons]

theorem faithful_strings (xs : List String) : Faithful (strings xs) := by
  rw [strings, Faithful, faithfulItems_iff]
  intro v hv
  obtain ⟨x, -, rfl⟩ := List.mem_map.mp hv
  trivial

theorem faithful_natCast {n : Nat} (hn : n < UInt64.size) : Faithful (.int n) :=
  ⟨Int.le_trans (by decide) (Int.natCast_nonneg n), Int.ofNat_lt.mpr hn⟩

namespace Reader

/-! ### Steps of the reader -/

section Steps

variable {fuel : Nat} {cs tail rest : List Char} {d : Draft} {k : Key}

theorem skipBlanks_skipBlanks (cs : List Char) : skipBlanks (skipBlanks cs) = skipBlanks cs :=
  List.dropWhile_idempotent _ _

theorem value_skipBlanks (fuel : Nat) (cs : List Char) :
    value fuel (skipBlanks cs) = value fuel cs := by
  cases fuel with
  | zero => rfl
  | succ fuel => rw [value, value, skipBlanks_skipBlanks]

theorem items_skipBlanks (fuel : Nat) (cs : List Char) :
    items fuel (skipBlanks cs) = items fuel cs := by
  cases fuel with
  | zero => rfl
  | succ fuel => rw [items, items, value_skipBlanks]

theorem items_last (h : value fuel cs = (d, some (']' :: rest))) :
    items (fuel + 1) cs = ([d], none, some rest) := by
  rw [items, h]
  rfl

theorem items_more {ds : List Draft} {r : Partly (Option Fault)}
    (h : value fuel cs = (d, some (',' :: tail))) (hds : items fuel tail = (ds, r)) :
    items (fuel + 1) cs = (d :: ds, r) := by
  rw [items, h]
  show (d :: (items fuel tail).1, (items fuel tail).2) = _
  rw [hds]

/-- The first item is the value that is read where the items begin. -/
theorem of_items_eq_cons {ds : List Draft} {r : Partly (Option Fault)}
    (h : items fuel cs = (d :: ds, r)) : ∃ fuel', (value fuel' cs).1 = d := by
  cases fuel with
  | zero => cases h
  | succ fuel =>
    refine ⟨fuel, ?_⟩
    rw [items] at h
    split at h
    · next hv => cases h; rw [hv]
    · next hv =>
      rw [hv]
      split at h <;> exact (List.cons.inj (Prod.mk.inj h).1).1

theorem value_arr {ds : List Draft} {ending : Option Fault} {r : Option (List Char)}
    (hnil : skipBlanks cs ≠ []) (hclose : ∀ t, skipBlanks cs ≠ ']' :: t)
    (h : items fuel cs = (ds, ending, r)) :
    value (fuel + 1) ('[' :: cs) = (.arr ds ending, r) := by
  rw [← items_skipBlanks] at h
  have hbracket : skipBlanks ('[' :: cs) = '[' :: cs := rfl
  rw [value, hbracket]
  simp only [h]

theorem members_last (hk : key cs = (k, some (':' :: tail)))
    (hv : value fuel tail = (d, some ('\x7d' :: rest))) :
    members (fuel + 1) ('"' :: cs) = ([(k, d)], none, some rest) := by
  have hquote : skipBlanks ('"' :: cs) = '"' :: cs := rfl
  have hcolon : skipBlanks (':' :: tail) = ':' :: tail := rfl
  rw [members, hquote]
  simp only [hk, hcolon, hv]
  rfl

theorem members_more {more : List Char} {ms : List (Key × Draft)} {r : Partly (Option Fault)}
    (hk : key cs = (k, some (':' :: tail))) (hv : value fuel tail = (d, some (',' :: more)))
    (hms : members fuel more = (ms, r)) :
    members (fuel + 1) ('"' :: cs) = ((k, d) :: ms, r) := by
  have hquote : skipBlanks ('"' :: cs) = '"' :: cs := rfl
  have hcolon : skipBlanks (':' :: tail) = ':' :: tail := rfl
  have hcomma : skipBlanks (',' :: more) = ',' :: more := rfl
  rw [members, hquote]
  simp only [hk, hcolon, hv, hcomma, hms]

theorem value_obj {ms : List (Key × Draft)} {ending : Option Fault} {r : Option (List Char)}
    (h : members fuel ('"' :: cs) = (ms, ending, r)) :
    value (fuel + 1) ('\x7b' :: '"' :: cs) = (.obj ms ending, r) := by
  have hbrace : skipBlanks ('\x7b' :: '"' :: cs) = '\x7b' :: '"' :: cs := rfl
  have hquote : skipBlanks ('"' :: cs) = '"' :: cs := rfl
  rw [value, hbrace]
  simp only [hquote]
  show (Draft.obj (members fuel ('"' :: cs)).1 (members fuel ('"' :: cs)).2.1, _) = _
  rw [h]

/-- A place where no value begins is not read as one. -/
theorem value_ne_ofJson {v : Json}
    (hcs : skipBlanks cs = [] ∨ ∃ t, skipBlanks cs = ']' :: t) :
    (value fuel cs).1 ≠ .ofJson v := by
  have hdamaged : ∀ lead read skip, Draft.damaged lead read skip ≠ .ofJson v := by
    intro lead read skip
    cases v <;> exact Draft.noConfusion
  cases fuel with
  | zero => exact hdamaged _ _ _
  | succ fuel =>
    rcases hcs with hskip | ⟨t, hskip⟩ <;> rw [value, hskip]
    · exact hdamaged _ _ _
    · exact hdamaged _ _ _

end Steps

/-! ### Written values -/

open Writer (compact)
open Writer.compact (compactItems compactMembers)
open Draft.ofJson (ofItems ofMembers)
open Faithful (faithfulItems faithfulMembers)

theorem stops_comma (cs : List Char) : Stops (',' :: cs) := rfl

theorem stops_bracket (cs : List Char) : Stops (']' :: cs) := rfl

theorem stops_brace (cs : List Char) : Stops ('\x7d' :: cs) := rfl

mutual

/-- A written value is read back, whatever stands behind it. -/
theorem value_compact : ∀ (v : Json), Faithful v → ∀ (fuel : Nat) (rest : List Char),
    (compact v).length < fuel → Stops rest → value fuel (compact v ++ rest) = (.ofJson v, some rest)
  | .null, _, fuel + 1, rest, _, _ => rfl
  | .bool true, _, fuel + 1, rest, _, _ => rfl
  | .bool false, _, fuel + 1, rest, _, _ => rfl
  | .int _, hv, fuel + 1, _, _, hrest => value_int hv hrest fuel
  | .float _, hv, fuel + 1, _, _, hrest => ReadsBack.value_append hv hrest fuel
  | .str s, _, fuel + 1, rest, _, _ => by
    rw [compact, Text.render_append]
    show string _ = _
    rw [string_escapes]
    rfl
  | .arr [], _, fuel + 1, rest, _, _ => rfl
  | .arr (v :: vs), hv, fuel + 1, rest, hfuel, _ => by
    have hlength : (compactItems (v :: vs)).length + 1 < fuel := by
      simp only [compact, List.length_cons, List.length_append, List.length_nil] at hfuel
      omega
    have hitems := items_compact (v :: vs) hv (by simp) fuel rest hlength
    have hvalue : skipBlanks (compactItems (v :: vs) ++ ']' :: rest) = [] ∨
        (∃ t, skipBlanks (compactItems (v :: vs) ++ ']' :: rest) = ']' :: t) → False := by
      intro hnone
      obtain ⟨fuel', hfirst⟩ := of_items_eq_cons hitems
      exact value_ne_ofJson hnone hfirst
    rw [compact, List.cons_append, List.append_assoc]
    exact value_arr (fun h => hvalue (.inl h)) (fun t h => hvalue (.inr ⟨t, h⟩)) hitems
  | .obj [], _, fuel + 1, rest, _, _ => rfl
  | .obj ((k, v) :: ms), hv, fuel + 1, rest, hfuel, _ => by
    have hlength : (compactMembers ((k, v) :: ms)).length + 1 < fuel := by
      simp only [compact, List.length_cons, List.length_append, List.length_nil] at hfuel
      omega
    have hmembers := members_compact ((k, v) :: ms) hv (by simp) fuel rest hlength
    obtain ⟨tail, htail⟩ : ∃ tail, compactMembers ((k, v) :: ms) = '"' :: tail := by
      cases ms <;> exact ⟨_, rfl⟩
    rw [compact, List.cons_append, List.append_assoc]
    rw [htail] at hmembers ⊢
    exact value_obj hmembers

theorem items_compact : ∀ (vs : List Json), faithfulItems vs → vs ≠ [] →
    ∀ (fuel : Nat) (rest : List Char), (compactItems vs).length + 1 < fuel →
      items fuel (compactItems vs ++ ']' :: rest) = (ofItems vs, none, some rest)
  | [], _, hne, _, _, _ => absurd rfl hne
  | [v], hv, _, fuel + 1, rest, hfuel => by
    have hlength : (compact v).length < fuel := by
      simp only [compactItems] at hfuel
      omega
    exact items_last (value_compact v hv.1 fuel (']' :: rest) hlength (stops_bracket rest))
  | v :: w :: vs, hv, _, fuel + 1, rest, hfuel => by
    simp only [compactItems, List.length_cons, List.length_append] at hfuel
    have hfirst := value_compact v hv.1 fuel (',' :: (compactItems (w :: vs) ++ ']' :: rest))
      (by omega) (stops_comma _)
    have hmore := items_compact (w :: vs) hv.2 (by simp) fuel rest (by omega)
    rw [compactItems, List.append_assoc, List.cons_append]
    · exact items_more hfirst hmore
    · simp

theorem members_compact : ∀ (ms : List (String × Json)), faithfulMembers ms → ms ≠ [] →
    ∀ (fuel : Nat) (rest : List Char), (compactMembers ms).length + 1 < fuel →
      members fuel (compactMembers ms ++ '\x7d' :: rest) = (ofMembers ms, none, some rest)
  | [], _, hne, _, _, _ => absurd rfl hne
  | [(k, v)], hv, _, fuel + 1, rest, hfuel => by
    simp only [compactMembers, List.length_cons, List.length_append] at hfuel
    have hvalue := value_compact v hv.1 fuel ('\x7d' :: rest) (by omega) (stops_brace rest)
    have hkey := key_escapes k (':' :: (compact v ++ '\x7d' :: rest))
    rw [compactMembers, List.append_assoc, Text.render_append]
    exact members_last hkey hvalue
  | (k, v) :: m :: ms, hv, _, fuel + 1, rest, hfuel => by
    simp only [compactMembers, List.length_cons, List.length_append] at hfuel
    have hvalue := value_compact v hv.1 fuel (',' :: (compactMembers (m :: ms) ++ '\x7d' :: rest))
      (by omega) (stops_comma _)
    have hmore := members_compact (m :: ms) hv.2 (by simp) fuel rest (by omega)
    have hkey := key_escapes k
      (':' :: (compact v ++ ',' :: (compactMembers (m :: ms) ++ '\x7d' :: rest)))
    rw [compactMembers, List.append_assoc, Text.render_append]
    · simp only [List.cons_append, List.append_assoc]
      exact members_more hkey hvalue hmore
    · simp

end

end Reader

/-- The document that is written holds the value that was written. -/
theorem ofText_render {v : Json} (hv : Faithful v) : Document.ofText (render v) = .ofJson v := by
  have hread := Reader.value_compact v hv ((Writer.compact v).length + 1) []
    (Nat.lt_succ_self _) rfl
  rw [List.append_nil] at hread
  rw [Document.ofText, render, String.toList_ofList, Document.ofChars, hread]
  rfl

end Schemata.Json
