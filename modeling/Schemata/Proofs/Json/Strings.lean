import Mathlib.Tactic.SplitIfs
import Schemata.Json.Reader
import Schemata.Json.Writer

/-!
# Strings read back

The written form of a text is read back character by character: an escape stands for the
character that it was made from, whatever follows it.
-/
namespace Schemata.Json.Text

open Schemata.Text (hexDigit)

/-- A control character in four hexadecimal digits. -/
theorem unit?_hexDigit :
    ∀ n < 0x20, unit? '0' '0' (hexDigit (n / 16)) (hexDigit (n % 16)) = some n := by
  decide

theorem readBody_plain {c : Char} (hquote : c ≠ '"') (hslash : c ≠ '\\') (hc : ¬ c.toNat < 0x20)
    (cs : List Char) : readBody (c :: cs) = push c (readBody cs) := by
  rw [readBody.eq_def]
  split
  · next h => cases h
  · next h => exact absurd (List.cons.inj h).1 hquote
  · next h => exact absurd (List.cons.inj h).1 hslash
  · next h =>
    obtain ⟨rfl, rfl⟩ := List.cons.inj h
    exact if_neg hc

theorem readBody_control {c : Char} (hc : c.toNat < 0x20) (cs : List Char) :
    readBody ('\\' :: 'u' :: '0' :: '0' :: hexDigit (c.toNat / 16) :: hexDigit (c.toNat % 16) :: cs) =
      push c (readBody cs) := by
  have htrailing : isTrailing c.toNat = false := by
    simp only [isTrailing, Bool.and_eq_false_iff, decide_eq_false_iff_not]
    omega
  have hleading : isLeading c.toNat = false := by
    simp only [isLeading, Bool.and_eq_false_iff, decide_eq_false_iff_not]
    omega
  rw [readBody, unit?_hexDigit _ hc]
  simp only [htrailing, hleading, Bool.false_eq_true, ↓reduceIte, Char.ofNat_toNat]

/-- The written form of a character reads as that character. -/
theorem readBody_escape (c : Char) (cs : List Char) :
    readBody (escape c ++ cs) = push c (readBody cs) := by
  unfold escape
  split_ifs with hquote hslash hb hf hn hr ht hcontrol
  · subst hquote; rfl
  · subst hslash; rfl
  · subst hb; rfl
  · subst hf; rfl
  · subst hn; rfl
  · subst hr; rfl
  · subst ht; rfl
  · exact readBody_control hcontrol cs
  · exact readBody_plain hquote hslash hcontrol cs

/-- The written form of a text reads as that text, up to its closing quote. -/
theorem readBody_escapes (s rest : List Char) :
    readBody (s.flatMap escape ++ '"' :: rest) = .ok (s, rest) := by
  induction s with
  | nil => rfl
  | cons c s ih =>
    rw [List.flatMap_cons, List.append_assoc, readBody_escape, ih]
    rfl

theorem render_append (s : String) (rest : List Char) :
    render s ++ rest = '"' :: (s.toList.flatMap escape ++ '"' :: rest) := by
  simp only [render, List.cons_append, List.append_assoc, List.nil_append]

end Schemata.Json.Text

namespace Schemata.Json.Reader

theorem string_escapes (s : String) (rest : List Char) :
    string (s.toList.flatMap Text.escape ++ '"' :: rest) = (.str s, some rest) := by
  rw [string, Text.readBody_escapes]
  simp only [String.ofList_toList]

theorem key_escapes (s : String) (rest : List Char) :
    key (s.toList.flatMap Text.escape ++ '"' :: rest) = (.name s, some rest) := by
  rw [key, Text.readBody_escapes]
  simp only [String.ofList_toList]

end Schemata.Json.Reader
