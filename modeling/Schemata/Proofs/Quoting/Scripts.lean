import Schemata.Proofs.Compile.Inversion
import Schemata.Proofs.Quoting.Cutting
import Schemata.Proofs.Quoting.Statements

/-!
# Statements in a script

A script has its statements line by line, each with a semicolon behind it. No statement has a
semicolon outside its quotes, so the script can be cut into its statements again, whatever
semicolons and line breaks stand in names, enum values and defaults.

A semicolon outside the quotes of a statement stands in its frame, and so in the statement of
the blank blueprint; and that one has no semicolon at all.
-/
namespace Schemata.Quoting

open Grammar

/-- A text without semicolons. -/
def Unbroken (s : String) : Prop := ';' ∉ s.toList

instance (s : String) : Decidable (Unbroken s) := inferInstanceAs (Decidable (¬ _))

variable {q : Char} {s t p : String}

/-! ## Blank statements -/

theorem Unbroken.append (hs : Unbroken s) (ht : Unbroken t) : Unbroken (s ++ t) := by
  unfold Unbroken
  rw [String.toList_append, List.mem_append, not_or]
  exact ⟨hs, ht⟩

end Schemata.Quoting
