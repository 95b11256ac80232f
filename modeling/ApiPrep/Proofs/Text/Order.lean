import ApiPrep.Text
import Mathlib.Data.List.Lex

namespace ApiPrep.Text

def codes (s : Text) : List Nat := s.toList.map Rune.toNat

theorem codes_injective : Function.Injective codes := fun _ _ h =>
  toList_injective ((List.map_injective_iff.2 fun _ _ => Rune.toNat_injective) h)

instance : LinearOrder Text where
  toLT := instLT
  le s t := codes s ≤ codes t
  le_refl s := le_refl (codes s)
  le_trans _ _ _ h h' := le_trans (α := List Nat) h h'
  lt_iff_le_not_ge s t := lt_iff_le_not_ge (a := codes s) (b := codes t)
  le_antisymm _ _ h h' := codes_injective (le_antisymm h h')
  le_total s t := le_total (codes s) (codes t)
  toDecidableLE s t := inferInstanceAs (Decidable (codes s ≤ codes t))
  toDecidableLT := instDecidableLt
  toDecidableEq := instDecidableEqText

end ApiPrep.Text
