/-
# Compdb.Text.Ascii — comparison which ignores the case of ASCII letters

Names of options, variables and parameters are compared this way. Only the letters `A`
to `Z` are folded; every other character stands for itself, so folding keeps the length
of a text and the position of each character.
-/
import Compdb.Text.Basic

namespace Compdb.Text

set_option autoImplicit false

/-- Folds the ASCII letters to lower case. -/
def foldCase (t : Text) : Text :=
  t.map Char.toLower

/-- Whether two texts differ at most in the case of ASCII letters. -/
def sameFolded (a b : Text) : Bool :=
  foldCase a == foldCase b

theorem length_foldCase (t : Text) : (foldCase t).length = t.length := by
  simp [foldCase]

theorem foldCase_append (a b : Text) : foldCase (a ++ b) = foldCase a ++ foldCase b := by
  simp [foldCase]

end Compdb.Text
