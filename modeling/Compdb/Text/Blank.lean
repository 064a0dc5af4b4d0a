/-
# Compdb.Text.Blank — white space

The class of blank characters is the property `White_Space` of Unicode, 25 characters.
A line is normalized when its words are separated by single spaces and nothing surrounds
them.
-/
import Compdb.Text.Basic

namespace Compdb.Text

set_option autoImplicit false

/-- The ranges of the Unicode property `White_Space`. -/
def blankRanges : List (Nat × Nat) :=
  [(0x09, 0x0D), (0x20, 0x20), (0x85, 0x85), (0xA0, 0xA0), (0x1680, 0x1680),
   (0x2000, 0x200A), (0x2028, 0x2029), (0x202F, 0x202F), (0x205F, 0x205F), (0x3000, 0x3000)]

def isBlank (c : Char) : Bool :=
  blankRanges.any fun range => range.1 ≤ c.toNat && c.toNat ≤ range.2

def trim (t : Text) : Text :=
  trimWhere isBlank t

/-- Whether the text has nothing but white space. -/
def allBlank (t : Text) : Bool :=
  t.all isBlank

/-- The maximal parts without white space, in order. -/
def words (t : Text) : List Text :=
  (splitWhere isBlank t).filter fun word => !word.isEmpty

/-- The items of a list which is written with separators: the trimmed pieces between the
separators, without the empty ones. -/
def listItems (separator : Char) (t : Text) : List Text :=
  ((splitAt separator t).map trim).filter fun item => !item.isEmpty

/-- Replaces every run of white space by one space, and drops the runs at both ends. -/
def normalize (t : Text) : Text :=
  [' '].intercalate (words t)

end Compdb.Text
