/-
# Compdb.Path — paths as texts

Build events carry Windows paths on every host, so a separator is a backslash or a
slash. Two functions follow the host, which is a Unix one here: a path which starts at the
root of the host begins with a slash (`isAbsolute`), and joining puts a slash between the
parts (`join`). A Windows host has other roots and another separator.
-/
import Compdb.Text.Basic

namespace Compdb.Path

set_option autoImplicit false

/-- Both characters which can separate the parts of a path. -/
def isSeparator (c : Char) : Bool :=
  c == '\\' || c == '/'

/-- The directory part: the text before the last separator, when there is any. -/
def parentDirectory (path : Text) : Option Text :=
  match Text.splitLast isSeparator path with
  | some (c :: directory, _) => some (c :: directory)
  | _ => none

/-- Whether the path begins with a drive letter, a colon and a separator. -/
def hasDrive : Text → Bool
  | letter :: colon :: separator :: _ =>
      letter.isAlpha && colon == ':' && isSeparator separator
  | _ => false

/-- Whether the path is absolute: it names a drive, a network share, or starts at the root
of the host, the slash of Unix. -/
def isAbsolute (path : Text) : Bool :=
  hasDrive path || ['\\', '\\'].isPrefixOf path || ['/'].isPrefixOf path

/-- Appends a relative path to a directory of the host, as Unix does: the separator is the slash,
and a path which begins with one stands for itself. -/
def join (directory path : Text) : Text :=
  if ['/'].isPrefixOf path || directory.isEmpty then path
  else if directory.getLast? == some '/' then directory ++ path
  else directory ++ '/' :: path

end Compdb.Path
