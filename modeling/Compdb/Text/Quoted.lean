/-
# Compdb.Text.Quoted — texts in double quotes, for messages

A quoted text shows where it begins and ends and what it holds: a backslash and a quote are
escaped by a backslash, the common controls by a letter, and every other character which
cannot be shown by its number in hexadecimal.
-/
import Compdb.Text.Printable

namespace Compdb.Text

set_option autoImplicit false

def hex (n : Nat) : Text :=
  Nat.toDigits 16 n

/-- One character within quotes. -/
def quotedChar (c : Char) : Text :=
  match c with
  | '\x00' => ['\\', '0']
  | '\t' => ['\\', 't']
  | '\n' => ['\\', 'n']
  | '\r' => ['\\', 'r']
  | '"' => ['\\', '"']
  | '\\' => ['\\', '\\']
  | c => if isPrintable c then [c] else ['\\', 'u', '\x7b'] ++ hex c.toNat ++ ['\x7d']

def quoted (t : Text) : Text :=
  '"' :: t.flatMap quotedChar ++ ['"']

/-- A list of texts in brackets, each in double quotes. -/
def quotedList (texts : List Text) : Text :=
  '[' :: [',', ' '].intercalate (texts.map quoted) ++ [']']

end Compdb.Text
