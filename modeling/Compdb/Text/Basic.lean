/-
# Compdb.Text.Basic — texts, cutting and trimming

A text is a list of Unicode scalar values, so every operation on it is an operation on
lists and nothing depends on an encoding. This module holds the cuts which the rest of
the library is built from: at the characters of a class, at the first occurrence of a
character, and at both ends.
-/

namespace Compdb

set_option autoImplicit false

/-- A text is a list of Unicode scalar values. -/
abbrev Text := List Char

namespace Text

/-- Drops the longest end part whose characters are all in the class `p`. -/
def dropEndWhile (p : Char → Bool) (t : Text) : Text :=
  (t.reverse.dropWhile p).reverse

/-- Drops the characters of the class `p` at both ends. -/
def trimWhere (p : Char → Bool) (t : Text) : Text :=
  dropEndWhile p (t.dropWhile p)

def trimQuotes (t : Text) : Text :=
  trimWhere (· == '"') t

/-- Cuts the text at every character of the class `p`. There is one piece more than
there are such characters, and a piece can be empty. -/
def splitWhere (p : Char → Bool) : Text → List Text
  | [] => [[]]
  | c :: rest =>
      if p c then [] :: splitWhere p rest
      else
        match splitWhere p rest with
        | [] => [[c]]
        | piece :: pieces => (c :: piece) :: pieces

/-- Cuts the text at every occurrence of one character. -/
def splitAt (separator : Char) (t : Text) : List Text :=
  splitWhere (· == separator) t

/-- Cuts the text at the first occurrence of the character, which belongs to neither part. -/
def splitFirst (separator : Char) : Text → Option (Text × Text)
  | [] => none
  | c :: rest =>
      if c == separator then some ([], rest)
      else (splitFirst separator rest).map fun (before, after) => (c :: before, after)

/-- Cuts the text at the last occurrence of a character of the class `p`, which belongs to
neither part. -/
def splitLast (p : Char → Bool) (t : Text) : Option (Text × Text) :=
  match t.reverse.dropWhile (fun c => !p c) with
  | [] => none
  | _ :: before => some (before.reverse, (t.reverse.takeWhile fun c => !p c).reverse)

/-- The rest of the text after a given beginning. -/
def afterStart (start t : Text) : Option Text :=
  if start.isPrefixOf t then some (t.drop start.length) else none

/-- Whether the second text has the first one somewhere inside. -/
def occursIn (part : Text) : Text → Bool
  | [] => part.isEmpty
  | c :: rest => part.isPrefixOf (c :: rest) || occursIn part rest

/-- The lines of a text. A line feed ends a line, a carriage return directly before it
belongs to the line end, and a last line without line feed counts when it is not empty. -/
def lines (t : Text) : List Text :=
  let pieces := splitAt '\n' t
  let ended := pieces.dropLast.map fun line =>
    if line.getLast? == some '\r' then line.dropLast else line
  match pieces.getLast? with
  | some (c :: rest) => ended ++ [c :: rest]
  | _ => ended

def ofNat (n : Nat) : Text :=
  (toString n).toList

end Text

end Compdb
