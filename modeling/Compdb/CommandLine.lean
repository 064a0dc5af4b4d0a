/-
# Compdb.CommandLine — the tokens of a compiler command line

The line is first normalized (build logs break long commands over several lines) and then
split by the rules of Windows programs for the arguments after the program name:

* outside of quotes, a space ends the token;
* `2n` backslashes and a quote stand for `n` backslashes and change the quoting;
* `2n+1` backslashes and a quote stand for `n` backslashes and a literal quote;
* backslashes without a quote behind them stand for themselves;
* quotes in a row are counted: the third one gives a literal quote and leaves the quoting,
  a pair leaves the quoting.

The splitter is a machine over the characters. It writes a backslash down at once and
takes half of the run back when a quote follows; `Splitter.backslashes` counts how many
of the last characters written can still be taken back.
-/
import Compdb.Text.Blank

namespace Compdb.CommandLine

set_option autoImplicit false

/-- The reasons why a line has no tokens. -/
inductive TokenizeError where
  | empty
  | interiorNul
  deriving DecidableEq, Repr

def TokenizeError.message : TokenizeError → Text
  | .empty => "Command line is empty".toList
  | .interiorNul => "Command line contains a NUL character".toList

/-- The state of the splitter between two characters. -/
structure Splitter where
  /-- The finished tokens, the latest first. -/
  tokens : List Text := []
  /-- The token being written, its last character first. -/
  current : Text := []
  /-- Whether a token was begun. A token can be empty, so `current` does not tell. -/
  inToken : Bool := false
  /-- The number of backslashes directly before this position. -/
  backslashes : Nat := 0
  /-- The count of quotes which are open: 0 outside of quotes, 1 inside of them, and 2
  only within a run of quotes. -/
  quotes : Nat := 0
  /-- Whether the character before this position is part of a run of quotes which the
  count still covers. -/
  inQuoteRun : Bool := false
  deriving DecidableEq, Repr

namespace Splitter

/-- Leaves a run of quotes: a pair of quotes leaves the quoting. -/
def endQuoteRun (s : Splitter) : Splitter :=
  if s.inQuoteRun then
    { s with inQuoteRun := false, quotes := if s.quotes == 2 then 0 else s.quotes }
  else s

/-- A separator outside of quotes ends the token. -/
def separator (s : Splitter) : Splitter :=
  if s.inToken then
    { s with tokens := s.current.reverse :: s.tokens, current := [], inToken := false,
             backslashes := 0 }
  else { s with backslashes := 0 }

def backslash (s : Splitter) : Splitter :=
  { s with current := '\\' :: s.current, inToken := true, backslashes := s.backslashes + 1 }

/-- Writes a character which has no meaning of its own. -/
def ordinary (s : Splitter) (c : Char) : Splitter :=
  { s with current := c :: s.current, inToken := true, backslashes := 0 }

/-- The first quote of a run. Half of the backslashes before it are taken back; an odd one
is taken back too and makes the quote literal. -/
def firstQuote (s : Splitter) : Splitter :=
  if s.backslashes % 2 == 0 then
    { s with current := s.current.drop (s.backslashes / 2), inToken := true, backslashes := 0,
             quotes := s.quotes + 1, inQuoteRun := true }
  else
    { s with current := '"' :: s.current.drop (s.backslashes / 2 + 1), inToken := true,
             backslashes := 0, inQuoteRun := true }

/-- A further quote of a run: the third one is literal and starts the count again. -/
def nextQuote (s : Splitter) : Splitter :=
  if s.quotes + 1 == 3 then { s with current := '"' :: s.current, quotes := 0 }
  else { s with quotes := s.quotes + 1 }

/-- Takes one character of the line. -/
def step (s : Splitter) (c : Char) : Splitter :=
  if c == '"' then
    if s.inQuoteRun then s.nextQuote else s.firstQuote
  else
    let s := s.endQuoteRun
    if (c == ' ' || c == '\t') && s.quotes == 0 then s.separator
    else if c == '\\' then s.backslash
    else s.ordinary c

/-- The tokens at the end of the line. Quotes which are still open end with the line. -/
def finish (s : Splitter) : List Text :=
  (if s.inToken then s.current.reverse :: s.tokens else s.tokens).reverse

end Splitter

def split (line : Text) : List Text :=
  (line.foldl Splitter.step {}).finish

def tokenize (line : Text) : Except TokenizeError (List Text) :=
  if line.contains '\x00' then .error .interiorNul
  else
    let normalized := Text.normalize line
    if normalized.isEmpty then .error .empty else .ok (split normalized)

end Compdb.CommandLine
