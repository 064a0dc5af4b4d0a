/-
# Compdb.Classification — what the tokens of a compiler invocation mean

One pass over the tokens sorts them:

* parameterized options are kept, each with the token after it, whatever that is;
* `Yc` and `Yu` name a precompiled header, `Tc` and `Tp` a source file, either in the same
  token or in the next one when that is not an option;
* `TC` and `TP` make every positional token a source file, wherever they stand;
* `link`, in any letter case, ends the pass;
* other options and response files are dropped;
* the remaining tokens are candidates, which are source files by their extension.

The pass is a fold, so the state after a beginning of the token list is a value, and the
token which an option waits for is part of that state.
-/
import Compdb.Entry
import Compdb.Environment
import Compdb.Log
import Compdb.Path

namespace Compdb

set_option autoImplicit false

/-- The name of an option: the token without its first character, a slash or a dash. -/
def optionName : Text → Option Text
  | '/' :: name => some name
  | '-' :: name => some name
  | _ => none

/-- The options which keep the next token as their value. -/
def parameterizedNames : List Text :=
  ["D".toList, "I".toList, "F".toList, "U".toList, "FI".toList, "FU".toList,
   "analyze:log".toList, "analyze:stacksize".toList, "analyze:max_paths".toList,
   "analyze:ruleset".toList, "analyze:plugin".toList]

/-- The option which ends the compiler arguments. -/
def linkName : Text := "link".toList

def sourceExtensions : List Text :=
  ["c".toList, "cxx".toList, "cpp".toList]

/-- What an option says, by its name. -/
inductive OptionMeaning where
  /-- Keeps the next token as its value. -/
  | parameterized
  /-- Names a precompiled header; without a name the next token does. -/
  | precompiledHeader (name : Text)
  /-- Names a source file; without a name the next token does. -/
  | sourceFile (name : Text)
  /-- Makes every positional token a source file. -/
  | forceSource
  | link
  | other
  deriving DecidableEq, Repr

/-- The meaning of an option name. Names are case-sensitive, but for `link`. -/
def OptionMeaning.ofName (name : Text) : OptionMeaning :=
  if parameterizedNames.contains name then .parameterized
  else
    match name with
    | 'Y' :: 'c' :: header => .precompiledHeader header
    | 'Y' :: 'u' :: header => .precompiledHeader header
    | 'T' :: 'c' :: file => .sourceFile file
    | 'T' :: 'p' :: file => .sourceFile file
    | ['T', 'C'] => .forceSource
    | ['T', 'P'] => .forceSource
    | _ => if Text.sameFolded name linkName then .link else .other

/-- Whether the text after the last dot is the extension of a source file, in any case. -/
def hasSourceExtension (candidate : Text) : Bool :=
  match Text.splitLast (· == '.') candidate with
  | some (_, extension) => sourceExtensions.contains (Text.foldCase extension)
  | none => false

/-- What an option still waits for. -/
inductive Awaited where
  /-- The value of a parameterized option: any token. -/
  | value
  /-- The name of a precompiled header: a token which is not an option. -/
  | header
  /-- The name of a source file: a token which is not an option. -/
  | file
  deriving DecidableEq, Repr

/-- The state of the pass after some tokens. -/
structure Pass where
  /-- The parameterized options and their values. -/
  arguments : List Text := []
  namedFiles : List Text := []
  /-- The positional tokens which may be source files. -/
  candidates : List Text := []
  pchHeaders : List Text := []
  forceSource : Bool := false
  /-- What the last option waits for. -/
  awaited : Option Awaited := none
  /-- Whether `link` was met. -/
  stopped : Bool := false
  dropped : List Text := []
  deriving DecidableEq, Repr

structure Classification where
  /-- The parameterized options and their values, in order. -/
  arguments : List Text
  /-- The source files: the named ones first, then the candidates. -/
  files : List Text
  pchHeaders : List Text
  deriving DecidableEq, Repr

namespace Pass

/-- Notes a header, without the quotes around it. An empty name is no header. -/
def addHeader (p : Pass) (header : Text) : Pass :=
  let header := Text.trimQuotes header
  if header.isEmpty then p else { p with pchHeaders := p.pchHeaders ++ [header] }

/-- Notes a named source file, without the quotes around it. An empty name is no file. -/
def addFile (p : Pass) (file : Text) : Pass :=
  let file := Text.trimQuotes file
  if file.isEmpty then p else { p with namedFiles := p.namedFiles ++ [file] }

/-- Notes a positional token. An empty token and a response file are no candidates. -/
def addCandidate (p : Pass) (token : Text) : Pass :=
  if token.isEmpty || token.head? == some '@' then p
  else { p with candidates := p.candidates ++ [token] }

/-- Keeps a token as an argument. -/
def keep (p : Pass) (token : Text) : Pass :=
  { p with arguments := p.arguments ++ [token] }

/-- Takes an option with this meaning. -/
def takeOption (p : Pass) (token : Text) : OptionMeaning → Pass
  | .parameterized => { p.keep token with awaited := some .value }
  | .precompiledHeader [] => { p with awaited := some .header }
  | .precompiledHeader header => p.addHeader header
  | .sourceFile [] => { p with awaited := some .file }
  | .sourceFile file => p.addFile file
  | .forceSource => { p with forceSource := true }
  | .link => { p with stopped := true }
  | .other => { p with dropped := p.dropped ++ [token] }

/-- Takes a token for which nothing waits. -/
def takeFree (p : Pass) (token : Text) : Pass :=
  match optionName token with
  | none => p.addCandidate token
  | some name => p.takeOption token (OptionMeaning.ofName name)

def step (p : Pass) (token : Text) : Pass :=
  if p.stopped then p
  else
    let free := { p with awaited := none }
    match p.awaited with
    | none => p.takeFree token
    | some .value => free.keep token
    | some .header =>
        if (optionName token).isNone then free.addHeader token else free.takeFree token
    | some .file =>
        if (optionName token).isNone then free.addFile token else free.takeFree token

def run (p : Pass) (tokens : List Text) : Pass :=
  tokens.foldl step p

/-- The candidates which are source files. -/
def promoted (p : Pass) : List Text :=
  p.candidates.filter fun candidate => p.forceSource || hasSourceExtension candidate

/-- The result at the end of the tokens. -/
def finish (p : Pass) : Classification where
  arguments := p.arguments
  files := p.namedFiles ++ p.promoted
  pchHeaders := p.pchHeaders

/-- The records about the options without a meaning. -/
def records (p : Pass) : List Log.Record :=
  p.dropped.map fun token => ⟨.trace, .classification, "Dropping argument: ".toList ++ token⟩

end Pass

/-- The state of the pass after the compiler arguments, the compiler not included. -/
def Pass.ofTokens (tokens : List Text) : Pass :=
  ({} : Pass).run tokens

/-- Classifies the compiler arguments, the compiler not included. -/
def classify (tokens : List Text) : Classification :=
  (Pass.ofTokens tokens).finish

namespace Classification

/-- The argument which adds an include directory. -/
def includeArgument (directory : Text) : Text :=
  '/' :: 'I' :: directory

/-- The directories of the precompiled headers, as arguments. -/
def pchIncludeArguments (c : Classification) : List Text :=
  (c.pchHeaders.filterMap Path.parentDirectory).map includeArgument

/-- The arguments which all files of the invocation share: the compiler, the kept arguments,
the directories of the precompiled headers, and the include directories. -/
def commonArguments (c : Classification) (compiler : Text) (includes : IncludeSet) : List Text :=
  compiler :: (c.arguments ++ c.pchIncludeArguments ++ includes.paths.map includeArgument)

/-- One entry for each source file. -/
def entries (c : Classification) (compiler directory : Text) (includes : IncludeSet) :
    List Entry :=
  c.files.map fun file => ⟨directory, file, c.commonArguments compiler includes ++ [file]⟩

end Classification

end Compdb
