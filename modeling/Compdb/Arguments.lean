/-
# Compdb.Arguments — the arguments of the program

Arguments are read from left to right. An option takes a value, in the same argument or in
the next one; a switch takes none. An option whose value is the next argument stays open
until the next known option or switch, or the end, and only then is it entered, so a value
which is missing, repeated or unknown is found at that point. An argument which is not
known stops the reading at once.
-/
import Compdb.Config.Overrides

namespace Compdb

set_option autoImplicit false

/-- The options with a value. -/
inductive ValueOption where
  | config
  | input
  | output
  | parameters
  | customTask
  | logFile
  | merge
  deriving DecidableEq, Repr

namespace ValueOption

/-- The options in the order of the help text. -/
def all : List ValueOption :=
  [.config, .input, .output, .parameters, .customTask, .logFile, .merge]

/-- The name after two dashes. -/
def long : ValueOption → Text
  | .config => "config".toList
  | .input => "input".toList
  | .output => "output".toList
  | .parameters => "parameters".toList
  | .customTask => "custom-task".toList
  | .logFile => "log-file".toList
  | .merge => "merge".toList

/-- The letter after one dash. -/
def short? : ValueOption → Option Char
  | .config => some 'c'
  | .input => some 'i'
  | .output => some 'o'
  | .parameters => some 'p'
  | _ => none

/-- What stands for the value in messages. -/
def placeholder : ValueOption → Text
  | .config | .input | .output => "FILE".toList
  | .parameters => "PARAMETERS".toList
  | .customTask => "NAME".toList
  | .logFile => "DESTINATION".toList
  | .merge => "POLICY".toList

/-- The option in messages. -/
def display (o : ValueOption) : Text :=
  "--".toList ++ o.long ++ " <".toList ++ o.placeholder ++ ['>']

end ValueOption

inductive Switch where
  | verbose
  | help
  | version
  deriving DecidableEq, Repr

namespace Switch

def all : List Switch := [.verbose, .help, .version]

/-- The name after two dashes. -/
def long : Switch → Text
  | .verbose => "verbose".toList
  | .help => "help".toList
  | .version => "version".toList

/-- The letter after one dash. -/
def short : Switch → Char
  | .verbose => 'v'
  | .help => 'h'
  | .version => 'V'

/-- The switch in messages; the dots say that it can be repeated. -/
def display : Switch → Text
  | .verbose => "--verbose...".toList
  | s => "--".toList ++ s.long

end Switch

/-- The reasons why arguments are not acceptable. -/
inductive ArgumentError where
  | unexpectedArgument (argument : Text)
  | missingValue (option : ValueOption)
  | unknownPolicy (value : Text)
  | repeated (option : ValueOption)
  | unexpectedValue (switch : Switch) (value : Text)
  deriving DecidableEq, Repr

def ArgumentError.message : ArgumentError → Text
  | .unexpectedArgument argument =>
      "error: unexpected argument '".toList ++ argument ++ "' found".toList
  | .missingValue option =>
      "error: a value is required for '".toList ++ option.display
        ++ "' but none was supplied".toList
  | .unknownPolicy value =>
      "error: invalid value '".toList ++ value ++ "' for '".toList ++ ValueOption.merge.display
        ++ ['\'']
  | .repeated option =>
      "error: the argument '".toList ++ option.display
        ++ "' cannot be used multiple times".toList
  | .unexpectedValue switch value =>
      "error: unexpected value '".toList ++ value ++ "' for '".toList ++ switch.display
        ++ "' found; no more were expected".toList

/-- What ends the reading of the arguments before their end. -/
inductive ArgumentStop where
  | error (reason : ArgumentError)
  /-- The help text is asked for, in its short or its full form. -/
  | help (full : Bool)
  | version
  deriving DecidableEq, Repr

structure Arguments where
  config : Option Text
  /-- The path of the event file, or `-` for the standard input. -/
  input : Text
  parameters : Option Text
  /-- The settings given as options. -/
  overrides : Overrides
  /-- How often more records were asked for, at most 255. -/
  verbose : Nat
  deriving DecidableEq, Repr

namespace Arguments

/-- The event file, unless given. -/
def defaultInput : Text := "events.json".toList

/-- The state of the reading between two arguments. -/
structure Reading where
  /-- The values which were entered. -/
  values : List (ValueOption × Text) := []
  /-- How often `verbose` was met. -/
  verbose : Nat := 0
  /-- The open option, and its value once that was met. -/
  open? : Option (ValueOption × Option Text) := none
  /-- Whether all further arguments are positional. -/
  positionalOnly : Bool := false
  deriving Repr

namespace Reading

def value? (r : Reading) (option : ValueOption) : Option Text :=
  (r.values.find? fun pair => pair.1 == option).map Prod.snd

/-- Enters the value of an option, which can be given once. -/
def enter (r : Reading) (option : ValueOption) (value : Text) : Except ArgumentStop Reading :=
  if (r.value? option).isSome then .error (.error (.repeated option))
  else if option == .merge && value.isEmpty then .error (.error (.missingValue option))
  else if option == .merge && (MergePolicy.ofName? value).isNone then
    .error (.error (.unknownPolicy value))
  else .ok { r with values := r.values ++ [(option, value)] }

/-- Enters the open option. -/
def close (r : Reading) : Except ArgumentStop Reading :=
  match r.open? with
  | none => .ok r
  | some (option, none) => .error (.error (.missingValue option))
  | some (option, some value) => { r with open? := none }.enter option value

/-- Meets an option, with its value when that stands in the same argument. -/
def takeOption (r : Reading) (option : ValueOption) (attached : Option Text) :
    Except ArgumentStop Reading := do
  let r ← r.close
  match attached with
  | some value => r.enter option value
  | none => .ok { r with open? := some (option, none) }

/-- Meets a switch, under its long or its short name. -/
def takeSwitch (r : Reading) (switch : Switch) (isLong : Bool) : Except ArgumentStop Reading := do
  let r ← r.close
  match switch with
  | .verbose => .ok { r with verbose := min 255 (r.verbose + 1) }
  | .help => .error (.help isLong)
  | .version => .error .version

/-- Meets a long name, with the value behind an equals sign. -/
def takeLong (r : Reading) (name : Text) (attached : Option Text) :
    Except ArgumentStop Reading := do
  match ValueOption.all.find? fun option => option.long == name with
  | some option => r.takeOption option attached
  | none =>
      match Switch.all.find? fun switch => switch.long == name with
      | none => .error (.error (.unexpectedArgument ("--".toList ++ name)))
      | some switch =>
          match attached with
          | none => r.takeSwitch switch true
          | some value => do
              let _ ← r.close
              .error (.error (.unexpectedValue switch value))

/-- Meets the letters of an argument with one dash. The rest behind the letter of an option is
its value. -/
def takeShorts (r : Reading) : Text → Except ArgumentStop Reading
  | [] => .ok r
  | letter :: rest =>
      match ValueOption.all.find? fun option => option.short? == some letter with
      | some option =>
          match rest with
          | [] => r.takeOption option none
          | '=' :: value => r.takeOption option (some value)
          | value => r.takeOption option (some value)
      | none =>
          match Switch.all.find? fun switch => switch.short == letter with
          | some switch => do
              let r ← r.takeSwitch switch false
              r.takeShorts rest
          | none => .error (.error (.unexpectedArgument ['-', letter]))

/-- Meets an argument which names no option: the value of the open option, or a positional
argument, which is not expected. -/
def takePlain (r : Reading) (argument : Text) : Except ArgumentStop Reading :=
  match r.open?, r.positionalOnly with
  | some (option, none), false => .ok { r with open? := some (option, some argument) }
  | _, _ => .error (.error (.unexpectedArgument argument))

/-- Takes the next argument. -/
def take (r : Reading) (argument : Text) : Except ArgumentStop Reading :=
  if r.positionalOnly then r.takePlain argument
  else
    match argument with
    | ['-', '-'] => .ok { r with positionalOnly := true }
    | '-' :: '-' :: name =>
        match Text.splitFirst '=' name with
        | some (name, value) => r.takeLong name (some value)
        | none => r.takeLong name none
    | '-' :: letter :: letters => r.takeShorts (letter :: letters)
    | argument => r.takePlain argument

/-- The arguments at the end of the reading. -/
def finish (r : Reading) : Except ArgumentStop Arguments := do
  let r ← r.close
  .ok
    { config := r.value? .config
      input := (r.value? .input).getD defaultInput
      parameters := r.value? .parameters
      overrides :=
        { output := r.value? .output
          customTask := r.value? .customTask
          logFile := (r.value? .logFile).map LogDestination.ofText
          merge := (r.value? .merge).bind MergePolicy.ofName? }
      verbose := r.verbose }

end Reading

/-- Reads the arguments, the name of the program not included. -/
def ofList (arguments : List Text) : Except ArgumentStop Arguments := do
  let r ← arguments.foldlM Reading.take {}
  r.finish

/-- The name and the version of the program. -/
def versionText : Text := "msbear 0.3.0\n".toList

/-- One entry of the help text. -/
structure HelpRow where
  /-- The names and the placeholder. -/
  label : Text
  summary : Text
  /-- What the full form says instead. -/
  details : Text := summary
  values : Option Text := none

/-- The names and the placeholder of an option. -/
def optionLabel (o : ValueOption) : Text :=
  (match o.short? with
    | some letter => ['-', letter, ',', ' ']
    | none => "    ".toList) ++ o.display

def switchLabel (s : Switch) : Text :=
  ['-', s.short, ',', ' '] ++ s.display

def helpRows : List HelpRow :=
  [{ label := switchLabel .verbose, summary := "Sets the level of verbosity".toList },
   { label := optionLabel .config, summary := "Path of the config file".toList },
   { label := optionLabel .input
     summary := "Path of the event file, '-' reads the standard input".toList
     values := some ("[default: ".toList ++ defaultInput ++ [']']) },
   { label := optionLabel .output, summary := "Path of the result file".toList },
   { label := optionLabel .parameters
     summary := "Logger style parameters".toList
     details :=
      "Logger style parameters: output;customtask=...;logfile=...;merge=...".toList },
   { label := optionLabel .customTask
     summary := "Task name (substring) which is also a compiler invocation".toList },
   { label := optionLabel .logFile
     summary := "Write the diagnostic messages to a file, or to 'stdout'".toList },
   { label := optionLabel .merge
     summary := "How to treat the entries of an existing result file".toList
     values := some ("[possible values: ".toList
      ++ [',', ' '].intercalate (MergePolicy.all.map MergePolicy.name) ++ [']']) },
   { label := switchLabel .help
     summary := "Print help (see more with '--help')".toList
     details := "Print help (see a summary with '-h')".toList },
   { label := switchLabel .version, summary := "Print version".toList }]

def helpHead : Text :=
  ("Generates a compilation database for clang tooling from MSVC build events.\n\n"
    ++ "Usage: msbear [OPTIONS]\n\nOptions:\n").toList

/-- The width of the column of labels in the short form. -/
def labelWidth : Nat :=
  (helpRows.map fun row => row.label.length).foldl max 0

/-- An entry in the short form: one line, with the texts in a column. -/
def HelpRow.short (row : HelpRow) : Text :=
  "  ".toList ++ row.label ++ List.replicate (labelWidth + 2 - row.label.length) ' '
    ++ row.summary ++ (row.values.map fun values => ' ' :: values).getD []

/-- An entry in the full form: the texts stand below the label. -/
def HelpRow.full (row : HelpRow) : Text :=
  let newLine := '\n' :: List.replicate 10 ' '
  "  ".toList ++ row.label ++ newLine ++ row.details
    ++ (row.values.map fun values => newLine ++ newLine ++ values).getD []

/-- The help text in its short or its full form. -/
def helpText (full : Bool) : Text :=
  helpHead ++
    (if full then ['\n', '\n'].intercalate (helpRows.map HelpRow.full)
      else ['\n'].intercalate (helpRows.map HelpRow.short)) ++ ['\n']

end Arguments

end Compdb
