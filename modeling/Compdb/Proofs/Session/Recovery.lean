/-
# Compdb.Proofs.Session.Recovery — a compile command is recovered from its text

A build reports a compile command as one text: the compiler, between quotes or not, and its
arguments, each written raw or between quotes. Nothing is lost on the way to the database, although
the line is cut before anyone knows what is quoted in it, and normalized before the tokens are
known.

The compiler ends at the marker (`IsCompilerPath`), so the line is cut right behind it, whatever
the arguments are; of the quotes around it none is left over, neither in the compiler nor in front
of the arguments, where it would turn the quoting of all of them around (`ofLine_written`). The
arguments are then read as written (`CommandLine.tokenize_written`).
-/
import Compdb.Proofs.CommandLine.Quoting
import Compdb.Proofs.Invocation.Marker
import Compdb.Proofs.Session.Counting

namespace Compdb

set_option autoImplicit false

namespace Invocation

/-- A path which a command line can name as its compiler. It has no quote, does not begin with
white space, and has the marker once, at its end. -/
structure IsCompilerPath (path : Text) : Prop where
  unquoted : '"' ∉ path
  begins : path.head?.any Text.isBlank = false
  ends : EndsAtMarker path

/-- The command lines which name this compiler, as it is or between quotes, and have these
arguments. -/
inductive Written (path : Text) (tokens : List Text) : Text → Prop where
  | bare {gap arguments : Text} (blank : Text.allBlank gap = true) (apart : gap ≠ [])
      (written : CommandLine.Written tokens arguments) :
      Written path tokens (path ++ gap ++ arguments)
  | quoted {gap arguments : Text} (blank : Text.allBlank gap = true) (apart : gap ≠ [])
      (written : CommandLine.Written tokens arguments) :
      Written path tokens (['"'] ++ path ++ ['"'] ++ gap ++ arguments)

variable {path : Text}

/-- Nothing of the path is trimmed, but quotes in front of it are. -/
theorem IsCompilerPath.trim_append (isPath : IsCompilerPath path) (quotes : Text)
    (onlyQuotes : ∀ c ∈ quotes, c = '"') :
    Text.trimQuotes (Text.trim (quotes ++ path)) = path := by
  obtain ⟨before, same⟩ := isPath.ends.suffix
  obtain ⟨start, found, rfl, -, isMarker⟩ := List.map_eq_append_iff.mp same.symm
  have solid : (quotes ++ start).head?.any Text.isBlank = false := by
    cases quotes with
    | nil =>
        cases start with
        | nil => rfl
        | cons c start => exact isPath.begins
    | cons c quotes =>
        rw [onlyQuotes c (by simp)]
        exact CommandLine.isBlank_quote
  have noQuote : start.dropWhile (· == '"') = start := by
    cases start with
    | nil => rfl
    | cons c start =>
        refine List.dropWhile_cons_of_neg fun quote => ?_
        obtain rfl := beq_iff_eq.mp quote
        exact isPath.unquoted (by simp)
  rw [← List.append_assoc, trim_append_found isMarker, Text.dropWhile_of_head_word solid,
    List.dropWhile_append_of_pos (by simpa using onlyQuotes), noQuote]

/-- A quote in front of a text belongs to no marker. -/
theorem EndsAtMarker.cons_quote {t : Text} (ends : EndsAtMarker t) : EndsAtMarker ('"' :: t) := by
  refine ⟨ends.suffix.trans (List.suffix_cons _ _), ?_⟩
  intro before after occurrence
  cases before with
  | nil => cases (List.cons.inj occurrence).1
  | cons c before => exact ends.only before after (List.cons.inj occurrence).2

/-- A written line is cut into the compiler, without quotes, and its written arguments. -/
theorem ofLine_written (isPath : IsCompilerPath path) {tokens : List Text} {line : Text}
    (written : Written path tokens line) :
    ∃ rest, ofLine line = some ⟨path, rest⟩ ∧ CommandLine.Written tokens rest := by
  cases written with
  | @bare gap arguments blank apart written =>
      refine ⟨gap ++ arguments, ?_, written.append_blank blank⟩
      have trimmed : Text.trimQuotes (Text.trim path) = path :=
        isPath.trim_append [] (by simp)
      -- the white space behind the compiler keeps a quote of the arguments
      have kept : dropClosingQuote (gap ++ arguments) = gap ++ arguments := by
        cases gap with
        | nil => exact absurd rfl apart
        | cons c gap =>
            have notQuote : c ≠ '"' := by
              rintro rfl
              cases blank
            rw [List.cons_append, dropClosingQuote]
            simpa using notQuote
      rw [List.append_assoc, ofLine_append isPath.ends, trimmed, kept]
  | @quoted gap arguments blank apart written =>
      refine ⟨gap ++ arguments, ?_, written.append_blank blank⟩
      have trimmed : Text.trimQuotes (Text.trim ('"' :: path)) = path :=
        isPath.trim_append ['"'] (by simp)
      have cut : ['"'] ++ path ++ ['"'] ++ gap ++ arguments =
          '"' :: path ++ '"' :: (gap ++ arguments) := by simp
      rw [cut, ofLine_append isPath.ends.cons_quote, trimmed]
      rfl

end Invocation

namespace Session

/-- **A compile command is recovered from its text.** In every session, a compiler task whose line
names a compiler and has arguments written behind it is handled, and merges exactly the entries
of the classified tokens, for the compiler as the line names it, in the directory of the project
file. It is counted as an invocation, and so is each of its entries. -/
theorem handle_written (s : Session) {taskName path line : Text} {tokens : List Text}
    (projectFile : Text) (accepted : s.filter.accepts taskName = true)
    (isPath : Invocation.IsCompilerPath path) (written : Invocation.Written path tokens line)
    (clean : ∀ token ∈ tokens, '\x00' ∉ token)
    (isolated : ∀ token ∈ tokens, Text.SpacesIsolated token) :
    (s.handle (.taskCommandLine taskName line projectFile)).2 = .ok () ∧
      s.MergesTo
        ((classify tokens).entries (Invocation.resolveCompiler path s.workingDirectory)
          (Invocation.projectDirectory projectFile s.workingDirectory) s.includes)
        (s.handle (.taskCommandLine taskName line projectFile)).1 ∧
      (s.handle (.taskCommandLine taskName line projectFile)).1.statistics =
        s.statistics + { events := 1, invocations := 1 } +
          Statistics.ofOutcomes (s.database.outcomes
            ((classify tokens).entries (Invocation.resolveCompiler path s.workingDirectory)
              (Invocation.projectDirectory projectFile s.workingDirectory) s.includes)) := by
  obtain ⟨rest, parsed, arguments⟩ := Invocation.ofLine_written isPath written
  have tokenized : CommandLine.tokenize rest = .ok tokens := by
    rw [arguments.tokenize_eq clean]
    congr 1
    refine (List.map_congr_left fun token member => ?_).trans (List.map_id tokens)
    exact Text.collapse_of_isolated (isolated token member)
  have entries : (Event.taskCommandLine taskName line projectFile).entries s.filter
      s.workingDirectory s.includes.paths = s.entriesOf path projectFile tokens := by
    simp only [Event.entries, accepted, parsed, tokenized, entriesOf_eq]
  have merges := s.mergesTo_handle_task taskName line projectFile
  have statistics := s.statistics_handle (.taskCommandLine taskName line projectFile)
  rw [entries] at merges statistics
  rw [Event.tally_of_ok projectFile accepted parsed tokenized] at statistics
  refine ⟨?_, merges, statistics⟩
  rw [handle_eq_ok_iff]
  rintro ⟨-, missing⟩
  rw [parsed] at missing
  cases missing

/-- A quoted path with a space, and arguments with a marker, quotes and spaces of their own. -/
theorem handle_written_markerInArguments :
    ∃ s line,
      s = start Config.default ⟨"/w".toList, [("INCLUDE".toList, "d".toList)]⟩ [] ∧
      line = "\"C:\\My VC\\CL.exe\" \t/D \"X=\\\"cl.exe\\\" 1\" \"my \\\"b\\\".c\"".toList ∧
      (s.handle (.taskCommandLine "CL".toList line "P:\\q\\a.vcxproj".toList)).2 = .ok () ∧
      (s.handle (.taskCommandLine "CL".toList line "P:\\q\\a.vcxproj".toList)).1.database =
        (Database.ofEntries [] .overwrite).mergeAll
          [⟨"P:\\q".toList, "my \"b\".c".toList,
            ["C:\\My VC\\CL.exe".toList, "/D".toList, "X=\"cl.exe\" 1".toList, "/Id".toList,
              "my \"b\".c".toList]⟩] := by
  have third : CommandLine.Written ["my \"b\".c".toList] _ :=
    @CommandLine.Written.last _ _ [] [] (.quoted _) rfl rfl
  have second := @CommandLine.Written.cons "X=\"cl.exe\" 1".toList _ [] [' '] _ _ (.quoted _) rfl
    (by decide) (by decide) third
  have plain : ∀ c ∈ ['/', 'D'], Text.isBlank c = false ∧ c ≠ '"' := by
    rw [List.forall_mem_cons, List.forall_mem_singleton]
    decide
  have first := @CommandLine.Written.cons ['/', 'D'] _ [] [' '] _ _ (.raw (by decide) plain) rfl
    (by decide) (by decide) second
  have written := @Invocation.Written.quoted "C:\\My VC\\CL.exe".toList _ [' ', '\t'] _ (by decide)
    (by decide) first
  have isPath : Invocation.IsCompilerPath "C:\\My VC\\CL.exe".toList :=
    ⟨by decide, by decide, by decide⟩
  have accepted : (start Config.default ⟨"/w".toList, [("INCLUDE".toList, "d".toList)]⟩
      []).filter.accepts "CL".toList = true := by decide
  obtain ⟨succeeds, merges, -⟩ := handle_written _ "P:\\q\\a.vcxproj".toList accepted isPath
    written (by decide) (by decide +kernel)
  refine ⟨_, _, rfl, rfl, succeeds, ?_⟩
  refine merges.database.trans ?_
  exact congrArg (Database.ofEntries [] .overwrite).mergeAll (by decide +kernel)

end Session

end Compdb
