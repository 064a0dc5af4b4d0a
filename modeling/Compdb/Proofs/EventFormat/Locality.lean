/-
# Compdb.Proofs.EventFormat.Locality — every line is read on its own, under its own number

A line begins where the bytes before it end with a line feed, or where there are none (`EndsLine`),
and goes on to the next line feed (`lineAt`). What is read of it depends on its bytes, and on the
line feeds before it only through the number in a fault. So finding the lines, cutting them and
reading them all go through a concatenation whose first part ends a line (`linesOf_append`,
`splitLines_of_endsLine`, `read_append`).

What is read of a whole file follows by induction over its lines (`induction_lines`): there is one
result for each line which is not blank, in the order of the places where the lines begin, and the
number of a line is one more than the line feeds before its place (`reads_read`). A line which is
not UTF-8 is not blank. It ends at its line feed like any other line, so its fault changes nothing
for the lines behind it.
-/
import Compdb.Proofs.EventFormat.Lines
import Compdb.Proofs.Text.Utf8
import Mathlib.Data.List.Forall2

namespace Compdb.EventFormat

set_option autoImplicit false

/-- The byte of a line feed. -/
abbrev lineFeed : UInt8 := 0x0A

/-- The bytes end where a line begins. -/
def EndsLine (bytes : List UInt8) : Prop :=
  bytes = [] ∨ bytes.getLast? = some lineFeed

instance : DecidablePred EndsLine := fun bytes =>
  inferInstanceAs (Decidable (bytes = [] ∨ bytes.getLast? = some lineFeed))

/-- A line of a file, its end included. -/
structure Line where
  number : Nat
  bytes : List UInt8
  deriving DecidableEq, Repr

namespace Line

/-- The line is a text of white space. -/
def IsBlank (line : Line) : Prop :=
  ∃ t, Utf8.encode t = line.bytes ∧ Text.allBlank t = true

instance : DecidablePred IsBlank := fun line =>
  decidable_of_iff (∃ t ∈ Utf8.decode? line.bytes, Text.allBlank t = true) <| exists_congr fun _ =>
    and_congr_left fun _ => Option.mem_def.trans Utf8.decode?_eq_some_iff

/-- What a line gives which is not blank. -/
inductive Gives (line : Line) : Except LineFault Event → Prop
  | undecodable : (∀ t, Utf8.encode t ≠ line.bytes) → Gives line (.error .undecodable)
  | event {t : Text} {e : Event} : Utf8.encode t = line.bytes → parse (dropLineEnd t) = .ok e →
      Gives line (.ok e)
  | invalid {t : Text} {fault : Json.Fault} : Utf8.encode t = line.bytes →
      parse (dropLineEnd t) = .error fault → Gives line (.error (.invalid line.number fault))

/-- The line as it is with more line feeds before it. -/
def behind (feeds : Nat) (line : Line) : Line :=
  { line with number := feeds + line.number }

end Line

/-- The fault as it is with more line feeds before its line. -/
def LineFault.behind (feeds : Nat) : LineFault → LineFault
  | .undecodable => .undecodable
  | .invalid number fault => .invalid (feeds + number) fault

/-- The places where a line begins, in order. -/
def lineStarts (content : List UInt8) : List Nat :=
  (List.range content.length).filter fun start => EndsLine (content.take start)

/-- The line which begins at a place: the bytes up to the next line feed, or to the end. Its number
is one more than the line feeds before this place. -/
def lineAt (content : List UInt8) (start : Nat) : Line where
  number := 1 + (content.take start).count lineFeed
  bytes := (content.drop start).take ((content.drop start).idxOf lineFeed + 1)

def linesOf (content : List UInt8) : List Line :=
  (lineStarts content).map (lineAt content)

/-- The results are those of the lines of a file which are not blank, in order. -/
def Reads (content : List UInt8) (results : List (Except LineFault Event)) : Prop :=
  List.Forall₂ Line.Gives ((linesOf content).filter fun line => ¬ line.IsBlank) results

/-! ## One line -/

theorem exists_lineEnd (t : Text) :
    ∃ ending, (ending = [] ∨ ending ∈ lineEnds) ∧ t = dropLineEnd t ++ ending := by
  rw [dropLineEnd]
  split
  · next reversed same =>
      refine ⟨['\r', '\n'], by decide, ?_⟩
      rw [← List.reverse_reverse t, same]
      simp
  · next reversed _ same =>
      refine ⟨['\n'], by decide, ?_⟩
      rw [← List.reverse_reverse t, same]
      simp
  · exact ⟨[], Or.inl rfl, (List.append_nil t).symm⟩

/-- The end of a line is blank itself. -/
theorem allBlank_dropLineEnd (t : Text) : Text.allBlank (dropLineEnd t) = Text.allBlank t := by
  obtain ⟨ending, isEnd, same⟩ := exists_lineEnd t
  have blank : Text.allBlank ending = true := by
    rcases isEnd with rfl | isEnd
    · rfl
    · simp only [lineEnds, List.mem_cons, List.not_mem_nil, or_false] at isEnd
      rcases isEnd with rfl | rfl <;> decide
  conv_rhs => rw [same, Text.allBlank, List.all_append]
  rw [Text.allBlank] at blank ⊢
  rw [blank, Bool.and_true]

/-- A blank line gives nothing, and any other line gives one result. -/
theorem readLine_cases (line : Line) :
    (line.IsBlank ∧ readLine line.number line.bytes = none) ∨
      ¬ line.IsBlank ∧ ∃ result, readLine line.number line.bytes = some result ∧
        line.Gives result := by
  rw [readLine]
  cases decoded : Utf8.decode? line.bytes with
  | none =>
      have noText (t : Text) : Utf8.encode t ≠ line.bytes := fun same => by
        rw [← Utf8.decode?_eq_some_iff, decoded] at same
        exact Option.some_ne_none t same.symm
      have notBlank : ¬ line.IsBlank := by
        rintro ⟨t, same, -⟩
        exact noText t same
      exact Or.inr ⟨notBlank, _, rfl, .undecodable noText⟩
  | some t =>
      have same := Utf8.decode?_eq_some_iff.mp decoded
      dsimp only
      rw [allBlank_dropLineEnd]
      split
      · next blank => exact Or.inl ⟨⟨t, same, blank⟩, rfl⟩
      · next filled =>
          have notBlank : ¬ line.IsBlank := by
            rintro ⟨u, same', blank⟩
            rw [← Utf8.decode?_eq_some_iff, decoded] at same'
            exact filled (Option.some.inj same' ▸ blank)
          refine Or.inr ⟨notBlank, _, rfl, ?_⟩
          split
          · next e parsed => exact .event same parsed
          · next fault failed => exact .invalid same failed

theorem readLine_behind (feeds number : Nat) (bytes : List UInt8) :
    readLine (feeds + number) bytes =
      (readLine number bytes).map (Except.mapError (LineFault.behind feeds)) := by
  rw [readLine, readLine]
  split
  · rfl
  · dsimp only
    split
    · rfl
    · split <;> rfl

theorem Line.Gives.behind {line : Line} {result : Except LineFault Event}
    (gives : line.Gives result) (feeds : Nat) :
    (line.behind feeds).Gives (result.mapError (LineFault.behind feeds)) := by
  cases gives with
  | undecodable noText => exact .undecodable noText
  | event same parsed => exact .event same parsed
  | invalid same failed => exact @Gives.invalid (line.behind feeds) _ _ same failed

/-! ## A file and its lines -/

/-- The bytes are one line. Only the last one can be a line feed. -/
structure IsLine (bytes : List UInt8) : Prop where
  filled : bytes ≠ []
  noFeed : lineFeed ∉ bytes.dropLast

/-- A file is taken apart into its lines. Nothing is behind a line which does not end with a line
feed. -/
theorem induction_lines {motive : List UInt8 → Prop} (nil : motive [])
    (last : ∀ bytes, IsLine bytes → motive bytes)
    (append : ∀ bytes rest, IsLine bytes → EndsLine bytes → motive rest → motive (bytes ++ rest))
    (content : List UInt8) : motive content := by
  induction size : content.length using Nat.strongRecOn generalizing content with
  | ind size ih =>
      by_cases feed : lineFeed ∈ content
      · -- the first line feed ends the first line
        obtain ⟨bytes, rest, rfl, noFeed⟩ := List.eq_append_cons_of_mem feed
        rw [List.append_cons]
        refine append _ rest ⟨by simp, by simpa using noFeed⟩ (Or.inr (by simp)) ?_
        refine ih rest.length ?_ rest rfl
        rw [← size, List.length_append, List.length_cons]
        omega
      · rcases List.eq_nil_or_concat content with rfl | ⟨bytes, b, rfl⟩
        · exact nil
        · exact last _ ⟨by simp, fun member => feed (List.dropLast_subset _ member)⟩

section IsLine

variable {bytes : List UInt8}

theorem IsLine.splitLines_eq (isLine : IsLine bytes) : splitLines bytes = [bytes] := by
  obtain ⟨filled, noFeed⟩ := isLine
  induction bytes with
  | nil => exact absurd rfl filled
  | cons b bytes ih =>
      cases bytes with
      | nil => cases isFeed : b == lineFeed <;> simp [splitLines, isFeed]
      | cons c bytes =>
          rw [List.dropLast_cons_cons, List.mem_cons, not_or] at noFeed
          have notFeed : ¬ (b == lineFeed) = true := fun same => noFeed.1 (beq_iff_eq.mp same).symm
          rw [splitLines, if_neg notFeed, ih (List.cons_ne_nil c bytes) noFeed.2]

/-- No line begins within a line. -/
theorem IsLine.lineStarts_eq (isLine : IsLine bytes) : lineStarts bytes = [0] := by
  obtain ⟨filled, noFeed⟩ := isLine
  obtain ⟨size, length⟩ := Nat.exists_eq_succ_of_ne_zero (mt List.length_eq_zero_iff.mp filled)
  have within (start : Nat) (inside : start ∈ List.range size) :
      ¬ EndsLine (bytes.take (start + 1)) := by
    rw [List.mem_range] at inside
    rintro (none | feed)
    · exact filled (List.take_eq_nil_iff.mp none |>.resolve_left (Nat.succ_ne_zero start))
    · rw [List.dropLast_eq_take, length] at noFeed
      exact noFeed (List.take_subset_take_left bytes inside (List.mem_of_getLast? feed))
  rw [lineStarts, length, List.range_succ_eq_map, List.filter_cons_of_pos (by simp [EndsLine]),
    List.filter_map, List.filter_eq_nil_iff.mpr (by simpa using within), List.map_nil]

/-- A line is the whole of itself: its only line feed, if there is one, is the last byte. -/
theorem IsLine.lineAt_zero (isLine : IsLine bytes) : lineAt bytes 0 = ⟨1, bytes⟩ := by
  obtain ⟨filled, noFeed⟩ := isLine
  have end' : bytes.dropLast.length ≤ bytes.idxOf lineFeed := by
    conv_rhs => rw [← List.dropLast_append_getLast filled]
    rw [List.idxOf_append_of_notMem noFeed]
    exact Nat.le_add_right _ _
  rw [List.length_dropLast] at end'
  have whole : bytes.take (bytes.idxOf lineFeed + 1) = bytes :=
    List.take_of_length_le (by omega)
  rw [lineAt, List.drop_zero, whole, List.take_zero]
  rfl

/-- A line which ends with a line feed has no other one. -/
theorem IsLine.exists_concat (isLine : IsLine bytes) (ends : EndsLine bytes) :
    ∃ before, lineFeed ∉ before ∧ bytes = before ++ [lineFeed] := by
  obtain ⟨filled, noFeed⟩ := isLine
  have last := ends.resolve_left filled
  refine ⟨bytes.dropLast, noFeed, ?_⟩
  rw [List.getLast?_eq_some_getLast filled, Option.some.injEq] at last
  rw [← last, List.dropLast_append_getLast]

theorem IsLine.splitLines_append (isLine : IsLine bytes) (ends : EndsLine bytes)
    (rest : List UInt8) : splitLines (bytes ++ rest) = bytes :: splitLines rest := by
  obtain ⟨before, noFeed, rfl⟩ := isLine.exists_concat ends
  rw [List.append_assoc]
  exact EventFormat.splitLines_append noFeed rest

theorem IsLine.count_lineFeed (isLine : IsLine bytes) (ends : EndsLine bytes) :
    bytes.count lineFeed = 1 := by
  obtain ⟨before, noFeed, rfl⟩ := isLine.exists_concat ends
  rw [List.count_append, List.count_eq_zero_of_not_mem noFeed, List.count_singleton_self]

end IsLine

section Append

variable {a : List UInt8} (ends : EndsLine a) (b : List UInt8)

include ends

theorem endsLine_append_iff : EndsLine (a ++ b) ↔ EndsLine b := by
  rcases List.eq_nil_or_concat b with rfl | ⟨b, last, rfl⟩
  · rw [List.append_nil]
    exact ⟨fun _ => Or.inl rfl, fun _ => ends⟩
  · simp [EndsLine, ← List.append_assoc]

theorem lineStarts_append :
    lineStarts (a ++ b) = lineStarts a ++ (lineStarts b).map (a.length + ·) := by
  rw [lineStarts, List.length_append, List.range_add, List.filter_append, List.filter_map]
  congr 1
  · refine List.filter_congr fun start member => ?_
    rw [List.take_append_of_le_length (Nat.le_of_lt (List.mem_range.mp member))]
  · congr 1
    refine List.filter_congr fun start _ => ?_
    simp [List.take_length_add_append, endsLine_append_iff ends]

theorem lineAt_append_left {start : Nat} (inside : start < a.length) :
    lineAt (a ++ b) start = lineAt a start := by
  have filled : a ≠ [] := List.ne_nil_of_length_pos (Nat.zero_lt_of_lt inside)
  have last : (a.drop start).getLast? = some lineFeed := by
    rw [List.getLast?_drop, if_neg (Nat.not_le.mpr inside)]
    exact ends.resolve_left filled
  have feed : lineFeed ∈ a.drop start := List.mem_of_getLast? last
  have below : start ≤ a.length := Nat.le_of_lt inside
  rw [lineAt, lineAt, List.take_append_of_le_length below, List.drop_append_of_le_length below,
    List.idxOf_append_of_mem feed,
    List.take_append_of_le_length (List.idxOf_lt_length_of_mem feed)]

omit ends in
theorem lineAt_append_right (start : Nat) :
    lineAt (a ++ b) (a.length + start) = (lineAt b start).behind (a.count lineFeed) := by
  rw [lineAt, lineAt, Line.behind, List.take_length_add_append, List.drop_length_add_append,
    List.count_append, Nat.add_left_comm]

theorem linesOf_append :
    linesOf (a ++ b) = linesOf a ++ (linesOf b).map (Line.behind (a.count lineFeed)) := by
  rw [linesOf, lineStarts_append ends, List.map_append, List.map_map, linesOf, linesOf,
    List.map_map]
  congr 1
  · refine List.map_congr_left fun start member => ?_
    exact lineAt_append_left ends b (List.mem_range.mp (List.mem_filter.mp member).1)
  · exact List.map_congr_left fun start _ => lineAt_append_right b start

theorem splitLines_of_endsLine : splitLines (a ++ b) = splitLines a ++ splitLines b := by
  induction a using induction_lines with
  | nil => rfl
  | last line isLine =>
      rw [isLine.splitLines_append ends, isLine.splitLines_eq]
      rfl
  | append line rest isLine closed ih =>
      rw [List.append_assoc, isLine.splitLines_append closed, isLine.splitLines_append closed,
        ih ((endsLine_append_iff closed rest).mp ends)]
      rfl

/-- Every line but a last one without a line feed has its own line feed. -/
theorem length_splitLines : (splitLines a).length = a.count lineFeed := by
  induction a using induction_lines with
  | nil => rfl
  | last line isLine =>
      rw [isLine.splitLines_eq, isLine.count_lineFeed ends]
      rfl
  | append line rest isLine closed ih =>
      rw [isLine.splitLines_append closed, List.length_cons, List.count_append,
        isLine.count_lineFeed closed, ih ((endsLine_append_iff closed rest).mp ends), Nat.add_comm]

end Append

/-! ## Reading -/

/-- Only the numbers in the faults depend on how many line feeds are before the lines. -/
theorem readLines_behind (feeds number : Nat) (lines : List (List UInt8)) :
    readLines (feeds + number) lines =
      (readLines number lines).map (Except.mapError (LineFault.behind feeds)) := by
  induction lines generalizing number with
  | nil => rfl
  | cons line lines ih =>
      rw [readLines, readLines, readLine_behind, Nat.add_assoc, ih]
      cases readLine number line <;> rfl

theorem readLines_append (number : Nat) (lines more : List (List UInt8)) :
    readLines number (lines ++ more) =
      readLines number lines ++ readLines (number + lines.length) more := by
  induction lines generalizing number with
  | nil => rfl
  | cons line lines ih =>
      have count : number + (line :: lines).length = number + 1 + lines.length := by
        rw [List.length_cons]
        omega
      rw [List.cons_append, readLines, readLines, ih, count]
      cases readLine number line <;> rfl

/-- Two parts are read one after the other, when a line begins with the second one. Only the numbers
in its faults are other ones than if it were read alone. -/
theorem read_append {a : List UInt8} (ends : EndsLine a) (b : List UInt8) :
    read (a ++ b) =
      read a ++ (read b).map (Except.mapError (LineFault.behind (a.count lineFeed))) := by
  rw [read, splitLines_of_endsLine ends, readLines_append, length_splitLines ends, Nat.add_comm 1,
    readLines_behind]
  rfl

theorem Reads.append {a b : List UInt8} {results more : List (Except LineFault Event)}
    (ends : EndsLine a) (reads : Reads a results) (reads' : Reads b more) :
    Reads (a ++ b)
      (results ++ more.map (Except.mapError (LineFault.behind (a.count lineFeed)))) := by
  rw [Reads, linesOf_append ends, List.filter_append, List.filter_map]
  refine List.rel_append reads ?_
  rw [List.forall₂_map_left_iff, List.forall₂_map_right_iff]
  exact List.Forall₂.imp (fun _ _ gives => gives.behind _) reads'

theorem IsLine.reads_read {bytes : List UInt8} (isLine : IsLine bytes) :
    Reads bytes (read bytes) := by
  rw [Reads, linesOf, isLine.lineStarts_eq, List.map_singleton, isLine.lineAt_zero, read,
    isLine.splitLines_eq, readLines, readLines]
  -- there is no line feed before the only line, so its number is 1
  obtain ⟨blank, nothing⟩ | ⟨filled, result, reads, gives⟩ := readLine_cases ⟨1, bytes⟩
  · dsimp only at nothing
    rw [nothing]
    simp [blank]
  · dsimp only at reads
    rw [reads]
    simp [filled, gives]

theorem reads_read (content : List UInt8) : Reads content (read content) := by
  induction content using induction_lines with
  | nil => exact .nil
  | last line isLine => exact isLine.reads_read
  | append line rest isLine ends ih =>
      rw [read_append ends]
      exact isLine.reads_read.append ends ih

/-- **Events are read line by line.** Each line which is not blank gives one result, in order, and
the number in its fault is one more than the line feeds before it. So when a line begins with the
second part of a file, what is read is what is read of both parts; only the numbers in the faults of
the second part grow, by the line feeds of the first part. -/
theorem read_lineByLine :
    (∀ content, Reads content (read content)) ∧
      ∀ a b, EndsLine a →
        read (a ++ b) =
          read a ++ (read b).map (Except.mapError (LineFault.behind (a.count lineFeed))) :=
  ⟨reads_read, fun _ b ends => read_append ends b⟩

/-- A blank line and one which is not UTF-8 are in front of an event, of an empty line and of a line
which is cut off. -/
theorem read_lineByLine_mixed :
    EndsLine [0x20, 0x0D, 0x0A, 0xFF, 0x0A] ∧
      read ([0x20, 0x0D, 0x0A, 0xFF, 0x0A] ++
          Utf8.encode "[\"environment\",\x7b\x7d]\r\n\n\x7b".toList) =
        [.error .undecodable, .ok (.environment []), .error (.invalid 5 .truncated)] := by
  have ends : EndsLine [0x20, 0x0D, 0x0A, 0xFF, 0x0A] := by decide
  refine ⟨ends, ?_⟩
  rw [read_lineByLine.2 _ _ ends]
  decide

end Compdb.EventFormat
