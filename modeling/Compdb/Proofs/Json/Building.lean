/-
# Compdb.Proofs.Json.Building — what a builder makes of nested values

A builder keeps a stack of the arrays and objects which are open. It takes a value when, from any
stack with room for it, it comes to be where the value is complete, whatever lexemes follow
(`Builder.Takes`). What stands below on the stack is never looked at, so the value of an array is
made of the values of its elements (`Takes.array`), and that of an object of its keys and values
(`Takes.object`), however deep they are nested.
-/
import Compdb.Proofs.Json.Reading

namespace Compdb.Json

set_option autoImplicit false

/-- The lexemes of an object with these keys and values. A key may be a string without a text. -/
def keyedLexemes (members : List (Except Fault Text × List Lexeme)) : List Lexeme :=
  .openObject ::
    (separated [.comma] (members.map fun member => .string member.1 :: .colon :: member.2)
      ++ [.closeObject])

theorem objectLexemes_eq_keyedLexemes (members : List (Text × List Lexeme)) :
    objectLexemes members = keyedLexemes (members.map fun member => (.ok member.1, member.2)) := by
  rw [objectLexemes, keyedLexemes, List.map_map]
  rfl

namespace Builder

variable {α : Type} {b : Builder α}

/-- Goes on from what a lexeme led to. -/
def resume (b : Builder α) : Except Fault (Progress α) → List Lexeme →
    Except Fault (α × List Lexeme)
  | .error f, _ => .error f
  | .ok (.done value), rest => .ok (value, rest)
  | .ok (.more stack place), rest => b.run stack place rest

theorem run_cons (b : Builder α) (stack : List (Frame α)) (place : Place) (l : Lexeme)
    (rest : List Lexeme) :
    b.run stack place (l :: rest) = b.resume (b.step stack place l) rest := by
  rw [run]
  cases b.step stack place l with
  | error f => rfl
  | ok progress => cases progress <;> rfl

/-- The builder makes the value of these lexemes, from any stack on which so many more arrays and
objects may be opened. -/
def Takes (b : Builder α) (levels : Nat) (lexemes : List Lexeme) (value : α) : Prop :=
  ∀ (stack : List (Frame α)) (rest : List Lexeme),
    (∀ depth ∈ b.depth, stack.length + levels ≤ depth) →
      b.run stack .value (lexemes ++ rest) = b.resume (complete value stack) rest

/-- At the top a value which is taken is read. -/
theorem Takes.reads {levels : Nat} {lexemes : List Lexeme} {value : α}
    (takes : b.Takes levels lexemes value) (room : ∀ depth ∈ b.depth, levels ≤ depth) :
    Reader.Reads b.read lexemes value := by
  intro rest
  rw [read, takes [] rest (by simpa using room)]
  rfl

/-- A lexeme which is a value by itself. -/
theorem takes_leaf {l : Lexeme} {value : α} (noArray : l ≠ .openArray) (noObject : l ≠ .openObject)
    (leaf : b.leaf l = .ok value) : b.Takes 0 [l] value := by
  intro stack rest _
  have step : b.step stack .value l = complete value stack := by
    cases l <;> simp_all [step, stepValue, bind, Except.bind]
  rw [List.singleton_append, run_cons, step]

theorem enter_eq {stack : List (Frame α)} {levels : Nat}
    (room : ∀ depth ∈ b.depth, stack.length + (levels + 1) ≤ depth) (frame : Frame α)
    (place : Place) : b.enter stack frame place = .ok (.more (frame :: stack) place) := by
  have open' : b.depth.any (· ≤ stack.length) = false := by
    cases depth : b.depth with
    | none => rfl
    | some limit =>
        have := room limit (by rw [depth]; rfl)
        simp only [Option.any_some, decide_eq_false_iff_not]
        omega
  rw [enter, open']
  rfl

/-! ## Arrays -/

/-- The rounds behind an element: each takes a comma and the next element, up to the end. -/
theorem run_items {levels : Nat} {stack : List (Frame α)}
    (room : ∀ depth ∈ b.depth, stack.length + (levels + 1) ≤ depth) {parts : List (List Lexeme)}
    {values : List α} (each : List.Forall₂ (b.Takes levels) parts values) (rest : List Lexeme) :
    ∀ sofar : List α,
      b.run (.array sofar :: stack) .separator
          (parts.flatMap ([.comma] ++ ·) ++ .closeArray :: rest) =
        b.resume (complete (b.array (sofar.reverse ++ values)) stack) rest := by
  induction each with
  | nil =>
      intro sofar
      rw [List.append_nil]
      exact run_cons b _ _ _ _
  | @cons part value parts values takes _ ih =>
      intro sofar
      have further : ∀ depth ∈ b.depth, (Frame.array sofar :: stack).length + levels ≤ depth := by
        intro depth limit
        have := room depth limit
        rw [List.length_cons]
        omega
      have round : (part :: parts).flatMap ([.comma] ++ ·) ++ .closeArray :: rest =
          .comma :: (part ++ (parts.flatMap ([.comma] ++ ·) ++ .closeArray :: rest)) := by
        simp
      have comma : b.run (.array sofar :: stack) .separator ((part :: parts).flatMap
          ([.comma] ++ ·) ++ .closeArray :: rest) =
          b.run (.array sofar :: stack) .value
            (part ++ (parts.flatMap ([.comma] ++ ·) ++ .closeArray :: rest)) := by
        rw [round]
        exact run_cons b _ _ _ _
      rw [comma, takes _ _ further]
      have next := ih (value :: sofar)
      rw [List.reverse_cons, List.append_assoc, List.singleton_append] at next
      exact next

/-- At the place of the first element, an element is taken like any value. -/
theorem run_firstItem {part : List Lexeme} (begins : Reader.BeginsItem part)
    (stack : List (Frame α)) (rest : List Lexeme) :
    b.run stack .firstItem (part ++ rest) = b.run stack .value (part ++ rest) := by
  cases part with
  | nil => exact begins.elim
  | cons l part =>
      rw [List.cons_append, run_cons, run_cons]
      cases l <;> first | rfl | exact begins.elim

/-- An array is made of the values of its elements. -/
theorem Takes.array {levels : Nat} {parts : List (List Lexeme)} {values : List α}
    (each : List.Forall₂ (b.Takes levels) parts values)
    (begin : ∀ part ∈ parts, Reader.BeginsItem part) :
    b.Takes (levels + 1) (arrayLexemes parts) (b.array values) := by
  intro stack rest room
  have opened : b.step stack .value .openArray = .ok (.more (.array [] :: stack) .firstItem) :=
    enter_eq room _ _
  rw [arrayLexemes, List.cons_append, run_cons, opened, List.append_assoc, List.singleton_append]
  cases each with
  | nil => exact run_cons b _ _ _ _
  | @cons part value parts values takes more =>
      have further : ∀ depth ∈ b.depth,
          (Frame.array ([] : List α) :: stack).length + levels ≤ depth := by
        intro depth limit
        have := room depth limit
        rw [List.length_cons]
        omega
      rw [separated, List.append_assoc]
      show b.run (.array [] :: stack) .firstItem _ = _
      rw [run_firstItem (begin part (List.mem_cons_self ..)), takes _ _ further]
      exact run_items room more rest [value]

/-! ## Objects -/

/-- The builder makes the member of a key and the lexemes of a value. -/
def TakesMember (b : Builder α) (levels : Nat) (part : Except Fault Text × List Lexeme)
    (member : Text × α) : Prop :=
  b.key part.1 = .ok member.1 ∧ b.Takes levels part.2 member.2

/-- From the place of a key on, a member is put to those before it. -/
theorem TakesMember.run {levels : Nat} {part : Except Fault Text × List Lexeme}
    {member : Text × α} (takes : b.TakesMember levels part member) {stack : List (Frame α)}
    (room : ∀ depth ∈ b.depth, stack.length + (levels + 1) ≤ depth) (sofar : List (Text × α))
    (place : Place) (atKey : place = .firstKey ∨ place = .nextKey) (rest : List Lexeme) :
    b.run (.object sofar :: stack) place (.string part.1 :: .colon :: (part.2 ++ rest)) =
      b.run (.object (member :: sofar) :: stack) .separator rest := by
  obtain ⟨key, value⟩ := takes
  have further : ∀ depth ∈ b.depth,
      (Frame.member sofar member.1 :: stack).length + levels ≤ depth := by
    intro depth limit
    have := room depth limit
    rw [List.length_cons]
    omega
  have named : b.step (.object sofar :: stack) place (.string part.1) =
      .ok (.more (.member sofar member.1 :: stack) .colon) := by
    rcases atKey with rfl | rfl <;>
      simp only [step, stepKey, key, bind, Except.bind]
  rw [run_cons, named]
  show b.run (.member sofar member.1 :: stack) .colon _ = _
  rw [run_cons]
  show b.run (.member sofar member.1 :: stack) .value _ = _
  rw [value _ _ further]
  rfl

/-- The rounds behind a member: each takes a comma and the next member, up to the end. -/
theorem run_members {levels : Nat} {stack : List (Frame α)}
    (room : ∀ depth ∈ b.depth, stack.length + (levels + 1) ≤ depth)
    {parts : List (Except Fault Text × List Lexeme)} {members : List (Text × α)}
    (each : List.Forall₂ (b.TakesMember levels) parts members) (rest : List Lexeme) :
    ∀ sofar : List (Text × α),
      b.run (.object sofar :: stack) .separator
          ((parts.map fun part => .string part.1 :: .colon :: part.2).flatMap ([.comma] ++ ·)
            ++ .closeObject :: rest) =
        b.resume (complete (b.object (sofar.reverse ++ members)) stack) rest := by
  induction each with
  | nil =>
      intro sofar
      rw [List.append_nil]
      exact run_cons b _ _ _ _
  | @cons part member parts members takes _ ih =>
      intro sofar
      rw [List.map_cons, List.flatMap_cons, List.append_assoc, List.singleton_append,
        List.cons_append, run_cons]
      show b.run (.object sofar :: stack) .nextKey _ = _
      rw [List.cons_append, List.cons_append, takes.run room sofar _ (Or.inr rfl)]
      have next := ih (member :: sofar)
      rw [List.reverse_cons, List.append_assoc, List.singleton_append] at next
      exact next

/-- An object is made of its keys and the values of its members. -/
theorem Takes.object {levels : Nat} {parts : List (Except Fault Text × List Lexeme)}
    {members : List (Text × α)} (each : List.Forall₂ (b.TakesMember levels) parts members) :
    b.Takes (levels + 1) (keyedLexemes parts) (b.object members) := by
  intro stack rest room
  have opened : b.step stack .value .openObject = .ok (.more (.object [] :: stack) .firstKey) :=
    enter_eq room _ _
  rw [keyedLexemes, List.cons_append, run_cons, opened, List.append_assoc, List.singleton_append]
  show b.run (.object [] :: stack) .firstKey _ = _
  cases each with
  | nil => exact run_cons b _ _ _ _
  | @cons part member parts members takes more =>
      rw [List.map_cons, separated, List.append_assoc, List.cons_append, List.cons_append,
        takes.run room [] _ (Or.inl rfl)]
      exact run_members room more rest [member]

end Builder

end Compdb.Json
