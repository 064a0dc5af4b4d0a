/-
# Compdb.Proofs.Json.Reading — what readers make of the lexemes of a value

`Reader.Reads` says that a reader takes some lexemes off the front and makes a value of them,
whatever lexemes follow. The loops over the elements of an array and the members of an
object are brought to their elements and members: an array is read when each of its elements
is (`reads_array`), and an object when each of its members leads from one state to the next
(`members_run`). Their fuel, the number of lexemes left, is always enough.
-/
import Compdb.Json.Reader
import Compdb.Proofs.Json.Spelling

namespace Compdb.Json

set_option autoImplicit false

/-- The lexemes of an array with these elements. -/
def arrayLexemes (items : List (List Lexeme)) : List Lexeme :=
  .openArray :: (separated [.comma] items ++ [.closeArray])

/-- The lexemes of a member. -/
def memberLexemes (member : Text × List Lexeme) : List Lexeme :=
  .string (.ok member.1) :: .colon :: member.2

/-- The lexemes of an object with these members. -/
def objectLexemes (members : List (Text × List Lexeme)) : List Lexeme :=
  .openObject :: (separated [.comma] (members.map memberLexemes) ++ [.closeObject])

namespace Reader

/-- The reader makes the value of the lexemes, whatever follows them. -/
def Reads {α : Type} (r : Reader α) (lexemes : List Lexeme) (a : α) : Prop :=
  ∀ rest, r (lexemes ++ rest) = .ok (a, rest)

/-- Lexemes which can be an element: there are some, and the first one neither separates elements
nor closes the array. -/
def BeginsItem : List Lexeme → Prop
  | [] | .comma :: _ | .closeArray :: _ => False
  | _ => True

theorem ne_nil_of_beginsItem {ls : List Lexeme} (begins : BeginsItem ls) : ls ≠ [] := by
  rintro rfl
  exact begins

theorem nextItem_first {ls : List Lexeme} (begins : BeginsItem ls) (rest : List Lexeme) :
    nextItem true (ls ++ rest) = .ok (.item () (ls ++ rest)) := by
  cases ls with
  | nil => exact begins.elim
  | cons l ls => cases l <;> first | rfl | exact begins.elim

theorem nextItem_comma {ls : List Lexeme} (begins : BeginsItem ls) (rest : List Lexeme) :
    nextItem false (.comma :: (ls ++ rest)) = .ok (.item () (ls ++ rest)) := by
  cases ls with
  | nil => exact begins.elim
  | cons l ls => cases l <;> first | rfl | exact begins.elim

theorem nextMember_first (name : Text) (rest : List Lexeme) :
    nextMember true (.string (.ok name) :: rest) = .ok (.item name rest) :=
  rfl

theorem nextMember_comma (name : Text) (rest : List Lexeme) :
    nextMember false (.comma :: .string (.ok name) :: rest) = .ok (.item name rest) :=
  rfl

section Arrays

variable {α : Type} {item : Reader α}

/-- The round of the loop over the elements of an array. -/
def collect (item : Reader α) (sofar : List α) : Reader (List α) := fun lexemes =>
  (item lexemes).map fun read => (read.1 :: sofar, read.2)

/-- An element and the lexemes of which it is read. -/
def IsItem (item : Reader α) (a : α) (ls : List Lexeme) : Prop :=
  item.Reads ls a ∧ BeginsItem ls

theorem reads_collect {a : α} {ls : List Lexeme} (reads : item.Reads ls a) (sofar : List α) :
    (collect item sofar).Reads ls (a :: sofar) := by
  intro rest
  rw [collect, reads rest]
  rfl

/-- The rounds behind the first element. Each takes a comma and an element. -/
theorem items_rounds {as : List α} {parts : List (List Lexeme)}
    (each : List.Forall₂ (IsItem item) as parts) (sofar : List α) (rest : List Lexeme) {fuel : Nat}
    (enough : parts.length < fuel) :
    items (collect item) fuel false sofar
        (parts.flatMap ([.comma] ++ ·) ++ .closeArray :: rest) =
      .ok (as.reverse ++ sofar, rest) := by
  induction each generalizing sofar fuel with
  | nil =>
      obtain ⟨fuel, rfl⟩ := Nat.exists_eq_add_of_lt enough
      rfl
  | @cons a ls as parts head _ ih =>
      obtain ⟨reads, begins⟩ := head
      obtain ⟨fuel, rfl⟩ : ∃ k, fuel = k + 1 := ⟨fuel - 1, by omega⟩
      have left : parts.length < fuel := by
        simp only [List.length_cons] at enough
        omega
      have round : (ls :: parts).flatMap ([.comma] ++ ·) ++ .closeArray :: rest =
          .comma :: (ls ++ (parts.flatMap ([.comma] ++ ·) ++ .closeArray :: rest)) := by
        simp
      rw [round, items, nextItem_comma begins]
      simp only [reads_collect reads sofar _]
      rw [ih _ left, List.reverse_cons, List.append_assoc, List.singleton_append]

/-- The loop over all elements. -/
theorem items_all {as : List α} {parts : List (List Lexeme)}
    (each : List.Forall₂ (IsItem item) as parts) (rest : List Lexeme) (fuel : Nat)
    (enough : parts.length < fuel) :
    items (collect item) fuel true [] (separated [.comma] parts ++ .closeArray :: rest) =
      .ok (as.reverse, rest) := by
  obtain ⟨fuel, rfl⟩ : ∃ k, fuel = k + 1 := ⟨fuel - 1, by omega⟩
  cases each with
  | nil => rfl
  | @cons a ls as parts head more =>
      obtain ⟨reads, begins⟩ := head
      have left : parts.length < fuel := by
        simp only [List.length_cons] at enough
        omega
      rw [separated, List.append_assoc, items, nextItem_first begins]
      simp only [reads_collect reads [] _]
      rw [items_rounds more _ _ left, List.reverse_cons]

theorem ne_nil_of_isItem {as : List α} {parts : List (List Lexeme)}
    (each : List.Forall₂ (IsItem item) as parts) : ∀ part ∈ parts, part ≠ [] :=
  forall_of_forall₂ (fun _ _ isItem => ne_nil_of_beginsItem isItem.2) each

/-- An array is read when each of its elements is. -/
theorem reads_array {as : List α} {parts : List (List Lexeme)}
    (each : List.Forall₂ (IsItem item) as parts) :
    (array item).Reads (arrayLexemes parts) as := by
  intro rest
  have enough : parts.length ≤ (separated [Lexeme.comma] parts).length :=
    length_le_separated (by simp) (ne_nil_of_isItem each)
  have run := items_all each rest ((separated [.comma] parts ++ .closeArray :: rest).length + 1)
    (by simp only [List.length_append]; omega)
  rw [arrayLexemes, List.cons_append, List.append_assoc, List.singleton_append, array]
  change (items (collect item) _ true [] _ >>= fun read => .ok (read.1.reverse, read.2)) = _
  rw [run]
  simp only [bind, Except.bind, List.reverse_reverse]

end Arrays

section Objects

variable {σ : Type} {member : σ → Text → Reader σ}

/-- What was met of a field when the members with these keys are still to come. -/
def fieldBefore {α : Type} (key : Text) (toCome : List Text) (a : α) : Option α :=
  if key ∈ toCome then none else some a

section Fields

variable {α : Type} {key : Text} {toCome : List Text} {a : α}

theorem fieldBefore_of_mem (comes : key ∈ toCome) : fieldBefore key toCome a = none :=
  if_pos comes

theorem fieldBefore_of_not_mem (noMore : key ∉ toCome) : fieldBefore key toCome a = some a :=
  if_neg noMore

@[simp] theorem fieldBefore_nil : fieldBefore key [] a = some a :=
  fieldBefore_of_not_mem List.not_mem_nil

@[simp] theorem fieldBefore_self : fieldBefore key (key :: toCome) a = none :=
  fieldBefore_of_mem (List.mem_cons_self ..)

theorem fieldBefore_other {key' : Text} (other : key ≠ key') :
    fieldBefore key (key' :: toCome) a = fieldBefore key toCome a := by
  simp [fieldBefore, other]

end Fields

/-- The members lead from one state to another, each from its colon on. -/
inductive MembersLead (member : σ → Text → Reader σ) :
    σ → List (Text × List Lexeme) → σ → Prop where
  | nil (s : σ) : MembersLead member s [] s
  | cons {s s' s'' : σ} {name : Text} {ls : List Lexeme} {more : List (Text × List Lexeme)} :
      (member s name).Reads (.colon :: ls) s' → MembersLead member s' more s'' →
        MembersLead member s ((name, ls) :: more) s''

/-- The rounds behind the first member. Each takes a comma and a member. -/
theorem members_rounds {s s' : σ} {parts : List (Text × List Lexeme)}
    (lead : MembersLead member s parts s') (rest : List Lexeme) {fuel : Nat}
    (enough : parts.length < fuel) :
    members member fuel false s
        ((parts.map memberLexemes).flatMap ([.comma] ++ ·) ++ .closeObject :: rest) =
      .ok (s', rest) := by
  induction lead generalizing fuel with
  | nil =>
      obtain ⟨fuel, rfl⟩ := Nat.exists_eq_add_of_lt enough
      rfl
  | @cons s s' s'' name ls more reads _ ih =>
      obtain ⟨fuel, rfl⟩ : ∃ k, fuel = k + 1 := ⟨fuel - 1, by omega⟩
      have left : more.length < fuel := by
        simp only [List.length_cons] at enough
        omega
      have round : (((name, ls) :: more).map memberLexemes).flatMap ([.comma] ++ ·) ++
            .closeObject :: rest =
          .comma :: .string (.ok name) :: (.colon :: ls ++
            ((more.map memberLexemes).flatMap ([.comma] ++ ·) ++ .closeObject :: rest)) := by
        simp [memberLexemes]
      rw [round, members, nextMember_comma]
      simp only [reads _]
      exact ih left

/-- The loop over all members. -/
theorem members_all {s s' : σ} {parts : List (Text × List Lexeme)}
    (lead : MembersLead member s parts s') (rest : List Lexeme) {fuel : Nat}
    (enough : parts.length < fuel) :
    members member fuel true s
        (separated [.comma] (parts.map memberLexemes) ++ .closeObject :: rest) =
      .ok (s', rest) := by
  obtain ⟨fuel, rfl⟩ : ∃ k, fuel = k + 1 := ⟨fuel - 1, by omega⟩
  cases lead with
  | nil => rfl
  | @cons s s' s'' name ls more reads lead =>
      have left : more.length < fuel := by
        simp only [List.length_cons] at enough
        omega
      have first : separated [.comma] (((name, ls) :: more).map memberLexemes) ++
            .closeObject :: rest =
          .string (.ok name) :: (.colon :: ls ++
            ((more.map memberLexemes).flatMap ([.comma] ++ ·) ++ .closeObject :: rest)) := by
        simp [separated, memberLexemes]
      rw [first, members, nextMember_first]
      simp only [reads _]
      exact members_rounds lead rest left

/-- An object is read when each of its members leads from one state to the next. -/
theorem members_run {s s' : σ} {parts : List (Text × List Lexeme)}
    (lead : MembersLead member s parts s') (rest : List Lexeme) :
    members member
        ((separated [.comma] (parts.map memberLexemes) ++ .closeObject :: rest).length + 1) true s
        (separated [.comma] (parts.map memberLexemes) ++ .closeObject :: rest) =
      .ok (s', rest) := by
  have filled : ∀ part ∈ parts.map memberLexemes, part ≠ [] := by
    intro part member
    obtain ⟨_, _, rfl⟩ := List.mem_map.mp member
    exact List.cons_ne_nil _ _
  have enough : (parts.map memberLexemes).length ≤
      (separated [Lexeme.comma] (parts.map memberLexemes)).length :=
    length_le_separated (by simp) filled
  rw [List.length_map] at enough
  exact members_all lead rest (by simp only [List.length_append]; omega)

end Objects

end Reader

end Compdb.Json
