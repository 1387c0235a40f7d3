namespace OpenExpr

/-- How the operators of a chain group its operands, which are left out. -/
inductive Grouping (α : Type) where
  | operand
  | application (left : Grouping α) (operator : α) (right : Grouping α)
deriving DecidableEq, Repr

namespace Grouping

variable {α : Type}

/-- The operators as they are read, from left to right. -/
def operators : Grouping α → List α
  | operand => []
  | application left operator right => left.operators ++ operator :: right.operators

/-- With the operators counted from the left, the application of the one numbered
`j` lies inside the right operand of the application of the one numbered `i`. -/
inductive InRight : Grouping α → Nat → Nat → Prop
  | here {left operator right j} : j < right.operators.length →
      InRight (application left operator right) left.operators.length
        (left.operators.length + 1 + j)
  | left {left operator right i j} : InRight left i j →
      InRight (application left operator right) i j
  | right {left operator right i j} : InRight right i j →
      InRight (application left operator right) (left.operators.length + 1 + i)
        (left.operators.length + 1 + j)

theorem InRight.bounds {t : Grouping α} {i j : Nat} (inside : t.InRight i j) :
    i < j ∧ j < t.operators.length := by
  induction inside with
  | here small => simp only [operators, List.length_append, List.length_cons]; omega
  | left _ ih => simp only [operators, List.length_append, List.length_cons]; omega
  | right _ ih => simp only [operators, List.length_append, List.length_cons]; omega

/-- Operators on the left of an application are related as they are without it. -/
theorem inRight_application_left {left right : Grouping α} {operator : α} {i j : Nat}
    (small : j < left.operators.length) :
    (application left operator right).InRight i j ↔ left.InRight i j := by
  constructor
  · intro inside
    cases inside with
    | here _ => omega
    | left inside => exact inside
    | right _ => omega
  · exact .left

theorem not_inRight_application {left right : Grouping α} {operator : α} {i j : Nat}
    (before : i < left.operators.length) (behind : left.operators.length ≤ j) :
    ¬ (application left operator right).InRight i j := by
  intro inside
  cases inside with
  | here _ => omega
  | left inside =>
    have bounds := inside.bounds
    omega
  | right _ => omega

theorem inRight_application_self {left right : Grouping α} {operator : α} {j : Nat}
    (behind : left.operators.length < j)
    (small : j < (application left operator right).operators.length) :
    (application left operator right).InRight left.operators.length j := by
  obtain ⟨d, rfl⟩ := Nat.exists_eq_add_of_lt behind
  simp only [operators, List.length_append, List.length_cons] at small
  rw [Nat.add_right_comm]
  exact .here (by omega)

theorem inRight_application_right {left right : Grouping α} {operator : α} {i j : Nat} :
    (application left operator right).InRight (left.operators.length + 1 + i)
      (left.operators.length + 1 + j) ↔ right.InRight i j := by
  constructor
  · intro inside
    generalize first : left.operators.length + 1 + i = i' at inside
    generalize second : left.operators.length + 1 + j = j' at inside
    cases inside with
    | here _ => omega
    | left inside =>
      have bounds := inside.bounds
      omega
    | @right _ _ _ i' j' inside =>
      obtain rfl : i = i' := by omega
      obtain rfl : j = j' := by omega
      exact inside
  · exact .right

/-- Behind each operator comes one that binds too loosely for its right operand,
`next` if none before. -/
def Ended (precedence power : α → Int32) : List α → α → Prop
  | [], _ => True
  | x :: xs, next => (∃ y ∈ xs ++ [next], precedence y < power x) ∧ Ended precedence power xs next

/-- The right operand of each application is as long as it may be: all of its
operators are tight enough, and those on the left are over before. -/
def Respects (precedence power : α → Int32) : Grouping α → Prop
  | operand => True
  | application left operator right =>
    left.Respects precedence power ∧ right.Respects precedence power ∧
      Ended precedence power left.operators operator ∧
      ∀ x ∈ right.operators, power operator ≤ precedence x

variable {precedence power : α → Int32}

theorem ended_of_looser {xs : List α} {next : α} (looser : ∀ x ∈ xs, precedence next < power x) :
    Ended precedence power xs next := by
  induction xs with
  | nil => trivial
  | cons x xs ih =>
    exact ⟨⟨next, by simp, looser x (by simp)⟩, ih fun y member => looser y (by simp [member])⟩

theorem Ended.append {xs ys : List α} {y next : α} (first : Ended precedence power xs y)
    (second : Ended precedence power (y :: ys) next) :
    Ended precedence power (xs ++ y :: ys) next := by
  induction xs with
  | nil => exact second
  | cons x xs ih =>
    obtain ⟨⟨z, member, looser⟩, rest⟩ := first
    have member' : z ∈ (xs ++ y :: ys) ++ [next] := by
      rcases List.mem_append.mp member with early | late
      · exact List.mem_append_left _ (List.mem_append_left _ early)
      · rw [List.mem_singleton.mp late]
        simp
    exact ⟨⟨z, member', looser⟩, ih rest⟩

theorem Ended.exists_looser {xs : List α} {next : α} (ended : Ended precedence power xs next)
    {i : Nat} {x : α} (atPlace : xs[i]? = some x) :
    ∃ k y, i < k ∧ (xs ++ [next])[k]? = some y ∧ precedence y < power x := by
  induction xs generalizing i with
  | nil => cases atPlace
  | cons z zs ih =>
    obtain ⟨⟨y, member, looser⟩, rest⟩ := ended
    cases i with
    | zero =>
      obtain rfl : z = x := Option.some.inj atPlace
      obtain ⟨k, found⟩ := List.mem_iff_getElem?.mp member
      exact ⟨k + 1, y, by omega, by simpa using found, looser⟩
    | succ i =>
      obtain ⟨k, y, behind, found, looser⟩ := ih rest (by simpa using atPlace)
      exact ⟨k + 1, y, by omega, by simpa using found, looser⟩

theorem getElem?_operators_left {left : Grouping α} (right : Grouping α) (operator : α) {k : Nat}
    (small : k < left.operators.length) :
    (application left operator right).operators[k]? = left.operators[k]? :=
  List.getElem?_append_left small

theorem getElem?_operators_self (left right : Grouping α) (operator : α) :
    (application left operator right).operators[left.operators.length]? = some operator := by
  simp [operators]

theorem getElem?_operators_right (left right : Grouping α) (operator : α) (k : Nat) :
    (application left operator right).operators[left.operators.length + 1 + k]? =
      right.operators[k]? := by
  rw [operators, List.getElem?_append_right (by omega)]
  rw [show left.operators.length + 1 + k - left.operators.length = k + 1 by omega]
  exact List.getElem?_cons_succ

/-- An operator lies inside the right operand of an earlier one just when no operator
from the earlier one up to it binds too loosely for that operand. -/
theorem Respects.inRight_iff {t : Grouping α} (respects : t.Respects precedence power)
    {i j : Nat} {x : α} (before : i < j) (small : j < t.operators.length)
    (atPlace : t.operators[i]? = some x) :
    t.InRight i j ↔
      ∀ k y, i < k → k ≤ j → t.operators[k]? = some y → power x ≤ precedence y := by
  induction t generalizing i j x with
  | operand => simp [operators] at small
  | application left operator right ihLeft ihRight =>
    obtain ⟨respectsLeft, respectsRight, ended, tight⟩ := respects
    have size : (application left operator right).operators.length =
        left.operators.length + 1 + right.operators.length := by
      simp only [operators, List.length_append, List.length_cons]
      omega
    rcases Nat.lt_trichotomy i left.operators.length with early | rfl | late
    · rw [getElem?_operators_left _ _ early] at atPlace
      by_cases both : j < left.operators.length
      · rw [inRight_application_left both, ihLeft respectsLeft before both atPlace]
        constructor
        · intro all k y behind upTo found
          rw [getElem?_operators_left _ _ (by omega)] at found
          exact all k y behind upTo found
        · intro all k y behind upTo found
          rw [← getElem?_operators_left right operator (by omega)] at found
          exact all k y behind upTo found
      · constructor
        · intro inside
          exact absurd inside (not_inRight_application early (by omega))
        · intro all
          obtain ⟨k, y, behind, found, looser⟩ := ended.exists_looser atPlace
          obtain ⟨upTo, _⟩ := List.getElem?_eq_some_iff.mp found
          have found' : (application left operator right).operators[k]? = some y := by
            rw [operators, List.append_cons, List.getElem?_append_left upTo, found]
          rw [List.length_append, List.length_singleton] at upTo
          exact absurd looser (Int32.not_lt.mpr (all k y behind (by omega) found'))
    · constructor
      · intro _ k y behind _ found
        obtain ⟨d, rfl⟩ := Nat.exists_eq_add_of_lt behind
        rw [Nat.add_right_comm, getElem?_operators_right] at found
        obtain rfl : operator = x := by
          rw [getElem?_operators_self] at atPlace
          exact Option.some.inj atPlace
        exact tight y (List.mem_of_getElem? found)
      · intro _
        exact inRight_application_self before small
    · obtain ⟨i', rfl⟩ := Nat.exists_eq_add_of_lt late
      obtain ⟨j', rfl⟩ := Nat.exists_eq_add_of_lt (Nat.lt_trans late before)
      rw [Nat.add_right_comm _ i', Nat.add_right_comm _ j', inRight_application_right]
      rw [Nat.add_right_comm, getElem?_operators_right] at atPlace
      rw [ihRight respectsRight (by omega) (by omega) atPlace]
      constructor
      · intro all k y behind upTo found
        obtain ⟨k', rfl⟩ := Nat.exists_eq_add_of_lt (Nat.lt_of_lt_of_le late (by omega : _ ≤ k))
        rw [Nat.add_right_comm, getElem?_operators_right] at found
        exact all k' y (by omega) (by omega) found
      · intro all k y behind upTo found
        rw [← getElem?_operators_right left right operator] at found
        exact all (left.operators.length + 1 + k) y (by omega) (by omega) found

end Grouping

end OpenExpr
