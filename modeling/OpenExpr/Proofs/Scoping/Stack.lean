import Mathlib.Logic.Function.Iterate
import OpenExpr.Scopes

namespace OpenExpr.Scopes

variable {α : Type}

/-- What is done to scopes. -/
inductive Operation (α : Type) where
  | push
  | pop
  | insert (name : String) (a : α)

namespace Operation

def isPush : Operation α → Bool
  | push => true
  | _ => false

def isPop : Operation α → Bool
  | pop => true
  | _ => false

def apply (s : Scopes α) : Operation α → Scopes α
  | push => s.push
  | pop => s.pop
  | insert name a => s.insert name a

/-- How many scopes there are afterwards. The outermost is never closed. -/
def depth (n : Nat) : Operation α → Nat
  | push => n + 1
  | pop => if n = 1 then 1 else n - 1
  | insert _ _ => n

/-- What an operation binds a name to. -/
def value? (name : String) : Operation α → Option α
  | insert key a => if key = name then some a else none
  | _ => none

theorem value?_eq_some_iff {op : Operation α} {name : String} {a : α} :
    op.value? name = some a ↔ op = insert name a := by
  cases op <;> simp [value?]

theorem depth_apply (s : Scopes α) (op : Operation α) : (op.apply s).depth = op.depth s.depth := by
  cases op with
  | push | insert => rfl
  | pop =>
    obtain ⟨innermost, _ | ⟨scope, enclosing⟩⟩ := s
    · rfl
    · simp [apply, depth, Scopes.pop, Scopes.depth]

end Operation

/-- The scopes after a history of operations. -/
def after (s : Scopes α) (ops : List (Operation α)) : Scopes α :=
  ops.foldl Operation.apply s

theorem after_append (s : Scopes α) (a b : List (Operation α)) :
    s.after (a ++ b) = (s.after a).after b :=
  List.foldl_append

/-- How many scopes there are after a history, if there were `n` before. -/
def depthAfter (n : Nat) (ops : List (Operation α)) : Nat :=
  ops.foldl Operation.depth n

/-- How many of the scopes that are open before the operations are closed by them, if there
are enough. A scope that is opened meanwhile is closed first. -/
def closings : List (Operation α) → Nat
  | [] => 0
  | .push :: ops => closings ops - 1
  | .pop :: ops => closings ops + 1
  | .insert _ _ :: ops => closings ops

/-- In a history that starts with `n` scopes the name is bound behind `before`, in a scope that
`later` does not close: that is the outermost, or no closing comes to it. -/
structure IsBound (n : Nat) (history : List (Operation α)) (name : String)
    (before : List (Operation α)) (a : α) (later : List (Operation α)) : Prop where
  split : history = before ++ .insert name a :: later
  isOpen : depthAfter n before = 1 ∨ closings later = 0

/-- The value of the last binding of a name in a scope that is still open. -/
def latest (name : String) (n : Nat) : List (Operation α) → Option α
  | [] => none
  | op :: ops =>
    (latest name (op.depth n) ops).or (if n = 1 ∨ closings ops = 0 then op.value? name else none)

section

variable {name : String} {n : Nat} {op : Operation α} {ops before later : List (Operation α)} {a : α}

theorem isBound_cons : IsBound n (op :: ops) name before a later ↔
    (before = [] ∧ op = .insert name a ∧ ops = later ∧ (n = 1 ∨ closings ops = 0)) ∨
      ∃ before', before = op :: before' ∧ IsBound (op.depth n) ops name before' a later := by
  constructor
  · rintro ⟨split, isOpen⟩
    cases before with
    | nil =>
      obtain ⟨rfl, rfl⟩ := List.cons.inj split
      exact .inl ⟨rfl, rfl, rfl, isOpen⟩
    | cons first before' =>
      obtain ⟨rfl, rfl⟩ := List.cons.inj split
      exact .inr ⟨before', rfl, rfl, isOpen⟩
  · rintro (⟨rfl, rfl, rfl, isOpen⟩ | ⟨before', rfl, split, isOpen⟩)
    · exact ⟨rfl, isOpen⟩
    · exact ⟨by rw [split, List.cons_append], isOpen⟩

theorem isBound_head (here : op = .insert name a) (isOpen : n = 1 ∨ closings ops = 0) :
    IsBound n (op :: ops) name [] a ops :=
  isBound_cons.mpr (.inl ⟨rfl, here, rfl, isOpen⟩)

theorem IsBound.cons (bound : IsBound (op.depth n) ops name before a later) :
    IsBound n (op :: ops) name (op :: before) a later :=
  isBound_cons.mpr (.inr ⟨before, rfl, bound⟩)

theorem latest_eq_none_iff (name : String) (n : Nat) (ops : List (Operation α)) :
    latest name n ops = none ↔ ∀ before a later, ¬ IsBound n ops name before a later := by
  induction ops generalizing n with
  | nil =>
    refine iff_of_true rfl fun before a later bound => ?_
    simpa using bound.split
  | cons op ops ih =>
    rw [latest, Option.or_eq_none_iff, ih]
    constructor
    · rintro ⟨others, first⟩ before a later bound
      rcases isBound_cons.mp bound with ⟨_, here, _, isOpen⟩ | ⟨before', _, bound⟩
      · rw [if_pos isOpen, Operation.value?_eq_some_iff.mpr here] at first
        cases first
      · exact others before' a later bound
    · refine fun none => ⟨fun before a later bound => none _ a later bound.cons, ?_⟩
      split
      · rename_i isOpen
        exact Option.eq_none_iff_forall_not_mem.mpr fun a here =>
          none [] a ops (isBound_head (Operation.value?_eq_some_iff.mp here) isOpen)
      · rfl

/-- Of the bindings in scopes that are still open the latest has the longest history before it. -/
theorem latest_eq_some_iff (name : String) (n : Nat) (ops : List (Operation α)) (a : α) :
    latest name n ops = some a ↔ ∃ before later, IsBound n ops name before a later ∧
      ∀ before' b later', IsBound n ops name before' b later' → before'.length ≤ before.length := by
  induction ops generalizing n with
  | nil =>
    refine iff_of_false (by simp [latest]) ?_
    rintro ⟨before, later, bound, _⟩
    simpa using bound.split
  | cons op ops ih =>
    rw [latest, Option.or_eq_some_iff, ih, latest_eq_none_iff]
    constructor
    · rintro (⟨before, later, bound, last⟩ | ⟨none, first⟩)
      · refine ⟨op :: before, later, bound.cons, fun before' b later' bound' => ?_⟩
        rcases isBound_cons.mp bound' with ⟨rfl, _⟩ | ⟨rest, rfl, inRest⟩
        · exact Nat.zero_le _
        · exact Nat.succ_le_succ (last rest b later' inRest)
      · split at first
        · rename_i isOpen
          refine ⟨[], ops, isBound_head (Operation.value?_eq_some_iff.mp first) isOpen, ?_⟩
          intro before' b later' bound'
          rcases isBound_cons.mp bound' with ⟨rfl, _⟩ | ⟨rest, _, inRest⟩
          · exact Nat.le_refl _
          · exact absurd inRest (none rest b later')
        · cases first
    · rintro ⟨before, later, bound, last⟩
      rcases isBound_cons.mp bound with ⟨rfl, here, rfl, isOpen⟩ | ⟨rest, rfl, inRest⟩
      · refine .inr ⟨fun before' b later' bound' => ?_, ?_⟩
        · exact absurd (last _ b later' bound'.cons) (Nat.not_succ_le_zero _)
        · rw [if_pos isOpen, Operation.value?_eq_some_iff.mpr here]
      · exact .inl ⟨rest, later, inRest, fun before' b later' bound' =>
          Nat.le_of_succ_le_succ (last _ b later' bound'.cons)⟩

end

/-- A scope that is opened and closed again is gone. -/
theorem find?_iterate_pop_push (s : Scopes α) (k : Nat) (name : String) :
    (pop^[k] s.push).find? name = (pop^[k - 1] s).find? name := by
  cases k with
  | zero => exact find?_push s name
  | succ k => rw [Function.iterate_succ_apply, pop_push, Nat.add_sub_cancel]

theorem iterate_pop_of_outermost {s : Scopes α} (outermost : s.depth = 1) (k : Nat) : pop^[k] s = s := by
  have alone : s.enclosing = [] := List.eq_nil_of_length_eq_zero (Nat.succ.inj outermost)
  refine Function.iterate_fixed ?_ k
  simp [pop, alone]

theorem pop_insert {s : Scopes α} (deep : s.depth ≠ 1) (name : String) (a : α) :
    (s.insert name a).pop = s.pop := by
  obtain ⟨innermost, _ | ⟨scope, enclosing⟩⟩ := s
  · exact absurd rfl deep
  · rfl

/-- A binding is found as long as its scope is not closed. -/
theorem find?_iterate_pop_insert (s : Scopes α) (key : String) (a : α) (k : Nat) (name : String) :
    (pop^[k] (s.insert key a)).find? name =
      (if s.depth = 1 ∨ k = 0 then (Operation.insert key a).value? name else none).or
        ((pop^[k] s).find? name) := by
  have here : (s.insert key a).find? name =
      ((Operation.insert key a).value? name).or (s.find? name) := by
    rw [find?_insert, Operation.value?]
    split <;> rfl
  by_cases outermost : s.depth = 1
  · rw [iterate_pop_of_outermost outermost, iterate_pop_of_outermost ((depth_insert s key a).trans outermost),
      if_pos (.inl outermost), here]
  · cases k with
    | zero => rw [if_pos (.inr rfl)]; exact here
    | succ k =>
      rw [if_neg (by simp [outermost]), Function.iterate_succ_apply, Function.iterate_succ_apply,
        pop_insert outermost]
      rfl

/-- What is found after some operations: the latest of the bindings that are still there, and
otherwise what is found once the scopes that are closed were closed before. -/
theorem find?_after_eq (s : Scopes α) (ops : List (Operation α)) (name : String) :
    (s.after ops).find? name =
      (latest name s.depth ops).or ((pop^[closings ops] s).find? name) := by
  induction ops generalizing s with
  | nil => rfl
  | cons op ops ih =>
    change ((op.apply s).after ops).find? name = _
    rw [ih, latest, op.depth_apply, Option.or_assoc]
    congr 1
    cases op with
    | push =>
      refine (find?_iterate_pop_push s (closings ops) name).trans ?_
      split <;> rfl
    | pop => split <;> rfl
    | insert key a => exact find?_iterate_pop_insert s key a (closings ops) name

theorem find?_after_empty (ops : List (Operation α)) (name : String) :
    (after {} ops).find? name = latest name 1 ops := by
  rw [find?_after_eq, iterate_pop_of_outermost rfl]
  exact Option.or_none

/-- Pushes and pops balance, and no pop comes to a scope that was open before. -/
structure IsEnclosed (ops : List (Operation α)) : Prop where
  closings : closings ops = 0
  balance : ops.countP Operation.isPush = ops.countP Operation.isPop

/-- Operations that close no more scopes than the first `top` leave the others around as they were. -/
theorem enclosing_after (s : Scopes α) (ops : List (Operation α))
    {top outer : List (Std.ExtTreeMap String α compare)}
    (enclosing : s.enclosing = top ++ outer) (enough : closings ops ≤ top.length) :
    ∃ top', (s.after ops).enclosing = top' ++ outer ∧
      top'.length + ops.countP Operation.isPop = top.length + ops.countP Operation.isPush := by
  induction ops generalizing s top with
  | nil => exact ⟨top, enclosing, rfl⟩
  | cons op ops ih =>
    change ∃ top', ((op.apply s).after ops).enclosing = _ ∧ _
    rw [List.countP_cons, List.countP_cons]
    cases op with
    | push =>
      have opened : s.push.enclosing = (s.innermost :: top) ++ outer :=
        congrArg (s.innermost :: ·) enclosing
      obtain ⟨top', same, count⟩ := ih s.push opened (Nat.le_succ_of_pred_le enough)
      refine ⟨top', same, ?_⟩
      rw [List.length_cons] at count
      simp only [Operation.isPush, Operation.isPop, if_true, Bool.false_eq_true, if_false]
      omega
    | pop =>
      cases top with
      | nil => cases enough
      | cons scope top =>
        have popped : s.pop.enclosing = top ++ outer := by simp [pop, enclosing]
        obtain ⟨top', same, count⟩ := ih s.pop popped (Nat.le_of_succ_le_succ enough)
        refine ⟨top', same, ?_⟩
        simp only [Operation.isPush, Operation.isPop, if_true, Bool.false_eq_true, if_false,
          List.length_cons]
        omega
    | insert name a => exact ih (s.insert name a) enclosing enough

/-- A scope that is opened and closed leaves nothing behind, whatever is done inside it. -/
theorem after_enclosed (s : Scopes α) {inner : List (Operation α)} (enclosed : IsEnclosed inner) :
    s.after (.push :: inner ++ [.pop]) = s := by
  have opened : s.push.enclosing = [] ++ s.push.enclosing := rfl
  obtain ⟨top, same, count⟩ := enclosing_after s.push inner opened (Nat.le_of_eq enclosed.closings)
  have balance := enclosed.balance
  obtain rfl : top = [] := List.eq_nil_of_length_eq_zero (by simp only [List.length_nil] at count; omega)
  rw [after_append]
  change (s.push.after inner).pop = s
  unfold pop
  rw [same]
  rfl

theorem depth_after (s : Scopes α) (ops : List (Operation α)) :
    (s.after ops).depth = depthAfter s.depth ops := by
  induction ops generalizing s with
  | nil => rfl
  | cons op ops ih => exact (ih (op.apply s)).trans (by rw [op.depth_apply]; rfl)

/-- What is found after a history that starts with nothing but the outermost scope: the value of
the last binding of the name in a scope that was not closed since, and nothing if there is none.
Opening a scope and closing it again changes nothing of that, whatever is done inside. -/
theorem finds_latest_open_binding (history : List (Operation α)) (name : String) :
    (after {} history).depth = depthAfter 1 history ∧
    (∀ a, (after {} history).find? name = some a ↔
      ∃ before later, IsBound 1 history name before a later ∧ ∀ before' b later',
        IsBound 1 history name before' b later' → before'.length ≤ before.length) ∧
    ((after {} history).find? name = none ↔
      ∀ before a later, ¬ IsBound 1 history name before a later) ∧
    ∀ inner, IsEnclosed inner →
      (after {} (history ++ (.push :: inner ++ [.pop]))).find? name = (after {} history).find? name := by
  refine ⟨depth_after {} history, ?_⟩
  rw [find?_after_empty]
  refine ⟨latest_eq_some_iff name 1 history, latest_eq_none_iff name 1 history, fun inner enclosed => ?_⟩
  rw [after_append, after_enclosed _ enclosed, find?_after_empty]

/-- The outermost scope survives two pops, a scope inside it binds the name twice, and what is
bound in a third one is forgotten. -/
theorem found_behind_surplus_pops :
    let history : List (Operation Nat) :=
      [.insert "a" 1, .pop, .pop, .push, .insert "a" 2, .insert "a" 3]
    let inner : List (Operation Nat) := [.insert "a" 4, .push, .pop, .insert "b" 5]
    IsEnclosed inner ∧ IsBound 1 history "a" (history.take 5) 3 [] ∧
      (after {} (history ++ (.push :: inner ++ [.pop]))).find? "a" = some 3 ∧
      (after {} (history ++ (.push :: inner ++ [.pop]))).find? "b" = none ∧
      (after {} (history ++ [.pop])).find? "a" = some 1 := by
  intro history inner
  have enclosed : IsEnclosed inner := ⟨rfl, rfl⟩
  obtain ⟨_, _, _, same⟩ := finds_latest_open_binding history "a"
  obtain ⟨_, _, _, same'⟩ := finds_latest_open_binding history "b"
  have here : (after {} history).find? "a" = some 3 := by decide +kernel
  have nowhere : (after {} history).find? "b" = none := by decide +kernel
  exact ⟨enclosed, ⟨rfl, .inr rfl⟩, (same inner enclosed).trans here, (same' inner enclosed).trans nowhere,
    by decide +kernel⟩

end OpenExpr.Scopes
