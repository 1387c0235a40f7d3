namespace OpenExpr

/-- The language levels, each one a superset of those before it. -/
inductive Level where
  /-- Functions, external declarations and arithmetic. -/
  | simpleExpressions
  /-- Adds conditionals and loops. -/
  | controlFlow
  /-- Adds definitions of operators. -/
  | userDefinedOperators
  /-- Adds local variables and assignment. -/
  | mutableVariables
deriving DecidableEq, Repr

namespace Level

def rank : Level → Nat
  | simpleExpressions => 0
  | controlFlow => 1
  | userDefinedOperators => 2
  | mutableVariables => 3

instance : LE Level where
  le a b := a.rank ≤ b.rank

instance (a b : Level) : Decidable (a ≤ b) :=
  inferInstanceAs (Decidable (a.rank ≤ b.rank))

theorem le_refl (a : Level) : a ≤ a := Nat.le_refl a.rank

theorem le_trans {a b c : Level} (h : a ≤ b) (k : b ≤ c) : a ≤ c := Nat.le_trans h k

theorem simpleExpressions_le (a : Level) : simpleExpressions ≤ a := Nat.zero_le a.rank

/-- The name of the level in messages. -/
def name : Level → String
  | simpleExpressions => "SimpleExpressions"
  | controlFlow => "ControlFlow"
  | userDefinedOperators => "UserDefinedOperators"
  | mutableVariables => "MutableVariables"

/-- The name of the level on the command line. -/
def flag : Level → String
  | simpleExpressions => "simple-expressions"
  | controlFlow => "control-flow"
  | userDefinedOperators => "user-defined-operators"
  | mutableVariables => "mutable-variables"

def all : List Level :=
  [simpleExpressions, controlFlow, userDefinedOperators, mutableVariables]

end Level

end OpenExpr
