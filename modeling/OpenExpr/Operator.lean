import Std.Data.ExtTreeMap

namespace OpenExpr

/-- Where an operator stands and, between two operands, to which side it groups. -/
inductive Fixity where
  | infixLeft
  | infixRight
  | prefixed
deriving DecidableEq, Repr

/-- A precedence is shown as the integer that it is. -/
scoped instance precedenceToInt : Coe Int32 Int := ⟨Int32.toInt⟩

/-- An integer is given as the precedence of its last 32 bits. -/
scoped instance precedenceOfInt : Coe Int Int32 := ⟨Int32.ofInt⟩

/-- An operator as the table knows it. Tighter operators have higher precedences. -/
structure Operator where
  symbol : Char
  fixity : Fixity
  precedence : Int32
  isBuiltIn : Bool
deriving DecidableEq, Repr

namespace Operator

/-- The least precedence that an operator may have to belong to the operand on
the right of `op`. An operator that groups to the left lets only tighter ones in,
any other also those as tight as itself. Nothing is tighter than the greatest
precedence: behind it the sum wraps around to the least. -/
def operandPower (op : Operator) : Int32 :=
  match op.fixity with
  | .infixLeft => op.precedence + 1
  | .infixRight | .prefixed => op.precedence

/-- The precedence is not the greatest one where something is added to it. -/
def IsBounded (op : Operator) : Prop :=
  op.fixity = .infixLeft → op.precedence < Int32.maxValue

/-- The sum is exact and does not wrap around. -/
theorem IsBounded.toInt_operandPower {op : Operator} (bounded : op.IsBounded) :
    op.operandPower.toInt = op.precedence.toInt + if op.fixity = .infixLeft then 1 else 0 := by
  unfold operandPower
  cases side : op.fixity with
  | infixLeft =>
    have below := Int32.lt_iff_toInt_lt.mp (bounded side)
    have lower := op.precedence.le_toInt
    rw [Int32.toInt_maxValue] at below
    rw [if_pos rfl, Int32.toInt_add]
    change Int.bmod (op.precedence.toInt + 1) (2 ^ 32) = _
    exact Int.bmod_eq_of_le (by omega) (by omega)
  | infixRight | prefixed => simp

theorem IsBounded.precedence_le_operandPower {op : Operator} (bounded : op.IsBounded) :
    op.precedence ≤ op.operandPower := by
  have sum := bounded.toInt_operandPower
  rw [Int32.le_iff_toInt_le, sum]
  split <;> omega

-- behind the greatest precedence the sum wraps around, so that every operator is tight enough
example : operandPower ⟨'|', .infixLeft, Int32.maxValue, false⟩ = Int32.minValue := by
  decide

/-- The precedence of an infix operator that is defined without one. -/
def defaultInfixPrecedence : Int32 := 30

/-- The precedence of a prefix operator that is defined without one. -/
def defaultPrefixPrecedence : Int32 := 100

/-- The highest precedence that a definition may give to its operator. -/
def maxPrecedence : Nat := 100

end Operator

/-- The operators with a meaning of their own in a program. -/
inductive BuiltIn where
  | assign
  | add
  | subtract
  | multiply
  | divide
  | less
  | pow
deriving DecidableEq, Repr

namespace BuiltIn

def name : BuiltIn → String
  | assign => "Assign"
  | add => "Add"
  | subtract => "Subtract"
  | multiply => "Multiply"
  | divide => "Divide"
  | less => "Less"
  | pow => "Pow"

def symbol : BuiltIn → Char
  | assign => '='
  | add => '+'
  | subtract => '-'
  | multiply => '*'
  | divide => '/'
  | less => '<'
  | pow => '^'

def fixity : BuiltIn → Fixity
  | assign | pow => .infixRight
  | add | subtract | multiply | divide | less => .infixLeft

def precedence : BuiltIn → Int32
  | assign => 2
  | less => 10
  | add | subtract => 20
  | multiply | divide => 40
  | pow => 50

def all : List BuiltIn :=
  [assign, add, subtract, multiply, divide, less, pow]

def ofSymbol? (symbol : Char) : Option BuiltIn :=
  all.find? fun b => b.symbol == symbol

theorem ofSymbol?_symbol (b : BuiltIn) : ofSymbol? b.symbol = some b := by
  cases b <;> decide

theorem symbol_of_ofSymbol? {c : Char} {b : BuiltIn} (h : ofSymbol? c = some b) :
    b.symbol = c := by
  simpa using List.find?_some h

def operator (b : BuiltIn) : Operator :=
  { symbol := b.symbol, fixity := b.fixity, precedence := b.precedence, isBuiltIn := true }

end BuiltIn

/-- The operators that a program has added to those built in. Infix and prefix
operators are kept apart, so one symbol may be both. -/
structure OperatorTable where
  infixes : Std.ExtTreeMap Char Operator
  prefixes : Std.ExtTreeMap Char Operator

namespace OperatorTable

/-- The table of a program that has defined no operator. -/
def empty : OperatorTable :=
  { infixes := ∅, prefixes := ∅ }

/-- The infix operator of a symbol. Those built in cannot be hidden. -/
def infixOp? (t : OperatorTable) (symbol : Char) : Option Operator :=
  match BuiltIn.ofSymbol? symbol with
  | some b => some b.operator
  | none => t.infixes[symbol]?

/-- The prefix operator of a symbol. None is built in. -/
def prefixOp? (t : OperatorTable) (symbol : Char) : Option Operator :=
  t.prefixes[symbol]?

/-- Whether the symbol belongs to a built-in operator of the given fixity. -/
def isBuiltIn (symbol : Char) (fixity : Fixity) : Bool :=
  fixity != .prefixed && (BuiltIn.ofSymbol? symbol).isSome

/-- Adds an operator, or replaces the one of the same symbol that stands on the
same side. The built-in operators stay as they are. -/
def register (t : OperatorTable) (symbol : Char) (fixity : Fixity) (precedence : Int32) :
    OperatorTable :=
  let op : Operator := { symbol, fixity, precedence, isBuiltIn := false }
  if isBuiltIn symbol fixity then t
  else match fixity with
    | .prefixed => { t with prefixes := t.prefixes.insert symbol op }
    | .infixLeft | .infixRight => { t with infixes := t.infixes.insert symbol op }

/-- The infix precedence of a symbol, and zero if it has none. -/
def precedence (t : OperatorTable) (symbol : Char) : Int32 :=
  ((t.infixOp? symbol).map Operator.precedence).getD 0

end OperatorTable

end OpenExpr
