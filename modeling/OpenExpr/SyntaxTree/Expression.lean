import OpenExpr.Decimal.Numeral
import OpenExpr.Operator
import OpenExpr.SyntaxTree.TokenStream

namespace OpenExpr

/-- What decides how tokens are read: the level, and the operators defined so
far. A bare grammar has operators only, no operands and no definitions. -/
structure Grammar where
  level : Level
  operators : OperatorTable
  isBare : Bool := false

namespace Grammar

variable (g : Grammar)

/-- How tightly a symbol binds to the operand on its left. A symbol that is no
infix operator binds as loosely as can be; that it has no meaning is found later. -/
def leftPower (symbol : Char) : Int32 :=
  ((g.operators.infixOp? symbol).map Operator.precedence).getD 0

/-- How tightly an operator must bind to belong to the operand on the right. -/
def rightPower (symbol : Char) : Int32 :=
  ((g.operators.infixOp? symbol).map Operator.operandPower).getD 1

/-- The operators that follow an operand and bind at least as tightly as `power`,
each with its right operand. At most `budget` operators are read. -/
def operatorTail (expr : Int32 → Parse SyntaxTree) (power : Int32) :
    Nat → Parse (List (Token × SyntaxTree))
  | 0 => return []
  | budget + 1 => do
    match (← Parse.current).symbol? with
    | none => return []
    | some symbol =>
      if g.leftPower symbol < power then
        return []
      else
        if symbol = '=' then
          Parse.requireLevel g.level .mutableVariables "assignment"
        let operator ← Parse.advance
        let operand ← expr (g.rightPower symbol)
        return (operator, operand) :: (← operatorTail expr power budget)

/-- A number. Its text must be one that can be read as a number. -/
def constant : Parse SyntaxTree := do
  let token ← Parse.advance
  if (Decimal.Numeral.ofText? token.text).isSome then
    return { kind := .constant, span := token.span, text := token.text }
  else
    throw { cause := .numberParseError token.text, position := token.span.start }

/-- A name, or a call where a parenthesis follows the name. -/
def nameOrCall (expr : Int32 → Parse SyntaxTree) : Parse SyntaxTree := do
  let name ← Parse.advance
  if (← Parse.current).kind = .openParen then
    let _ ← Parse.advance
    let arguments ←
      if (← Parse.current).kind = .closeParen then pure []
      else Parse.commaSeparated (expr 0) (← Parse.remaining)
    let _ ← Parse.expect .closeParen
    Parse.node .functionCall name.span.start name.text arguments
  else
    return { kind := .reference, span := name.span, text := name.text }

def parenthesised (expr : Int32 → Parse SyntaxTree) : Parse SyntaxTree := do
  let start := (← Parse.advance).span.start
  let inner ← expr 0
  let _ ← Parse.expect .closeParen
  Parse.node .paren start "" [inner]

/-- A condition and two branches, each after its keyword. -/
def conditional (expr : Int32 → Parse SyntaxTree) : Parse SyntaxTree := do
  let start := (← Parse.advance).span.start
  let condition ← expr 0
  let _ ← Parse.expect (.keyword .thenWord)
  let thenBranch ← expr 0
  let _ ← Parse.expect (.keyword .elseWord)
  let elseBranch ← expr 0
  Parse.node .conditional start "" [condition, thenBranch, elseBranch]

/-- A loop: its variable with a start value, its condition, perhaps a step, and
its body, in this order below the node. -/
def forLoop (expr : Int32 → Parse SyntaxTree) : Parse SyntaxTree := do
  let start := (← Parse.advance).span.start
  let name ← Parse.expect .identifier
  unless (← Parse.current).isOperator '=' do
    Parse.unexpectedDetailed "expected `=` after the loop variable"
  let _ ← Parse.advance
  let value ← expr 0
  let initializer ← Parse.node .initializer name.span.start name.text [value]
  let _ ← Parse.expect .comma
  let condition ← expr 0
  let step ← if ← Parse.eat .comma then pure [← expr 0] else pure []
  let _ ← Parse.expect (.keyword .inWord)
  let body ← expr 0
  Parse.node .forLoop start "" ([initializer, condition] ++ step ++ [body])

/-- A name that is bound, with its value if one is written. -/
def initializer (expr : Int32 → Parse SyntaxTree) : Parse SyntaxTree := do
  let name ← Parse.expect .identifier
  let value ←
    if (← Parse.current).isOperator '=' then
      let _ ← Parse.advance
      pure [← expr 0]
    else
      pure []
  Parse.node .initializer name.span.start name.text value

/-- Local variables and the body that sees them, the body last below the node. -/
def varIn (expr : Int32 → Parse SyntaxTree) : Parse SyntaxTree := do
  let start := (← Parse.advance).span.start
  let initializers ← Parse.commaSeparated (initializer expr) (← Parse.remaining)
  let _ ← Parse.expect (.keyword .inWord)
  let body ← expr 0
  Parse.node .varIn start "" (initializers ++ [body])

/-- An operand that starts with no operator, told by its first token. -/
def primaryWith (expr : Int32 → Parse SyntaxTree) : Parse SyntaxTree := do
  if g.isBare then
    Parse.unexpected
  else
    match (← Parse.current).kind with
    | .number => constant
    | .identifier => nameOrCall expr
    | .openParen => parenthesised expr
    | .keyword .ifWord => conditional expr
    | .keyword .forWord => forLoop expr
    | .keyword .varWord => varIn expr
    | _ => Parse.unexpected

/-- A prefix operator with its operand, or an operand alone. -/
def operandWith (expr : Int32 → Parse SyntaxTree) : Parse SyntaxTree := do
  match (← Parse.current).symbol? with
  | none => g.primaryWith expr
  | some symbol =>
    match g.operators.prefixOp? symbol with
    | none => Parse.unexpectedDetailed "not a prefix operator"
    | some op =>
      let operator ← Parse.advance
      let operand ← expr op.operandPower
      Parse.node .unaryOperator operator.span.start operator.text [operand]

/-- An operand and the operators after it that bind at least as tightly as
`power`. The right operand of each is read in the same way with the power that
the operator asks for, so the operators that it takes up are nested there. -/
def exprWith (expr : Int32 → Parse SyntaxTree) (power : Int32) : Parse SyntaxTree := do
  let start ← Parse.position
  let operand ← g.operandWith expr
  let operators ← g.operatorTail expr power (← Parse.remaining)
  return { kind := .expression, span := ← Parse.spanFrom start, children := [operand], operators }

/-- An expression nested at most `budget` deep. Each level of nesting starts
behind a token of its own, so a budget as large as the number of tokens is enough;
with none left there is no token to start with. -/
def exprWithin : Nat → Int32 → Parse SyntaxTree
  | 0, _ => Parse.unexpected
  | budget + 1, power => g.exprWith (exprWithin budget) power

/-- An expression of operators that bind at least as tightly as `power`. -/
def expr (power : Int32) : Parse SyntaxTree := do
  g.exprWithin (← Parse.remaining) power

def primary : Parse SyntaxTree :=
  g.primaryWith g.expr

def operand : Parse SyntaxTree :=
  g.operandWith g.expr

end Grammar

end OpenExpr
