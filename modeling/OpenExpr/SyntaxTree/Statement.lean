import OpenExpr.SyntaxTree.Expression

namespace OpenExpr

/-- An operator that the header of a definition introduces. -/
structure OperatorDefinition where
  symbol : Char
  fixity : Fixity
  precedence : Int32
deriving DecidableEq, Repr

namespace Grammar

variable (g : Grammar)

def define (op : OperatorDefinition) : Grammar :=
  { g with operators := g.operators.register op.symbol op.fixity op.precedence }

/-- A name in a header, for a value that the function is given. -/
def parameter (name : Token) : SyntaxTree :=
  { kind := .parameter, span := name.span, text := name.text }

/-- The names that come next, with or without commas after them. -/
def parameters : Nat → Parse (List SyntaxTree)
  | 0 => return []
  | budget + 1 => do
    if (← Parse.current).kind = .identifier then
      let name ← Parse.advance
      let _ ← Parse.eat .comma
      return parameter name :: (← parameters budget)
    else
      return []

def functionPrototype : Parse SyntaxTree := do
  let name ← Parse.advance
  let _ ← Parse.expect .openParen
  let names ← parameters (← Parse.remaining)
  let _ ← Parse.expect .closeParen
  Parse.node .functionPrototype name.span.start name.text names

/-- An operator token together with its symbol. -/
def operatorSymbol : Parse (Char × Token) := do
  match (← Parse.current).symbol? with
  | some symbol => return (symbol, ← Parse.advance)
  | none => Parse.unexpectedDetailed "expected an operator symbol"

/-- The precedence that a number gives, if it is a whole one within the bounds. -/
def precedence? (text : String) : Option Int32 := do
  let n ← (Decimal.Double.ofFloat (← Decimal.float? text)).toNat?
  if 1 ≤ n ∧ n ≤ Operator.maxPrecedence then some (.ofNat n) else none

/-- The precedence in a header, which may leave it out. -/
def precedence (default : Int32) : Parse Int32 := do
  if (← Parse.current).kind = .number then
    let token ← Parse.advance
    match precedence? token.text with
    | some n => return n
    | none => throw { cause := .invalidPrecedence token.text, position := token.span.start }
  else
    return default

def unaryPrototype : Parse (SyntaxTree × OperatorDefinition) := do
  let start := (← Parse.advance).span.start
  let (symbol, operator) ← operatorSymbol
  let precedence ← precedence Operator.defaultPrefixPrecedence
  let _ ← Parse.expect .openParen
  let operand ← Parse.expect .identifier
  let _ ← Parse.expect .closeParen
  let tree ← Parse.node .unaryPrototype start operator.text [parameter operand]
  return (tree, { symbol, fixity := .prefixed, precedence })

def binaryPrototype : Parse (SyntaxTree × OperatorDefinition) := do
  let start := (← Parse.advance).span.start
  let (symbol, operator) ← operatorSymbol
  if OperatorTable.isBuiltIn symbol .infixLeft then
    throw { cause := .builtInOperatorRedefinition symbol, position := operator.span.start }
  let precedence ← precedence Operator.defaultInfixPrecedence
  let _ ← Parse.expect .openParen
  let left ← Parse.expect .identifier
  let _ ← Parse.eat .comma
  let right ← Parse.expect .identifier
  let _ ← Parse.expect .closeParen
  let tree ← Parse.node .binaryPrototype start operator.text [parameter left, parameter right]
  return (tree, { symbol, fixity := .infixLeft, precedence })

/-- The header of a definition or declaration, with the operator that it introduces. -/
def prototype : Parse (SyntaxTree × Option OperatorDefinition) := do
  match (← Parse.current).kind with
  | .identifier => return (← functionPrototype, none)
  | .keyword .unaryWord =>
    let (tree, op) ← unaryPrototype
    return (tree, some op)
  | .keyword .binaryWord =>
    let (tree, op) ← binaryPrototype
    return (tree, some op)
  | _ => Parse.unexpectedDetailed "expected a function name or operator prototype"

end Grammar

/-- A token list that is being read, with the grammar as far as it is known. Only
headers of definitions change the grammar. -/
structure SourceReader where
  grammar : Grammar
  tokens : TokenStream

/-- A reader of statements. On failure the grammar keeps the operators whose
headers were read. -/
abbrev ParseUnit := EStateM InputError SourceReader

namespace ParseUnit

/-- Reads tokens with the grammar as it is now. -/
def reading {α : Type} (p : Grammar → Parse α) : ParseUnit α := fun s =>
  match p s.grammar s.tokens with
  | .ok a tokens => .ok a { s with tokens }
  | .error e tokens => .error e { s with tokens }

/-- A header. The operator that it introduces is known from here on, so the body
of its own definition can use it. -/
def prototype : ParseUnit SyntaxTree := do
  let (tree, op?) ← reading fun _ => Grammar.prototype
  match op? with
  | some op => modify fun s => { s with grammar := s.grammar.define op }
  | none => pure ()
  return tree

def expr : ParseUnit SyntaxTree :=
  reading fun g => g.expr 0

def functionDefinition : ParseUnit SyntaxTree := do
  let start := (← reading fun _ => Parse.advance).span.start
  let header ← prototype
  let body ← expr
  reading fun _ => Parse.node .functionDefinition start "" [header, body]

def externalDeclaration : ParseUnit SyntaxTree := do
  let start := (← reading fun _ => Parse.advance).span.start
  let header ← prototype
  reading fun _ => Parse.node .externalDeclaration start "" [header]

def topLevelExpression : ParseUnit SyntaxTree := do
  let start ← reading fun _ => Parse.position
  let body ← expr
  reading fun _ => Parse.node .topLevelExpression start "" [body]

/-- One definition, declaration or expression. -/
def statement : ParseUnit SyntaxTree := do
  if (← get).grammar.isBare then
    topLevelExpression
  else
    match (← reading fun _ => Parse.current).kind with
    | .keyword .defWord => functionDefinition
    | .keyword .externWord => externalDeclaration
    | _ => topLevelExpression

end ParseUnit

end OpenExpr
