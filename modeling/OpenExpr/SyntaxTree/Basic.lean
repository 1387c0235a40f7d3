import OpenExpr.Token.Basic

namespace OpenExpr

/-- The constructs that a node of a syntax tree can stand for. -/
inductive SyntaxTree.Kind where
  | fullSource
  | repl
  | functionDefinition
  | externalDeclaration
  | topLevelExpression
  | functionPrototype
  | unaryPrototype
  | binaryPrototype
  | parameter
  | expression
  | constant
  | reference
  | paren
  | functionCall
  | unaryOperator
  | conditional
  | forLoop
  | varIn
  | initializer
  /-- Stands for input that could not be read. -/
  | error
deriving DecidableEq, Repr

/-- The constructs of a text as they were written. The text of a node is the
name, the number or the operator that it holds. An expression is an operand, its
only child, with the operators that follow it, each before its right operand. -/
structure SyntaxTree where
  kind : SyntaxTree.Kind
  span : Span
  text : String := ""
  children : List SyntaxTree := []
  operators : List (Token × SyntaxTree) := []

namespace SyntaxTree

/-- The name of a construct in messages. -/
def Kind.name : Kind → String
  | fullSource => "FullSource"
  | repl => "Repl"
  | functionDefinition => "FunctionDefinition"
  | externalDeclaration => "ExternalDeclaration"
  | topLevelExpression => "TopLevelExpression"
  | functionPrototype => "FunctionPrototype"
  | unaryPrototype => "UnaryPrototype"
  | binaryPrototype => "BinaryPrototype"
  | parameter => "Parameter"
  | expression => "Expression"
  | constant => "ConstExpression"
  | reference => "VariableExpression"
  | paren => "ParenExpression"
  | functionCall => "FunctionCallExpression"
  | unaryOperator => "UnaryOpExpression"
  | conditional => "ConditionalExpression"
  | forLoop => "ForExpression"
  | varIn => "VarInExpression"
  | initializer => "Initializer"
  | error => "Error"

/-- The symbol of an operator that is applied to one operand or defined. -/
def symbol? (t : SyntaxTree) : Option Char :=
  match t.kind with
  | .unaryPrototype | .binaryPrototype | .unaryOperator => t.text.toList.head?
  | _ => none

/-- The places of a syntax tree in the order in which they were written: nodes,
and the operators between the operands of an expression. -/
inductive Place where
  | node (tree : SyntaxTree)
  | operator (token : Token)

mutual

/-- All places of a tree with their depths, a node before those below it. -/
def outline (depth : Nat) (t : SyntaxTree) : List (Nat × Place) :=
  match t with
  | { children, operators, .. } =>
    (depth, .node t) :: (outlineAll (depth + 1) children ++ outlineOperators (depth + 1) operators)

def outlineAll (depth : Nat) : List SyntaxTree → List (Nat × Place)
  | [] => []
  | t :: ts => outline depth t ++ outlineAll depth ts

def outlineOperators (depth : Nat) : List (Token × SyntaxTree) → List (Nat × Place)
  | [] => []
  | (token, t) :: rest =>
    (depth, .operator token) :: (outline depth t ++ outlineOperators depth rest)

end

end SyntaxTree

end OpenExpr
