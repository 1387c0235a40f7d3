import OpenExpr.Diagnostic
import OpenExpr.SyntaxTree.Source

namespace OpenExpr

/-- Why a part of a syntax tree has no meaning. -/
inductive Problem where
  | rejected (e : InputError)
  /-- The tree stands for input that could not be read. -/
  | unreadable (message : String)
  | unexpectedNode (kind : SyntaxTree.Kind)
  | invalidNumber (text : String)
  | unknownVariable (name : String)
  | unknownFunction (name : String)
  | notUnaryOperator (text : String)
  | missingUnaryFunction (name : String)
  | notBinaryOperator (text : String)
  | missingBinaryFunction (name : String)
  | incompatibleRedeclaration
  | parseCanceled
  | redefinition (name : String)
deriving DecidableEq, Repr

namespace Problem

def code : Problem → Diagnostic.Code
  | rejected _ | unreadable _ | unexpectedNode _ | invalidNumber _ => .syntaxError
  | unknownVariable _ => .unknownVariable
  | unknownFunction _ => .invokeUnknownFunction
  | notUnaryOperator _ => .invalidUnaryOp
  | missingUnaryFunction _ => .invalidUnaryOpRef
  | notBinaryOperator _ => .invalidBinaryOp
  | missingBinaryFunction _ => .unaryOpNotFound
  | incompatibleRedeclaration => .incompatibleRedeclaration
  | parseCanceled => .parseCanceled
  | redefinition _ => .redefinedFunction

def message : Problem → String
  | rejected e => "Syntax Error: " ++ e.message
  | unreadable message => "Syntax Error: " ++ message
  | unexpectedNode kind => "Syntax Error: unexpected " ++ kind.name ++ " node"
  | invalidNumber text => "Syntax Error: invalid number " ++ Text.quote text
  | unknownVariable name => "Unknown variable name: " ++ name
  | unknownFunction name => "Call to unknown function '" ++ name ++ "'"
  | notUnaryOperator text => "invalid unary operator " ++ text
  | missingUnaryFunction name => "reference to unknown unary operator function " ++ name
  | notBinaryOperator text => "Invalid binary operator '" ++ text ++ "'"
  | missingBinaryFunction name => "Binary operator function '" ++ name ++ "' not found"
  | incompatibleRedeclaration => "Declaration incompatible with previous declaration"
  | parseCanceled => "Parse canceled"
  | redefinition name => "Function '" ++ name ++ "' is already defined"

def diagnostic (p : Problem) (span : Span) : Diagnostic :=
  { code := p.code, message := p.message, span }

end Problem

/-- The diagnostic for a text that could not be read. -/
def InputError.diagnostic (e : InputError) : Diagnostic :=
  (Problem.rejected e).diagnostic e.position.toSpan

/-- The diagnostic for a tree that stands where its construct cannot, or that
lacks a part. -/
def SyntaxTree.misplaced (t : SyntaxTree) : Diagnostic :=
  (if t.kind = .error then Problem.unreadable t.text else .unexpectedNode t.kind).diagnostic t.span

end OpenExpr
