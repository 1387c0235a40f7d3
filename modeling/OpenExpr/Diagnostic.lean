import OpenExpr.Source.Span

namespace OpenExpr

/-- The kinds of diagnostics, each with a number that never changes. -/
inductive Diagnostic.Code where
  | syntaxError
  | unknownVariable
  | invokeUnknownFunction
  | invalidUnaryOp
  | invalidUnaryOpRef
  | invalidBinaryOp
  | unaryOpNotFound
  | incompatibleRedeclaration
  | parseCanceled
  | redefinedFunction
deriving DecidableEq, Repr

/-- A finding about a program that stands in for the part in which it was made. -/
structure Diagnostic where
  code : Diagnostic.Code
  message : String
  span : Span
deriving DecidableEq, Repr

namespace Diagnostic

namespace Code

def number : Code → Nat
  | syntaxError => 1000
  | unknownVariable => 1001
  | invokeUnknownFunction => 1002
  | invalidUnaryOp => 1003
  | invalidUnaryOpRef => 1004
  | invalidBinaryOp => 1005
  | unaryOpNotFound => 1006
  | incompatibleRedeclaration => 1007
  | parseCanceled => 1008
  | redefinedFunction => 1009

def name : Code → String
  | syntaxError => "SyntaxError"
  | unknownVariable => "UnknownVariable"
  | invokeUnknownFunction => "InvokeUnknownFunction"
  | invalidUnaryOp => "InvalidUnaryOp"
  | invalidUnaryOpRef => "InvalidUnaryOpRef"
  | invalidBinaryOp => "InvalidBinaryOp"
  | unaryOpNotFound => "UnaryOpNotFound"
  | incompatibleRedeclaration => "IncompatibleRedeclaration"
  | parseCanceled => "ParseCanceled"
  | redefinedFunction => "RedefinedFunction"

/-- The number as it is shown, with the letters that all of them share. -/
def display (c : Code) : String :=
  "KLS" ++ toString c.number

def all : List Code :=
  [syntaxError, unknownVariable, invokeUnknownFunction, invalidUnaryOp, invalidUnaryOpRef,
    invalidBinaryOp, unaryOpNotFound, incompatibleRedeclaration, parseCanceled, redefinedFunction]

theorem mem_all (c : Code) : c ∈ all := by
  cases c <;> decide

end Code

/-- How serious a diagnostic is. All of them are errors. -/
def severity (_ : Diagnostic) : String :=
  "error"

def display (d : Diagnostic) : String :=
  "Error(" ++ d.code.display ++ ": " ++ d.message ++ ")"

end Diagnostic

end OpenExpr
