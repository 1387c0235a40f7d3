import OpenExpr.Decimal.Shortest
import OpenExpr.Program.Basic

namespace OpenExpr

def Prototype.display (p : Prototype) : String :=
  (if p.isExternal then "[extern]" else "") ++ (if p.isGenerated then "[CompilerGenerated]" else "") ++
    p.name ++ "(" ++ ", ".intercalate (p.parameters.map Parameter.name) ++ ")"

mutual

/-- The expression as applications of the constructs' names. -/
def Expr.display : Expr → String
  | .constant value _ => Decimal.display value
  | .reference binding _ => binding.name
  | .call callee arguments _ => "Call(" ++ callee.name ++ Expr.displayArguments arguments ++ ")"
  | .builtIn op left right _ =>
    op.name ++ "(" ++ left.display ++ "," ++ right.display ++ ")"
  | .conditional condition thenBranch elseBranch _ _ =>
    "Conditional(" ++ condition.display ++ "," ++ thenBranch.display ++ "," ++
      elseBranch.display ++ ")"
  | .forLoop counter condition step body _ =>
    "For(" ++ counter.display ++ "," ++ condition.display ++ "," ++ step.display ++ "," ++
      body.display ++ ")"
  | .varIn locals body _ => "VarIn(" ++ Local.displayAll locals ++ body.display ++ ")"
  | .error diagnostic => diagnostic.display

/-- Each argument behind a comma. -/
def Expr.displayArguments : List Expr → String
  | [] => ""
  | e :: es => "," ++ e.display ++ Expr.displayArguments es

def Local.display : Local → String
  | .initialized declared value => declared.name ++ "=" ++ value.display
  | .slot declared => declared.name

/-- Each local in front of a comma. -/
def Local.displayAll : List Local → String
  | [] => ""
  | l :: ls => l.display ++ "," ++ Local.displayAll ls

end

def FunctionDefinition.display (d : FunctionDefinition) : String :=
  "Define(" ++ d.signature.display ++ "," ++ d.body.display ++ ")"

mutual

def Program.display : Program → String
  | .root units _ => "Root(" ++ ",".intercalate (Program.displayAll units) ++ ")"
  | .error diagnostic => diagnostic.display
  | .prototype p => p.display
  | .definition d => d.display
  | .expression e => e.display

def Program.displayAll : List Program → List String
  | [] => []
  | u :: us => u.display :: Program.displayAll us

end

end OpenExpr
