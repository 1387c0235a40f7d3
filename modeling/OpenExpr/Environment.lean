import OpenExpr.Level
import OpenExpr.Program.Basic

namespace OpenExpr

/-- What a user chooses for a session. -/
structure Options where
  level : Level := .mutableVariables
  /-- How the names of functions made for bare expressions start. -/
  anonymousName : String := "anon_expr_"
  /-- Whether a function may not be defined twice. -/
  isStrict : Bool := false
deriving DecidableEq, Repr

/-- What is known after the statements read so far: the operators, the functions
declared and defined by name, and how many bare expressions have got a name. -/
structure Environment where
  operators : OperatorTable := .empty
  declarations : Std.ExtTreeMap String Prototype := ∅
  definitions : Std.ExtTreeMap String FunctionDefinition := ∅
  options : Options := {}
  anonymousCount : UInt32 := 0

namespace Environment

/-- The function that a call by this name reaches. What is defined comes before
what is only declared. -/
def callee? (env : Environment) (name : String) : Option Prototype :=
  match env.definitions[name]? with
  | some d => some d.signature
  | none => env.declarations[name]?

/-- The name of the next bare expression. -/
def nextAnonymousName (env : Environment) : String :=
  env.options.anonymousName ++ toString env.anonymousCount.toNat

/-- Counts a bare expression. -/
def countAnonymous (env : Environment) : Environment :=
  { env with anonymousCount := env.anonymousCount + 1 }

def declare (env : Environment) (p : Prototype) : Environment :=
  { env with declarations := env.declarations.insert p.name p }

def define (env : Environment) (d : FunctionDefinition) : Environment :=
  { env with definitions := env.definitions.insert d.name d }

theorem getElem?_declare (env : Environment) (p : Prototype) (name : String) :
    (env.declare p).declarations[name]? = if p.name = name then some p else env.declarations[name]? := by
  simp [declare, Std.ExtTreeMap.getElem?_insert]

theorem getElem?_define (env : Environment) (d : FunctionDefinition) (name : String) :
    (env.define d).definitions[name]? = if d.name = name then some d else env.definitions[name]? := by
  simp [define, Std.ExtTreeMap.getElem?_insert]

/-- Puts back what was declared under a name, if anything was. -/
def restoreDeclaration (env : Environment) (name : String) (previous : Option Prototype) :
    Environment :=
  match previous with
  | some p => { env with declarations := env.declarations.insert name p }
  | none => { env with declarations := env.declarations.erase name }

end Environment

end OpenExpr
