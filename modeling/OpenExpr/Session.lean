import OpenExpr.Program.Errors
import OpenExpr.Resolution.Statement

namespace OpenExpr

/-- One run of the language: what its statements have made known so far, and the
name under which positions of their text are given. -/
structure Session where
  env : Environment := {}
  sourceName : String := "shell"

/-- What came of a statement. -/
inductive StatementResult where
  | complete (u : Program)
  | failed (diagnostics : List Diagnostic)
  /-- The text ends inside the statement and may be given again with more. -/
  | needMoreInput

namespace Session

/-- A session with nothing known yet. -/
def new (options : Options) : Session :=
  { env := { options } }

/-- Reads a text. The operators that it defines are known afterwards, also if
it cannot be read to the end. -/
def syntaxTree (s : Session) (mode : ParseMode) (text : String) :
    Except InputError SyntaxTree × Session :=
  match tokenize s.env.options.level s.sourceName text with
  | .error e => (.error e, s)
  | .ok tokens =>
    let (result, operators) :=
      OpenExpr.parse s.env.options.level s.env.operators mode s.sourceName tokens
    (result, { s with env := { s.env with operators } })

def resolve (s : Session) (t : SyntaxTree) : Program × Session :=
  let (u, env) := s.env.resolve t
  (u, { s with env })

/-- The program that a text has if it ends inside its statement. -/
def canceled (e : InputError) : Program :=
  .root [.error (Problem.parseCanceled.diagnostic e.position.toSpan)] e.position.toSpan

/-- Reads and resolves one statement. -/
def parse (s : Session) (text : String) : Program × Session :=
  match s.syntaxTree .repl text with
  | (.ok t, s) => s.resolve t
  | (.error e, s) => (if e.isEndOfInput then canceled e else .error e.diagnostic, s)

/-- Reads and resolves a whole source. -/
def parseSource (s : Session) (text : String) : Program × Session :=
  match s.syntaxTree .fullSource text with
  | (.ok t, s) => s.resolve t
  | (.error e, s) => (.root [.error e.diagnostic] e.diagnostic.span, s)

/-- The error of a source that could not be had. -/
def unreadable (s : Session) (message : String) : InputError :=
  { cause := .io message, position := { offset := 0, file := s.sourceName } }

/-- Reads and resolves a source that is delivered in bytes, or whose delivery
failed with a message. -/
def parseBytes (s : Session) (input : Except String ByteArray) :
    Except InputError Program × Session :=
  match input.bind InputError.decode with
  | .error message => (.error (s.unreadable message), s)
  | .ok text =>
    let (u, s) := s.parseSource text
    (.ok u, s)

/-- Reads and resolves one statement, telling apart what is incomplete from what
is wrong. -/
def parseStatement (s : Session) (text : String) : StatementResult × Session :=
  match s.syntaxTree .repl text with
  | (.error e, s) => (if e.isEndOfInput then .needMoreInput else .failed [e.diagnostic], s)
  | (.ok t, s) =>
    let (u, s) := s.resolve t
    (if u.errors.isEmpty then .complete u else .failed u.errors, s)

end Session

end OpenExpr
