import OpenExpr.SyntaxTree.Statement
import OpenExpr.Token.Scan

namespace OpenExpr

/-- The node that stands for input that could not be read. -/
def SyntaxTree.ofError (e : InputError) : SyntaxTree :=
  { kind := .error, span := e.position.toSpan, text := e.message }

/-- How much of a token list is read: exactly one statement, or any number of
them, each up to a semicolon. -/
inductive ParseMode where
  | repl
  | fullSource
deriving DecidableEq, Repr

namespace ParseUnit

/-- One statement and nothing after it but a semicolon, which may be left out. -/
def single : ParseUnit SyntaxTree := do
  let start ← reading fun _ => Parse.position
  let tree ← statement
  reading fun _ => do
    let _ ← Parse.eat .semicolon
    if (← get).hasTokens then
      Parse.unexpectedDetailed "expected end of statement"
    Parse.node .repl start "" [tree]

end ParseUnit

namespace SourceReader

def ofTokens (grammar : Grammar) (file : String) (tokens : List Token) : SourceReader :=
  { grammar, tokens := .ofTokens file tokens }

/-- Resumes behind the next semicolon. -/
def synchronize (r : SourceReader) : SourceReader :=
  { r with tokens := r.tokens.synchronize }

/-- Moves past the next token. -/
def skip (r : SourceReader) : SourceReader :=
  { r with tokens := r.tokens.advance }

/-- The statements of a source up to its end. What cannot be read becomes an
error and reading resumes behind the next semicolon; so does reading after a
statement that no semicolon ends. Every round takes a token, so a budget as large
as the number of tokens is enough. -/
def statements : Nat → SourceReader → List SyntaxTree × SourceReader
  | 0, r => ([], r)
  | budget + 1, r =>
    if !r.tokens.hasTokens then ([], r)
    else if r.tokens.current.kind = .semicolon then statements budget r.skip
    else
      match ParseUnit.statement r with
      | .error e r =>
        let (trees, r) := statements budget r.synchronize
        (.ofError e :: trees, r)
      | .ok tree r =>
        if r.tokens.current.kind = .semicolon then
          let (trees, r) := statements budget r.skip
          (tree :: trees, r)
        else if r.tokens.hasTokens then
          let e := r.tokens.unexpectedDetailed "expected `;` between statements"
          let (trees, r) := statements budget r.synchronize
          (tree :: .ofError e :: trees, r)
        else ([tree], r)

/-- Reads a whole source. -/
def fullSource (r : SourceReader) : SyntaxTree × SourceReader :=
  let start := r.tokens.current.span.start
  let (trees, r) := statements r.tokens.pending.length r
  ({ kind := .fullSource, span := r.tokens.spanFrom start, children := trees }, r)

end SourceReader

/-- Reads a token list in the given mode. Whatever comes of it, the operators
whose headers were read are in the table that is returned. -/
def parse (level : Level) (operators : OperatorTable) (mode : ParseMode) (file : String)
    (tokens : List Token) : Except InputError SyntaxTree × OperatorTable :=
  let r := SourceReader.ofTokens { level, operators } file tokens
  match mode with
  | .repl =>
    match ParseUnit.single r with
    | .ok tree r => (.ok tree, r.grammar.operators)
    | .error e r => (.error e, r.grammar.operators)
  | .fullSource =>
    let (tree, r) := r.fullSource
    (.ok tree, r.grammar.operators)

end OpenExpr
