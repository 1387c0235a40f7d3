import OpenExpr.InputError
import OpenExpr.SyntaxTree.Basic

namespace OpenExpr

/-- What is left to read of a token list: the tokens before its end, the token
that marks the end, and the end of the token read last, if one was. -/
structure TokenStream where
  pending : List Token
  finish : Token
  finish_kind : finish.kind = .endOfInput
  readTo : Option Position := none

namespace TokenStream

/-- The token that ends a list: its first end of input, or else one at the start
of the named source. -/
def finishOf (file : String) (tokens : List Token) : Token :=
  (tokens.find? fun t => t.kind == .endOfInput).getD (.endAt { offset := 0, file })

theorem finishOf_kind (file : String) (tokens : List Token) :
    (finishOf file tokens).kind = .endOfInput := by
  unfold finishOf
  cases found : tokens.find? fun t => t.kind == .endOfInput with
  | none => rfl
  | some t => simpa using List.find?_some found

/-- Reads a token list up to its first end of input. A list that has none ends
at the start of the named source. -/
def ofTokens (file : String) (tokens : List Token) : TokenStream :=
  { pending := tokens.takeWhile fun t => t.kind != .endOfInput
    finish := finishOf file tokens
    finish_kind := finishOf_kind file tokens }

/-- The next token. At the end of the input it is the end, and stays it. -/
def current (s : TokenStream) : Token :=
  match s.pending with
  | [] => s.finish
  | t :: _ => t

/-- The stream after its next token. Nothing moves past the end of the input. -/
def advance (s : TokenStream) : TokenStream :=
  match s.pending with
  | [] => s
  | t :: rest => { s with pending := rest, readTo := some t.span.stop }

def hasTokens (s : TokenStream) : Bool :=
  !s.pending.isEmpty

/-- The span from a position to the end of the token read last. Before any token
was read it is empty. -/
def spanFrom (s : TokenStream) (start : Position) : Span :=
  { start, stop := s.readTo.getD start }

/-- The error that the next token is. -/
def unexpected (s : TokenStream) : InputError :=
  match s.pending with
  | [] => { cause := .unexpectedEndOfInput, position := s.finish.span.start }
  | t :: _ => { cause := .unexpectedToken t.text, position := t.span.start }

/-- The error that the next token is, with a word on what should be there. A
missing token needs no such word. -/
def unexpectedDetailed (s : TokenStream) (expected : String) : InputError :=
  match s.pending with
  | [] => s.unexpected
  | t :: _ => { cause := .unexpectedTokenDetailed t.text expected, position := t.span.start }

/-- Skips to just past the next semicolon, or to the end. -/
def synchronize (s : TokenStream) : TokenStream :=
  go s s.pending
where
  go (s : TokenStream) : List Token → TokenStream
    | [] => s
    | t :: rest => if t.kind = .semicolon then s.advance else go s.advance rest

end TokenStream

/-- A reader of tokens. On failure the stream stays where the fault was found. -/
abbrev Parse := EStateM InputError TokenStream

namespace Parse

def current : Parse Token :=
  return (← get).current

def position : Parse Position :=
  return (← get).current.span.start

/-- The number of tokens before the end. -/
def remaining : Parse Nat :=
  return (← get).pending.length

def advance : Parse Token :=
  modifyGet fun s => (s.current, s.advance)

def unexpected {α : Type} : Parse α := do
  throw (← get).unexpected

def unexpectedDetailed {α : Type} (expected : String) : Parse α := do
  throw ((← get).unexpectedDetailed expected)

/-- Reads a token of the given kind, or fails in front of any other. -/
def expect (kind : Token.Kind) : Parse Token := do
  if (← current).kind = kind then advance else unexpected

/-- Reads a token of the given kind if it comes next. -/
def eat (kind : Token.Kind) : Parse Bool := do
  if (← current).kind = kind then
    let _ ← advance
    return true
  else
    return false

def spanFrom (start : Position) : Parse Span :=
  return (← get).spanFrom start

/-- Fails in front of a construct that the level does not have. -/
def requireLevel (level required : Level) (feature : String) : Parse Unit := do
  unless required ≤ level do
    throw { cause := .featureNotEnabled feature required, position := ← position }

/-- A node from the start position to the token read last. -/
def node (kind : SyntaxTree.Kind) (start : Position) (text : String)
    (children : List SyntaxTree) : Parse SyntaxTree :=
  return { kind, span := ← spanFrom start, text, children }

/-- One item and, after each comma, another, for at most `budget` commas. -/
def commaSeparated (item : Parse SyntaxTree) : Nat → Parse (List SyntaxTree)
  | 0 => return [← item]
  | budget + 1 => do
    let first ← item
    if ← eat .comma then
      return first :: (← commaSeparated item budget)
    else
      return [first]

end Parse

end OpenExpr
