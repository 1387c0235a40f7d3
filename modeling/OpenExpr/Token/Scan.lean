import OpenExpr.InputError
import OpenExpr.Token.Basic
import OpenExpr.Token.Lexeme

namespace OpenExpr

/-- The kind of a punctuation mark. -/
def Token.Kind.ofMark (text : String) : Token.Kind :=
  if text = "(" then .openParen
  else if text = ")" then .closeParen
  else if text = "," then .comma
  else if text = ";" then .semicolon
  else .operator

/-- The kind of a lexeme. A word is a keyword from the level that reserves it. -/
def Lexeme.kind (level : Level) (l : Lexeme) : Token.Kind :=
  match l.shape with
  | .word => ((Keyword.ofText? level l.text).map .keyword).getD .identifier
  | .number => .number
  | .mark => .ofMark l.text

/-- The lexeme as a token of the named source. -/
def Lexeme.toToken (file : String) (level : Level) (l : Lexeme) : Token :=
  { kind := l.kind level
    text := l.text
    span :=
      { start := { offset := l.offset.toUInt32, file }
        stop := { offset := (l.offset + l.text.utf8ByteSize).toUInt32, file } } }

/-- The tokens of a source text. The last of them, and no other, marks its end. -/
def tokenize (level : Level) (file source : String) : Except InputError (List Token) :=
  match Lexeme.ofSource source with
  | .ok lexemes =>
    .ok (lexemes.map (Lexeme.toToken file level) ++
      [.endAt { offset := source.utf8ByteSize.toUInt32, file }])
  | .error stray =>
    .error
      { cause := .unrecognisedToken stray.char.toString
        position := { offset := stray.offset.toUInt32, file } }

end OpenExpr
