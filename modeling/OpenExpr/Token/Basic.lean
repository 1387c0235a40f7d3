import OpenExpr.Level
import OpenExpr.Source.Span

namespace OpenExpr

/-- The reserved words. -/
inductive Keyword where
  | defWord
  | externWord
  | ifWord
  | thenWord
  | elseWord
  | forWord
  | inWord
  | unaryWord
  | binaryWord
  | varWord
deriving DecidableEq, Repr

namespace Keyword

def text : Keyword → String
  | defWord => "def"
  | externWord => "extern"
  | ifWord => "if"
  | thenWord => "then"
  | elseWord => "else"
  | forWord => "for"
  | inWord => "in"
  | unaryWord => "unary"
  | binaryWord => "binary"
  | varWord => "var"

/-- The level that reserves the word. Below it the word is an identifier. -/
def level : Keyword → Level
  | defWord | externWord => .simpleExpressions
  | ifWord | thenWord | elseWord | forWord | inWord => .controlFlow
  | unaryWord | binaryWord => .userDefinedOperators
  | varWord => .mutableVariables

def all : List Keyword :=
  [defWord, externWord, ifWord, thenWord, elseWord, forWord, inWord, unaryWord, binaryWord, varWord]

theorem mem_all (k : Keyword) : k ∈ all := by
  cases k <;> decide

/-- The word that is written so and reserved at the given level. -/
def ofText? (level : Level) (text : String) : Option Keyword :=
  all.find? fun k => k.text == text && decide (k.level ≤ level)

end Keyword

/-- The role of a token in the grammar. -/
inductive Token.Kind where
  | endOfInput
  | number
  | identifier
  /-- A punctuation character that the grammar does not claim for itself. -/
  | operator
  | openParen
  | closeParen
  | comma
  | semicolon
  | keyword (word : Keyword)
deriving DecidableEq, Repr

/-- A piece of source text and where it stands. -/
structure Token where
  kind : Token.Kind
  text : String
  span : Span
deriving DecidableEq, Repr

namespace Token

def Kind.name : Kind → String
  | endOfInput => "EOF"
  | number => "Number"
  | identifier => "Identifier"
  | operator => "Operator"
  | openParen => "OpenParen"
  | closeParen => "CloseParen"
  | comma => "Comma"
  | semicolon => "Semicolon"
  | keyword .defWord => "Def"
  | keyword .externWord => "Extern"
  | keyword .ifWord => "If"
  | keyword .thenWord => "Then"
  | keyword .elseWord => "Else"
  | keyword .forWord => "For"
  | keyword .inWord => "In"
  | keyword .unaryWord => "Unary"
  | keyword .binaryWord => "Binary"
  | keyword .varWord => "Var"

/-- The token that ends every token list. -/
def endAt (position : Position) : Token :=
  { kind := .endOfInput, text := "EOF", span := position.toSpan }

/-- The symbol of an operator token. An operator with no text has none. -/
def symbol? (t : Token) : Option Char :=
  if t.kind = .operator then t.text.toList.head? else none

def isOperator (t : Token) (symbol : Char) : Bool :=
  t.symbol? == some symbol

/-- The token over three lines, as it is shown to a reader. -/
def display (t : Token) : String :=
  "Token \x7b\nkind: " ++ t.kind.name ++ ",\nvalue: " ++ t.text ++ "\x7d"

theorem symbol?_eq_none_of_kind {t : Token} (h : t.kind ≠ .operator) : t.symbol? = none :=
  if_neg h

theorem isOperator_iff {t : Token} {c : Char} : t.isOperator c = true ↔ t.symbol? = some c := by
  simp [isOperator]

end Token

end OpenExpr
