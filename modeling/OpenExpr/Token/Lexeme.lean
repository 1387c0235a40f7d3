import OpenExpr.Text.Blank

namespace OpenExpr

/-- The shapes that words of a source take before keywords are told from names. -/
inductive Lexeme.Shape where
  | word
  | number
  /-- A single punctuation character. -/
  | mark
deriving DecidableEq, Repr

/-- A word of a source and the byte at which it starts. -/
structure Lexeme where
  shape : Lexeme.Shape
  text : String
  offset : Nat
deriving DecidableEq, Repr

namespace Lexeme

def isWordStart (c : Char) : Bool :=
  c.isAlpha || c == '_'

def isWordRest (c : Char) : Bool :=
  c.isAlphanum || c == '_'

/-- The printable characters of ASCII that are no letters, digits or blanks. -/
def isMark (c : Char) : Bool :=
  let n := c.toNat
  (0x21 ≤ n && n ≤ 0x2F) || (0x3A ≤ n && n ≤ 0x40) || (0x5B ≤ n && n ≤ 0x60) ||
    (0x7B ≤ n && n ≤ 0x7E)

/-- What has been read of a lexeme that may go on: its first byte and its
characters, the latest first. A comment leaves no lexeme. A lone point is a
mark, but a digit after it makes it the start of a number. -/
inductive Pending where
  | nothing
  | comment
  | word (offset : Nat) (text : List Char)
  | whole (offset : Nat) (digits : List Char)
  | point (offset : Nat)
  | fraction (offset : Nat) (digits : List Char)
deriving DecidableEq, Repr

/-- A character that can stand neither in a lexeme nor between two. -/
structure Stray where
  char : Char
  offset : Nat
deriving DecidableEq, Repr

/-- A source read up to the byte at `offset`: its lexemes, the latest first,
and the one that is pending. -/
structure Scanner where
  offset : Nat := 0
  pending : Pending := .nothing
  done : List Lexeme := []
deriving DecidableEq, Repr

namespace Scanner

/-- The pending lexeme, complete. -/
def lexeme? (s : Scanner) : Option Lexeme :=
  match s.pending with
  | .nothing | .comment => none
  | .word offset text => some { shape := .word, text := String.ofList text.reverse, offset }
  | .whole offset digits | .fraction offset digits =>
    some { shape := .number, text := String.ofList digits.reverse, offset }
  | .point offset => some { shape := .mark, text := ".", offset }

/-- All lexemes read so far, in the order of the source. -/
def lexemes (s : Scanner) : List Lexeme :=
  (s.lexeme?.toList ++ s.done).reverse

/-- Moves past a character, leaving `pending` behind. -/
def moveTo (s : Scanner) (c : Char) (pending : Pending) : Scanner :=
  { s with offset := s.offset + c.utf8Size, pending }

/-- Completes the pending lexeme, whatever comes next. -/
def flush (s : Scanner) : Scanner :=
  { s with pending := .nothing, done := s.lexeme?.toList ++ s.done }

/-- Reads a character that belongs to no lexeme before it. -/
def start (s : Scanner) (c : Char) : Except Stray Scanner :=
  let s := s.flush
  if Text.isBlank c then .ok (s.moveTo c .nothing)
  else if c = '#' then .ok (s.moveTo c .comment)
  else if isWordStart c then .ok (s.moveTo c (.word s.offset [c]))
  else if c.isDigit then .ok (s.moveTo c (.whole s.offset [c]))
  else if c = '.' then .ok (s.moveTo c (.point s.offset))
  else if isMark c then
    let mark : Lexeme := { shape := .mark, text := String.singleton c, offset := s.offset }
    .ok { s.moveTo c .nothing with done := mark :: s.done }
  else .error { char := c, offset := s.offset }

/-- Reads one character. It goes on with the pending lexeme if it can. A comment
lasts up to the end of its line. -/
def feed (s : Scanner) (c : Char) : Except Stray Scanner :=
  match s.pending with
  | .nothing => s.start c
  | .comment => if c = '\n' then s.start c else .ok (s.moveTo c .comment)
  | .word offset text =>
    if isWordRest c then .ok (s.moveTo c (.word offset (c :: text))) else s.start c
  | .whole offset digits =>
    if c.isDigit then .ok (s.moveTo c (.whole offset (c :: digits)))
    else if c = '.' then .ok (s.moveTo c (.fraction offset (c :: digits)))
    else s.start c
  | .point offset =>
    if c.isDigit then .ok (s.moveTo c (.fraction offset [c, '.'])) else s.start c
  | .fraction offset digits =>
    if c.isDigit then .ok (s.moveTo c (.fraction offset (c :: digits))) else s.start c

/-- Reads a text, up to the first stray character. -/
def read (s : Scanner) (text : List Char) : Except Stray Scanner :=
  text.foldlM feed s

theorem read_nil (s : Scanner) : s.read [] = .ok s := rfl

theorem read_cons (s : Scanner) (c : Char) (text : List Char) :
    s.read (c :: text) = (s.feed c).bind fun t => t.read text := rfl

/-- Reading is done character by character, so a text may be read in parts. -/
theorem read_append (s : Scanner) (a b : List Char) :
    s.read (a ++ b) = (s.read a).bind fun t => t.read b := by
  induction a generalizing s with
  | nil => rfl
  | cons c a ih =>
    simp only [List.cons_append, read_cons]
    cases s.feed c with
    | error e => rfl
    | ok t => exact ih t

end Scanner

/-- The lexemes of a source text, or the first character that belongs to none. -/
def ofSource (source : String) : Except Stray (List Lexeme) :=
  (Scanner.read {} source.toList).map Scanner.lexemes

end Lexeme

end OpenExpr
