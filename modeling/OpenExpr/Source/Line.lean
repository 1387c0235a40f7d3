import OpenExpr.Text.Cut

namespace OpenExpr

/-- A line of a text with the place of a position on it: the line's number
counted from one, its text with the line break that ends it, and the byte
offset of the position from the start of the line. -/
structure SourceLine where
  number : Nat
  text : String
  column : Nat
deriving DecidableEq, Repr

namespace SourceLine

/-- Walks `column` bytes down a list of lines of which the first has the given
number. The end of the last line is a place on it, while the end of any other
line is the start of the next. -/
def locate (number column : Nat) : List String → Option SourceLine
  | [] => none
  | line :: lines =>
    if column < line.utf8ByteSize then
      some { number, text := line, column }
    else if lines.isEmpty then
      if column = line.utf8ByteSize then some { number, text := line, column } else none
    else
      locate (number + 1) (column - line.utf8ByteSize) lines

end SourceLine

/-- The line of `text` that holds the byte at `offset`, if there is one. -/
def lineAt (text : String) (offset : Nat) : Option SourceLine :=
  SourceLine.locate 1 offset ((Text.piecesAfter (· == '\n') text.toList).map String.ofList)

end OpenExpr
