namespace OpenExpr

/-- Where a program writes: the bytes written so far and, if there is a bound, how
many more it takes. -/
structure Sink where
  written : ByteArray := .empty
  room? : Option Nat := none

namespace Sink

/-- What is said of a text that a sink cannot take as a whole. -/
def full : String :=
  "sink is full"

/-- Writes a text. A sink without enough room takes as much of it as it can. -/
def write (s : Sink) (text : String) : Except String Unit × Sink :=
  let bytes := text.toUTF8
  match s.room? with
  | none => (.ok (), { s with written := s.written ++ bytes })
  | some room =>
    if bytes.size ≤ room then
      (.ok (), { written := s.written ++ bytes, room? := some (room - bytes.size) })
    else
      (.error full, { written := s.written ++ bytes.extract 0 room, room? := some 0 })

/-- The text of bytes of which at most `cut` at the end belong to a character that
is not whole. A replacement character stands for that one. -/
def textOf (bytes : ByteArray) : Nat → String
  | 0 => (String.fromUTF8? bytes).getD ""
  | cut + 1 =>
    match String.fromUTF8? bytes with
    | some text => text
    | none => textOf (bytes.extract 0 (bytes.size - 1)) cut

/-- What was written, as text. -/
def text (s : Sink) : String :=
  let whole := textOf s.written 3
  if whole.utf8ByteSize = s.written.size then whole else whole ++ "\uFFFD"

end Sink

end OpenExpr
