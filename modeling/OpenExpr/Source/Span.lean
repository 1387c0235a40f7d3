namespace OpenExpr

/-- A byte offset into a named source. Offsets are words of 32 bits, so an
offset past the last word wraps around. -/
structure Position where
  offset : UInt32
  file : String
deriving DecidableEq, Repr

/-- The byte range from `start` up to, and not including, `stop`. -/
structure Span where
  start : Position
  stop : Position
deriving DecidableEq, Repr

/-- The position of whatever has no source text. Its file name is one that
marks it, so a real file of that name counts as no source either. -/
def Position.null : Position :=
  { offset := 0, file := "<null>" }

/-- The empty span at a position. -/
def Position.toSpan (p : Position) : Span :=
  { start := p, stop := p }

namespace Span

/-- The span of nodes that were not written in any source. -/
def null : Span :=
  Position.null.toSpan

/-- A span is null when it starts in the file that marks missing source text,
wherever it ends. -/
def isNull (s : Span) : Bool :=
  s.start.file == Position.null.file

/-- The span from the start of `s` to the end of `t`. -/
def upTo (s t : Span) : Span :=
  { start := s.start, stop := t.stop }

theorem upTo_start (s t : Span) : (s.upTo t).start = s.start := rfl

theorem upTo_stop (s t : Span) : (s.upTo t).stop = t.stop := rfl

theorem upTo_self (s : Span) : s.upTo s = s := rfl

theorem isNull_upTo (s t : Span) : (s.upTo t).isNull = s.isNull := rfl

end Span

end OpenExpr
