import OpenExpr.Text.Cut

namespace OpenExpr.Text

def lineFeed : UInt8 := 10

def carriageReturn : UInt8 := 13

/-- Removes the line break at the end of a line: a line feed and a carriage
return in front of it. A carriage return without a line feed is no line break. -/
def dropLineBreak (line : List UInt8) : List UInt8 :=
  match line.reverse with
  | [] => []
  | last :: body =>
    if last ≠ lineFeed then line
    else
      match body with
      | [] => []
      | c :: body => if c = carriageReturn then body.reverse else (c :: body).reverse

/-- The lines of an input without their line breaks. -/
def lines (bytes : ByteArray) : List ByteArray :=
  (piecesAfter (· == lineFeed) bytes.data.toList).map fun line => ⟨(dropLineBreak line).toArray⟩

end OpenExpr.Text
