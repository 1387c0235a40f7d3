import OpenExpr.InputError
import OpenExpr.Text.Blank

namespace OpenExpr

/-- The character that ends a statement where statements are typed in. It can be
seen, so a statement of nothing else is still not blank. -/
structure Terminator where
  symbol : Char
  isVisible : (Text.isBlank symbol || Text.isControl symbol) = false

namespace Terminator

def ofChar (c : Char) : Except InputError Terminator :=
  if isVisible : (Text.isBlank c || Text.isControl c) = false then
    .ok { symbol := c, isVisible }
  else
    .error { cause := .invalidTerminator c, position := .null }

/-- The terminator with which statements are written down. -/
def semicolon : Terminator :=
  { symbol := ';', isVisible := by decide }

/-- A statement with the semicolon in the place of its terminator. -/
def withSemicolon (t : Terminator) (statement : String) : String :=
  let text := statement.toList
  if text.getLast? = some t.symbol then String.ofList (text.dropLast ++ [semicolon.symbol])
  else statement

theorem ofChar_symbol (t : Terminator) : ofChar t.symbol = .ok t := by
  simp [ofChar, t.isVisible]

end Terminator

end OpenExpr
