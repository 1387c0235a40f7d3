import OpenExpr.Text.Printable

namespace OpenExpr.Text

/-- The short forms that quoted text has for some characters. -/
def shortEscape? (c : Char) : Option Char :=
  if c = '\x00' then some '0'
  else if c = '\t' then some 't'
  else if c = '\r' then some 'r'
  else if c = '\n' then some 'n'
  else if c = '\\' then some '\\'
  else none

/-- A character by its number, in hexadecimal digits without leading zeros. -/
def numericEscape (c : Char) : List Char :=
  ['\\', 'u', '\x7b'] ++ Nat.toDigits 16 c.toNat ++ ['\x7d']

/-- A character as it stands between two quotes of the given kind. The quote
itself and the characters with a short form follow a backslash, and what cannot
be shown is given by its number. -/
def escape (quote c : Char) : List Char :=
  match shortEscape? c with
  | some s => ['\\', s]
  | none =>
    if c = quote then ['\\', c]
    else if isPrintable c then [c]
    else numericEscape c

/-- A text between double quotes. -/
def quote (s : String) : String :=
  String.ofList ('"' :: s.toList.flatMap (escape '"') ++ ['"'])

/-- A character between single quotes. -/
def quoteChar (c : Char) : String :=
  String.ofList ('\'' :: escape '\'' c ++ ['\''])

end OpenExpr.Text
