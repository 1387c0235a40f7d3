import OpenExpr.Diagnostic
import OpenExpr.InputError
import OpenExpr.Source.Line
import OpenExpr.Text.Blank

namespace OpenExpr

/-- How reports are written. -/
structure Report where
  hasColors : Bool

namespace Report

variable (r : Report)

/-- A text that stands out, in bold red where there are colors. -/
def emphasis (text : String) : String :=
  if r.hasColors then "\x1b[1;31m" ++ text ++ "\x1b[0m" else text

/-- Removes the spaces and tabs at the start of a line. -/
def dropIndent (line : List Char) : List Char :=
  line.dropWhile fun c => c == ' ' || c == '\t'

/-- The line of a position between two bars of its gutter, without blanks at its
ends, and below it a caret. The caret stands as many bytes from the start as the
position does. A position outside the source has no such picture. -/
def excerpt (source : String) (offset : UInt32) : String :=
  match lineAt source offset.toNat with
  | none => ""
  | some line =>
    let number := toString line.number
    let gutter := String.ofList (List.replicate (number.length + 1) ' ') ++ "|"
    let shown := dropIndent line.text.toList
    let indent := line.text.utf8ByteSize - (String.ofList shown).utf8ByteSize
    let dashes := String.ofList (List.replicate (line.column - indent) '-')
    gutter ++ "\n" ++
      number ++ " | " ++ String.ofList (Text.dropEndWhile Text.isBlank shown) ++ "\n" ++
      gutter ++ " " ++ dashes ++ r.emphasis "^" ++ "\n"

/-- A diagnostic about a source, with the line to which it belongs unless that
was never written. -/
def diagnostic (sourceName source : String) (d : Diagnostic) : String :=
  r.emphasis d.severity ++ "[" ++ d.code.display ++ "]: " ++ d.message ++ "\n" ++
    "-> " ++ sourceName ++ "\n" ++
    if d.span.isNull then "" else r.excerpt source d.span.start.offset

/-- An input error by its name, with its hint and its line. -/
def inputError (sourceName source : String) (e : InputError) : String :=
  r.emphasis "Error" ++ ": " ++ e.cause.name ++
    (match e.cause.tip? with
      | some tip => " (" ++ tip ++ ")"
      | none => "") ++ "\n" ++
    "-> " ++ sourceName ++ "\n" ++
    r.excerpt source e.position.offset

end Report

end OpenExpr
