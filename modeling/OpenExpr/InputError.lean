import OpenExpr.Level
import OpenExpr.Source.Span
import OpenExpr.Text.Quoted

namespace OpenExpr

/-- Why input could not be read. -/
inductive InputError.Cause where
  | unrecognisedToken (text : String)
  | unexpectedToken (text : String)
  | unexpectedTokenDetailed (text expected : String)
  /-- The input ended inside a construct, so more of it may mend this. -/
  | unexpectedEndOfInput
  | numberParseError (text : String)
  | invalidPrecedence (text : String)
  | builtInOperatorRedefinition (symbol : Char)
  | featureNotEnabled (feature : String) (required : Level)
  | invalidTerminator (terminator : Char)
  /-- The text could not be had at all. -/
  | io (message : String)
deriving DecidableEq, Repr

/-- A fault of the input and the place at which it was found. -/
structure InputError where
  cause : InputError.Cause
  position : Position
deriving DecidableEq, Repr

namespace InputError

namespace Cause

/-- The name under which the cause is reported. -/
def name : Cause → String
  | unrecognisedToken _ => "UnrecognisedToken"
  | unexpectedToken _ => "UnexpectedToken"
  | unexpectedTokenDetailed _ _ => "UnexpectedTokenDetailed"
  | unexpectedEndOfInput => "UnexpectedEndOfInput"
  | numberParseError _ => "NumberParseError"
  | invalidPrecedence _ => "InvalidPrecedence"
  | builtInOperatorRedefinition _ => "BuiltInOperatorRedefinition"
  | featureNotEnabled _ _ => "FeatureNotEnabled"
  | invalidTerminator _ => "InvalidTerminator"
  | io _ => "Io"

/-- What went wrong. Pieces of the input stand in quotes. -/
def message : Cause → String
  | unrecognisedToken text => "unrecognised token: " ++ Text.quote text
  | unexpectedToken text => "unexpected token: " ++ Text.quote text
  | unexpectedTokenDetailed text expected =>
    "unexpected token (" ++ expected ++ "): " ++ Text.quote text
  | unexpectedEndOfInput => "unexpected end of input"
  | numberParseError text => "error parsing number: " ++ Text.quote text
  | invalidPrecedence text => "invalid operator precedence: " ++ Text.quote text
  | builtInOperatorRedefinition symbol =>
    "built-in operator " ++ Text.quoteChar symbol ++ " cannot be redefined"
  | featureNotEnabled feature required =>
    feature ++ " is not available below language level " ++ required.name
  | invalidTerminator terminator => Text.quoteChar terminator ++ " cannot end a statement"
  | io message => "failed to read source: " ++ message

/-- A hint for the reader, where there is one to give. Pieces of the input stand
in it as they are. -/
def tip? : Cause → Option String
  | unrecognisedToken _ => none
  | unexpectedToken text =>
    some ("Unexpected token: `" ++ text ++ "`, did you miss a semicolon?")
  | unexpectedTokenDetailed text expected =>
    some ("Unexpected token: `" ++ text ++ "`, " ++ expected)
  | unexpectedEndOfInput => some "The statement is incomplete"
  | numberParseError text => some ("Invalid number: `" ++ text ++ "`")
  | invalidPrecedence text =>
    some ("Invalid precedence `" ++ text ++ "`, expected a whole number between 1 and 100")
  | builtInOperatorRedefinition symbol =>
    some ("Operator `" ++ symbol.toString ++ "` is built in and cannot be redefined")
  | featureNotEnabled feature required =>
    some (feature ++ " requires language level " ++ required.name)
  | invalidTerminator _ => some "Statement terminators must be visible characters"
  | io message => some message

end Cause

def message (e : InputError) : String :=
  e.cause.message

/-- Whether the input only stopped too early. -/
def isEndOfInput (e : InputError) : Bool :=
  e.cause == .unexpectedEndOfInput

/-- A failure of the channel that delivers the input, at no position of a source. -/
def ofChannel (message : String) : InputError :=
  { cause := .io message, position := .null }

/-- What is said of input that is not encoded as text. -/
def notText : String :=
  "stream did not contain valid UTF-8"

/-- The text that the bytes of an input encode. -/
def decode (bytes : ByteArray) : Except String String :=
  match String.fromUTF8? bytes with
  | some text => .ok text
  | none => .error notText

end InputError

end OpenExpr
