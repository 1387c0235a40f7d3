import OpenExpr.Level
import OpenExpr.Statement.Terminator

namespace OpenExpr

/-- The options that come with a value. -/
inductive Setting where
  | level
  | terminator
deriving DecidableEq, Repr

/-- The options that are given or not. -/
inductive Flag where
  | noPrompt
  | strictRedefinition
  | noColor
deriving DecidableEq, Repr

/-- The options that ask about the program itself and leave nothing else to do. -/
inductive Inquiry where
  | version
  | help
deriving DecidableEq, Repr

namespace Setting

def name : Setting → String
  | level => "level"
  | terminator => "terminator"

def letter : Setting → Char
  | level => 'l'
  | terminator => 't'

def all : List Setting :=
  [level, terminator]

end Setting

namespace Flag

def name : Flag → String
  | noPrompt => "no-prompt"
  | strictRedefinition => "strict-redefinition"
  | noColor => "no-color"

def all : List Flag :=
  [noPrompt, strictRedefinition, noColor]

end Flag

namespace Inquiry

def name : Inquiry → String
  | version => "version"
  | help => "help"

def letter : Inquiry → Char
  | version => 'V'
  | help => 'h'

def all : List Inquiry :=
  [version, help]

end Inquiry

/-- Why arguments have no meaning. -/
inductive ArgumentError where
  | unknown (argument : String)
  | missingValue (s : Setting)
  | invalidValue (s : Setting) (value : String)
  | surplusValue (name value : String)
  | repeated (name : String)
  | surplusFile (path : String)
  | emptyFile
deriving DecidableEq, Repr

def ArgumentError.message : ArgumentError → String
  | unknown argument => "unexpected argument '" ++ argument ++ "'"
  | missingValue s => "a value is required for '--" ++ s.name ++ "'"
  | invalidValue s value => "invalid value '" ++ value ++ "' for '--" ++ s.name ++ "'"
  | surplusValue name value => "unexpected value '" ++ value ++ "' for '--" ++ name ++ "'"
  | repeated name => "'--" ++ name ++ "' cannot be used multiple times"
  | surplusFile path => "unexpected argument '" ++ path ++ "'"
  | emptyFile => "a value is required for the file"

/-- The choices that arguments make. What they leave open has a default. -/
structure Arguments where
  file? : Option String := none
  level? : Option Level := none
  terminator? : Option Terminator := none
  flags : List Flag := []

/-- What arguments ask for. -/
inductive Command where
  | run (a : Arguments)
  | inquire (i : Inquiry)

namespace Arguments

def level (a : Arguments) : Level :=
  a.level?.getD .mutableVariables

def terminator (a : Arguments) : Terminator :=
  a.terminator?.getD .semicolon

def has (a : Arguments) (f : Flag) : Bool :=
  a.flags.contains f

/-- Gives a setting its value. No setting has two. -/
def choose (a : Arguments) (s : Setting) (value : String) : Except ArgumentError Arguments :=
  match s with
  | .level =>
    match Level.all.find? fun l => l.flag == value with
    | none => .error (.invalidValue s value)
    | some l =>
      if a.level?.isSome then .error (.repeated s.name) else .ok { a with level? := some l }
  | .terminator =>
    match value.toList with
    | [c] =>
      match Terminator.ofChar c with
      | .error _ => .error (.invalidValue s value)
      | .ok t =>
        if a.terminator?.isSome then .error (.repeated s.name)
        else .ok { a with terminator? := some t }
    | _ => .error (.invalidValue s value)

def raise (a : Arguments) (f : Flag) : Except ArgumentError Arguments :=
  if a.has f then .error (.repeated f.name) else .ok { a with flags := f :: a.flags }

/-- Names the file, of which there is one at most. -/
def setFile (a : Arguments) (path : String) : Except ArgumentError Arguments :=
  if path.isEmpty then .error .emptyFile
  else if a.file?.isSome then .error (.surplusFile path)
  else .ok { a with file? := some path }

/-- Whether an argument can be the value of the setting before it. A hyphen by
itself can; with anything after it, it starts an option. -/
def isValue (argument : String) : Bool :=
  argument == "-" || argument.toList.head? != some '-'

/-- An argument without its leading hyphens, cut at its first equals sign. -/
def nameAndValue (text : List Char) : String × Option String :=
  let name := String.ofList (text.takeWhile (· != '='))
  match text.dropWhile (· != '=') with
  | [] => (name, none)
  | _ :: value => (name, some (String.ofList value))

/-- The value that stands behind the letter of a setting in the same argument. -/
def attached? : List Char → Option String
  | [] => none
  | '=' :: value => some (String.ofList value)
  | value => some (String.ofList value)

/-- An argument by its form. -/
inductive Item where
  /-- From here on no argument is an option. -/
  | endOfOptions
  | setting (s : Setting) (value? : Option String)
  | flag (f : Flag)
  | inquiry (i : Inquiry)
  | file (path : String)

/-- An option by its name. -/
def longItem (text : List Char) : Except ArgumentError Item :=
  let (name, value?) := nameAndValue text
  match Setting.all.find? fun s => s.name == name with
  | some s => .ok (.setting s value?)
  | none =>
    match value?, Flag.all.find? (fun f => f.name == name), Inquiry.all.find? fun i => i.name == name with
    | none, some f, _ => .ok (.flag f)
    | none, none, some i => .ok (.inquiry i)
    | some value, some f, _ => .error (.surplusValue f.name value)
    | some value, none, some i => .error (.surplusValue i.name value)
    | _, none, none => .error (.unknown ("--" ++ name))

/-- An option by its letter. -/
def shortItem (c : Char) (rest : List Char) : Except ArgumentError Item :=
  match Setting.all.find? fun s => s.letter == c with
  | some s => .ok (.setting s (attached? rest))
  | none =>
    match Inquiry.all.find? fun i => i.letter == c with
    | some i => .ok (.inquiry i)
    | none => .error (.unknown ("-" ++ c.toString))

def item (argument : String) : Except ArgumentError Item :=
  match argument.toList with
  | ['-', '-'] => .ok .endOfOptions
  | '-' :: '-' :: text => longItem text
  | '-' :: c :: rest => shortItem c rest
  | _ => .ok (.file argument)

/-- Reads arguments from left to right. The first one that is at fault or asks
about the program decides. -/
def read (a : Arguments) : List String → Except ArgumentError Command
  | [] => .ok (.run a)
  | argument :: rest => do
    match ← item argument with
    | .endOfOptions => return .run (← rest.foldlM setFile a)
    | .file path => read (← a.setFile path) rest
    | .flag f => read (← a.raise f) rest
    | .inquiry i => return .inquire i
    | .setting s (some value) => read (← a.choose s value) rest
    | .setting s none =>
      match rest with
      | [] => throw (.missingValue s)
      | value :: rest =>
        if isValue value then read (← a.choose s value) rest else throw (.missingValue s)

end Arguments

/-- What the arguments of a program ask for. -/
def Command.ofArguments (arguments : List String) : Except ArgumentError Command :=
  Arguments.read {} arguments

end OpenExpr
