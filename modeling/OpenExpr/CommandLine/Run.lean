import OpenExpr.CommandLine.Arguments
import OpenExpr.CommandLine.Directory
import OpenExpr.Shell.Run
import OpenExpr.Statement.Stream

namespace OpenExpr

/-- How a run of the program ends. -/
inductive Verdict where
  | success
  /-- Something in the input is wrong, or it could not be read. -/
  | failure
  /-- The arguments have no meaning. -/
  | misuse
deriving DecidableEq, Repr

def Verdict.exitCode : Verdict → UInt32
  | success => 0
  | failure => 1
  | misuse => 2

def Verdict.ofFailures (count : Nat) : Verdict :=
  if count = 0 then success else failure

/-- What a run of the program leaves: how it ended and what it wrote. -/
structure RunResult where
  verdict : Verdict
  output : String := ""
  errors : String := ""
deriving DecidableEq, Repr

namespace Arguments

def session (a : Arguments) : Session :=
  Session.new { level := a.level, isStrict := a.has .strictRedefinition }

/-- How reports are written where colors can be shown or cannot. -/
def report (a : Arguments) (showsColors : Bool) : Report :=
  { hasColors := showsColors && !a.has .noColor }

def shell (a : Arguments) (showsColors : Bool) : Shell :=
  { terminator := a.terminator, hasPrompt := !a.has .noPrompt, report := a.report showsColors }

/-- The units of a program that are not errors, a line each. -/
def announcements (u : Program) : String :=
  match u with
  | .root units _ =>
    String.join ((units.filter fun u => !u.isError).map Program.announcement)
  | _ => ""

/-- Reads a file as a whole: first come the units without errors, then all errors. -/
def runFile (a : Arguments) (showsColors : Bool) (path : String)
    (content : Except FileError ByteArray) : RunResult :=
  let report := a.report showsColors
  let name := Path.fileName path
  let session := { a.session with sourceName := name }
  match (content.mapError FileError.message).bind InputError.decode with
  | .error message =>
    { verdict := .failure, errors := report.inputError name "" (session.unreadable message) }
  | .ok source =>
    let u := (session.parseSource source).1
    let reports := u.errors.map fun d => report.diagnostic name source d
    { verdict := .ofFailures u.errors.length
      output := announcements u ++ String.join reports }

/-- How a run of the shell ends, and what is said of it apart from the replies. -/
def shellEnd (a : Arguments) (showsColors : Bool) (result : Except InputError Summary) :
    Verdict × String :=
  match result with
  | .ok summary => (.ofFailures summary.failed, "")
  | .error e => (.failure, (a.report showsColors).inputError a.session.sourceName "" e)

/-- Runs the shell on an input that is there as a whole. -/
def runShell (a : Arguments) (showsColors : Bool) (input : ByteArray) : RunResult :=
  let o := (a.shell showsColors).run a.session {} false (inputLines input)
  let (verdict, errors) := a.shellEnd showsColors o.result
  { verdict, output := o.sink.text, errors }

end Arguments

/-- What the program says about itself. -/
def Inquiry.answer : Inquiry → String
  | version => "kls 0.1.0\n"
  | help => "Usage: kls [OPTIONS] [FILE]\n"

namespace Command

/-- Runs the program with the given arguments, input and files. -/
def runWith (arguments : List String) (input : ByteArray) (d : Directory) : RunResult :=
  match ofArguments arguments with
  | .error e => { verdict := .misuse, errors := e.message ++ "\n" }
  | .ok (.inquire i) => { verdict := .success, output := i.answer }
  | .ok (.run a) =>
    match a.file? with
    | some path => a.runFile false path (d.read path)
    | none => a.runShell false input

end Command

end OpenExpr
