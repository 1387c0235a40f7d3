import OpenExpr.CommandLine.Run

namespace OpenExpr

/-- Whether text on a terminal is shown in colors. -/
def showsColors : IO Bool := do
  if (← IO.getEnv "NO_COLOR").isSome then return false
  (← IO.getStdout).isTty

/-- The number of a system error, which some calls give with a minus sign. -/
def errorNumber (code : UInt32) : Nat :=
  min code.toNat (UInt32.size - code.toNat)

/-- The content of a file, or why it cannot be read. -/
def readFile (path : String) : IO (Except FileError ByteArray) := do
  try
    return .ok (← IO.FS.readBinFile path)
  catch e =>
    match e with
    | .noFileOrDirectory _ _ _ => return .error .notFound
    | .inappropriateType _ code _ =>
      return .error (if errorNumber code = 20 then .notDirectory else .isDirectory)
    | e => return .error (.other (toString e))

/-- The bytes of the input up to its next line break, which is among them. -/
partial def readBytes (input : IO.FS.Stream) (line : ByteArray) : IO ByteArray := do
  let next ← input.read 1
  if next.isEmpty then return line
  let line := line ++ next
  if next.data.contains Text.lineFeed then return line
  readBytes input line

/-- The next line of the input, or none at its end. -/
def readLine (input : IO.FS.Stream) : IO (Option (Except String String)) :=
  return (inputLines (← readBytes input .empty)).head?

/-- Writes a text so that it can be seen at once. -/
def write (output : IO.FS.Stream) (text : String) : IO Unit := do
  output.putStr text
  output.flush

/-- Talks with the user until the input ends. A line is read when the stream asks for it. -/
partial def converse (shell : Shell) (d : Dialogue) (s : StatementStream) :
    IO (Except InputError Summary) := do
  let output ← IO.getStdout
  let mut lines := s.lines
  if s.asks {} then
    write output (shell.prompt d)
    lines := (← readLine (← IO.getStdin)).toList
  match { s with lines }.next {} with
  | (none, _) => return .ok d.summary
  | (some (.error e), _) => return .error e
  | (some (.ok f), s) =>
    let (reply, d) := { d with framer := s.framer }.handle f
    if let some r := reply then write output (r.text shell.report)
    converse shell d s

end OpenExpr

open OpenExpr

def main (arguments : List String) : IO UInt32 := do
  let colors ← showsColors
  match Command.ofArguments arguments with
  | .error e =>
    IO.eprintln e.message
    return Verdict.misuse.exitCode
  | .ok (.inquire i) =>
    IO.print i.answer
    return Verdict.success.exitCode
  | .ok (.run a) =>
    match a.file? with
    | some path =>
      let content ← readFile path
      let start ← IO.monoNanosNow
      let result := a.runFile colors path content
      if result.errors.isEmpty then
        let parsed ← IO.monoNanosNow
        IO.println ("Parsed in " ++ toString (parsed - start) ++ "ns")
      IO.print result.output
      IO.eprint result.errors
      if result.errors.isEmpty then
        let stop ← IO.monoNanosNow
        IO.println ("Total time: " ++ toString (stop - start) ++ "ns")
      return result.verdict.exitCode
    | none =>
      let shell := a.shell colors
      let d := shell.start a.session
      let (verdict, errors) := a.shellEnd colors (← converse shell d { framer := d.framer, lines := [] })
      IO.eprint errors
      return verdict.exitCode
