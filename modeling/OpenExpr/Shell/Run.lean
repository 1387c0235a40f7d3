import OpenExpr.Shell.Dialogue
import OpenExpr.Shell.Sink
import OpenExpr.Statement.Stream

namespace OpenExpr

/-- The interactive shell, which reads statements and replies to each of them. -/
structure Shell where
  terminator : Terminator := .semicolon
  hasPrompt : Bool := true
  report : Report

namespace Shell

/-- What is left of a run: its summary or the failure that ended it, the session,
and what was written. -/
structure Outcome where
  result : Except InputError Summary
  session : Session
  sink : Sink

variable (shell : Shell)

/-- Starts a run on a session. -/
def start (session : Session) : Dialogue :=
  { session, framer := { terminator := shell.terminator } }

/-- What is written before a line is read. -/
def prompt (d : Dialogue) : String :=
  if shell.hasPrompt then d.state.prompt else ""

/-- Writes the prompt if the stream is about to ask for a line. If it cannot be
written, the reason is given. -/
def ask (d : Dialogue) (s : StatementStream) (t : Turn) (sink : Sink) : Option String × Sink :=
  if s.asks t then
    match sink.write (shell.prompt d) with
    | (.ok (), sink) => (none, sink)
    | (.error message, sink) => (some message, sink)
  else (none, sink)

/-- Goes on with a run, from the call of the stream that has the given number:
handles the fragments that are handed out and writes the replies until the stream
ends or something fails. A prompt fails where it cannot be written, and only there.
What is unfinished at the end is dropped. -/
def drive (turns : Nat → Turn) (n : Nat) (d : Dialogue) (s : StatementStream) (sink : Sink) :
    Outcome :=
  let (promptFailure?, sink) := shell.ask d s (turns n) sink
  match _ : s.next { turns n with promptFailure? } with
  | (none, _) => ⟨.ok d.summary, d.session, sink⟩
  | (some (.error e), _) => ⟨.error e, d.session, sink⟩
  | (some (.ok f), s') =>
    let (reply, d) := { d with framer := s'.framer }.handle f
    match sink.write ((reply.map fun r => r.text shell.report).getD "") with
    | (.ok (), sink) => drive turns (n + 1) d s' sink
    | (.error message, sink) => ⟨.error (.ofChannel message), d.session, sink⟩
termination_by (s.lines.length, s.queue.length)
decreasing_by exact StatementStream.shorter_of_next ‹_›

/-- One call of the stream. -/
theorem drive_eq (turns : Nat → Turn) (n : Nat) (d : Dialogue) (s : StatementStream) (sink : Sink) :
    shell.drive turns n d s sink =
      let (promptFailure?, sink) := shell.ask d s (turns n) sink
      match s.next { turns n with promptFailure? } with
      | (none, _) => ⟨.ok d.summary, d.session, sink⟩
      | (some (.error e), _) => ⟨.error e, d.session, sink⟩
      | (some (.ok f), s') =>
        let (reply, d) := { d with framer := s'.framer }.handle f
        match sink.write ((reply.map fun r => r.text shell.report).getD "") with
        | (.ok (), sink) => shell.drive turns (n + 1) d s' sink
        | (.error message, sink) => ⟨.error (.ofChannel message), d.session, sink⟩ := by
  rw [drive]
  dsimp only
  split
  · rename_i called
    rw [called]
  · rename_i called
    rw [called]
  · rename_i called
    rw [called]

/-- Runs on the lines of an input. The turn of each call of their stream says whether
the run has been called off by then. -/
def runWith (turns : Nat → Turn) (session : Session) (sink : Sink)
    (lines : List (Except String String)) : Outcome :=
  let d := shell.start session
  shell.drive turns 0 d { framer := d.framer, lines } sink

/-- Runs on the lines of an input, or not at all if the run was called off before it
began. -/
def run (session : Session) (sink : Sink) (isCanceled : Bool)
    (lines : List (Except String String)) : Outcome :=
  shell.runWith (fun _ => { isCanceled, isCanceledMeanwhile := isCanceled }) session sink lines

end Shell

end OpenExpr
