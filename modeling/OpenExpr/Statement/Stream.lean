import OpenExpr.Statement.Framer
import OpenExpr.Text.Lines

namespace OpenExpr

/-- The lines of an input, or what went wrong when they were read. -/
def inputLines (bytes : ByteArray) : List (Except String String) :=
  (Text.lines bytes).map InputError.decode

/-- What happens around the reading of a line. -/
structure Turn where
  /-- The input was called off before the line was asked for. -/
  isCanceled : Bool := false
  /-- The line could not be asked for. -/
  promptFailure? : Option String := none
  /-- The input was called off before the line had arrived. -/
  isCanceledMeanwhile : Bool := false
deriving DecidableEq, Repr

/-- The statements of an input, which is read line by line as they are wanted. -/
structure StatementStream where
  framer : Framer
  /-- The lines that have not been read. -/
  lines : List (Except String String)
  /-- The fragments of the line read last that have not been handed out. -/
  queue : List Fragment := []
  isDone : Bool := false
  /-- The states in which a line was asked for. -/
  prompts : List ReadyState := []

namespace StatementStream

/-- Ends the input and forgets what has not been handed out. -/
def stop (s : StatementStream) : StatementStream :=
  { s with framer := s.framer.finish, queue := [], isDone := true }

/-- Hands out a fragment of the line read last. -/
def handOut (s : StatementStream) : Option (Except InputError Fragment) × StatementStream :=
  match s.queue with
  | [] => (none, s)
  | f :: queue => (some (.ok f), { s with queue })

/-- Ends the input with a failure. -/
def fail (s : StatementStream) (message : String) :
    Option (Except InputError Fragment) × StatementStream :=
  (some (.error (.ofChannel message)), s.stop)

/-- Reads a line and hands out its first fragment. A line that has arrived too late is
dropped. -/
def readLine (s : StatementStream) (t : Turn) :
    Option (Except InputError Fragment) × StatementStream :=
  let s := { s with prompts := s.prompts ++ [s.framer.state] }
  match t.promptFailure? with
  | some message => s.fail message
  | none =>
    match s.lines with
    | [] => (none, s.stop)
    | .error message :: lines => { s with lines }.fail message
    | .ok line :: lines =>
      let s := { s with lines }
      if t.isCanceledMeanwhile then (none, s.stop)
      else
        let (queue, framer) := s.framer.pushLine line
        { s with framer, queue }.handOut

/-- Whether the next call asks for a line. -/
def asks (s : StatementStream) (t : Turn) : Bool :=
  s.queue.isEmpty && !s.isDone && !t.isCanceled

/-- The next fragment, if there is one. A line is read only if all fragments of
the line before have been handed out. -/
def next (s : StatementStream) (t : Turn) :
    Option (Except InputError Fragment) × StatementStream :=
  if !s.queue.isEmpty then s.handOut
  else if s.isDone then (none, s)
  else if t.isCanceled then (none, s.stop)
  else s.readLine t

variable {s s' : StatementStream} {t : Turn} {f : Fragment}

theorem of_handOut (called : s.handOut = (some (.ok f), s')) :
    s.queue = f :: s'.queue ∧ s'.lines = s.lines := by
  unfold handOut at called
  split at called
  · cases called
  · rename_i waiting
    cases called
    exact ⟨waiting, rfl⟩

theorem of_readLine (called : s.readLine t = (some (.ok f), s')) :
    s'.lines.length < s.lines.length := by
  unfold readLine fail at called
  dsimp only at called
  split at called
  · cases called
  · split at called
    · cases called
    · cases called
    · rename_i line lines left
      split at called
      · cases called
      · rw [(of_handOut called).2, left]
        exact Nat.lt_succ_self _

/-- A fragment that is handed out was waiting, or a line was read for it. -/
theorem shorter_of_next (called : s.next t = (some (.ok f), s')) :
    Prod.Lex (· < ·) (· < ·) (s'.lines.length, s'.queue.length) (s.lines.length, s.queue.length) := by
  unfold next at called
  split at called
  · obtain ⟨waiting, same⟩ := of_handOut called
    rw [waiting, same]
    exact .right _ (Nat.lt_succ_self _)
  · split at called
    · cases called
    · split at called
      · cases called
      · exact .left _ _ (of_readLine called)

end StatementStream

end OpenExpr
