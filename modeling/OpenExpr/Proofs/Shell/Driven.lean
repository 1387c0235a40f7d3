import OpenExpr.Proofs.Shell.Stream
import OpenExpr.Shell.Run

namespace OpenExpr

theorem Dialogue.framer_handle (d : Dialogue) (x : Fragment) : (d.handle x).2.framer = d.framer := by
  unfold handle
  dsimp only
  split
  · rfl
  · split <;> rfl

namespace Shell

variable (shell : Shell)

/-- Handles fragments one after the other and writes the replies, until one cannot
be written. -/
def replyAll (d : Dialogue) (sink : Sink) : List Fragment → Except String Unit × Dialogue × Sink
  | [] => (.ok (), d, sink)
  | f :: fs =>
    let (reply, d) := d.handle f
    match sink.write ((reply.map fun r => r.text shell.report).getD "") with
    | (.ok (), sink) => replyAll d sink fs
    | (.error message, sink) => (.error message, d, sink)

/-- A run as it goes from line to line: the fragments of one are answered before the next
is asked for. -/
def converse (turns : Nat → Turn) (n : Nat) (d : Dialogue) (sink : Sink)
    (lines : List (Except String String)) : Outcome :=
  if (turns n).isCanceled then ⟨.ok d.summary, d.session, sink⟩
  else
    match sink.write (shell.prompt d) with
    | (.error message, sink) => ⟨.error (.ofChannel message), d.session, sink⟩
    | (.ok (), sink) =>
      match lines with
      | [] => ⟨.ok d.summary, d.session, sink⟩
      | .error message :: _ => ⟨.error (.ofChannel message), d.session, sink⟩
      | .ok line :: lines =>
        if (turns n).isCanceledMeanwhile then ⟨.ok d.summary, d.session, sink⟩
        else
          let (fragments, framer) := d.framer.pushLine line
          match replyAll shell { d with framer } sink fragments with
          | (.ok (), d, sink) => converse turns (n + fragments.length) d sink lines
          | (.error message, d, sink) => ⟨.error (.ofChannel message), d.session, sink⟩

variable {turns : Nat → Turn} {n : Nat} {d : Dialogue} {s : StatementStream} {sink : Sink}

theorem framer_replyAll (d : Dialogue) (sink : Sink) (xs : List Fragment) :
    (shell.replyAll d sink xs).2.1.framer = d.framer := by
  induction xs generalizing d sink with
  | nil => rfl
  | cons x xs ih =>
    have kept := d.framer_handle x
    rw [replyAll]
    dsimp only
    generalize sink.write _ = written
    obtain ⟨message | ⟨⟩, sink⟩ := written
    · exact kept
    · exact (ih _ sink).trans kept

/-- The first fragment that waits is answered. Nothing is asked. -/
theorem drive_waiting (s : StatementStream) (x : Fragment) (xs : List Fragment) :
    shell.drive turns n d { s with queue := x :: xs } sink =
      let (reply, d) := { d with framer := s.framer }.handle x
      match sink.write ((reply.map fun r => r.text shell.report).getD "") with
      | (.ok (), sink) => shell.drive turns (n + 1) d { s with queue := xs } sink
      | (.error message, sink) => ⟨.error (.ofChannel message), d.session, sink⟩ := by
  rw [drive_eq, ask, StatementStream.asks]
  rfl

/-- What waits to be handed out is answered before anything is asked. -/
theorem drive_queue (turns : Nat → Turn) (n : Nat) (sink : Sink) (same : d.framer = s.framer)
    (xs : List Fragment) :
    shell.drive turns n d { s with queue := xs } sink =
      match shell.replyAll d sink xs with
      | (.ok (), d, sink) => shell.drive turns (n + xs.length) d { s with queue := [] } sink
      | (.error message, d, sink) => ⟨.error (.ofChannel message), d.session, sink⟩ := by
  induction xs generalizing n d sink with
  | nil => rfl
  | cons x xs ih =>
    have own : ({ d with framer := s.framer } : Dialogue) = d := by rw [← same]
    rw [drive_waiting, own, replyAll]
    dsimp only
    generalize sink.write _ = written
    obtain ⟨message | ⟨⟩, sink⟩ := written
    · rfl
    · dsimp only
      rw [ih _ _ ((d.framer_handle x).trans same), List.length_cons, Nat.add_assoc, Nat.add_comm 1]

/-- Where all has been handed out, the stream asks for a line and hands out all of it. -/
theorem drive_boundary (boundary : s.IsAtBoundary) :
    shell.drive turns n d s sink =
      if (turns n).isCanceled then ⟨.ok d.summary, d.session, sink⟩
      else
        match sink.write (shell.prompt d) with
        | (.error message, sink) => ⟨.error (.ofChannel message), d.session, sink⟩
        | (.ok (), sink) =>
          match s.lines with
          | [] => ⟨.ok d.summary, d.session, sink⟩
          | .error message :: _ => ⟨.error (.ofChannel message), d.session, sink⟩
          | .ok line :: lines =>
            if (turns n).isCanceledMeanwhile then ⟨.ok d.summary, d.session, sink⟩
            else
              shell.drive turns n { d with framer := (s.framer.pushLine line).2 }
                { s.behind line lines with queue := (s.framer.pushLine line).1 } sink := by
  have asked : s.asks (turns n) = !(turns n).isCanceled := by
    simp [StatementStream.asks, boundary.queue, boundary.isDone]
  rw [drive_eq, ask, asked]
  cases canceled : (turns n).isCanceled with
  | true => simp [boundary.next, canceled]
  | false =>
    have called (promptFailure? : Option String) : s.next { turns n with promptFailure? } =
        s.readLine { turns n with promptFailure? } := by
      rw [boundary.next, canceled, if_neg Bool.false_ne_true]
    simp only [Bool.not_false, Bool.false_eq_true, reduceIte]
    generalize sink.write (shell.prompt d) = written
    obtain ⟨message | ⟨⟩, sink⟩ := written
    · dsimp only
      rw [called]
      rfl
    dsimp only
    rw [called, StatementStream.readLine]
    cases left : s.lines with
    | nil => rfl
    | cons first lines =>
      cases first with
      | error message => rfl
      | ok line =>
        dsimp only
        cases meanwhile : (turns n).isCanceledMeanwhile with
        | true => rfl
        | false =>
          -- the first fragment of the line is answered as if the line had been waiting
          obtain ⟨x, xs, pushed⟩ := List.exists_cons_of_ne_nil (s.framer.pushLine_ne_nil line)
          rw [if_neg Bool.false_ne_true, if_neg Bool.false_ne_true, pushed, drive_waiting]
          rfl

/-- What the stream hands out is answered as the lines are answered one by one, by induction
on the lines: the stream is at the end of a line again when its fragments have been answered. -/
theorem drive_eq_converse {lines : List (Except String String)} (boundary : s.IsAtBoundary)
    (same : d.framer = s.framer) (left : s.lines = lines) :
    shell.drive turns n d s sink = shell.converse turns n d sink lines := by
  induction lines generalizing n d s sink with
  | nil =>
    rw [shell.drive_boundary boundary, left]
    unfold converse
    rfl
  | cons first lines ih =>
    rw [shell.drive_boundary boundary, left]
    unfold converse
    cases first with
    | error message => rfl
    | ok line =>
      have empty : ({ s.behind line lines with queue := [] } : StatementStream) = s.behind line lines :=
        congrArg (fun queue => { s.behind line lines with queue }) boundary.queue.symm
      have answered (sink : Sink) := shell.drive_queue turns n sink
        (d := { d with framer := (s.framer.pushLine line).2 }) (s := s.behind line lines) rfl
        (s.framer.pushLine line).1
      simp only [answered, empty, same]
      split
      · rfl
      generalize sink.write (shell.prompt d) = written
      obtain ⟨message | ⟨⟩, sink⟩ := written
      · rfl
      dsimp only
      split
      · rfl
      have kept := shell.framer_replyAll { d with framer := (s.framer.pushLine line).2 } sink
        (s.framer.pushLine line).1
      generalize shell.replyAll _ sink (s.framer.pushLine line).1 = outcome at kept ⊢
      obtain ⟨message | ⟨⟩, d', sink'⟩ := outcome
      · rfl
      · exact ih ⟨boundary.queue, boundary.isDone⟩ kept rfl

/-- A run answers line by line. -/
theorem runWith_eq_converse (turns : Nat → Turn) (session : Session) (sink : Sink)
    (lines : List (Except String String)) : shell.runWith turns session sink lines =
      shell.converse turns 0 (shell.start session) sink lines :=
  shell.drive_eq_converse ⟨rfl, rfl⟩ rfl rfl

theorem run_eq_converse (session : Session) (sink : Sink) (isCanceled : Bool)
    (lines : List (Except String String)) : shell.run session sink isCanceled lines =
      shell.converse (fun _ => { isCanceled, isCanceledMeanwhile := isCanceled }) 0
        (shell.start session) sink lines :=
  shell.runWith_eq_converse _ session sink lines

end Shell

end OpenExpr
