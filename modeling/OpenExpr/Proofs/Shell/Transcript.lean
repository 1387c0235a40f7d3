import Mathlib.Data.List.Basic
import OpenExpr.Proofs.Shell.Driven

namespace OpenExpr

/-- The semicolon takes its own place. -/
theorem Terminator.withSemicolon_semicolon (text : String) :
    semicolon.withSemicolon text = text := by
  unfold withSemicolon
  dsimp only
  split
  · rename_i last
    have restored := List.dropLast_append_getLast? _ last
    exact String.toList_inj.mp (by rw [String.toList_ofList]; exact restored)
  · rfl

/-- The unit that a reply announces, as it is shown. -/
def Reply.announcement? : Reply → Option String
  | parsed u => some u.announcement
  | rejected _ _ _ => none

/-- What a run has counted at its end, unless the last item of its stream is an error. -/
def Summary.orError (s : Summary) : Option (Except InputError Fragment) → Except InputError Summary
  | some (.error e) => .error e
  | _ => .ok s

/-- What a run writes: a prompt in front of a line, or a reply to a statement. -/
inductive Shell.Entry where
  | prompt (text : String)
  | reply (r : Reply)

namespace Shell.Entry

def text (report : Report) : Entry → String
  | prompt text => text
  | reply r => r.text report

def reply? : Entry → Option Reply
  | prompt _ => none
  | reply r => some r

end Shell.Entry

namespace Dialogue

/-- The replies to fragments, and what the run is then. -/
def replies (d : Dialogue) : List Fragment → List Reply × Dialogue
  | [] => ([], d)
  | f :: fs => ((d.handle f).1.toList ++ ((d.handle f).2.replies fs).1, ((d.handle f).2.replies fs).2)

/-- The replies to a line, and what the run is then. -/
def readLine (d : Dialogue) (line : String) : List Reply × Dialogue :=
  { d with framer := (d.framer.pushLine line).2 }.replies (d.framer.pushLine line).1

/-- The replies to lines, and what the run is then. -/
def readLines (d : Dialogue) : List String → List Reply × Dialogue
  | [] => ([], d)
  | line :: lines =>
    ((d.readLine line).1 ++ ((d.readLine line).2.readLines lines).1,
      ((d.readLine line).2.readLines lines).2)

theorem framer_replies (d : Dialogue) (fs : List Fragment) : (d.replies fs).2.framer = d.framer := by
  induction fs generalizing d with
  | nil => rfl
  | cons f fs ih => exact (ih _).trans (d.framer_handle f)

theorem framer_readLine (d : Dialogue) (line : String) :
    (d.readLine line).2.framer = (d.framer.pushLine line).2 :=
  framer_replies _ _

end Dialogue

/-- The sink with more text written. -/
def Sink.followedBy (s : Sink) (text : String) : Sink :=
  { s with written := s.written ++ text.toUTF8 }

namespace Sink

variable {s : Sink}

theorem write_of_unbounded (unbounded : s.room? = none) (text : String) :
    s.write text = (.ok (), s.followedBy text) := by
  simp only [write, unbounded, followedBy]

theorem followedBy_followedBy (a b : String) :
    (s.followedBy a).followedBy b = s.followedBy (a ++ b) := by
  simp [followedBy, ByteArray.append_assoc]

end Sink

namespace Shell

/-- A shell without colors. -/
def uncolored : Shell :=
  { report := { hasColors := false } }

variable (shell : Shell)

/-- All that a run on lines writes. -/
def transcript (d : Dialogue) : List String → List Entry
  | [] => [.prompt (shell.prompt d)]
  | line :: lines =>
    .prompt (shell.prompt d) :: ((d.readLine line).1.map .reply ++ transcript (d.readLine line).2 lines)

/-- What it writes before it asks for what comes behind the lines. -/
def spoken (d : Dialogue) (lines : List String) : List Entry :=
  (shell.transcript d lines).dropLast

/-- The text of what a run writes. -/
def textOf (entries : List Entry) : String :=
  String.join (entries.map (Entry.text shell.report))

theorem textOf_append (a b : List Entry) : shell.textOf (a ++ b) = shell.textOf a ++ shell.textOf b := by
  rw [textOf, List.map_append, String.join_append, textOf, textOf]

/-- The text of what a run on lines writes. -/
def output (d : Dialogue) (lines : List String) : String :=
  shell.textOf (shell.transcript d lines)

theorem spoken_cons (d : Dialogue) (line : String) (lines : List String) : shell.spoken d (line :: lines) =
    .prompt (shell.prompt d) ::
      ((d.readLine line).1.map .reply ++ shell.spoken (d.readLine line).2 lines) := by
  have some : shell.transcript (d.readLine line).2 lines ≠ [] := by
    cases lines <;> simp [transcript]
  rw [spoken, transcript, List.dropLast_cons_of_ne_nil (by simp [some]),
    List.dropLast_append_of_ne_nil some, spoken]

/-- At the end of its lines a run asks once more. -/
theorem transcript_eq (d : Dialogue) (lines : List String) : shell.transcript d lines =
    shell.spoken d lines ++ [.prompt (shell.prompt (d.readLines lines).2)] := by
  induction lines generalizing d with
  | nil => rfl
  | cons line lines ih =>
    rw [transcript, spoken_cons, ih, List.cons_append, List.append_assoc]
    rfl

/-- The replies are what a transcript holds besides the prompts. -/
theorem transcript_replies (d : Dialogue) (lines : List String) :
    (shell.transcript d lines).filterMap Entry.reply? = (d.readLines lines).1 := by
  induction lines generalizing d with
  | nil => rfl
  | cons line lines ih =>
    have all : ((d.readLine line).1.map Entry.reply).filterMap Entry.reply? = (d.readLine line).1 := by
      simp [List.filterMap_map, Function.comp_def, Entry.reply?]
    rw [transcript, List.filterMap_cons_none rfl, List.filterMap_append, all, ih]
    rfl

theorem replyAll_of_unbounded (d : Dialogue) {sink : Sink} (unbounded : sink.room? = none)
    (fs : List Fragment) : replyAll shell d sink fs = (.ok (), (d.replies fs).2,
      sink.followedBy (String.join ((d.replies fs).1.map (Reply.text shell.report)))) := by
  induction fs generalizing d sink with
  | nil => simp [replyAll, Dialogue.replies, Sink.followedBy]
  | cons f fs ih =>
    unfold replyAll Dialogue.replies
    dsimp only
    rw [Sink.write_of_unbounded unbounded]
    dsimp only
    rw [ih _ (by exact unbounded), Sink.followedBy_followedBy]
    cases (d.handle f).1 <;> simp [String.join_cons]

variable {turns : Nat → Turn} {d : Dialogue} {sink : Sink}

/-- A line at whose call nothing happens is answered. -/
theorem converse_line (unbounded : sink.room? = none) {n : Nat} (quiet : (turns n).IsQuiet) (line : String)
    (rest : List (Except String String)) : shell.converse turns n d sink (.ok line :: rest) =
      shell.converse turns (n + (d.framer.pushLine line).1.length) (d.readLine line).2
        (sink.followedBy
          (shell.textOf (.prompt (shell.prompt d) :: (d.readLine line).1.map .reply))) rest := by
  have prompted : (sink.followedBy (shell.prompt d)).room? = none := unbounded
  have answered := shell.replyAll_of_unbounded { d with framer := (d.framer.pushLine line).2 }
    prompted (d.framer.pushLine line).1
  have texts : ((d.readLine line).1.map Entry.reply).map (Entry.text shell.report) =
      (d.readLine line).1.map (Reply.text shell.report) := List.map_map
  have written : sink.followedBy (shell.textOf (.prompt (shell.prompt d) :: (d.readLine line).1.map .reply)) =
      (sink.followedBy (shell.prompt d)).followedBy
        (String.join ((d.readLine line).1.map (Reply.text shell.report))) := by
    rw [textOf, List.map_cons, String.join_cons, texts, Sink.followedBy_followedBy]
    rfl
  rw [written]
  conv_lhs => unfold converse
  rw [quiet.isCanceled, quiet.isCanceledMeanwhile, Sink.write_of_unbounded unbounded]
  simp only [Bool.false_eq_true, reduceIte, answered]
  rfl

/-- Where the output can always be written, lines at whose calls nothing happens are
answered one by one. -/
theorem converse_of_quietBefore (unbounded : sink.room? = none) {read : List String} (n : Nat)
    (quiet : StatementStream.QuietBefore (fun i => turns (n + i)) d.framer read)
    (rest : List (Except String String)) :
    shell.converse turns n d sink (read.map .ok ++ rest) =
      shell.converse turns (n + (d.framer.fragments read).length) (d.readLines read).2
        (sink.followedBy (shell.textOf (shell.spoken d read))) rest := by
  induction read generalizing n d sink with
  | nil => simp [Framer.fragments, Dialogue.readLines, spoken, transcript, textOf, Sink.followedBy]
  | cons line read ih =>
    obtain ⟨now, later⟩ := StatementStream.quietBefore_cons.mp quiet
    have here : (turns n).IsQuiet := now
    have others : StatementStream.QuietBefore
        (fun i => turns (n + (d.framer.pushLine line).1.length + i)) (d.readLine line).2.framer read := by
      simpa only [d.framer_readLine, Nat.add_assoc] using later
    rw [List.map_cons, List.cons_append, shell.converse_line unbounded here,
      ih (by exact unbounded) _ others, d.framer_readLine, Nat.add_assoc, Framer.fragments,
      List.length_append, Sink.followedBy_followedBy, ← textOf_append, spoken_cons]
    rfl

/-- Where the stream ends, the run does. Nothing is written then but the prompt. -/
theorem converse_of_ends (unbounded : sink.room? = none) {n : Nat}
    (willing : (turns n).promptFailure? = none) {lines unread : List (Except String String)}
    {last : Option (Except InputError Fragment)} {isAsked : Bool}
    (ends : (turns n).Ends lines last isAsked unread) :
    shell.converse turns n d sink lines =
      { result := d.summary.orError last
        session := d.session
        sink := sink.followedBy (if isAsked then shell.prompt d else "") } := by
  unfold converse
  cases ends with
  | canceled canceled => simp [canceled, Summary.orError, Sink.followedBy]
  | promptFailed _ failed => cases willing.symm.trans failed
  | exhausted sound => simp [sound, Sink.write_of_unbounded unbounded, Summary.orError]
  | readFailed sound => simp [sound, Sink.write_of_unbounded unbounded, Summary.orError]
  | canceledMeanwhile sound _ meanwhile =>
    simp [sound, meanwhile, Sink.write_of_unbounded unbounded, Summary.orError]

/-- Whenever a run is called off, it has read a number of lines at the front of its input, and
has replied to each statement on them. Where its output can always be written, it ends as a run
on these lines alone, but for the last prompt: if it was called off before that, nothing more is
asked, and if meanwhile, the next line is dropped. A line that cannot be read ends it too. -/
theorem runWith_ends_at_line (willing : ∀ n, (turns n).promptFailure? = none)
    (unbounded : sink.room? = none) (session : Session) (lines : List (Except String String)) :
    ∃ read rest last isAsked unread, lines = read.map .ok ++ rest ∧
      StatementStream.QuietBefore turns (shell.start session).framer read ∧
      (turns ((shell.start session).framer.fragments read).length).Ends rest last isAsked unread ∧
      shell.runWith turns session sink lines =
        { result := ((shell.start session).readLines read).2.summary.orError last
          session := ((shell.start session).readLines read).2.session
          sink := sink.followedBy (shell.textOf (if isAsked then shell.transcript (shell.start session) read
            else shell.spoken (shell.start session) read)) } := by
  obtain ⟨read, rest, rfl, quiet, last, isAsked, unread, ends⟩ :=
    StatementStream.exists_end turns (shell.start session).framer lines
  refine ⟨read, rest, last, isAsked, unread, rfl, quiet, ends, ?_⟩
  rw [runWith_eq_converse, shell.converse_of_quietBefore unbounded 0 (by simpa using quiet), Nat.zero_add,
    shell.converse_of_ends (by exact unbounded) (willing _) ends, Sink.followedBy_followedBy]
  cases isAsked with
  | true => simp [transcript_eq, textOf, Entry.text, String.join_append]
  | false => simp

/-- A run whose output can always be written goes on to the end of its input. -/
theorem run_of_unbounded (unbounded : sink.room? = none) (session : Session) (lines : List String) :
    shell.run session sink false (lines.map .ok) =
      { result := .ok ((shell.start session).readLines lines).2.summary
        session := ((shell.start session).readLines lines).2.session
        sink := sink.followedBy (shell.output (shell.start session) lines) } := by
  let turns : Nat → Turn := fun _ => {}
  have quiet : StatementStream.QuietBefore (fun i => turns (0 + i)) (shell.start session).framer lines :=
    fun _ _ => ⟨rfl, rfl, rfl⟩
  have read := shell.converse_of_quietBefore unbounded 0 quiet []
  rw [List.append_nil] at read
  rw [run_eq_converse, read, shell.converse_of_ends (by exact unbounded) rfl (.exhausted rfl rfl),
    Sink.followedBy_followedBy]
  simp [output, transcript_eq, textOf, Entry.text, String.join_append, Summary.orError]

end Shell

end OpenExpr
