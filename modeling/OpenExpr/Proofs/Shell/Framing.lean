import OpenExpr.Proofs.Shell.Transcript
import OpenExpr.Proofs.Token.Prefix

namespace OpenExpr

namespace Lexeme

namespace Scanner

variable {s : Scanner}

theorem read_blank (idle : s.pending = .nothing) {text : List Char}
    (blank : ∀ c ∈ text, Text.isBlank c = true) :
    ∃ t, s.read text = .ok t ∧ t.unplaced = s.unplaced := by
  induction text generalizing s with
  | nil => exact ⟨s, rfl, rfl⟩
  | cons c text ih =>
    obtain ⟨first, others⟩ := List.forall_mem_cons.mp blank
    have fed : s.feed c = .ok (s.flush.moveTo c .nothing) := by
      rw [feed_of_nothing idle, start, if_pos first]
    obtain ⟨t, run, same⟩ := ih (s := s.flush.moveTo c .nothing) rfl others
    refine ⟨t, by rw [read_cons, fed]; exact run, same.trans ?_⟩
    simp [unplaced, moveTo, flush, lexeme?, idle]

end Scanner

/-- Blanks behind a line break do not count. -/
theorem SameReading.blank {text : List Char} (blank : ∀ c ∈ text, Text.isBlank c = true) :
    SameReading ('\n' :: text) ['\n'] := by
  intro s s' same
  obtain ⟨u, run, kept⟩ := Scanner.read_blank (s := s.flush.moveTo '\n' .nothing) rfl blank
  have started := Scanner.outcome_feed_eq same '\n'
  rw [Scanner.feed_newline, Scanner.feed_newline] at started
  rw [Scanner.read_cons, Scanner.read_cons, Scanner.feed_newline, Scanner.feed_newline]
  change Scanner.outcome ((s.flush.moveTo '\n' .nothing).read text) = _
  rw [run]
  exact congrArg Except.ok (kept.trans (Except.ok.inj started))

end Lexeme

open Lexeme (SameReading)

/-- The statements among fragments. -/
def Fragment.statements (fs : List Fragment) : List String :=
  (fs.filter fun x => !x.isPartial).map Fragment.text

namespace Framer

/-- The statements that end on lines. -/
def statements (f : Framer) : List String → List String
  | [] => []
  | line :: lines => Fragment.statements (f.pushLine line).1 ++ (f.pushLine line).2.statements lines

/-- The text of lines, each with a line break behind it. -/
def textOf (lines : List String) : List Char :=
  lines.flatMap fun line => line.toList ++ ['\n']

/-- What is pending is what is left behind the last semicolon, but for blank lines. -/
structure Holds (f : Framer) (left : List Char) : Prop where
  terminator : f.terminator = .semicolon
  free : ';' ∉ left
  same : SameReading ('\n' :: left) ('\n' :: f.pending.toList)
  ended : ∃ q, '\n' :: f.pending.toList = q ++ ['\n']

variable {f : Framer} {left : List Char}

theorem Holds.uncut (holds : f.Holds left) : ∀ c ∈ left, (c == ';') = false := fun _ member =>
  beq_eq_false_iff_ne.mpr fun semicolon => holds.free (semicolon ▸ member)

/-- Blanks at the end of a line, and lines of blanks, do not count. -/
theorem same_carried {a b : List Char} (same : SameReading ('\n' :: a) ('\n' :: b))
    (ended : ∃ q, '\n' :: b = q ++ ['\n']) (rest : List Char) :
    SameReading ('\n' :: (a ++ (rest ++ ['\n']))) ('\n' :: (b ++ (carried rest).toList)) ∧
      ∃ q, '\n' :: (b ++ (carried rest).toList) = q ++ ['\n'] := by
  have appended := same.append (.refl (rest ++ ['\n']))
  unfold carried
  split
  · rename_i blank
    obtain ⟨q, ended⟩ := ended
    have blanks : SameReading ('\n' :: (rest ++ ['\n'])) ['\n'] :=
      .blank fun c member => by
        rcases List.mem_append.mp member with here | last
        · exact List.all_eq_true.mp blank c here
        · rw [List.mem_singleton.mp last]
          decide
    have dropped : SameReading ('\n' :: b ++ (rest ++ ['\n'])) ('\n' :: b) := by
      rw [ended, List.append_assoc]
      exact (SameReading.refl q).append blanks
    refine ⟨by simpa using appended.trans dropped, q, by simpa using ended⟩
  · refine ⟨by simpa using appended, '\n' :: (b ++ rest), by simp⟩

/-- A statement began with what is pending, and what no terminator ends is none. -/
theorem statements_complete (f : Framer) (piece : List Char) (pieces : List (List Char))
    (unfinished : Bool) (rest : String) :
    Fragment.statements (f.complete (piece :: pieces) ++
      if unfinished then [{ text := rest, isPartial := true }] else []) =
      (f.pending ++ String.ofList piece) :: pieces.map String.ofList := by
  cases unfinished <;> simp [Fragment.statements, complete, List.filter_map, Function.comp_def]

/-- The statements that a line ends are the pieces of what was left and the line. -/
theorem pushLine_statements (holds : f.Holds left) (line : String) :
    List.Forall₂ (fun piece statement => SameReading ('\n' :: piece) ('\n' :: statement.toList))
        (Text.cutAfter (· == ';') (left ++ (line.toList ++ ['\n']))).1
        (Fragment.statements (f.pushLine line).1) ∧
      (f.pushLine line).2.Holds (Text.cutAfter (· == ';') (left ++ (line.toList ++ ['\n']))).2 := by
  have symbol : f.terminator.symbol = ';' := congrArg Terminator.symbol holds.terminator
  have leftover := Text.not_of_mem_cutAfter_rest (· == ';') line.toList
  rw [Text.cutAfter_append_right _ holds.uncut, Text.cutAfter_append_left _ (by simp) line.toList]
  unfold pushLine
  rw [symbol]
  generalize Text.cutAfter (· == ';') line.toList = cuts at leftover
  replace leftover : ';' ∉ cuts.2 := fun semicolon => by simpa using leftover ';' semicolon
  rcases cuts with ⟨_ | ⟨piece, pieces⟩, rest⟩
  · dsimp only
    refine ⟨by simp [Fragment.statements, complete], ?_⟩
    obtain ⟨same, ended⟩ := same_carried holds.same holds.ended rest
    refine ⟨holds.terminator, ?_, ?_, ?_⟩
    · simpa using ⟨holds.free, leftover⟩
    · simpa using same
    · simpa using ended
  · dsimp only
    obtain ⟨same, ended⟩ := same_carried (.refl ['\n']) ⟨[], rfl⟩ rest
    refine ⟨?_, holds.terminator, ?_, ?_, ?_⟩
    · have first : SameReading ('\n' :: (left ++ piece)) ('\n' :: (f.pending.toList ++ piece)) :=
        holds.same.append (.refl piece)
      have others : List.Forall₂
          (fun piece statement => SameReading ('\n' :: piece) ('\n' :: String.toList statement))
          pieces (pieces.map String.ofList) := by
        refine List.forall₂_map_right_iff.mpr (List.forall₂_same.mpr fun piece _ => ?_)
        rw [String.toList_ofList]
        exact .refl _
      rw [statements_complete]
      exact .cons (by simpa using first) others
    · simpa using leftover
    · simpa using same
    · simpa using ended

/-- The statements are the pieces of the text of lines. Only blank lines inside them
may be missing. -/
theorem statements_eq (holds : f.Holds left) (lines : List String) :
    List.Forall₂ (fun piece statement => SameReading ('\n' :: piece) ('\n' :: statement.toList))
      (Text.cutAfter (· == ';') (left ++ textOf lines)).1 (f.statements lines) := by
  induction lines generalizing f left with
  | nil =>
    have cut := Text.cutAfter_append_left (· == ';') holds.uncut []
    rw [show left ++ textOf [] = [] ++ left by simp [textOf], cut]
    exact .nil
  | cons line lines ih =>
    obtain ⟨first, after⟩ := pushLine_statements holds line
    have split : left ++ textOf (line :: lines) = left ++ (line.toList ++ ['\n']) ++ textOf lines := by
      simp [textOf]
    rw [split, Text.cutAfter_append]
    exact List.rel_append first (ih after)

end Framer

namespace Dialogue

/-- The replies to statements, and what the run is then. -/
def respond (d : Dialogue) (statements : List String) : List Reply × Dialogue :=
  d.replies (statements.map fun text => { text, isPartial := false })

theorem respond_cons (d : Dialogue) (statement : String) (statements : List String) :
    d.respond (statement :: statements) =
      ((d.handle { text := statement, isPartial := false }).1.toList ++
          ((d.handle { text := statement, isPartial := false }).2.respond statements).1,
        ((d.handle { text := statement, isPartial := false }).2.respond statements).2) := rfl

/-- What is unfinished gets no reply. -/
theorem replies_eq (d : Dialogue) (fs : List Fragment) :
    d.replies fs = d.respond (Fragment.statements fs) := by
  induction fs generalizing d with
  | nil => rfl
  | cons f fs ih =>
    obtain ⟨text, isPartial⟩ := f
    cases isPartial with
    | true => exact ih d
    | false =>
      rw [replies, ih]
      rfl

theorem respond_append (d : Dialogue) (a b : List String) : d.respond (a ++ b) =
    ((d.respond a).1 ++ ((d.respond a).2.respond b).1, ((d.respond a).2.respond b).2) := by
  induction a generalizing d with
  | nil => rfl
  | cons x a ih =>
    rw [List.cons_append, respond_cons, respond_cons, ih]
    simp

/-- Of the framer nothing but its terminator has a say in a reply. -/
theorem handle_framer (d : Dialogue) {f : Framer} (same : f.terminator = d.framer.terminator)
    (x : Fragment) : { d with framer := f }.handle x =
      ((d.handle x).1, { (d.handle x).2 with framer := f }) := by
  unfold handle
  dsimp only
  rw [same]
  split
  · rfl
  · split <;> rfl

theorem respond_framer (d : Dialogue) {f : Framer} (same : f.terminator = d.framer.terminator)
    (statements : List String) : { d with framer := f }.respond statements =
      ((d.respond statements).1, { (d.respond statements).2 with framer := f }) := by
  induction statements generalizing d with
  | nil => rfl
  | cons x statements ih =>
    rw [respond_cons, respond_cons, d.handle_framer same, ih _ (by rw [framer_handle, same])]

theorem framer_respond (d : Dialogue) (statements : List String) :
    (d.respond statements).2.framer = d.framer := by
  have same := d.respond_framer rfl statements
  exact congrArg (fun x => x.2.framer) same

theorem readLine_eq (d : Dialogue) (line : String) :
    d.readLine line = ((d.respond (Fragment.statements (d.framer.pushLine line).1)).1,
      { (d.respond (Fragment.statements (d.framer.pushLine line).1)).2 with
        framer := (d.framer.pushLine line).2 }) := by
  have kept : (d.framer.pushLine line).2.terminator = d.framer.terminator := rfl
  exact (replies_eq _ _).trans (d.respond_framer kept _)

/-- The replies to lines are those to the statements that end on them. -/
theorem readLines_eq (d : Dialogue) (lines : List String) :
    ∃ framer, d.readLines lines = ((d.respond (d.framer.statements lines)).1,
      { (d.respond (d.framer.statements lines)).2 with framer }) := by
  induction lines generalizing d with
  | nil => exact ⟨d.framer, rfl⟩
  | cons line lines ih =>
    obtain ⟨framer, later⟩ := ih (d.readLine line).2
    refine ⟨framer, ?_⟩
    rw [readLines, later, readLine_eq, Framer.statements, respond_append]
    generalize replied : d.respond (Fragment.statements (d.framer.pushLine line).1) = first
    have kept : (d.framer.pushLine line).2.terminator = first.2.framer.terminator := by
      rw [← replied, framer_respond]
      rfl
    dsimp only
    rw [first.2.respond_framer kept]

end Dialogue

end OpenExpr
