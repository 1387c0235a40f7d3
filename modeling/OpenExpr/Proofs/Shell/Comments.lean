import OpenExpr.Proofs.Placement.Coherence
import OpenExpr.Proofs.Shell.Transcript

namespace OpenExpr

open Lexeme (SameReading)

namespace Text

/-- What a line holds in front of a comment. -/
def code (line : String) : List Char :=
  line.toList.takeWhile (· ≠ '#')

/-- A comment at the end of a line, with its number sign. -/
def comment (line : String) : List Char :=
  line.toList.dropWhile (· ≠ '#')

/-- The lines are the same but for the characters of their comments. -/
def SameCode (a b : String) : Prop :=
  code a = code b ∧ (comment a = [] ↔ comment b = [])

/-- The line is one line, and no semicolon stands in its comment. -/
def HasPlainComment (line : String) : Prop :=
  '\n' ∉ line.toList ∧ ';' ∉ comment line

instance (a b : String) : Decidable (SameCode a b) :=
  inferInstanceAs (Decidable (_ ∧ _))

instance (line : String) : Decidable (HasPlainComment line) :=
  inferInstanceAs (Decidable (_ ∧ _))

theorem code_append_comment (line : String) : code line ++ comment line = line.toList :=
  List.takeWhile_append_dropWhile

theorem comment_cases (line : String) : comment line = [] ∨ ∃ rest, comment line = '#' :: rest := by
  have first := List.head?_dropWhile_not (· ≠ '#') line.toList
  unfold comment
  cases found : line.toList.dropWhile (· ≠ '#') with
  | nil => exact .inl rfl
  | cons c rest =>
    rw [found] at first
    simp only [List.head?_cons, decide_eq_false_iff_not, not_not] at first
    exact .inr ⟨rest, by rw [first]⟩

/-- Either both lines have a comment or neither has. -/
theorem SameCode.comments {a b : String} (same : SameCode a b) (plain : HasPlainComment a)
    (plain' : HasPlainComment b) : comment a = [] ∧ comment b = [] ∨
      ∃ c c', comment a = '#' :: c ∧ comment b = '#' :: c' ∧ '\n' ∉ c ∧ '\n' ∉ c' := by
  have inLine {line : String} {c : List Char} (plain : HasPlainComment line)
      (found : comment line = '#' :: c) : '\n' ∉ c := by
    intro member
    have inComment : '\n' ∈ comment line := found ▸ List.mem_cons_of_mem '#' member
    exact plain.1 ((List.dropWhile_sublist _).subset inComment)
  rcases comment_cases a with none | ⟨c, found⟩
  · exact .inl ⟨none, same.2.mp none⟩
  · rcases comment_cases b with none | ⟨c', found'⟩
    · exact absurd (same.2.mpr none) (by simp [found])
    · exact .inr ⟨c, c', found, found', inLine plain found, inLine plain' found'⟩

/-- Where semicolons stand in no comment, only the code is cut. -/
theorem cutAfter_line {line : String} (plain : HasPlainComment line) :
    cutAfter (· == ';') line.toList = ((cutAfter (· == ';') (code line)).1,
      (cutAfter (· == ';') (code line)).2 ++ comment line) := by
  rw [← code_append_comment line]
  refine cutAfter_append_left _ (fun c member => ?_) (code line)
  exact beq_eq_false_iff_ne.mpr fun semicolon => plain.2 (semicolon ▸ member)

end Text

/-- Whole statements that are read alike. What is unfinished is of no account. -/
structure Fragment.Alike (x x' : Fragment) : Prop where
  isPartial : x.isPartial = x'.isPartial
  text : x.isPartial = false → SameReading x.text.toList x'.text.toList

/-- What is pending is read alike, and semicolons end statements. -/
structure Framer.Alike (f f' : Framer) : Prop where
  terminator : f.terminator = .semicolon
  terminator' : f'.terminator = .semicolon
  pending : SameReading f.pending.toList f'.pending.toList

namespace Framer

variable {f f' : Framer}

theorem complete_alike (alike : f.Alike f') (pieces : List (List Char)) :
    List.Forall₂ Fragment.Alike (f.complete pieces) (f'.complete pieces) := by
  cases pieces with
  | nil => exact .nil
  | cons piece pieces =>
    refine .cons ⟨rfl, fun _ => ?_⟩ (List.forall₂_same.mpr fun x _ => ⟨rfl, fun _ => .refl _⟩)
    simpa using alike.pending.append (.refl piece)

/-- What a comment holds does not make a line blank. -/
theorem carried_alike {a b : String} (same : Text.SameCode a b) (plain : Text.HasPlainComment a)
    (plain' : Text.HasPlainComment b) (rest : List Char) :
    SameReading (carried (rest ++ Text.comment a)).toList (carried (rest ++ Text.comment b)).toList := by
  rcases same.comments plain plain' with ⟨none, none'⟩ | ⟨c, c', found, found', inLine, inLine'⟩
  · rw [none, none']
    exact .refl _
  · have kept (c : List Char) : carried (rest ++ '#' :: c) = String.ofList (rest ++ '#' :: c ++ ['\n']) := by
      have visible : Text.isBlank '#' = false := by decide
      simp [carried, visible]
    rw [found, found', kept, kept, String.toList_ofList, String.toList_ofList]
    exact ((SameReading.refl rest).append (.comment inLine inLine')).append (.refl _)

/-- Lines with the same code are cut alike. -/
theorem pushLine_alike (alike : f.Alike f') {a b : String} (same : Text.SameCode a b)
    (plain : Text.HasPlainComment a) (plain' : Text.HasPlainComment b) :
    List.Forall₂ Fragment.Alike (f.pushLine a).1 (f'.pushLine b).1 ∧
      (f.pushLine a).2.Alike (f'.pushLine b).2 := by
  have cut := Text.cutAfter_line plain
  have cut' := Text.cutAfter_line plain'
  rw [← same.1] at cut'
  generalize Text.cutAfter (· == ';') (Text.code a) = parts at cut cut'
  obtain ⟨pieces, rest⟩ := parts
  have left : (rest ++ Text.comment a).isEmpty = (rest ++ Text.comment b).isEmpty := by
    rw [Bool.eq_iff_iff]
    simp [same.2]
  have carried := carried_alike same plain plain' rest
  have symbol : f.terminator.symbol = ';' := congrArg Terminator.symbol alike.terminator
  have symbol' : f'.terminator.symbol = ';' := congrArg Terminator.symbol alike.terminator'
  have unfinished : List.Forall₂ Fragment.Alike
      (if pieces.isEmpty || !(rest ++ Text.comment a).isEmpty then
        [{ text := String.ofList (rest ++ Text.comment a), isPartial := true : Fragment }] else [])
      (if pieces.isEmpty || !(rest ++ Text.comment b).isEmpty then
        [{ text := String.ofList (rest ++ Text.comment b), isPartial := true : Fragment }] else []) := by
    rw [left]
    split
    · exact .cons ⟨rfl, Bool.noConfusion⟩ .nil
    · exact .nil
  unfold pushLine
  rw [symbol, symbol', cut, cut']
  refine ⟨List.rel_append (complete_alike alike pieces) unfinished, ?_⟩
  exact {
    terminator := alike.terminator
    terminator' := alike.terminator'
    pending := by
      rw [String.toList_append, String.toList_append]
      refine SameReading.append ?_ carried
      split
      · exact alike.pending
      · exact .refl _ }

end Framer

/-- The runs have come to the same but for what stands in comments. -/
structure Dialogue.Alike (d d' : Dialogue) : Prop where
  session : d.session.Alike d'.session
  framer : d.framer.Alike d'.framer
  heldBack : SameReading d.heldBack.toList d'.heldBack.toList
  summary : d.summary = d'.summary

namespace Dialogue

variable {d d' : Dialogue}

/-- Statements that are read alike are answered alike. -/
theorem handle_alike (alike : d.Alike d') {x x' : Fragment} (same : x.Alike x') :
    (d.handle x).1.bind Reply.announcement? = (d'.handle x').1.bind Reply.announcement? ∧
      (d.handle x).2.Alike (d'.handle x').2 := by
  unfold handle
  rw [← same.isPartial]
  split
  · exact ⟨rfl, alike⟩
  rename_i whole
  have texts : SameReading (d.heldBack ++ x.text).toList (d'.heldBack ++ x'.text).toList := by
    rw [String.toList_append, String.toList_append]
    exact alike.heldBack.append (same.text (Bool.eq_false_iff.mpr whole))
  have results := Session.parseStatement_alike alike.session texts
  dsimp only
  rw [alike.framer.terminator, alike.framer.terminator', Terminator.withSemicolon_semicolon,
    Terminator.withSemicolon_semicolon]
  generalize d.session.parseStatement (d.heldBack ++ x.text) = result at results ⊢
  generalize d'.session.parseStatement (d'.heldBack ++ x'.text) = result' at results ⊢
  obtain ⟨result, session⟩ := result
  obtain ⟨result', session'⟩ := result'
  obtain ⟨results, sessions⟩ := results
  cases results with
  | complete display =>
    refine ⟨?_, sessions, alike.framer, .refl _, ?_⟩
    · simp [Reply.announcement?, Program.announcement, display]
    · simp [alike.summary]
  | failed =>
    refine ⟨rfl, sessions, alike.framer, .refl _, ?_⟩
    simp [alike.summary]
  | needMoreInput =>
    have held : SameReading (d.heldBack ++ x.text ++ "\n").toList
        (d'.heldBack ++ x'.text ++ "\n").toList := by
      simpa only [String.toList_append] using texts.append (.refl "\n".toList)
    exact ⟨rfl, sessions, alike.framer, held, alike.summary⟩

theorem replies_alike (alike : d.Alike d') {fs fs' : List Fragment}
    (same : List.Forall₂ Fragment.Alike fs fs') :
    (d.replies fs).1.filterMap Reply.announcement? = (d'.replies fs').1.filterMap Reply.announcement? ∧
      (d.replies fs).2.Alike (d'.replies fs').2 := by
  induction same generalizing d d' with
  | nil => exact ⟨rfl, alike⟩
  | @cons x x' _ _ first _ ih =>
    obtain ⟨announced, next⟩ := handle_alike alike first
    obtain ⟨others, last⟩ := ih next
    refine ⟨?_, last⟩
    have one (r : Option Reply) : r.toList.filterMap Reply.announcement? =
        (r.bind Reply.announcement?).toList := by
      cases r with
      | none => rfl
      | some r => cases found : r.announcement? <;> simp [found]
    simp only [replies, List.filterMap_append, one, announced, others]

theorem readLine_alike (alike : d.Alike d') {a b : String} (same : Text.SameCode a b)
    (plain : Text.HasPlainComment a) (plain' : Text.HasPlainComment b) :
    (d.readLine a).1.filterMap Reply.announcement? = (d'.readLine b).1.filterMap Reply.announcement? ∧
      (d.readLine a).2.Alike (d'.readLine b).2 := by
  obtain ⟨fragments, framer⟩ := Framer.pushLine_alike alike.framer same plain plain'
  have pushed : Dialogue.Alike { d with framer := (d.framer.pushLine a).2 }
      { d' with framer := (d'.framer.pushLine b).2 } :=
    ⟨alike.session, framer, alike.heldBack, alike.summary⟩
  exact replies_alike pushed fragments

/-- Runs on lines with the same code stay alike to the end. -/
theorem readLines_alike (alike : d.Alike d') {lines lines' : List String}
    (same : List.Forall₂ Text.SameCode lines lines') (plain : ∀ line ∈ lines, Text.HasPlainComment line)
    (plain' : ∀ line ∈ lines', Text.HasPlainComment line) :
    (d.readLines lines).1.filterMap Reply.announcement? =
        (d'.readLines lines').1.filterMap Reply.announcement? ∧
      (d.readLines lines).2.Alike (d'.readLines lines').2 := by
  induction same generalizing d d' with
  | nil => exact ⟨rfl, alike⟩
  | cons first _ ih =>
    obtain ⟨one, others⟩ := List.forall_mem_cons.mp plain
    obtain ⟨one', others'⟩ := List.forall_mem_cons.mp plain'
    obtain ⟨announced, next⟩ := readLine_alike alike first one one'
    obtain ⟨announced', last⟩ := ih next others others'
    refine ⟨?_, last⟩
    simp only [readLines, List.filterMap_append, announced, announced']

end Dialogue

namespace Shell

variable (shell : Shell)

/-- The lines of a transcript that show units which were accepted. -/
def announcements (d : Dialogue) (lines : List String) : List String :=
  (shell.transcript d lines).filterMap fun e => e.reply?.bind Reply.announcement?

theorem announcements_eq (d : Dialogue) (lines : List String) :
    shell.announcements d lines = (d.readLines lines).1.filterMap Reply.announcement? := by
  rw [← shell.transcript_replies, List.filterMap_filterMap]
  rfl

/-- Comments do not count as long as no semicolon stands in them: runs on lines that
are otherwise the same announce the same units and end with the same summary. -/
theorem run_of_sameCode (semicolon : shell.terminator = .semicolon) {session : Session}
    (coherent : session.env.IsCoherent) {sink : Sink} (unbounded : sink.room? = none)
    {lines lines' : List String} (same : List.Forall₂ Text.SameCode lines lines')
    (plain : ∀ line ∈ lines, Text.HasPlainComment line)
    (plain' : ∀ line ∈ lines', Text.HasPlainComment line) :
    ∃ summary,
      (shell.run session sink false (lines.map .ok)).result = .ok summary ∧
      (shell.run session sink false (lines'.map .ok)).result = .ok summary ∧
      (shell.run session sink false (lines.map .ok)).sink =
        sink.followedBy (shell.output (shell.start session) lines) ∧
      (shell.run session sink false (lines'.map .ok)).sink =
        sink.followedBy (shell.output (shell.start session) lines') ∧
      shell.announcements (shell.start session) lines =
        shell.announcements (shell.start session) lines' := by
  have start : (shell.start session).Alike (shell.start session) :=
    { session := ⟨coherent.alike, rfl⟩
      framer := ⟨semicolon, semicolon, .refl _⟩
      heldBack := .refl _
      summary := rfl }
  obtain ⟨announced, last⟩ := Dialogue.readLines_alike start same plain plain'
  have runs := shell.run_of_unbounded unbounded session
  rw [runs, runs, announcements_eq, announcements_eq]
  exact ⟨_, rfl, congrArg Except.ok last.summary.symm, rfl, rfl, announced⟩

/-- The comment may come in the middle of a statement. -/
theorem comment_within_sum_inert :
    ∃ summary,
      (uncolored.run (.new {}) {} false (["1 # a", "+ 2;"].map .ok)).result = .ok summary ∧
      (uncolored.run (.new {}) {} false (["1 # and", "+ 2;"].map .ok)).result =
        .ok summary ∧
      (uncolored.run (.new {}) {} false (["1 # a", "+ 2;"].map .ok)).sink =
        Sink.followedBy {} (uncolored.output (uncolored.start (.new {})) ["1 # a", "+ 2;"]) ∧
      (uncolored.run (.new {}) {} false (["1 # and", "+ 2;"].map .ok)).sink =
        Sink.followedBy {} (uncolored.output (uncolored.start (.new {})) ["1 # and", "+ 2;"]) ∧
      uncolored.announcements (uncolored.start (.new {})) ["1 # a", "+ 2;"] =
        uncolored.announcements (uncolored.start (.new {})) ["1 # and", "+ 2;"] :=
  uncolored.run_of_sameCode rfl (Session.isCoherent_new {}) rfl
    (.cons (by decide) (.cons (by decide) .nil)) (by decide) (by decide)

/-- A semicolon in a comment ends the statement too early, and what follows it in the
comment is read as code. -/
theorem semicolon_in_comment_splits :
    List.Forall₂ Text.SameCode ["1 # ;", "+ 2;"] ["1 # a", "+ 2;"] ∧
      (uncolored.run (.new {}) {} false (["1 # ;", "+ 2;"].map .ok)).result.toOption =
        some { parsed := 1, failed := 1 } ∧
      (uncolored.run (.new {}) {} false (["1 # a", "+ 2;"].map .ok)).result.toOption =
        some { parsed := 1, failed := 0 } := by
  rw [run_eq_converse, run_eq_converse]
  exact ⟨.cons (by decide) (.cons (by decide) .nil), by decide +kernel, by decide +kernel⟩

end Shell

end OpenExpr
