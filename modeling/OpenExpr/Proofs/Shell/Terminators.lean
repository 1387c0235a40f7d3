import OpenExpr.Proofs.Shell.Lines
import OpenExpr.Proofs.Shell.Pieces

namespace OpenExpr

namespace Text

/-- The characters are replaced, but no line break is made or lost. -/
def KeepsBreaks (f : Char → Char) : Prop :=
  ∀ c, (f c = '\n' ↔ c = '\n') ∧ (f c = '\r' ↔ c = '\r')

variable {f : Char → Char}

theorem dropBreak_map (keeps : KeepsBreaks f) (line : List Char) :
    dropBreak (line.map f) = (dropBreak line).map f := by
  rcases List.eq_nil_or_concat' line with rfl | ⟨body, c, rfl⟩
  · rfl
  by_cases broken : c = '\n'
  · subst broken
    have feed : f '\n' = '\n' := (keeps '\n').1.mpr rfl
    rcases List.eq_nil_or_concat' body with rfl | ⟨body, d, rfl⟩
    · simp [dropBreak, feed]
    · by_cases returned : d = '\r'
      · simp [dropBreak, feed, returned, (keeps '\r').2.mpr rfl]
      · simp [dropBreak, feed, returned, mt (keeps d).2.mp returned]
  · simp [dropBreak, broken, mt (keeps c).1.mp broken]

theorem linesOf_map (keeps : KeepsBreaks f) (text : String) :
    linesOf (text.map f) = (linesOf text).map (String.map f) := by
  have same : ∀ c ∈ text.toList, (f c == '\n') = (c == '\n') := fun c _ => by
    rw [Bool.eq_iff_iff, beq_iff_eq, beq_iff_eq]
    exact (keeps c).1
  unfold linesOf
  rw [String.toList_map, piecesAfter_map same, List.map_map, List.map_map]
  refine List.map_congr_left fun line _ => String.toList_inj.mp ?_
  simp [dropBreak_map keeps]

end Text

namespace Terminator

variable (t : Terminator)

/-- The character with a semicolon in the place of the terminator. -/
def toSemicolon (c : Char) : Char :=
  if c = t.symbol then semicolon.symbol else c

/-- No line break is a terminator. -/
theorem keepsBreaks_toSemicolon : Text.KeepsBreaks t.toSemicolon := by
  intro c
  unfold toSemicolon
  split
  · rename_i same
    subst same
    have other : '\r' ≠ t.symbol := t.ne_symbol (by decide)
    exact ⟨iff_of_false (by decide) t.newline_ne.symm, iff_of_false (by decide) other.symm⟩
  · exact ⟨.rfl, .rfl⟩

variable {t}

/-- Where no semicolon stands, the terminators become the semicolons. -/
theorem toSemicolon_eq_iff {c : Char} (other : c ≠ ';') : t.toSemicolon c = ';' ↔ c = t.symbol := by
  unfold toSemicolon
  split
  · rename_i same
    exact iff_of_true rfl same
  · rename_i different
    exact iff_of_false other different

theorem map_toSemicolon {text : List Char} (free : t.symbol ∉ text) : text.map t.toSemicolon = text := by
  have each : ∀ c ∈ text, t.toSemicolon c = c := by
    intro c member
    exact if_neg fun (same : c = t.symbol) => free (same ▸ member)
  rw [List.map_congr_left each, List.map_id']

theorem withSemicolon_ended (body : List Char) :
    t.withSemicolon (String.ofList (body ++ [t.symbol])) = String.ofList (body ++ [';']) := by
  simp [withSemicolon, semicolon]

theorem withSemicolon_of_free {text : List Char} (free : t.symbol ∉ text) :
    t.withSemicolon (String.ofList text) = String.ofList text := by
  unfold withSemicolon
  dsimp only
  rw [String.toList_ofList, if_neg fun last => free (List.mem_of_getLast? last)]

/-- No terminator is blank, so none makes a text blank in the place of another. -/
theorem isBlankText_withSemicolon (text : String) :
    Text.isBlankText (t.withSemicolon text) = Text.isBlankText text := by
  unfold withSemicolon
  dsimp only
  split
  · rename_i last
    obtain ⟨body, same⟩ := List.getLast?_eq_some_iff.mp last
    unfold Text.isBlankText
    rw [same, List.dropLast_concat, String.toList_ofList, List.all_append, List.all_append]
    simp [isBlank_symbol]
  · rfl

end Terminator

/-- The fragment with a semicolon in the place of its terminator. -/
def Fragment.withSemicolon (t : Terminator) (x : Fragment) : Fragment :=
  { x with text := t.withSemicolon x.text }

namespace Framer

variable {f : Framer}

/-- The framer as it is where statements end in semicolons. -/
def withSemicolons (f : Framer) : Framer :=
  { f with terminator := .semicolon }

theorem complete_withSemicolons {pieces : List (List Char)}
    (ended : ∀ piece ∈ pieces, ∃ body, piece = body ++ [f.terminator.symbol] ∧
      f.terminator.symbol ∉ body) :
    f.withSemicolons.complete (pieces.map (List.map f.terminator.toSemicolon)) =
      (f.complete pieces).map (Fragment.withSemicolon f.terminator) := by
  have rewritten (front : List Char) (piece : List Char) (member : piece ∈ pieces) :
      f.terminator.withSemicolon (String.ofList (front ++ piece)) =
        String.ofList (front ++ piece.map f.terminator.toSemicolon) := by
    obtain ⟨body, rfl, free⟩ := ended piece member
    rw [← List.append_assoc, Terminator.withSemicolon_ended, List.map_append,
      Terminator.map_toSemicolon free, List.append_assoc]
    simp [Terminator.toSemicolon, Terminator.semicolon]
  cases pieces with
  | nil => rfl
  | cons piece pieces =>
    have first := rewritten f.pending.toList piece List.mem_cons_self
    rw [String.ofList_append, String.ofList_append, String.ofList_toList] at first
    rw [List.map_cons, complete, complete, List.map_cons, List.map_map, List.map_map]
    refine congrArg₂ List.cons (by rw [Fragment.withSemicolon, first]; rfl)
      (List.map_congr_left fun piece member => ?_)
    have alone := rewritten [] piece (List.mem_cons_of_mem _ member)
    rw [List.nil_append, List.nil_append] at alone
    rw [Function.comp_apply, Function.comp_apply, Fragment.withSemicolon, alone]

/-- The state does not depend on the terminator. -/
theorem foldl_withSemicolon (t : Terminator) (state : ReadyState) (xs : List Fragment) :
    (xs.map (Fragment.withSemicolon t)).foldl (fun s x => s.next x.isPartial x.isBlank) state =
      xs.foldl (fun s x => s.next x.isPartial x.isBlank) state := by
  have each (x : Fragment) : (x.withSemicolon t).isBlank = x.isBlank :=
    t.isBlankText_withSemicolon x.text
  rw [List.foldl_map]
  simp only [each]
  rfl

/-- What a line leaves unfinished does not depend on the terminator, and the statements of
the line end in semicolons as they ended in terminators. -/
theorem pushLine_withSemicolons {line : String} (free : ';' ∉ line.toList) :
    f.withSemicolons.pushLine (line.map f.terminator.toSemicolon) =
      ((f.pushLine line).1.map (Fragment.withSemicolon f.terminator),
        (f.pushLine line).2.withSemicolons) := by
  have same : ∀ c ∈ line.toList,
      (f.terminator.toSemicolon c == Terminator.semicolon.symbol) = (c == f.terminator.symbol) := by
    intro c member
    rw [Bool.eq_iff_iff, beq_iff_eq, beq_iff_eq]
    exact Terminator.toSemicolon_eq_iff fun semicolon => free (semicolon ▸ member)
  have ended : ∀ piece ∈ (Text.cutAfter (· == f.terminator.symbol) line.toList).1, ∃ body,
      piece = body ++ [f.terminator.symbol] ∧ f.terminator.symbol ∉ body :=
    fun _ member => f.terminator.exists_body_of_mem_cutAfter member
  have unended := f.terminator.not_mem_cutAfter_rest line.toList
  unfold pushLine
  rw [String.toList_map, show f.withSemicolons.terminator.symbol = Terminator.semicolon.symbol from rfl,
    Text.cutAfter_map same]
  generalize Text.cutAfter (· == f.terminator.symbol) line.toList = cuts at ended unended ⊢
  obtain ⟨pieces, rest⟩ := cuts
  have unfinished : (if pieces.isEmpty || !rest.isEmpty then
        [({ text := String.ofList rest, isPartial := true } : Fragment)] else []) =
      (if pieces.isEmpty || !rest.isEmpty then
        [{ text := String.ofList rest, isPartial := true }] else []).map
          (Fragment.withSemicolon f.terminator) := by
    split
    · rw [List.map_singleton, Fragment.withSemicolon, Terminator.withSemicolon_of_free unended]
    · rfl
  have fragments := congrArg₂ List.append (complete_withSemicolons ended) unfinished
  rw [List.append_eq, List.append_eq, ← List.map_append] at fragments
  dsimp only
  rw [Terminator.map_toSemicolon unended, List.isEmpty_map, fragments, foldl_withSemicolon]
  rfl

end Framer

namespace Dialogue

variable {d : Dialogue} {t : Terminator}

theorem terminator_handle (own : d.framer.terminator = t) (x : Fragment) :
    (d.handle x).2.framer.terminator = t := by
  rw [framer_handle, own]

/-- The dialogue as it is where statements end in semicolons. -/
def withSemicolons (d : Dialogue) : Dialogue :=
  { d with framer := d.framer.withSemicolons }

/-- Statements are read with semicolons, whatever their terminator is. -/
theorem handle_withSemicolons (own : d.framer.terminator = t) (x : Fragment) :
    d.withSemicolons.handle (x.withSemicolon t) = ((d.handle x).1, (d.handle x).2.withSemicolons) := by
  unfold handle
  rw [show (x.withSemicolon t).isPartial = x.isPartial from rfl]
  split
  · rfl
  dsimp only
  rw [show d.withSemicolons.framer.terminator = .semicolon from rfl,
    Terminator.withSemicolon_semicolon, own]
  have read : d.withSemicolons.session.parseStatement
      (d.withSemicolons.heldBack ++ (x.withSemicolon t).text) =
    d.session.parseStatement (d.heldBack ++ t.withSemicolon x.text) := rfl
  rw [read]
  rcases d.session.parseStatement (d.heldBack ++ t.withSemicolon x.text) with
    ⟨_ | _ | _, session⟩ <;> rfl

end Dialogue

namespace Shell

variable (shell : Shell) {t : Terminator} {d : Dialogue}

/-- The shell as it is where statements end in semicolons. -/
def withSemicolons : Shell :=
  { shell with terminator := .semicolon }

/-- Fragments are answered as they are with semicolons. The sink may be full at any time. -/
theorem replyAll_withSemicolons (own : d.framer.terminator = t) (sink : Sink) (xs : List Fragment) :
    shell.withSemicolons.replyAll d.withSemicolons sink (xs.map (Fragment.withSemicolon t)) =
      ((shell.replyAll d sink xs).1, (shell.replyAll d sink xs).2.1.withSemicolons,
        (shell.replyAll d sink xs).2.2) := by
  induction xs generalizing d sink with
  | nil => rfl
  | cons x xs ih =>
    have kept := Dialogue.terminator_handle own x
    rw [List.map_cons, replyAll, replyAll, Dialogue.handle_withSemicolons own]
    dsimp only
    rw [show shell.withSemicolons.report = shell.report from rfl]
    generalize sink.write _ = written
    obtain ⟨message | ⟨⟩, sink⟩ := written
    · rfl
    · exact ih kept sink

/-- So are lines, by induction on them: the terminator of the dialogue stays what it is. -/
theorem converse_withSemicolons (turns : Nat → Turn) (n : Nat) (own : d.framer.terminator = t)
    (sink : Sink) {lines : List String} (free : ∀ line ∈ lines, ';' ∉ line.toList) :
    shell.withSemicolons.converse turns n d.withSemicolons sink
        ((lines.map (String.map t.toSemicolon)).map .ok) =
      shell.converse turns n d sink (lines.map .ok) := by
  induction lines generalizing n d sink with
  | nil =>
    unfold converse
    rfl
  | cons line lines ih =>
    obtain ⟨first, others⟩ := List.forall_mem_cons.mp free
    have pushed := Framer.pushLine_withSemicolons (f := d.framer) first
    rw [own] at pushed
    unfold converse
    rw [show shell.withSemicolons.prompt d.withSemicolons = shell.prompt d from rfl]
    split
    · rfl
    generalize sink.write (shell.prompt d) = written
    obtain ⟨message | ⟨⟩, sink⟩ := written
    · rfl
    simp only [List.map_cons]
    split
    · rfl
    rw [show d.withSemicolons.framer = d.framer.withSemicolons from rfl, pushed]
    have framed : ({ d with framer := (d.framer.pushLine line).2 } : Dialogue).framer.terminator = t := own
    have answered := shell.replyAll_withSemicolons framed sink (d.framer.pushLine line).1
    have kept := shell.framer_replyAll { d with framer := (d.framer.pushLine line).2 } sink
      (d.framer.pushLine line).1
    have same : ({ d.withSemicolons with framer := (d.framer.pushLine line).2.withSemicolons } : Dialogue) =
      Dialogue.withSemicolons { d with framer := (d.framer.pushLine line).2 } := rfl
    dsimp only
    rw [same, answered, List.length_map]
    generalize shell.replyAll _ sink (d.framer.pushLine line).1 = outcome at kept ⊢
    obtain ⟨message | ⟨⟩, d', sink'⟩ := outcome
    · rfl
    · exact ih _ ((congrArg Framer.terminator kept).trans framed) sink' others

end Shell

/-- Which character ends statements is of no account. Where no semicolon stands, a text is
answered as the text in which semicolons stand in the places of the terminators: the same is
written, prompts and reports included, the same counted, and the session is the same then.
That goes for terminators in comments too, and for statements that are held back for them. -/
theorem Shell.run_of_semicolons (shell : Shell) (session : Session) (sink : Sink) (isCanceled : Bool)
    {text : String} (free : ';' ∉ text.toList) :
    shell.run session sink isCanceled (inputLines text.toUTF8) =
      shell.withSemicolons.run session sink isCanceled
        (inputLines (text.map shell.terminator.toSemicolon).toUTF8) := by
  rw [inputLines_toUTF8, inputLines_toUTF8, Text.linesOf_map shell.terminator.keepsBreaks_toSemicolon,
    run_eq_converse, run_eq_converse]
  refine (shell.converse_withSemicolons _ 0 (d := shell.start session) rfl sink
    fun line member => ?_).symm
  exact fun inLine => free (Text.mem_of_mem_linesOf member inLine)

/-- A terminator of three bytes, once in a comment, where a statement is held back for it, and
once too early. -/
theorem Shell.euro_sign_ends_statements :
    let shell := { uncolored with terminator := { symbol := '€', isVisible := by decide } }
    let text := "def f(x) # 1€\nx + 2€ f(3€\n"
    let written := text.map shell.terminator.toSemicolon
    ';' ∉ text.toList ∧ written = "def f(x) # 1;\nx + 2; f(3;\n" ∧
      shell.run (.new {}) {} false (inputLines text.toUTF8) =
        shell.withSemicolons.run (.new {}) {} false (inputLines written.toUTF8) ∧
      (shell.run (.new {}) {} false (inputLines text.toUTF8)).result.toOption =
        some { parsed := 1, failed := 1 } := by
  intro shell text written
  have free : ';' ∉ text.toList := by decide
  have semicolons : written = "def f(x) # 1;\nx + 2; f(3;\n" :=
    String.toList_inj.mp ((String.toList_map ..).trans (by decide))
  refine ⟨free, semicolons, shell.run_of_semicolons (.new {}) {} false free, ?_⟩
  rw [run_eq_converse]
  decide +kernel

end OpenExpr
