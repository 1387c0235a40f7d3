import OpenExpr.Proofs.Placement.Source
import OpenExpr.Text.Cut

namespace OpenExpr

namespace Lexeme

namespace Scanner

/-- The scanner with lexemes that were read before. -/
def onto (s : Scanner) (before : List Lexeme) : Scanner :=
  { s with done := s.done ++ before }

/-- What comes of a reading, with lexemes that were read before. -/
def resultOnto (before : List Lexeme) (r : Except Stray Scanner) : Except Stray Scanner :=
  r.map fun t => t.onto before

variable {s t : Scanner}

theorem flush_onto (s : Scanner) (before : List Lexeme) :
    (s.onto before).flush = s.flush.onto before := by
  simp [flush, onto, lexeme?]

theorem start_onto (s : Scanner) (before : List Lexeme) (c : Char) :
    (s.onto before).start c = resultOnto before (s.start c) := by
  unfold start
  rw [flush_onto]
  simp only [apply_ite (resultOnto before)]
  rfl

/-- What was read before has no say in what is read. -/
theorem feed_onto (s : Scanner) (before : List Lexeme) (c : Char) :
    (s.onto before).feed c = resultOnto before (s.feed c) := by
  have started := s.start_onto before c
  obtain ⟨offset, pending, done⟩ := s
  cases pending <;> simp only [feed, onto, apply_ite (resultOnto before)]
  case nothing => exact started
  case comment => exact ite_congr rfl (fun _ => started) fun _ => rfl
  case word => exact ite_congr rfl (fun _ => rfl) fun _ => started
  case whole => exact ite_congr rfl (fun _ => rfl) fun _ => ite_congr rfl (fun _ => rfl) fun _ => started
  case point => exact ite_congr rfl (fun _ => rfl) fun _ => started
  case fraction => exact ite_congr rfl (fun _ => rfl) fun _ => started

theorem read_onto (s : Scanner) (before : List Lexeme) (text : List Char) :
    (s.onto before).read text = resultOnto before (s.read text) := by
  induction text generalizing s with
  | nil => rfl
  | cons c text ih =>
    rw [read_cons, read_cons, feed_onto]
    cases s.feed c with
    | error e => rfl
    | ok t => exact ih t

/-- A scanner between two lexemes reads as a new one does. -/
theorem read_of_nothing (idle : s.pending = .nothing) {text : List Char} (run : s.read text = .ok t) :
    ∃ u, Scanner.read {} text = .ok u ∧ t.unplaced = (u.onto s.done).unplaced := by
  have fresh : s.unplaced = (onto {} s.done).unplaced := by
    simp only [unplaced, onto, idle, List.nil_append]
  have outcomes := SameReading.refl text s (onto {} s.done) fresh
  rw [run, read_onto] at outcomes
  cases first : Scanner.read {} text with
  | error e =>
    rw [first] at outcomes
    cases outcomes
  | ok u =>
    rw [first] at outcomes
    exact ⟨u, rfl, Except.ok.inj outcomes⟩

theorem start_done {c : Char} (run : s.start c = .ok t) : t.done = s.flush.done ∨
    t.done = { shape := .mark, text := String.singleton c, offset := s.offset } :: s.flush.done := by
  unfold start at run
  dsimp only at run
  repeat' split at run
  all_goals cases run <;> first | exact .inl rfl | exact .inr rfl

/-- What a character does to the lexemes that are done. -/
theorem feed_done {c : Char} (run : s.feed c = .ok t) : t.done = s.done ∨ t.done = s.flush.done ∨
    t.done = { shape := .mark, text := String.singleton c, offset := s.offset } :: s.flush.done := by
  unfold feed at run
  repeat' split at run
  all_goals first
    | exact .inr (start_done run)
    | cases run; exact .inl rfl

theorem start_pending {c : Char} (run : s.start c = .ok t) (other : c ≠ '#') :
    t.pending ≠ .comment := by
  unfold start at run
  dsimp only at run
  repeat' split at run
  all_goals cases run <;> exact Pending.noConfusion

theorem feed_pending {c : Char} (run : s.feed c = .ok t) (code : s.pending ≠ .comment) (other : c ≠ '#') :
    t.pending ≠ .comment := by
  unfold feed at run
  repeat' split at run
  all_goals first
    | exact start_pending run other
    | cases run; first | exact Pending.noConfusion | exact absurd ‹_› code

/-- Without a number sign there is no comment. -/
theorem read_pending {text : List Char} (run : s.read text = .ok t) (code : s.pending ≠ .comment)
    (uncommented : '#' ∉ text) : t.pending ≠ .comment := by
  induction text generalizing s with
  | nil =>
    cases run
    exact code
  | cons c text ih =>
    obtain ⟨other, uncommented⟩ := not_or.mp (mt List.mem_cons.mpr uncommented)
    rw [read_cons] at run
    cases first : s.feed c with
    | error e =>
      rw [first] at run
      cases run
    | ok u =>
      rw [first] at run
      exact ih run (feed_pending first code (Ne.symm other)) uncommented

/-- A lexeme that may go on is no semicolon. -/
theorem kind_of_lexeme? {l : Lexeme} (found : s.lexeme? = some l) (level : Level) :
    l.kind level ≠ .semicolon := by
  unfold lexeme? at found
  split at found <;> cases found
  · unfold Lexeme.kind
    dsimp only
    cases Keyword.ofText? level _ <;> exact Token.Kind.noConfusion
  · exact Token.Kind.noConfusion
  · exact Token.Kind.noConfusion
  · exact (by decide : Token.Kind.ofMark "." ≠ .semicolon)

/-- No semicolon was read so far. -/
def HasNoSemicolon (level : Level) (s : Scanner) : Prop :=
  ∀ l ∈ s.done, l.kind level ≠ .semicolon

theorem HasNoSemicolon.flush {level : Level} (none : s.HasNoSemicolon level) :
    s.flush.HasNoSemicolon level := by
  intro l member
  rcases List.mem_append.mp member with last | old
  · exact kind_of_lexeme? (Option.mem_toList.mp last) level
  · exact none l old

theorem HasNoSemicolon.feed {level : Level} (none : s.HasNoSemicolon level) {c : Char}
    (run : s.feed c = .ok t) (other : c ≠ ';') : t.HasNoSemicolon level := by
  unfold HasNoSemicolon
  rcases feed_done run with same | flushed | mark
  · rw [same]
    exact none
  · rw [flushed]
    exact none.flush
  · rw [mark]
    refine List.forall_mem_cons.mpr ⟨fun semicolon => other ?_, none.flush⟩
    change Token.Kind.ofMark (String.singleton c) = .semicolon at semicolon
    have same : String.singleton c = ";" := by
      by_contra different
      simp only [Token.Kind.ofMark, if_neg different] at semicolon
      split_ifs at semicolon
    simpa using congrArg String.toList same

theorem HasNoSemicolon.read {level : Level} (none : s.HasNoSemicolon level) {text : List Char}
    (run : s.read text = .ok t) (other : ';' ∉ text) : t.HasNoSemicolon level := by
  induction text generalizing s with
  | nil =>
    cases run
    exact none
  | cons c text ih =>
    obtain ⟨first, others⟩ := not_or.mp (mt List.mem_cons.mpr other)
    rw [read_cons] at run
    cases fed : s.feed c with
    | error e =>
      rw [fed] at run
      cases run
    | ok u =>
      rw [fed] at run
      exact ih (none.feed fed (Ne.symm first)) run others

/-- The words that were read, without their places. -/
def words (level : Level) (s : Scanner) : List (Token.Kind × String) :=
  s.lexemes.map fun l => (l.kind level, l.text)

theorem words_unplaced (level : Level) {s t : Scanner} (same : s.unplaced = t.unplaced) :
    s.words level = t.words level := by
  have spelled (s : Scanner) : s.words level =
      (s.unplaced.lexemes.map Lexeme.unplaced).map fun l => (l.kind level, l.text) := by
    rw [lexemes_unplaced, List.map_map]
    rfl
  rw [spelled, spelled, same]

theorem lexemes_onto (s : Scanner) (before : List Lexeme) :
    (s.onto before).lexemes = before.reverse ++ s.lexemes := by
  have lexeme : (s.onto before).lexeme? = s.lexeme? := rfl
  rw [lexemes, lexeme]
  simp [lexemes, onto]

theorem words_onto (level : Level) (s : Scanner) (before : List Lexeme) : (s.onto before).words level =
    before.reverse.map (fun l => (l.kind level, l.text)) ++ s.words level := by
  rw [words, lexemes_onto, List.map_append]
  rfl

theorem feed_semicolon (code : s.pending ≠ .comment) : s.feed ';' =
    .ok { s.flush.moveTo ';' .nothing with
      done := { shape := .mark, text := ";", offset := s.offset } :: s.flush.done } := by
  have start := start_mark s (c := ';') (by decide) (by decide) (by decide) (by decide)
  unfold feed
  split <;> first | exact start | exact absurd ‹_› code

/-- A piece of code up to a semicolon is words up to a semicolon. -/
theorem read_piece {body : List Char} (uncommented : '#' ∉ body) (none : ';' ∉ body)
    (run : Scanner.read {} (body ++ [';']) = .ok t) (level : Level) :
    t.pending = .nothing ∧ ∃ ws, t.words level = ws ++ [(.semicolon, ";")] ∧
      ∀ w ∈ ws, w.1 ≠ .semicolon := by
  have fresh : ({} : Scanner).pending ≠ .comment := Pending.noConfusion
  rw [read_append] at run
  cases first : Scanner.read {} body with
  | error e =>
    rw [first] at run
    cases run
  | ok s =>
    rw [first] at run
    have code := read_pending first fresh uncommented
    have free := (show ({} : Scanner).HasNoSemicolon level by simp [HasNoSemicolon]).read first none
    change (s.read [';']) = .ok t at run
    rw [read_cons, feed_semicolon code] at run
    cases run
    refine ⟨rfl, s.flush.done.reverse.map fun l => (l.kind level, l.text), ?_, ?_⟩
    · simp [words, lexemes, lexeme?, moveTo, Lexeme.kind, Token.Kind.ofMark]
    · intro w member
      obtain ⟨l, found, rfl⟩ := List.mem_map.mp member
      exact free.flush l (List.mem_reverse.mp found)

theorem words_append {s t u : Scanner} (level : Level) (idle : s.pending = .nothing)
    (later : t.unplaced = (u.onto s.done).unplaced) :
    t.words level = s.words level ++ u.words level := by
  have first : s.words level = s.done.reverse.map fun l => (l.kind level, l.text) := by
    simp [words, lexemes, lexeme?, idle]
  rw [words_unplaced level later, words_onto, first]

theorem words_free {rest : List Char} (none : ';' ∉ rest) (run : Scanner.read {} rest = .ok t)
    (level : Level) : ∀ w ∈ t.words level, w.1 ≠ .semicolon := by
  have fresh : ({} : Scanner).HasNoSemicolon level := by simp [HasNoSemicolon]
  intro w member
  obtain ⟨l, found, rfl⟩ := List.mem_map.mp member
  exact (fresh.read run none).flush l (List.mem_reverse.mp found)

/-- Code is cut in front of what follows a semicolon, and so are its words. -/
theorem cutAfter_words (level : Level) {pieces : List (List Char)} {rest : List Char}
    (each : ∀ piece ∈ pieces, ∃ body, piece = body ++ [';'] ∧ ';' ∉ body ∧ '#' ∉ body)
    (none : ';' ∉ rest) (run : Scanner.read {} (pieces.flatten ++ rest) = .ok t) :
    ∃ u ws, Scanner.read {} rest = .ok u ∧
      Text.cutAfter (fun w => w.1 == .semicolon) (t.words level) = (ws, u.words level) ∧
      List.Forall₂ (fun piece w => ∃ v, Scanner.read {} piece = .ok v ∧ v.words level = w) pieces ws := by
  induction pieces generalizing t with
  | nil =>
    refine ⟨t, [], run, ?_, .nil⟩
    exact Text.cutAfter_append_left _ (fun w member => by simpa using words_free none run level w member) []
  | cons piece pieces ih =>
    obtain ⟨⟨body, rfl, single, uncommented⟩, others⟩ := List.forall_mem_cons.mp each
    rw [List.flatten_cons, List.append_assoc, read_append] at run
    cases first : Scanner.read {} (body ++ [';']) with
    | error e =>
      rw [first] at run
      cases run
    | ok v =>
      rw [first] at run
      obtain ⟨idle, w, spelled, free⟩ := read_piece uncommented single first level
      obtain ⟨t', run', later⟩ := read_of_nothing idle (show v.read _ = .ok t from run)
      obtain ⟨u, ws, left, cut, same⟩ := ih others run'
      refine ⟨u, v.words level :: ws, left, ?_, .cons ⟨v, first, rfl⟩ same⟩
      rw [words_append level idle later, spelled, List.append_assoc, List.singleton_append,
        Text.cutAfter_piece _ (fun w member => by simpa using free w member) (by simp), cut]

end Scanner

end Lexeme

end OpenExpr
