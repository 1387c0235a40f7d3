import OpenExpr.Proofs.Token.Layout
import OpenExpr.Proofs.Token.Prefix

namespace OpenExpr

namespace Lexeme

/-- What may stand outside comments: white space, the letters and digits of ASCII, the
underscore, and the punctuation of ASCII. -/
def isLexical (c : Char) : Bool :=
  Text.isBlank c || c.isAlphanum || c == '_' || isMark c

/-- The first character outside comments that may not stand there. -/
def firstStray? (inComment : Bool) (offset : Nat) (text : List Char) : Option Stray :=
  ((Text.outsideComments inComment offset text).find? fun p => !isLexical p.2).map
    fun p => { char := p.2, offset := p.1 }

namespace Scanner

variable {s t : Scanner} {c : Char}

theorem read_cons_ok (run : s.feed c = .ok t) (text : List Char) : s.read (c :: text) = t.read text := by
  rw [read_cons, run]
  rfl

theorem offset_start (run : s.start c = .ok t) : t.offset = s.offset + c.utf8Size := by
  unfold start at run
  dsimp only at run
  repeat' split at run
  all_goals cases run <;> rfl

theorem offset_feed (run : s.feed c = .ok t) : t.offset = s.offset + c.utf8Size := by
  unfold feed at run
  repeat' split at run
  all_goals first
    | exact offset_start run
    | cases run; rfl

theorem start_of_isLexical (s : Scanner) (lexical : isLexical c = true) : ∃ t, s.start c = .ok t := by
  unfold start
  dsimp only
  repeat' split
  · exact ⟨_, rfl⟩
  · exact ⟨_, rfl⟩
  · exact ⟨_, rfl⟩
  · exact ⟨_, rfl⟩
  · exact ⟨_, rfl⟩
  · exact ⟨_, rfl⟩
  · simp_all [isLexical, isWordStart, Char.isAlphanum]

theorem start_of_stray (s : Scanner) (stray : isLexical c = false) :
    s.start c = .error { char := c, offset := s.offset } := by
  simp only [isLexical, Char.isAlphanum, Bool.or_eq_false_iff, beq_eq_false_iff_ne] at stray
  obtain ⟨⟨⟨noBlank, noLetter, noDigit⟩, noUnderscore⟩, noMark⟩ := stray
  have noComment : c ≠ '#' := fun same => by simp [same, isMark] at noMark
  have noPoint : c ≠ '.' := fun same => by simp [same, isMark] at noMark
  simp [start, isWordStart, noBlank, noLetter, noDigit, noUnderscore, noMark, noComment, noPoint,
    flush]

/-- Outside a comment a character is read exactly if it may stand there. -/
theorem feed_code (code : s.pending = .comment → c = '\n') :
    (isLexical c = true → ∃ t, s.feed c = .ok t) ∧
      (isLexical c = false → s.feed c = .error { char := c, offset := s.offset }) := by
  have started := And.intro (s.start_of_isLexical (c := c)) (s.start_of_stray (c := c))
  have wordRest : isLexical c = false → isWordRest c = false := by
    simp only [isLexical, isWordRest, Bool.or_eq_false_iff]
    exact fun stray => ⟨stray.1.1.2, stray.1.2⟩
  have digit : isLexical c = false → c.isDigit = false := by
    simp only [isLexical, Char.isAlphanum, Bool.or_eq_false_iff]
    exact fun stray => stray.1.1.2.2
  have point : isLexical c = false → c ≠ '.' := by
    rintro stray rfl
    cases stray
  unfold feed
  cases pending : s.pending <;> dsimp only
  case nothing => exact started
  case comment =>
    rw [if_pos (code pending)]
    exact started
  all_goals
    refine ⟨fun lexical => ?_, fun stray => ?_⟩
    · repeat' split
      all_goals first
        | exact ⟨_, rfl⟩
        | exact started.1 lexical
    · simp only [wordRest stray, digit stray, point stray]
      exact started.2 stray

theorem pending_feed (run : s.feed c = .ok t) (code : s.pending = .comment → c = '\n') :
    t.pending = .comment ↔ c = '#' := by
  constructor
  · intro comment
    by_contra other
    by_cases inside : s.pending = .comment
    · rw [code inside, feed_newline] at run
      cases run
      cases comment
    · exact feed_pending run inside other comment
  · rintro rfl
    obtain ⟨u, run', comment⟩ := s.feed_numberSign
    rw [run] at run'
    cases run'
    exact comment

/-- What a reading stopped at, if it did. -/
def stray? : Except Stray Scanner → Option Stray
  | .ok _ => none
  | .error e => some e

/-- A text is read up to the first character outside comments that may not stand there. -/
theorem stray?_read (s : Scanner) (text : List Char) :
    stray? (s.read text) = firstStray? (decide (s.pending = .comment)) s.offset text := by
  induction text generalizing s with
  | nil => rfl
  | cons c text ih =>
    by_cases inside : s.pending = .comment ∧ c ≠ '\n'
    · obtain ⟨comment, other⟩ := inside
      have run : s.feed c = .ok (s.moveTo c .comment) := by
        simp only [feed, comment, if_neg other]
      rw [read_cons_ok run, ih, firstStray?, firstStray?, decide_eq_true comment,
        Text.outsideComments_comment other]
      rfl
    · have code : s.pending = .comment → c = '\n' := by tauto
      obtain ⟨reads, fails⟩ := feed_code code
      rw [firstStray?, Text.outsideComments_code (by simpa using code)]
      cases lexical : isLexical c with
      | true =>
        obtain ⟨t, run⟩ := reads lexical
        rw [read_cons_ok run, ih, offset_feed run, firstStray?]
        simp only [pending_feed run code]
        split
        · simp [*]
        · simp [*]
      | false =>
        have other : c ≠ '#' := by
          rintro rfl
          cases lexical
        rw [read_cons, fails lexical, if_neg other]
        simp [lexical, stray?, Except.bind]

end Scanner

theorem stray?_eq_some {r : Except Stray Scanner} {e : Stray} :
    Scanner.stray? r = some e ↔ r = .error e := by
  cases r <;> simp [Scanner.stray?]

/-- A source is refused at its first character outside comments that may not stand there. -/
theorem ofSource_eq_error_iff {source : String} {e : Stray} :
    ofSource source = .error e ↔ firstStray? false 0 source.toList = some e := by
  have stopped := Scanner.stray?_read {} source.toList
  have code : decide (({} : Scanner).pending = .comment) = false := rfl
  rw [code] at stopped
  rw [← stopped, stray?_eq_some, ofSource]
  cases Scanner.read {} source.toList <;> simp [Except.map]

theorem firstStray?_eq_none_iff {inComment : Bool} {offset : Nat} {text : List Char} :
    firstStray? inComment offset text = none ↔
      ∀ p ∈ Text.outsideComments inComment offset text, isLexical p.2 = true := by
  simp [firstStray?]

theorem firstStray?_eq_some {inComment : Bool} {offset : Nat} {text : List Char}
    {before after : List (Nat × Char)} {p : Nat × Char}
    (split : Text.outsideComments inComment offset text = before ++ p :: after)
    (good : ∀ q ∈ before, isLexical q.2 = true) (bad : isLexical p.2 = false) :
    firstStray? inComment offset text = some { char := p.2, offset := p.1 } := by
  have none : before.find? (fun p => !isLexical p.2) = none := by
    simpa using good
  simp [firstStray?, split, List.find?_append, none, bad]

end Lexeme

end OpenExpr
