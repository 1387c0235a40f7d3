import OpenExpr.Proofs.Grammar.Acceptance

namespace OpenExpr

namespace Lexeme

def unplaced (l : Lexeme) : Lexeme :=
  { l with offset := 0 }

def Pending.unplaced : Pending → Pending
  | .nothing => .nothing
  | .comment => .comment
  | .word _ text => .word 0 text
  | .whole _ digits => .whole 0 digits
  | .point _ => .point 0
  | .fraction _ digits => .fraction 0 digits

namespace Scanner

def unplaced (s : Scanner) : Scanner :=
  { pending := s.pending.unplaced, done := s.done.map Lexeme.unplaced }

/-- What comes of a reading, without the places. -/
def outcome : Except Stray Scanner → Except Char Scanner
  | .ok s => .ok s.unplaced
  | .error stray => .error stray.char

theorem unplaced_done (s : Scanner) : s.unplaced.done.map Lexeme.unplaced = s.unplaced.done :=
  List.map_map

theorem lexeme?_unplaced (s : Scanner) : s.unplaced.lexeme? = s.lexeme?.map Lexeme.unplaced := by
  obtain ⟨_, pending, _⟩ := s
  cases pending <;> rfl

theorem done_flush_unplaced (s : Scanner) :
    s.flush.done.map Lexeme.unplaced = s.unplaced.flush.done.map Lexeme.unplaced := by
  simp only [flush, List.map_append, lexeme?_unplaced, unplaced_done]
  congr 1
  cases s.lexeme? <;> rfl

theorem outcome_start (s : Scanner) (c : Char) : outcome (s.start c) = outcome (s.unplaced.start c) := by
  have done := s.done_flush_unplaced
  have moved (p p' : Pending) (same : p.unplaced = p'.unplaced) :
      outcome (.ok (s.flush.moveTo c p)) = outcome (.ok (s.unplaced.flush.moveTo c p')) := by
    simp only [outcome, unplaced, moveTo, same, done]
  unfold start
  simp only [apply_ite outcome]
  refine ite_congr rfl (fun _ => moved _ _ rfl) fun _ => ?_
  refine ite_congr rfl (fun _ => moved _ _ rfl) fun _ => ?_
  refine ite_congr rfl (fun _ => moved _ _ rfl) fun _ => ?_
  refine ite_congr rfl (fun _ => moved _ _ rfl) fun _ => ?_
  refine ite_congr rfl (fun _ => moved _ _ rfl) fun _ => ?_
  refine ite_congr rfl (fun _ => ?_) fun _ => rfl
  simp only [outcome, unplaced, moveTo, List.map_cons, done]
  rfl

/-- What a character does does not depend on where it stands. -/
theorem outcome_feed (s : Scanner) (c : Char) : outcome (s.feed c) = outcome (s.unplaced.feed c) := by
  have started := s.outcome_start c
  have moved (p p' : Pending) (same : p.unplaced = p'.unplaced) :
      outcome (.ok (s.moveTo c p)) = outcome (.ok (s.unplaced.moveTo c p')) := by
    simp only [outcome, unplaced, moveTo, same, List.map_map]
    rfl
  obtain ⟨offset, pending, done⟩ := s
  cases pending <;> simp only [feed, unplaced, Pending.unplaced, apply_ite outcome]
  case nothing => exact started
  case comment => exact ite_congr rfl (fun _ => started) fun _ => moved _ _ rfl
  case word => exact ite_congr rfl (fun _ => moved _ _ rfl) fun _ => started
  case whole =>
    exact ite_congr rfl (fun _ => moved _ _ rfl) fun _ =>
      ite_congr rfl (fun _ => moved _ _ rfl) fun _ => started
  case point => exact ite_congr rfl (fun _ => moved _ _ rfl) fun _ => started
  case fraction => exact ite_congr rfl (fun _ => moved _ _ rfl) fun _ => started

theorem outcome_feed_eq {s s' : Scanner} (same : s.unplaced = s'.unplaced) (c : Char) :
    outcome (s.feed c) = outcome (s'.feed c) := by
  rw [outcome_feed, same, ← outcome_feed]

theorem outcome_eq_ok {r : Except Stray Scanner} {s : Scanner} :
    outcome r = .ok s ↔ ∃ t, r = .ok t ∧ t.unplaced = s := by
  cases r <;> simp [outcome]

/-- A number sign starts a comment wherever it stands. -/
theorem feed_numberSign (s : Scanner) : ∃ t, s.feed '#' = .ok t ∧ t.pending = .comment := by
  unfold feed
  cases s.pending <;> exact ⟨_, rfl, rfl⟩

theorem read_comment {s : Scanner} (comment : s.pending = .comment) {text : List Char}
    (inLine : '\n' ∉ text) : ∃ t, s.read text = .ok t ∧ t.unplaced = s.unplaced := by
  induction text generalizing s with
  | nil => exact ⟨s, rfl, rfl⟩
  | cons c text ih =>
    obtain ⟨other, inLine⟩ := not_or.mp (mt List.mem_cons.mpr inLine)
    have stays : s.feed c = .ok (s.moveTo c .comment) := by
      simp only [feed, comment, if_neg (Ne.symm other)]
    obtain ⟨t, run, same⟩ := ih (s := s.moveTo c .comment) rfl inLine
    refine ⟨t, by rw [read_cons, stays]; exact run, same.trans ?_⟩
    simp only [unplaced, moveTo, comment]

end Scanner

open Scanner

/-- Whatever stands before them, the same comes of reading either text. -/
def SameReading (a b : List Char) : Prop :=
  ∀ s s' : Scanner, s.unplaced = s'.unplaced → outcome (s.read a) = outcome (s'.read b)

namespace SameReading

variable {a a' b b' : List Char}

theorem append (first : SameReading a a') (second : SameReading b b') :
    SameReading (a ++ b) (a' ++ b') := by
  intro s s' same
  have front := first s s' same
  rw [read_append, read_append]
  cases left : s.read a <;> cases right : s'.read a' <;> simp only [left, right, outcome] at front
  · simpa only [Except.bind, outcome] using front
  · cases front
  · cases front
  · exact second _ _ (Except.ok.inj front)

theorem refl (a : List Char) : SameReading a a := by
  induction a with
  | nil => exact fun s s' same => congrArg Except.ok same
  | cons c a ih =>
    have one : SameReading [c] [c] := by
      intro s s' same
      have fed := outcome_feed_eq same c
      rw [read_cons, read_cons]
      cases left : s.feed c <;> cases right : s'.feed c <;> rw [left, right] at fed <;> exact fed
    exact one.append ih

theorem trans {c : List Char} (first : SameReading a b) (second : SameReading b c) : SameReading a c :=
  fun s s' same => (first s s' same).trans (second s' s' rfl)

/-- What stands in a comment does not count. -/
theorem comment (inLine : '\n' ∉ a) (inLine' : '\n' ∉ b) :
    SameReading ('#' :: a) ('#' :: b) := by
  intro s s' same
  obtain ⟨t, start, comment⟩ := s.feed_numberSign
  obtain ⟨t', start', comment'⟩ := s'.feed_numberSign
  obtain ⟨u, run, kept⟩ := read_comment comment inLine
  obtain ⟨u', run', kept'⟩ := read_comment comment' inLine'
  have begun := outcome_feed_eq same '#'
  rw [start, start'] at begun
  rw [read_cons, read_cons, start, start']
  change outcome (t.read a) = outcome (t'.read b)
  rw [run, run']
  exact congrArg Except.ok (kept.trans ((Except.ok.inj begun).trans kept'.symm))

end SameReading

theorem lexemes_unplaced (s : Scanner) :
    s.unplaced.lexemes.map unplaced = s.lexemes.map unplaced := by
  have done : s.unplaced.done.map unplaced = s.done.map unplaced := List.map_map
  simp only [Scanner.lexemes, List.map_reverse, List.map_append, lexeme?_unplaced, done]
  cases s.lexeme? <;> rfl

/-- The lexemes of texts that are read alike, or the character that none has. -/
theorem ofSource_alike {a b : String} (same : SameReading a.toList b.toList) :
    (∃ ls ls', ofSource a = .ok ls ∧ ofSource b = .ok ls' ∧ ls.map unplaced = ls'.map unplaced) ∨
      ∃ e e', ofSource a = .error e ∧ ofSource b = .error e' ∧ e.char = e'.char := by
  have outcomes := same {} {} rfl
  unfold ofSource
  cases left : Scanner.read {} a.toList <;> cases right : Scanner.read {} b.toList <;>
    simp only [left, right, outcome] at outcomes
  · exact .inr ⟨_, _, rfl, rfl, Except.error.inj outcomes⟩
  · cases outcomes
  · cases outcomes
  · refine .inl ⟨_, _, rfl, rfl, ?_⟩
    rw [← lexemes_unplaced, Except.ok.inj outcomes, lexemes_unplaced]

end Lexeme

/-- The end of a list of tokens is the same wherever it is. -/
theorem Token.alike_end {t t' : Token} (finish : t.kind = .endOfInput) (kind : t.kind = t'.kind)
    (text : t.text = t'.text) : t.Alike t' where
  kind := kind
  text := text
  plain name := by simp [finish] at name
  sign operator := by simp [finish] at operator

theorem Lexeme.allLexed_of_ofSource {source : String} {lexemes : List Lexeme}
    (read : ofSource source = .ok lexemes) (file : String) (level : Level) :
    AllLexed level (lexemes.map (toToken file level)) := by
  intro t member
  obtain ⟨l, found, rfl⟩ := List.mem_map.mp member
  exact ⟨l, isSpelled_of_mem_ofSource read found, rfl, rfl⟩

theorem allLexed_of_tokenize {level : Level} {file text : String} {tokens : List Token} {finish : Token}
    (run : tokenize level file text = .ok (tokens ++ [finish])) :
    AllLexed level tokens ∧ finish.kind = .endOfInput := by
  obtain ⟨_, _, split, final, lexed⟩ := tokenize_ok run
  obtain ⟨rfl, last⟩ := List.append_inj' split rfl
  cases last
  exact ⟨lexed, final⟩

theorem Lexeme.spelling_toToken {ls ls' : List Lexeme} (same : ls.map unplaced = ls'.map unplaced)
    (level : Level) (file file' : String) : (ls.map (toToken file level)).map Token.spelling =
      (ls'.map (toToken file' level)).map Token.spelling := by
  have spelled (file : String) (ls : List Lexeme) :
      (ls.map (toToken file level)).map Token.spelling =
        (ls.map unplaced).map fun l => (l.kind level, l.text) := by
    rw [List.map_map, List.map_map]
    rfl
  rw [spelled, spelled, same]

/-- Texts that are read alike have the same tokens but for their places, or fail for
the same cause. -/
theorem tokenize_alike {a b : String} (same : Lexeme.SameReading a.toList b.toList) (level : Level)
    (file file' : String) :
    (∃ ts ts', tokenize level file a = .ok ts ∧ tokenize level file' b = .ok ts' ∧
        (TokenStream.ofTokens file ts).Alike (.ofTokens file' ts')) ∨
      ∃ e e', tokenize level file a = .error e ∧ tokenize level file' b = .error e' ∧
        e.cause = e'.cause := by
  unfold tokenize
  rcases Lexeme.ofSource_alike same with ⟨ls, ls', read, read', lexemes⟩ | ⟨e, e', read, read', char⟩
  · have lexed := Lexeme.allLexed_of_ofSource read file level
    have lexed' := Lexeme.allLexed_of_ofSource read' file' level
    rw [read, read']
    refine .inl ⟨_, _, rfl, rfl, ?_⟩
    rw [ofTokens_body file lexed rfl, ofTokens_body file' lexed' rfl]
    exact ⟨lexed.alike (Lexeme.spelling_toToken lexemes level file file'), Token.alike_end rfl rfl rfl⟩
  · rw [read, read']
    exact .inr ⟨_, _, rfl, rfl, by rw [char]⟩

end OpenExpr
