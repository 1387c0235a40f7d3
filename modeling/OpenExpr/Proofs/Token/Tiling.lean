import OpenExpr.Proofs.Token.Stray

namespace OpenExpr

namespace Lexeme

/-- Where a lexeme starts, and its text. -/
def place (l : Lexeme) : Nat × String :=
  (l.offset, l.text)

namespace Scanner

variable {s t : Scanner} {c : Char}

/-- The lexemes that are done and what is pending after them lay out the text. -/
inductive HasRead (s : Scanner) : List Char → Prop
  | idle {a} : s.pending = .nothing → Text.Tiles a (s.done.reverse.map place) → HasRead s a
  | comment {a comment} : s.pending = .comment → '\n' ∉ comment →
      Text.Tiles a (s.done.reverse.map place) → HasRead s (a ++ '#' :: comment)
  | lexeme {a l} : s.lexeme? = some l → l.text ≠ "" → l.offset = Text.byteCount a →
      Text.Tiles a (s.done.reverse.map place) → HasRead s (a ++ l.text.toList)

variable {text : List Char}

theorem lexeme?_of_comment (comment : s.pending = .comment) : s.lexeme? = none := by
  simp [lexeme?, comment]

theorem lexeme?_of_nothing (idle : s.pending = .nothing) : s.lexeme? = none := by
  simp [lexeme?, idle]

/-- Lexemes that are complete lay out the text, and only a comment does not count as one. -/
theorem HasRead.flush (h : s.HasRead text) (code : s.pending ≠ .comment) :
    Text.Tiles text (s.flush.done.reverse.map place) := by
  cases h with
  | idle idle tiles => simpa [Scanner.flush, lexeme?_of_nothing idle] using tiles
  | comment comment => exact absurd comment code
  | lexeme found some starts tiles =>
    have longer := tiles.word some
    rw [← starts] at longer
    simpa [Scanner.flush, found, place] using longer

theorem HasRead.isTiled (h : s.HasRead text) : Text.IsTiled text (s.lexemes.map place) := by
  have all : s.lexemes = s.flush.done.reverse := rfl
  by_cases comment : s.pending = .comment
  · cases h with
    | idle idle => simp [idle] at comment
    | @comment a inLine _ noBreak tiles =>
      refine .inr ⟨a, inLine, rfl, noBreak, ?_⟩
      simpa [Scanner.lexemes, lexeme?_of_comment comment] using tiles
    | lexeme found => simp [lexeme?_of_comment comment] at found
  · rw [all]
    exact .inl (h.flush comment)

/-- A character after complete lexemes. -/
theorem HasRead.start (tiles : Text.Tiles text (s.flush.done.reverse.map place))
    (reached : s.offset = Text.byteCount text) (run : s.start c = .ok t) : t.HasRead (text ++ [c]) := by
  have begun {pending : Pending} {l : Lexeme} (found : (s.flush.moveTo c pending).lexeme? = some l)
      (one : l.text.toList = [c]) (starts : l.offset = s.offset) :
      (s.flush.moveTo c pending).HasRead (text ++ [c]) := by
    have some : l.text ≠ "" := by
      intro none
      simp [none] at one
    rw [← one]
    exact .lexeme found some (starts.trans reached) tiles
  unfold Scanner.start at run
  dsimp only at run
  split at run
  · rename_i blank
    cases run
    exact .idle rfl (tiles.blank blank)
  split at run
  · rename_i sign
    cases run
    rw [sign]
    exact .comment rfl (by simp) tiles
  split at run
  · cases run
    exact begun rfl (by simp) rfl
  split at run
  · cases run
    exact begun rfl (by simp) rfl
  split at run
  · rename_i point
    cases run
    exact begun rfl (by simp [point]) rfl
  split at run
  · cases run
    refine .idle rfl ?_
    have some : String.singleton c ≠ "" := by
      intro none
      have := congrArg String.toList none
      simp at this
    have longer := tiles.word some
    rw [← reached] at longer
    have here : s.flush.offset = s.offset := rfl
    simpa [place, here] using longer
  · cases run

/-- A lexeme goes on with a character, or the character starts afresh. -/
theorem feed_lexeme {l : Lexeme} (found : s.lexeme? = some l) (run : s.feed c = .ok t) :
    s.start c = .ok t ∨ t.done = s.done ∧ ∃ l', t.lexeme? = some l' ∧ l'.offset = l.offset ∧
      l'.text.toList = l.text.toList ++ [c] := by
  obtain ⟨offset, pending, done⟩ := s
  cases pending with
  | nothing => cases found
  | comment => cases found
  | word start text =>
    cases found
    simp only [Scanner.feed] at run
    split at run
    · cases run
      exact .inr ⟨rfl, _, rfl, rfl, by simp⟩
    · exact .inl run
  | whole start digits =>
    cases found
    simp only [Scanner.feed] at run
    split at run
    · cases run
      exact .inr ⟨rfl, _, rfl, rfl, by simp⟩
    split at run
    · cases run
      exact .inr ⟨rfl, _, rfl, rfl, by simp⟩
    · exact .inl run
  | point start =>
    cases found
    simp only [Scanner.feed] at run
    split at run
    · cases run
      exact .inr ⟨rfl, _, rfl, rfl, by simp⟩
    · exact .inl run
  | fraction start digits =>
    cases found
    simp only [Scanner.feed] at run
    split at run
    · cases run
      exact .inr ⟨rfl, _, rfl, rfl, by simp⟩
    · exact .inl run

/-- A line break ends a comment, and anything else is part of it. -/
theorem HasRead.feedComment (h : s.HasRead text) (inside : s.pending = .comment)
    (run : s.feed c = .ok t) : t.HasRead (text ++ [c]) := by
  cases h with
  | idle idle => simp [idle] at inside
  | lexeme found => simp [lexeme?_of_comment inside] at found
  | @comment a comment _ noBreak tiles =>
    rw [List.append_assoc, List.cons_append]
    by_cases ends : c = '\n'
    · rw [ends, feed_newline] at run
      cases run
      rw [ends]
      refine .idle rfl ?_
      have done : (s.flush.moveTo '\n' .nothing).done = s.done := by
        simp [Scanner.flush, moveTo, lexeme?_of_comment inside]
      rw [done]
      exact tiles.comment noBreak
    · simp only [Scanner.feed, inside, if_neg ends] at run
      cases run
      have stays : '\n' ∉ comment ++ [c] := by
        simp [noBreak, Ne.symm ends]
      exact .comment rfl stays tiles

theorem HasRead.feed (h : s.HasRead text) (reached : s.offset = Text.byteCount text)
    (run : s.feed c = .ok t) : t.HasRead (text ++ [c]) := by
  by_cases inside : s.pending = .comment
  · exact h.feedComment inside run
  -- the lexeme counts as complete if the character starts something new
  have complete := h.flush inside
  cases h with
  | idle idle => exact .start complete reached (feed_of_nothing idle c ▸ run)
  | comment comment => exact absurd comment inside
  | @lexeme a l found some starts tiles =>
    rcases feed_lexeme found run with fresh | ⟨same, l', after, offset, longer⟩
    · exact .start complete reached fresh
    · have some' : l'.text ≠ "" := by
        intro none
        simp [none] at longer
      rw [List.append_assoc, ← longer]
      exact .lexeme after some' (offset.trans starts) (same ▸ tiles)

theorem HasRead.read (h : s.HasRead text) (reached : s.offset = Text.byteCount text)
    {more : List Char} (run : s.read more = .ok t) :
    t.HasRead (text ++ more) ∧ t.offset = Text.byteCount (text ++ more) := by
  induction more generalizing s text with
  | nil =>
    cases run
    rw [List.append_nil]
    exact ⟨h, reached⟩
  | cons c more ih =>
    cases fed : s.feed c with
    | error e =>
      rw [read_cons, fed] at run
      cases run
    | ok u =>
      rw [read_cons_ok fed] at run
      have reached' : u.offset = Text.byteCount (text ++ [c]) := by
        rw [offset_feed fed, reached, Text.byteCount_append, Text.byteCount_singleton]
      have later := ih (h.feed reached fed) reached' run
      rwa [List.append_assoc] at later

end Scanner

/-- The lexemes of a source lay it out. -/
theorem isTiled_of_ofSource {source : String} {lexemes : List Lexeme}
    (read : ofSource source = .ok lexemes) : Text.IsTiled source.toList (lexemes.map place) := by
  have fresh : Scanner.HasRead {} [] := .idle rfl .nil
  unfold ofSource at read
  cases run : Scanner.read {} source.toList with
  | error e =>
    rw [run] at read
    cases read
  | ok s =>
    rw [run] at read
    cases read
    exact (fresh.read rfl run).1.isTiled

end Lexeme

/-- Where a token starts, and its text. -/
def Token.place (t : Token) : Nat × String :=
  (t.span.start.offset.toNat, t.text)

/-- The tokens lay out a source in their order, and the last one marks its end. -/
structure Tiling (source : String) (body : List Token) (finish : Token) : Prop where
  tiled : Text.IsTiled source.toList (body.map Token.place)
  proper : ∀ t ∈ body, t.kind ≠ .endOfInput ∧ t.text ≠ ""
  slice : ∀ t ∈ body, ∃ before after : String, source = before ++ t.text ++ after ∧
    t.span.start.offset.toNat = before.utf8ByteSize ∧
    t.span.stop.offset.toNat = (before ++ t.text).utf8ByteSize
  ordered : (body ++ [finish]).Pairwise fun t u =>
    t.span.stop.offset.toNat ≤ u.span.start.offset.toNat
  finish_kind : finish.kind = .endOfInput
  finish_span : finish.span.start.offset.toNat = source.utf8ByteSize ∧
    finish.span.stop = finish.span.start

theorem toNat_toUInt32 {n : Nat} (small : n < UInt32.size) : n.toUInt32.toNat = n :=
  UInt32.toNat_ofNat_of_lt small

namespace Lexeme

variable {source : String} {lexemes : List Lexeme} {l : Lexeme}

theorem isSlice_of_mem (read : ofSource source = .ok lexemes) (member : l ∈ lexemes) :
    Text.IsSlice source.toList l.place :=
  (isTiled_of_ofSource read).slice _ (List.mem_map_of_mem member)

/-- A lexeme lies inside the source. -/
theorem bound_of_mem (read : ofSource source = .ok lexemes) (member : l ∈ lexemes) :
    l.offset + l.text.utf8ByteSize ≤ source.utf8ByteSize := by
  have bound := (isSlice_of_mem read member).bound
  rwa [Text.byteCount_toList] at bound

variable (file : String) (level : Level)

theorem start_toToken (small : l.offset < UInt32.size) :
    (l.toToken file level).span.start.offset.toNat = l.offset :=
  toNat_toUInt32 small

theorem stop_toToken (small : l.offset + l.text.utf8ByteSize < UInt32.size) :
    (l.toToken file level).span.stop.offset.toNat = l.offset + l.text.utf8ByteSize :=
  toNat_toUInt32 small

/-- The tokens of a source that is not too long lay it out. -/
theorem tiling_toToken (small : source.utf8ByteSize < UInt32.size) (read : ofSource source = .ok lexemes) :
    Tiling source (lexemes.map (toToken file level))
      (.endAt { offset := source.utf8ByteSize.toUInt32, file }) := by
  have tiled := isTiled_of_ofSource read
  have start {l : Lexeme} (member : l ∈ lexemes) :
      (l.toToken file level).span.start.offset.toNat = l.offset := by
    have bound := bound_of_mem read member
    exact l.start_toToken file level (by omega)
  have stop {l : Lexeme} (member : l ∈ lexemes) :
      (l.toToken file level).span.stop.offset.toNat = l.offset + l.text.utf8ByteSize := by
    have bound := bound_of_mem read member
    exact l.stop_toToken file level (by omega)
  have finish := toNat_toUInt32 small
  have places : (lexemes.map (toToken file level)).map Token.place = lexemes.map place := by
    rw [List.map_map]
    exact List.map_congr_left fun l member => Prod.ext (start member) rfl
  refine ⟨places ▸ tiled, ?_, ?_, ?_, rfl, finish, rfl⟩
  · intro t member
    obtain ⟨l, found, rfl⟩ := List.mem_map.mp member
    have lexed := allLexed_of_ofSource read file level _ member
    exact ⟨lexed.kind_ne_end, tiled.ne_empty _ (List.mem_map_of_mem found)⟩
  · intro t member
    obtain ⟨l, found, rfl⟩ := List.mem_map.mp member
    obtain ⟨before, after, split, starts⟩ := isSlice_of_mem read found
    have size := (Text.utf8ByteSize_ofList before).symm
    refine ⟨String.ofList before, String.ofList after, String.toList_inj.mp ?_, ?_, ?_⟩
    · simpa [toToken, place] using split
    · rw [start found, ← size]
      exact starts.symm
    · rw [stop found, String.utf8ByteSize_append, ← size, starts]
      rfl
  · refine List.pairwise_append.mpr ⟨?_, List.pairwise_singleton _ _, fun t member u last => ?_⟩
    · have ordered := List.pairwise_map.mp tiled.ordered
      refine List.pairwise_map.mpr (ordered.imp_of_mem fun first second before => ?_)
      rw [stop first, start second]
      exact before
    · obtain ⟨l, found, rfl⟩ := List.mem_map.mp member
      rw [stop found, List.mem_singleton.mp last]
      exact Nat.le_trans (bound_of_mem read found) (Nat.le_of_eq finish.symm)

end Lexeme

/-- A source that is not too long is refused exactly if a character outside comments may
not stand there, at the first of these; otherwise its tokens lay it out. -/
theorem tokenize_tiles_source (level : Level) (file : String) {source : String}
    (small : source.utf8ByteSize < UInt32.size) :
    ((∃ tokens, tokenize level file source = .ok tokens) ↔
      ∀ p ∈ Text.outsideComments false 0 source.toList, Lexeme.isLexical p.2 = true) ∧
    (∀ before p after, Text.outsideComments false 0 source.toList = before ++ p :: after →
      (∀ q ∈ before, Lexeme.isLexical q.2 = true) → Lexeme.isLexical p.2 = false →
      ∃ position, position.file = file ∧ position.offset.toNat = p.1 ∧
        tokenize level file source =
          .error { cause := .unrecognisedToken p.2.toString, position }) ∧
    ∀ tokens, tokenize level file source = .ok tokens →
      ∃ body finish, tokens = body ++ [finish] ∧ Tiling source body finish := by
  refine ⟨?_, ?_, ?_⟩
  · rw [← Lexeme.firstStray?_eq_none_iff]
    unfold tokenize
    cases read : Lexeme.ofSource source with
    | ok lexemes =>
      refine iff_of_true ⟨_, rfl⟩ (Option.eq_none_iff_forall_not_mem.mpr fun e stray => ?_)
      have refused := Lexeme.ofSource_eq_error_iff.mpr stray
      rw [read] at refused
      cases refused
    | error e =>
      have stray := Lexeme.ofSource_eq_error_iff.mp read
      simp [stray]
  · intro before p after split good bad
    have stray := Lexeme.firstStray?_eq_some split good bad
    have inside : p.1 ≤ 0 + Text.byteCount source.toList :=
      Text.le_of_mem_outsideComments (by rw [split]; simp)
    rw [Text.byteCount_toList] at inside
    refine ⟨{ offset := p.1.toUInt32, file }, rfl, toNat_toUInt32 (by omega), ?_⟩
    unfold tokenize
    rw [Lexeme.ofSource_eq_error_iff.mpr stray]
  · intro tokens run
    unfold tokenize at run
    cases read : Lexeme.ofSource source with
    | error e =>
      rw [read] at run
      cases run
    | ok lexemes =>
      rw [read] at run
      cases run
      exact ⟨_, _, rfl, Lexeme.tiling_toToken file level small read⟩

/-- White space and a comment beyond ASCII between numbers, and two points in a row. -/
def pointedSource : String :=
  "1.\u00a0# é\n.5.."

/-- The accent counts for two bytes inside a comment and is refused outside. -/
theorem pointed_source_tiled : pointedSource.utf8ByteSize < UInt32.size ∧
    (∃ body finish, tokenize .mutableVariables "shell" pointedSource = .ok (body ++ [finish]) ∧
      Tiling pointedSource body finish ∧
      body.map Token.place = [(0, "1."), (9, ".5"), (11, "."), (12, ".")]) ∧
    (pointedSource ++ "é").utf8ByteSize < UInt32.size ∧
    ∃ position, position.offset.toNat = 13 ∧
      tokenize .mutableVariables "shell" (pointedSource ++ "é") =
        .error { cause := .unrecognisedToken "é", position } := by
  have small : pointedSource.utf8ByteSize < UInt32.size := by decide +kernel
  have small' : (pointedSource ++ "é").utf8ByteSize < UInt32.size := by decide +kernel
  have lexical : ∀ p ∈ Text.outsideComments false 0 pointedSource.toList,
      Lexeme.isLexical p.2 = true := by decide +kernel
  have places : (tokenize .mutableVariables "shell" pointedSource).toOption.map
      (fun tokens => tokens.dropLast.map Token.place) =
        some [(0, "1."), (9, ".5"), (11, "."), (12, ".")] := by decide +kernel
  have split : Text.outsideComments false 0 (pointedSource ++ "é").toList =
      Text.outsideComments false 0 pointedSource.toList ++ (13, 'é') :: [] := by decide +kernel
  obtain ⟨accepted, _, tiles⟩ := tokenize_tiles_source .mutableVariables "shell" small
  obtain ⟨_, refused, _⟩ := tokenize_tiles_source .mutableVariables "shell" small'
  obtain ⟨tokens, run⟩ := accepted.mpr lexical
  obtain ⟨body, finish, rfl, tiling⟩ := tiles tokens run
  obtain ⟨position, _, offset, error⟩ := refused _ _ _ split lexical (by decide)
  rw [run] at places
  refine ⟨small, ⟨body, finish, run, tiling, ?_⟩, small', position, offset, error⟩
  simpa [Except.toOption] using places

end OpenExpr
