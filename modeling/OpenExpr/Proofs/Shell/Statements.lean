import OpenExpr.Proofs.Placement.Sequence
import OpenExpr.Proofs.Shell.Lines

namespace OpenExpr

open Lexeme (SameReading Scanner)

/-- The text is that of the tokens, as a source has them that ends with `finish`. -/
def IsTextOf (level : Level) (file : String) (finish : Token) (w : List Token) (text : String) : Prop :=
  ∃ tokens, tokenize level file text = .ok tokens ∧
    ∀ s : TokenStream, s.pending = w → s.finish = finish → s.Alike (.ofTokens file tokens)

/-- The words of a text are those of its tokens. -/
theorem words_of_tokenize {level : Level} {file text : String} {tokens : List Token} {finish : Token}
    (run : tokenize level file text = .ok (tokens ++ [finish])) :
    ∃ t, Scanner.read {} text.toList = .ok t ∧ t.words level = tokens.map Token.spelling ∧
      finish.kind = .endOfInput ∧ finish.text = (Token.endAt .null).text := by
  unfold tokenize Lexeme.ofSource at run
  cases read : Scanner.read {} text.toList with
  | error e =>
    rw [read] at run
    cases run
  | ok t =>
    rw [read] at run
    obtain ⟨rfl, last⟩ := List.append_inj' (Except.ok.inj run) rfl
    cases last
    refine ⟨t, rfl, ?_, rfl, rfl⟩
    rw [List.map_map]
    rfl

/-- A text is that of the tokens if it has their words. -/
theorem isTextOf_of_words {level : Level} {w : List Token} (lexed : AllLexed level w) {finish : Token}
    (final : finish.kind = .endOfInput) (named : finish.text = (Token.endAt .null).text)
    {text : String} {t : Scanner} (run : Scanner.read {} text.toList = .ok t)
    (words : t.words level = w.map Token.spelling) (file : String) :
    IsTextOf level file finish w text := by
  have read : Lexeme.ofSource text = .ok t.lexemes := by
    unfold Lexeme.ofSource
    rw [run]
    rfl
  unfold IsTextOf tokenize
  rw [read]
  refine ⟨_, rfl, ?_⟩
  rintro s rfl rfl
  rw [ofTokens_body file (Lexeme.allLexed_of_ofSource read file level) rfl]
  refine ⟨lexed.alike ?_, Token.alike_end final final named⟩
  rw [← words, List.map_map]
  rfl

theorem Lexeme.SameReading.read_fresh {a b : List Char} (same : SameReading ('\n' :: a) ('\n' :: b))
    {t : Scanner} (run : Scanner.read {} a = .ok t) :
    ∃ u, Scanner.read {} b = .ok u ∧ u.unplaced = t.unplaced := by
  have skip (text : List Char) :
      Scanner.outcome (Scanner.read {} ('\n' :: text)) = Scanner.outcome (Scanner.read {} text) :=
    SameReading.refl text _ {} rfl
  have outcomes := same {} {} rfl
  rw [skip, skip, run] at outcomes
  exact Scanner.outcome_eq_ok.mp outcomes.symm

/-- A line break at the end of a text adds no word. -/
theorem words_newline (level : Level) {text tail : List Char} (broken : tail = [] ∨ tail = ['\n'])
    {t : Scanner} (run : Scanner.read {} text = .ok t) :
    ∃ u, Scanner.read {} (text ++ tail) = .ok u ∧ u.words level = t.words level := by
  rcases broken with rfl | rfl
  · exact ⟨t, by rw [List.append_nil]; exact run, rfl⟩
  · obtain ⟨offset, pending, done⟩ := t
    rw [Scanner.read_append, run]
    cases pending <;> exact ⟨_, rfl, rfl⟩

theorem Framer.holds_new : Framer.Holds {} [] where
  terminator := rfl
  free := List.not_mem_nil
  same := .refl _
  ended := ⟨[], rfl⟩

theorem not_mem_textOf {c : Char} (other : c ≠ '\n') {text : String} (none : c ∉ text.toList) :
    c ∉ Framer.textOf (Text.linesOf text) := by
  intro member
  obtain ⟨line, found, here⟩ := List.mem_flatMap.mp member
  rcases List.mem_append.mp here with inLine | last
  · exact none (Text.mem_of_mem_linesOf found inLine)
  · exact other (List.mem_singleton.mp last)

/-- The words of a text are those of its lines. -/
theorem words_linesOf (level : Level) {text : String} {t : Scanner}
    (run : Scanner.read {} text.toList = .ok t) :
    ∃ u, Scanner.read {} (Framer.textOf (Text.linesOf text)) = .ok u ∧
      u.words level = t.words level := by
  obtain ⟨tail, broken, same⟩ := Text.sameReading_linesOf text
  obtain ⟨t', run', words⟩ := words_newline level broken run
  have outcomes := same {} {} rfl
  rw [run'] at outcomes
  obtain ⟨u, run'', kept⟩ := Scanner.outcome_eq_ok.mp outcomes.symm
  exact ⟨u, run'', (Scanner.words_unplaced level kept).trans words⟩

/-- Pieces of tokens that are cut behind semicolons are ended by them. -/
theorem IsEnded.of_mem_cutAfter {tokens w : List Token}
    (member : w ∈ (Text.cutAfter (fun t => t.kind == .semicolon) tokens).1) (more : w.length ≠ 1) :
    IsEnded w := by
  obtain ⟨body, d, rfl, semicolon, free⟩ := Text.exists_of_mem_cutAfter _ tokens w member
  refine ⟨body, d, rfl, ?_, fun t inBody => beq_eq_false_iff_ne.mp (free t inBody),
    beq_iff_eq.mp semicolon⟩
  rintro rfl
  exact more rfl

/-- Tokens are cut behind their semicolons, and so are their words. -/
theorem cutAfter_spelling {ws : List (List Token)} (ended : ∀ w ∈ ws, IsEnded w) :
    Text.cutAfter (fun w => w.1 == .semicolon) (ws.flatten.map Token.spelling) =
      (ws.map (List.map Token.spelling), []) := by
  rw [List.map_flatten]
  refine Text.cutAfter_flatten _ fun piece member => ?_
  obtain ⟨w, found, rfl⟩ := List.mem_map.mp member
  obtain ⟨body, d, rfl, -, free, semicolon⟩ := ended w found
  refine ⟨body.map Token.spelling, d.spelling, List.map_append, ?_, ?_⟩
  · simpa [Token.spelling] using semicolon
  · intro word inBody
    obtain ⟨t, here, rfl⟩ := List.mem_map.mp inBody
    simpa [Token.spelling] using free t here

theorem isTextOf_of_pieces {level : Level} {file : String} {finish : Token} {pieces : List (List Char)}
    {ws : List (List Token)} {texts : List String} (lexed : ∀ w ∈ ws, AllLexed level w)
    (final : finish.kind = .endOfInput) (named : finish.text = (Token.endAt .null).text)
    (spelled : List.Forall₂ (fun piece words => ∃ v, Scanner.read {} piece = .ok v ∧ v.words level = words)
      pieces (ws.map (List.map Token.spelling)))
    (same : List.Forall₂ (fun piece text => SameReading ('\n' :: piece) ('\n' :: String.toList text))
      pieces texts) : List.Forall₂ (IsTextOf level file finish) ws texts := by
  induction pieces generalizing ws texts with
  | nil =>
    cases same
    cases ws with
    | nil => exact .nil
    | cons => cases spelled
  | cons piece pieces ih =>
    cases ws with
    | nil => cases spelled
    | cons w ws =>
      cases same with
      | cons firstSame others =>
        cases spelled with
        | cons firstSpelled otherSpelled =>
          obtain ⟨here, later⟩ := List.forall_mem_cons.mp lexed
          obtain ⟨v, run, words⟩ := firstSpelled
          obtain ⟨u, run', kept⟩ := firstSame.read_fresh run
          exact .cons (isTextOf_of_words here final named run'
            ((Scanner.words_unplaced level kept).trans words) file) (ih later otherSpelled others)

/-- The statements that are cut out of the lines of a text are those of a source with the
same words. -/
theorem isTextOf_statements {level : Level} {file text : String} (uncommented : '#' ∉ text.toList)
    {ws : List (List Token)} (ended : ∀ w ∈ ws, IsEnded w) (lexed : ∀ w ∈ ws, AllLexed level w)
    {finish : Token} (final : finish.kind = .endOfInput)
    (named : finish.text = (Token.endAt .null).text)
    (same : (tokenize level file text).map (List.map Token.spelling) =
      .ok ((ws.flatten ++ [finish]).map Token.spelling)) :
    List.Forall₂ (IsTextOf level file finish) ws (Framer.statements {} (Text.linesOf text)) := by
  cases run : tokenize level file text with
  | error e =>
    rw [run] at same
    cases same
  | ok tokens =>
  obtain ⟨body, finish', rfl, -, -⟩ := tokenize_ok run
  obtain ⟨t, read, words, -, -⟩ := words_of_tokenize run
  obtain ⟨u, readLines, spelling⟩ := words_linesOf level read
  have code := not_mem_textOf (by decide) uncommented
  have statements := Framer.statements_eq Framer.holds_new (Text.linesOf text)
  rw [List.nil_append] at statements
  generalize Framer.textOf (Text.linesOf text) = all at readLines code statements
  have each := Text.exists_of_mem_cutAfter (· == ';') all
  have last := Text.not_of_mem_cutAfter_rest (· == ';') all
  have whole := Text.flatten_cutAfter (· == ';') all
  generalize Text.cutAfter (· == ';') all = cuts at each last whole statements
  obtain ⟨pieces, rest⟩ := cuts
  dsimp only at each last whole statements
  subst whole
  obtain ⟨_, segments, -, cut, spelled⟩ := Scanner.cutAfter_words level (fun piece member => by
    obtain ⟨body, c, same, semicolon, free⟩ := each piece member
    rw [beq_iff_eq.mp semicolon] at same
    refine ⟨body, same, fun inBody => by simpa using free ';' inBody, fun inBody => code ?_⟩
    exact List.mem_append_left _ (List.mem_flatten.mpr ⟨piece, member, by simp [same, inBody]⟩))
    (fun inRest => by simpa using last ';' inRest) readLines
  have equal : body.map Token.spelling = ws.flatten.map Token.spelling := by
    rw [run] at same
    have all := Except.ok.inj same
    rw [List.map_append, List.map_append] at all
    exact (List.append_inj' all rfl).1
  rw [spelling, words, equal, cutAfter_spelling ended] at cut
  obtain ⟨rfl, -⟩ := Prod.mk.inj cut
  exact isTextOf_of_pieces lexed final named spelled statements

end OpenExpr
