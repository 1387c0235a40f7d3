import OpenExpr.Proofs.Token.Lexed

namespace OpenExpr

namespace Lexeme

theorem toNat_of_isWordStart {c : Char} (first : isWordStart c = true) :
    65 ≤ c.toNat ∧ c.toNat ≤ 122 := by
  change (decide (65 ≤ c.toNat ∧ c.toNat ≤ 90) ||
    (decide (97 ≤ c.toNat) && decide (c.toNat ≤ 122)) || c == '_') = true at first
  simp only [Bool.or_eq_true, Bool.and_eq_true, decide_eq_true_eq, beq_iff_eq] at first
  rcases first with (upper | lower) | rfl
  · omega
  · omega
  · decide

theorem toNat_of_isDigit {c : Char} (digit : c.isDigit = true) : 48 ≤ c.toNat ∧ c.toNat ≤ 57 :=
  Char.isDigit_iff_toNat.mp digit

theorem toNat_of_isMark {c : Char} (mark : isMark c = true) :
    33 ≤ c.toNat ∧ c.toNat ≤ 126 ∧ (c.toNat < 48 ∨ 57 < c.toNat) := by
  simp only [isMark, Bool.or_eq_true, Bool.and_eq_true, decide_eq_true_eq] at mark
  omega

theorem isBlank_eq_false {c : Char} (low : 33 ≤ c.toNat) (high : c.toNat ≤ 126) :
    Text.isBlank c = false := by
  simp only [Text.isBlank, Bool.or_eq_false_iff, Bool.and_eq_false_iff, beq_eq_false_iff_ne,
    decide_eq_false_iff_not]
  omega

theorem ne_of_toNat_ne {c d : Char} (h : c.toNat ≠ d.toNat) : c ≠ d := fun same => h (by rw [same])

namespace Scanner

theorem start_word {c : Char} (s : Scanner) (first : isWordStart c = true) :
    s.start c = .ok (s.flush.moveTo c (.word s.offset [c])) := by
  have bounds := toNat_of_isWordStart first
  have noBlank := isBlank_eq_false (c := c) (by omega) (by omega)
  have noComment : c ≠ '#' := ne_of_toNat_ne (by change c.toNat ≠ 35; omega)
  simp [start, noBlank, noComment, first, flush]

theorem start_digit {c : Char} (s : Scanner) (digit : c.isDigit = true) :
    s.start c = .ok (s.flush.moveTo c (.whole s.offset [c])) := by
  have bounds := toNat_of_isDigit digit
  have noBlank := isBlank_eq_false (c := c) (by omega) (by omega)
  have noComment : c ≠ '#' := ne_of_toNat_ne (by change c.toNat ≠ 35; omega)
  have noWord : isWordStart c = false := by
    rw [Bool.eq_false_iff]
    intro first
    have := toNat_of_isWordStart first
    omega
  simp [start, noBlank, noComment, noWord, digit, flush]

theorem start_mark {c : Char} (s : Scanner) (mark : isMark c = true) (noComment : c ≠ '#')
    (noWord : isWordStart c = false) (noPoint : c ≠ '.') :
    s.start c = .ok { s.flush.moveTo c .nothing with
      done := { shape := .mark, text := String.singleton c, offset := s.offset } :: s.flush.done } := by
  have bounds := toNat_of_isMark mark
  have noBlank := isBlank_eq_false (c := c) (by omega) (by omega)
  have noDigit : c.isDigit = false := by
    rw [Bool.eq_false_iff]
    intro digit
    have := toNat_of_isDigit digit
    omega
  simp [start, noBlank, noComment, noWord, noDigit, noPoint, mark, flush]

/-- A lexeme goes on for as long as its characters do. -/
theorem read_all {goesOn : Char → Bool} {pending : List Char → Pending}
    (step : ∀ s text c, s.pending = pending text → goesOn c = true →
      feed s c = .ok (s.moveTo c (pending (c :: text)))) :
    ∀ (rest text : List Char) (s : Scanner), s.pending = pending text →
      (∀ c ∈ rest, goesOn c = true) →
      ∃ t, s.read rest = .ok t ∧ t.pending = pending (rest.reverse ++ text) ∧ t.done = s.done := by
  intro rest
  induction rest with
  | nil => exact fun text s same _ => ⟨s, rfl, same, rfl⟩
  | cons c rest ih =>
    intro text s same all
    have first := step s text c same (all c List.mem_cons_self)
    obtain ⟨t, run, reached, done⟩ :=
      ih (c :: text) (s.moveTo c (pending (c :: text))) rfl fun d member =>
        all d (List.mem_cons_of_mem c member)
    refine ⟨t, by rw [read_cons, first]; exact run, ?_, done⟩
    simpa using reached

theorem read_word {s : Scanner} {offset : Nat} {text : List Char}
    (same : s.pending = .word offset text) {rest : List Char}
    (all : ∀ c ∈ rest, isWordRest c = true) :
    ∃ t, s.read rest = .ok t ∧ t.pending = .word offset (rest.reverse ++ text) ∧ t.done = s.done :=
  read_all (fun s text c same goesOn => by simp [feed, same, goesOn]) rest text s same all

theorem read_whole {s : Scanner} {offset : Nat} {text : List Char}
    (same : s.pending = .whole offset text) {rest : List Char}
    (all : ∀ c ∈ rest, c.isDigit = true) :
    ∃ t, s.read rest = .ok t ∧ t.pending = .whole offset (rest.reverse ++ text) ∧ t.done = s.done :=
  read_all (fun s text c same goesOn => by simp [feed, same, goesOn]) rest text s same all

theorem read_fraction {s : Scanner} {offset : Nat} {text : List Char}
    (same : s.pending = .fraction offset text) {rest : List Char}
    (all : ∀ c ∈ rest, c.isDigit = true) :
    ∃ t, s.read rest = .ok t ∧ t.pending = .fraction offset (rest.reverse ++ text) ∧
      t.done = s.done :=
  read_all (fun s text c same goesOn => by simp [feed, same, goesOn]) rest text s same all

theorem read_append_ok {s t : Scanner} {a : List Char} (run : s.read a = .ok t) (b : List Char) :
    s.read (a ++ b) = t.read b := by
  rw [read_append, run]
  rfl

theorem feed_of_nothing {s : Scanner} (idle : s.pending = .nothing) (c : Char) :
    s.feed c = s.start c := by
  simp only [feed, idle]

theorem done_flush_of_nothing {s : Scanner} (idle : s.pending = .nothing) :
    s.flush.done = s.done := by
  simp [flush, lexeme?, idle]

theorem read_number {s : Scanner} (idle : s.pending = .nothing) {text : List Char}
    (number : IsNumber text) :
    ∃ t, s.read text = .ok t ∧ t.done = s.done ∧
      (t.pending = .whole s.offset text.reverse ∨ t.pending = .fraction s.offset text.reverse) := by
  have whole {c : Char} {rest : List Char} (digit : c.isDigit = true)
      (all : ∀ d ∈ rest, d.isDigit = true) : ∃ t, s.read (c :: rest) = .ok t ∧ t.done = s.done ∧
        t.pending = .whole s.offset (c :: rest).reverse := by
    obtain ⟨t, run, reached, done⟩ :=
      read_whole (s := s.flush.moveTo c (.whole s.offset [c])) rfl all
    refine ⟨t, ?_, ?_, by simpa using reached⟩
    · rw [read_cons, feed_of_nothing idle, start_digit s digit]
      exact run
    · rw [done]
      exact done_flush_of_nothing idle
  cases number with
  | whole some digits =>
    obtain ⟨c, rest, rfl⟩ := List.exists_cons_of_ne_nil some
    obtain ⟨t, run, done, reached⟩ := whole (digits c List.mem_cons_self) fun d member =>
      digits d (List.mem_cons_of_mem c member)
    exact ⟨t, run, done, .inl reached⟩
  | @point digits fraction some all all' =>
    cases digits with
    | nil =>
      obtain ⟨d, rest, rfl⟩ := List.exists_cons_of_ne_nil (some.resolve_left (fun h => h rfl))
      have first : s.feed '.' = .ok (s.flush.moveTo '.' (.point s.offset)) :=
        (feed_of_nothing idle '.').trans rfl
      have second : (s.flush.moveTo '.' (.point s.offset)).feed d =
          .ok ((s.flush.moveTo '.' (.point s.offset)).moveTo d (.fraction s.offset [d, '.'])) := by
        simp [feed, moveTo, all' d List.mem_cons_self]
      obtain ⟨t, run, reached, done⟩ := read_fraction
        (s := (s.flush.moveTo '.' (.point s.offset)).moveTo d (.fraction s.offset [d, '.'])) rfl
        fun e member => all' e (List.mem_cons_of_mem d member)
      refine ⟨t, ?_, ?_, .inr (by simpa using reached)⟩
      · rw [List.nil_append, read_cons, first]
        change ((s.flush.moveTo '.' (.point s.offset)).read (d :: rest)) = .ok t
        rw [read_cons, second]
        exact run
      · rw [done]
        exact done_flush_of_nothing idle
    | cons c rest =>
      obtain ⟨t, run, done, reached⟩ := whole (all c List.mem_cons_self) fun d member =>
        all d (List.mem_cons_of_mem c member)
      have point : t.feed '.' =
          .ok (t.moveTo '.' (.fraction s.offset ('.' :: (c :: rest).reverse))) := by
        simp [feed, reached]
      obtain ⟨u, run', reached', done'⟩ := read_fraction
        (s := t.moveTo '.' (.fraction s.offset ('.' :: (c :: rest).reverse))) rfl all'
      refine ⟨u, ?_, done'.trans done, .inr (by simpa using reached')⟩
      rw [read_append_ok run, read_cons, point]
      exact run'

/-- After the text of a lexeme the lexeme is the pending one or the last one done. -/
theorem read_spelled {s : Scanner} (idle : s.pending = .nothing) {shape : Shape}
    {text : List Char} (spelled : Spells shape text) :
    ∃ t, s.read text = .ok t ∧ t.pending ≠ .comment ∧
      t.flush.done = { shape, text := String.ofList text, offset := s.offset } :: s.done := by
  cases spelled with
  | @word c rest first all =>
    obtain ⟨t, run, reached, done⟩ := read_word (s := s.flush.moveTo c (.word s.offset [c])) rfl all
    refine ⟨t, ?_, by simp [reached], ?_⟩
    · rw [read_cons, feed_of_nothing idle, start_word s first]
      exact run
    · have same : t.done = s.done := done.trans (done_flush_of_nothing idle)
      simp [flush, lexeme?, reached, same]
  | number number =>
    obtain ⟨t, run, done, reached⟩ := read_number idle number
    refine ⟨t, run, ?_, ?_⟩
    · rcases reached with reached | reached <;> simp [reached]
    · rcases reached with reached | reached <;> simp [flush, lexeme?, reached, done]
  | @mark c mark noComment noWord =>
    by_cases point : c = '.'
    · subst point
      refine ⟨s.flush.moveTo '.' (.point s.offset), ?_, by simp [moveTo], ?_⟩
      · rw [read_cons, feed_of_nothing idle]
        rfl
      · simp [flush, lexeme?, moveTo, idle]
    · have run : s.read [c] = .ok { s.flush.moveTo c .nothing with
          done := { shape := .mark, text := String.singleton c, offset := s.offset } ::
            s.flush.done } := by
        rw [read_cons, feed_of_nothing idle, start_mark s mark noComment noWord point]
        rfl
      refine ⟨_, run, by simp [moveTo], ?_⟩
      rw [done_flush_of_nothing rfl, done_flush_of_nothing idle]
      rfl

theorem feed_space {s : Scanner} (noComment : s.pending ≠ .comment) :
    s.feed ' ' = .ok (s.flush.moveTo ' ' .nothing) := by
  have start : s.start ' ' = .ok (s.flush.moveTo ' ' .nothing) := rfl
  unfold Scanner.feed
  split <;> rename_i same
  · exact start
  · exact absurd same noComment
  all_goals exact start

end Scanner

/-- Lexemes are read as they were written if there are spaces between them. -/
theorem read_spaced {level : Level} {tokens : List Token} (each : ∀ t ∈ tokens, t.IsLexed level)
    {s : Scanner} (idle : s.pending = .nothing) : ∃ (t : Scanner) (lexemes : List Lexeme),
      s.read ([' '].intercalate (tokens.map fun t => t.text.toList)) = .ok t ∧
        t.flush.done = lexemes.reverse ++ s.done ∧
        lexemes.map (fun l => (l.kind level, l.text)) = tokens.map Token.spelling := by
  induction tokens generalizing s with
  | nil => exact ⟨s, [], rfl, Scanner.done_flush_of_nothing idle, rfl⟩
  | cons first tokens ih =>
    obtain ⟨here, others⟩ := List.forall_mem_cons.mp each
    obtain ⟨l, spelled, kind, same⟩ := here
    obtain ⟨t, run, noComment, done⟩ := Scanner.read_spelled idle spelled
    have spelling : (l.kind level, l.text) = first.spelling := by rw [Token.spelling, kind, same]
    rw [String.ofList_toList] at done
    cases tokens with
    | nil =>
      refine ⟨t, [{ l with offset := s.offset }], ?_, done, congrArg ([·]) spelling⟩
      rw [List.map_singleton, List.intercalate_singleton, same]
      exact run
    | cons second tokens =>
      -- a space completes the first lexeme, whatever its shape
      obtain ⟨u, lexemes, run', done', same'⟩ := ih others (s := t.flush.moveTo ' ' .nothing) rfl
      refine ⟨u, { l with offset := s.offset } :: lexemes, ?_, ?_, ?_⟩
      · rw [List.map_cons, List.map_cons, List.intercalate_cons_cons, List.append_assoc, same,
          Scanner.read_append_ok run, List.singleton_append, Scanner.read_cons, Scanner.feed_space noComment]
        exact run'
      · rw [done']
        change _ ++ t.flush.done = _
        rw [done]
        simp
      · rw [List.map_cons, List.map_cons, same']
        exact congrArg (· :: _) spelling

end Lexeme

/-- Tokens of the right looks are read again when they are written with spaces between them. -/
theorem tokenize_spaced {level : Level} {tokens : List Token} (each : ∀ t ∈ tokens, t.IsLexed level)
    (file : String) : ∃ written position,
      tokenize level file (" ".intercalate (tokens.map Token.text)) = .ok (written ++ [.endAt position]) ∧
        written.map Token.spelling = tokens.map Token.spelling := by
  obtain ⟨s, lexemes, run, done, same⟩ := Lexeme.read_spaced each (s := {}) rfl
  have read : Lexeme.ofSource (" ".intercalate (tokens.map Token.text)) = .ok lexemes := by
    unfold Lexeme.ofSource
    rw [String.toList_intercalate, List.map_map]
    change (Lexeme.Scanner.read {} ([' '].intercalate (tokens.map fun t => t.text.toList))).map _ = _
    rw [run]
    change Except.ok s.flush.done.reverse = _
    rw [done]
    simp
  refine ⟨_, _, tokenize_of_ofSource level file read, ?_⟩
  rw [List.map_map, ← same]
  rfl

/-- Tokens of the right looks stand in some source in this order. -/
theorem exists_lexed {level : Level} {tokens : List Token}
    (each : ∀ t ∈ tokens, t.IsLexed level) :
    ∃ written, Lexed level written ∧ written.map Token.spelling = tokens.map Token.spelling := by
  obtain ⟨written, position, run, same⟩ := tokenize_spaced each ""
  exact ⟨written, ⟨"", _, .endAt position, run⟩, same⟩

/-- The texts of tokens with single spaces between them. The end of an input has no text there. -/
def Token.spaced (tokens : List Token) : String :=
  " ".intercalate ((tokens.filter fun t => t.kind ≠ .endOfInput).map Token.text)

theorem Token.spaced_endAt {level : Level} {body : List Token} (each : ∀ t ∈ body, t.IsLexed level)
    (position : Position) :
    Token.spaced (body ++ [.endAt position]) = " ".intercalate (body.map Token.text) := by
  have kept : body.filter (fun t => t.kind ≠ .endOfInput) = body :=
    List.filter_eq_self.mpr fun t member => decide_eq_true (each t member).kind_ne_end
  rw [spaced, List.filter_append, kept]
  exact congrArg (fun ts => " ".intercalate (List.map Token.text ts)) (List.append_nil body)

/-- Whatever the source, its tokens are read back, with the same kinds and the same texts, from
their texts with single spaces between them. -/
theorem tokens_read_back {level : Level} {file source : String} {tokens : List Token}
    (run : tokenize level file source = .ok tokens) (file' : String) :
    ∃ tokens', tokenize level file' (Token.spaced tokens) = .ok tokens' ∧
      tokens'.map Token.spelling = tokens.map Token.spelling := by
  obtain ⟨body, finish, rfl, _, each⟩ := tokenize_ok run
  obtain rfl := finish_of_tokenize run
  obtain ⟨written, position, run', same⟩ := tokenize_spaced each file'
  refine ⟨written ++ [.endAt position], ?_, ?_⟩
  · rw [Token.spaced_endAt each, run']
  · rw [List.map_append, List.map_append, same]
    rfl

/-- Points beside numbers, a word that is reserved only above the level, and marks without a blank
between them. -/
theorem points_read_back :
    let source := "1..2. .\u00a0.5(if_9,var)# é;\n.;;def"
    let texts := ["1.", ".2", ".", ".", ".5", "(", "if_9", ",", "var", ")", ".", ";", ";", "def"]
    ∃ tokens tokens', tokenize .userDefinedOperators "shell" source = .ok tokens ∧
      Token.spaced tokens = " ".intercalate texts ∧
      tokenize .userDefinedOperators "" (Token.spaced tokens) = .ok tokens' ∧
      tokens'.map Token.spelling = tokens.map Token.spelling := by
  intro source texts
  have accepted : (tokenize .userDefinedOperators "shell" source).toOption.map Token.spaced =
      some (" ".intercalate texts) := by decide +kernel
  cases run : tokenize .userDefinedOperators "shell" source with
  | error e =>
    rw [run] at accepted
    cases accepted
  | ok tokens =>
    rw [run] at accepted
    obtain ⟨tokens', run', same⟩ := tokens_read_back run ""
    exact ⟨tokens, tokens', rfl, Option.some.inj accepted, run', same⟩

end OpenExpr
