import OpenExpr.Proofs.Token.Spelling

namespace OpenExpr

namespace Lexeme

/-- A number starts with no sign and with no letter. -/
theorem IsNumber.head {text : List Char} (number : IsNumber text) :
    ∃ c rest, text = c :: rest ∧ 46 ≤ c.toNat ∧ c.toNat ≤ 57 := by
  have digit {c : Char} (h : c.isDigit = true) : 46 ≤ c.toNat ∧ c.toNat ≤ 57 := by
    have bounds : 48 ≤ c.toNat ∧ c.toNat ≤ 57 := Char.isDigit_iff_toNat.mp h
    omega
  cases number with
  | whole some digits =>
    obtain ⟨c, rest, rfl⟩ := List.exists_cons_of_ne_nil some
    exact ⟨c, rest, rfl, digit (digits c List.mem_cons_self)⟩
  | @point whole fraction _ digits _ =>
    cases whole with
    | nil => exact ⟨'.', fraction, rfl, by decide⟩
    | cons c whole => exact ⟨c, _, rfl, digit (digits c List.mem_cons_self)⟩

theorem splitDigits_append {digits : List Char} (rest : List Char) (all : ∀ c ∈ digits, c.isDigit = true)
    (stop : ∀ c ∈ rest.head?, c.isDigit = false) :
    Decimal.Numeral.splitDigits (digits ++ rest) = (digits, rest) := by
  induction digits with
  | nil =>
    cases rest with
    | nil => rfl
    | cons c rest =>
      have noDigit := stop c rfl
      simp [Decimal.Numeral.splitDigits, noDigit]
  | cons c digits ih =>
    have digit := all c List.mem_cons_self
    have split := ih fun d member => all d (List.mem_cons_of_mem c member)
    simp only [Decimal.Numeral.splitDigits, Prod.mk.injEq] at split
    simp [Decimal.Numeral.splitDigits, digit, split.1, split.2]

theorem IsNumber.digits? {text : List Char} (number : IsNumber text) (negative : Bool) :
    (Decimal.Numeral.digits? negative text).isSome = true := by
  cases number with
  | whole some digits =>
    have split := splitDigits_append [] digits (by simp)
    rw [List.append_nil] at split
    simp [Decimal.Numeral.digits?, split, Decimal.Numeral.splitFraction,
      Decimal.Numeral.exponent?, some]
  | @point whole fraction some digits digits' =>
    have split := splitDigits_append ('.' :: fraction) digits (by simp)
    have split' := splitDigits_append [] digits' (by simp)
    rw [List.append_nil] at split'
    have digit : (whole.isEmpty && fraction.isEmpty) = false := by
      rw [Bool.and_eq_false_iff]
      exact some.imp (by simp) (by simp)
    simp only [Decimal.Numeral.digits?, split, Decimal.Numeral.splitFraction, split', digit]
    rfl

/-- Every number that can be written can be read. -/
theorem IsNumber.numeral {text : String} (number : IsNumber text.toList) :
    (Decimal.Numeral.ofText? text).isSome = true := by
  obtain ⟨c, rest, same, low, high⟩ := number.head
  have unsigned : Decimal.Numeral.splitSign text.toList = (false, text.toList) := by
    rw [same]
    unfold Decimal.Numeral.splitSign
    split
    · simp_all
    · simp_all
    · rfl
  have lower : c.toLower = c := by
    unfold Char.toLower
    split
    · rename_i upper
      have bound : 65 ≤ c.toNat := UInt32.le_iff_toNat_le.mp upper.1
      omega
    · rfl
  have noWord (a : Char) (word : List Char) (h : 57 < a.toNat) :
      text.toList.map Char.toLower ≠ a :: word := by
    rw [same, List.map_cons, lower]
    intro equal
    obtain ⟨rfl, _⟩ := List.cons.inj equal
    omega
  have noInfinity := noWord 'i' ['n', 'f'] (by decide)
  have noInfinity' := noWord 'i' ['n', 'f', 'i', 'n', 'i', 't', 'y'] (by decide)
  have noNan := noWord 'n' ['a', 'n'] (by decide)
  simp only [Decimal.Numeral.ofText?, unsigned, noInfinity, noInfinity', noNan, or_self, if_false]
  exact number.digits? false

end Lexeme

/-- The token could have been read from some source at the level. -/
def Token.IsLexed (level : Level) (t : Token) : Prop :=
  ∃ l : Lexeme, l.IsSpelled ∧ t.kind = l.kind level ∧ t.text = l.text

namespace Token

/-- What of a token counts for the grammar: not where it stands. -/
def spelling (t : Token) : Token.Kind × String :=
  (t.kind, t.text)

variable {level : Level} {t : Token}

theorem kind_of_symbol? {t : Token} {symbol : Char} (operator : t.symbol? = some symbol) :
    t.kind = .operator := by
  unfold symbol? at operator
  split at operator
  · assumption
  · cases operator

theorem kind_ne_endOfInput_of_symbol? {t : Token} {symbol : Char}
    (operator : t.symbol? = some symbol) : t.kind ≠ .endOfInput := by
  rw [kind_of_symbol? operator]
  decide

theorem ofMark_mem (text : String) :
    Kind.ofMark text ∈ [.openParen, .closeParen, .comma, .semicolon, .operator] := by
  unfold Kind.ofMark
  split
  · simp
  split
  · simp
  split
  · simp
  split <;> simp

theorem IsLexed.cases (lexed : t.IsLexed level) :
    t.kind = .identifier ∨ (∃ word : Keyword, t.kind = .keyword word ∧ word.level ≤ level) ∨
    (t.kind = .number ∧ Lexeme.IsNumber t.text.toList) ∨
    ∃ c, t.text.toList = [c] ∧
      t.kind ∈ [Kind.openParen, .closeParen, .comma, .semicolon, .operator] := by
  obtain ⟨⟨shape, text, offset⟩, spelled, kind, same⟩ := lexed
  unfold Lexeme.IsSpelled at spelled
  dsimp only at spelled same
  rw [same, kind]
  cases shape with
  | word =>
    change ((Keyword.ofText? level text).map Kind.keyword).getD .identifier = _ ∨ _
    cases found : Keyword.ofText? level text with
    | none => exact .inl rfl
    | some word =>
      have fits := List.find?_some found
      simp only [Bool.and_eq_true, decide_eq_true_eq] at fits
      exact .inr (.inl ⟨word, by simp [Lexeme.kind, found], fits.2⟩)
  | number =>
    cases spelled with
    | number number => exact .inr (.inr (.inl ⟨rfl, number⟩))
  | mark =>
    generalize equal : text.toList = chars at spelled
    cases spelled with
    | @mark c _ _ _ => exact .inr (.inr (.inr ⟨c, rfl, ofMark_mem text⟩))

theorem IsLexed.numeral (lexed : t.IsLexed level) (number : t.kind = .number) :
    (Decimal.Numeral.ofText? t.text).isSome = true := by
  rcases lexed.cases with name | ⟨_, word, _⟩ | ⟨_, digits⟩ | ⟨_, _, mark⟩
  · simp [number] at name
  · simp [number] at word
  · exact digits.numeral
  · simp [number] at mark

theorem IsLexed.symbol (lexed : t.IsLexed level) (operator : t.kind = .operator) :
    ∃ c, t.symbol? = some c := by
  rcases lexed.cases with name | ⟨_, word, _⟩ | ⟨number, _⟩ | ⟨c, text, _⟩
  · simp [operator] at name
  · simp [operator] at word
  · simp [operator] at number
  · exact ⟨c, by simp [symbol?, operator, text]⟩

theorem IsLexed.keyword_level (lexed : t.IsLexed level) {word : Keyword}
    (keyword : t.kind = .keyword word) : word.level ≤ level := by
  rcases lexed.cases with name | ⟨known, same, fits⟩ | ⟨number, _⟩ | ⟨_, _, mark⟩
  · simp [keyword] at name
  · rw [keyword] at same
    cases same
    exact fits
  · simp [keyword] at number
  · simp [keyword] at mark

theorem IsLexed.kind_ne_end (lexed : t.IsLexed level) : t.kind ≠ .endOfInput := by
  intro finish
  rcases lexed.cases with name | ⟨_, word, _⟩ | ⟨number, _⟩ | ⟨_, _, mark⟩
  · simp [finish] at name
  · simp [finish] at word
  · simp [finish] at number
  · simp [finish] at mark

end Token

/-- The tokens could each have been read from some source at the level. -/
def AllLexed (level : Level) (tokens : List Token) : Prop :=
  ∀ t ∈ tokens, t.IsLexed level

section

variable {level : Level}

theorem AllLexed.nil : AllLexed level [] := by
  intro t member
  cases member

theorem AllLexed.cons {t : Token} {tokens : List Token} (one : t.IsLexed level)
    (all : AllLexed level tokens) : AllLexed level (t :: tokens) :=
  List.forall_mem_cons.mpr ⟨one, all⟩

theorem AllLexed.head {t : Token} {tokens : List Token} (all : AllLexed level (t :: tokens)) :
    t.IsLexed level :=
  all t List.mem_cons_self

theorem AllLexed.append {a b : List Token} (left : AllLexed level a) (right : AllLexed level b) :
    AllLexed level (a ++ b) :=
  List.forall_mem_append.mpr ⟨left, right⟩

theorem AllLexed.right {a b : List Token} (all : AllLexed level (a ++ b)) : AllLexed level b :=
  (List.forall_mem_append.mp all).2

theorem AllLexed.left {a b : List Token} (all : AllLexed level (a ++ b)) : AllLexed level a :=
  (List.forall_mem_append.mp all).1

theorem AllLexed.tail {t : Token} {tokens : List Token} (all : AllLexed level (t :: tokens)) :
    AllLexed level tokens :=
  (List.forall_mem_cons.mp all).2

end

/-- The tokens before the end of some source at the level. -/
def Lexed (level : Level) (tokens : List Token) : Prop :=
  ∃ file source finish, tokenize level file source = .ok (tokens ++ [finish])

/-- The tokens of a text before its end, and none if it cannot be read. -/
def tokensOf (level : Level) (text : String) : List Token :=
  match tokenize level "" text with
  | .ok tokens => tokens.dropLast
  | .error _ => []

theorem tokenize_of_ofSource (level : Level) (file : String) {source : String} {lexemes : List Lexeme}
    (read : Lexeme.ofSource source = .ok lexemes) : tokenize level file source =
      .ok (lexemes.map (Lexeme.toToken file level) ++
        [.endAt { offset := source.utf8ByteSize.toUInt32, file }]) := by
  unfold tokenize
  rw [read]

/-- Of the tokens of a source the last, and no other, is its end. -/
theorem tokenize_ok {level : Level} {file source : String} {tokens : List Token}
    (run : tokenize level file source = .ok tokens) :
    ∃ body finish, tokens = body ++ [finish] ∧ finish.kind = .endOfInput ∧
      ∀ t ∈ body, t.IsLexed level := by
  unfold tokenize at run
  split at run
  · rename_i lexemes read
    cases run
    refine ⟨_, _, rfl, rfl, fun t member => ?_⟩
    obtain ⟨l, found, rfl⟩ := List.mem_map.mp member
    exact ⟨l, Lexeme.isSpelled_of_mem_ofSource read found, rfl, rfl⟩
  · cases run

/-- The end stands behind the last byte of the source. -/
theorem finish_of_tokenize {level : Level} {file source : String} {body : List Token} {finish : Token}
    (run : tokenize level file source = .ok (body ++ [finish])) :
    finish = .endAt { offset := source.utf8ByteSize.toUInt32, file } := by
  unfold tokenize at run
  split at run
  · obtain ⟨_, same⟩ := List.append_inj' (Except.ok.inj run) rfl
    exact (List.cons.inj same).1.symm
  · cases run

theorem Lexed.isLexed {level : Level} {tokens : List Token} (lexed : Lexed level tokens) :
    AllLexed level tokens := by
  obtain ⟨file, source, finish, run⟩ := lexed
  obtain ⟨body, last, same, _, each⟩ := tokenize_ok run
  obtain ⟨rfl, _⟩ := List.append_inj' same rfl
  exact each

theorem lexed_tokensOf (level : Level) (text : String) : Lexed level (tokensOf level text) := by
  unfold tokensOf
  cases run : tokenize level "" text with
  | error e => exact ⟨"", "", _, rfl⟩
  | ok tokens =>
    obtain ⟨body, finish, rfl, _⟩ := tokenize_ok run
    exact ⟨"", text, finish, by simpa using run⟩

end OpenExpr
