import OpenExpr.Operator
import OpenExpr.Proofs.Token.Lexed

namespace OpenExpr

variable {level : Level}

namespace Token

/-- The token that a text of the given shape is. -/
def sample (level : Level) (shape : Lexeme.Shape) (text : String) : Token :=
  Lexeme.toToken "" level { shape, text, offset := 0 }

theorem isLexed_sample {shape : Lexeme.Shape} {text : String}
    (spelled : Lexeme.Spells shape text.toList) : (sample level shape text).IsLexed level :=
  ⟨{ shape, text, offset := 0 }, spelled, rfl, rfl⟩

theorem isLexed_mark {text : String} {c : Char} (one : text.toList = [c])
    (mark : Lexeme.isMark c = true ∧ c ≠ '#' ∧ Lexeme.isWordStart c = false) :
    (sample level .mark text).IsLexed level := by
  refine isLexed_sample ?_
  rw [one]
  exact .mark mark.1 mark.2.1 mark.2.2

theorem symbol?_sample {text : String} {c : Char} (one : text.toList = [c])
    (operator : Kind.ofMark text = .operator) : (sample level .mark text).symbol? = some c := by
  simp [symbol?, sample, Lexeme.toToken, Lexeme.kind, operator, one]

theorem exists_identifier (level : Level) :
    ∃ t : Token, t.kind = .identifier ∧ t.IsLexed level := by
  refine ⟨sample level .word "x", ?_, isLexed_sample ?_⟩
  · cases level <;> rfl
  · exact .word (by decide) (by simp)

theorem exists_openParen (level : Level) : ∃ t : Token, t.kind = .openParen ∧ t.IsLexed level :=
  ⟨sample level .mark "(", rfl, isLexed_mark (c := '(') rfl (by decide)⟩

theorem exists_closeParen (level : Level) : ∃ t : Token, t.kind = .closeParen ∧ t.IsLexed level :=
  ⟨sample level .mark ")", rfl, isLexed_mark (c := ')') rfl (by decide)⟩

theorem exists_comma (level : Level) : ∃ t : Token, t.kind = .comma ∧ t.IsLexed level :=
  ⟨sample level .mark ",", rfl, isLexed_mark (c := ',') rfl (by decide)⟩

theorem exists_assignment (level : Level) :
    ∃ t : Token, t.symbol? = some '=' ∧ t.IsLexed level :=
  ⟨sample level .mark "=", symbol?_sample rfl (by decide), isLexed_mark (c := '=') rfl (by decide)⟩

/-- There are operators that are not built in. -/
theorem exists_definable (level : Level) :
    ∃ (t : Token) (c : Char), t.symbol? = some c ∧ BuiltIn.ofSymbol? c = none ∧ t.IsLexed level :=
  ⟨sample level .mark "!", '!', symbol?_sample rfl (by decide), by decide,
    isLexed_mark (c := '!') rfl (by decide)⟩

/-- A word is reserved at its own level and at all above. -/
theorem exists_keyword {word : Keyword} (reserved : word.level ≤ level) :
    ∃ t : Token, t.kind = .keyword word ∧ t.IsLexed level := by
  have found : Keyword.ofText? level word.text = some word := by
    revert reserved
    cases word <;> cases level <;> decide
  refine ⟨sample level .word word.text, ?_, isLexed_sample ?_⟩
  · simp [sample, Lexeme.toToken, Lexeme.kind, found]
  · cases word <;> exact .word (by decide) (List.all_eq_true.mp (by decide))

end Token

end OpenExpr
