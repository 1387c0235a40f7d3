import Mathlib.Data.List.Forall2
import OpenExpr.Token.Scan

namespace OpenExpr

namespace Keyword

theorem text_injective {k k' : Keyword} (same : k.text = k'.text) : k = k' := by
  cases k <;> cases k' <;> first | rfl | exact absurd same (by decide)

/-- A text is at most one reserved word. -/
theorem ofText?_eq_some_iff {level : Level} {text : String} {k : Keyword} :
    ofText? level text = some k ↔ k.text = text ∧ k.level ≤ level := by
  constructor
  · intro found
    simpa using List.find?_some found
  · rintro ⟨rfl, reserved⟩
    cases found : ofText? level k.text with
    | none =>
      have absent := List.find?_eq_none.mp found k (mem_all k)
      simp [reserved] at absent
    | some k' =>
      have fits : k'.text = k.text ∧ k'.level ≤ level := by simpa using List.find?_some found
      rw [text_injective fits.1]

theorem ofText?_eq_none_iff {level : Level} {text : String} :
    ofText? level text = none ↔ ∀ k : Keyword, k.text = text → ¬ k.level ≤ level := by
  simp only [Option.eq_none_iff_forall_ne_some, ne_eq, ofText?_eq_some_iff, not_and]

end Keyword

/-- The token at a higher level: it stands where it stood and is spelled as it was, and it
is of the same kind unless it was a name and is a keyword that a level in between reserves. -/
structure Token.Rises (low high : Level) (t t' : Token) : Prop where
  text : t'.text = t.text
  span : t'.span = t.span
  kind : t'.kind = t.kind ∨ t.kind = .identifier ∧
    ∃ k : Keyword, t'.kind = .keyword k ∧ k.text = t.text ∧ ¬ k.level ≤ low ∧ k.level ≤ high

/-- No name is spelled like a reserved word, whether its level reserves the word or not. -/
def SparesKeywords (tokens : List Token) : Prop :=
  ∀ t ∈ tokens, t.kind = .identifier → ∀ k ∈ Keyword.all, t.text ≠ k.text

instance (tokens : List Token) : Decidable (SparesKeywords tokens) :=
  inferInstanceAs (Decidable (∀ t ∈ tokens, t.kind = .identifier → ∀ k ∈ Keyword.all, t.text ≠ k.text))

section

variable {low high : Level}

theorem Lexeme.toToken_rises (le : low ≤ high) (file : String) (l : Lexeme) :
    (l.toToken file low).Rises low high (l.toToken file high) := by
  refine ⟨rfl, rfl, ?_⟩
  obtain ⟨shape, text, offset⟩ := l
  cases shape with
  | number | mark => exact .inl rfl
  | word =>
    change ((Keyword.ofText? high text).map Token.Kind.keyword).getD .identifier =
        ((Keyword.ofText? low text).map Token.Kind.keyword).getD .identifier ∨
      ((Keyword.ofText? low text).map Token.Kind.keyword).getD .identifier = .identifier ∧ _
    cases below : Keyword.ofText? low text with
    | some k =>
      obtain ⟨spelled, reserved⟩ := Keyword.ofText?_eq_some_iff.mp below
      rw [Keyword.ofText?_eq_some_iff.mpr ⟨spelled, Level.le_trans reserved le⟩]
      exact .inl rfl
    | none =>
      cases above : Keyword.ofText? high text with
      | none => exact .inl rfl
      | some k =>
        obtain ⟨spelled, reserved⟩ := Keyword.ofText?_eq_some_iff.mp above
        have free := Keyword.ofText?_eq_none_iff.mp below k spelled
        exact .inr ⟨rfl, k, congrArg (fun k => (Option.map Token.Kind.keyword k).getD _) above,
          spelled, free, reserved⟩

/-- A token that is not spelled like a keyword stays what it is. -/
theorem Token.Rises.eq {t t' : Token} (rises : t.Rises low high t')
    (spared : t.kind = .identifier → ∀ k ∈ Keyword.all, t.text ≠ k.text) : t' = t := by
  have kind : t'.kind = t.kind := rises.kind.resolve_right fun reserved => by
    obtain ⟨name, k, _, spelled, _⟩ := reserved
    exact spared name k k.mem_all spelled.symm
  obtain ⟨_, _, _⟩ := t
  obtain ⟨_, _, _⟩ := t'
  cases kind
  cases rises.text
  cases rises.span
  rfl

/-- What consists of tokens at one level does so at every other, token by token. -/
theorem tokenize_rises (le : low ≤ high) {file source : String} {tokens : List Token}
    (run : tokenize low file source = .ok tokens) :
    ∃ tokens', tokenize high file source = .ok tokens' ∧
      List.Forall₂ (Token.Rises low high) tokens tokens' := by
  unfold tokenize at run ⊢
  cases read : Lexeme.ofSource source with
  | error stray => simp [read] at run
  | ok lexemes =>
    rw [read] at run
    cases run
    have stays : ∀ t : Token, t.Rises low high t := fun t => ⟨rfl, rfl, .inl rfl⟩
    refine ⟨_, rfl, List.rel_append ?_ (.cons (stays _) .nil)⟩
    refine List.forall₂_map_left_iff.mpr (List.forall₂_map_right_iff.mpr ?_)
    exact List.forall₂_same.mpr fun l _ => l.toToken_rises le file

/-- A word is a name until its level reserves it. -/
example : (tokenize .controlFlow "" "var in").map (List.map Token.kind) =
      .ok [.identifier, .keyword .inWord, .endOfInput] ∧
    (tokenize .mutableVariables "" "var in").map (List.map Token.kind) =
      .ok [.keyword .varWord, .keyword .inWord, .endOfInput] := by
  decide +kernel

/-- The level has no say in whether a source consists of tokens. -/
theorem tokenize_error_iff (low high : Level) (file source : String) (e : InputError) :
    tokenize low file source = .error e ↔ tokenize high file source = .error e := by
  unfold tokenize
  cases Lexeme.ofSource source <;> simp

theorem eq_of_rises {tokens tokens' : List Token}
    (rises : List.Forall₂ (Token.Rises low high) tokens tokens') (spared : SparesKeywords tokens) :
    tokens' = tokens := by
  induction rises with
  | nil => rfl
  | cons first _ ih =>
    obtain ⟨here, others⟩ := List.forall_mem_cons.mp spared
    rw [first.eq here, ih others]

end

end OpenExpr
