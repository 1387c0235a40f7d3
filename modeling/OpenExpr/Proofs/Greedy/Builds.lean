import OpenExpr.Proofs.Greedy.Consumes
import OpenExpr.Proofs.Greedy.Words

namespace OpenExpr

open Parse SyntaxTree

namespace Grammar

variable (g : Grammar)

/-- The tree is what is read with the power of these tokens in front of those. -/
def HasRead (power : Int32) (t : SyntaxTree) (w rest : List Token) : Prop :=
  ∃ s s', g.expr power s = .ok t s' ∧ s.pending = w ++ rest ∧ s'.pending = rest

/-- No operator comes next that binds as tightly as the power. -/
def EndsBefore (power : Int32) (rest : List Token) : Prop :=
  ∀ t ∈ rest.head?, ∀ symbol ∈ t.symbol?, g.operators.precedence symbol < power

/-- The part of a tree stands for these tokens in front of those. An expression takes up
operators as long as they bind as tightly as its power, and no operator that binds less. On the
right of an operator stands an expression of the power that the operator asks for, and of power
one if it is none that the table knows. -/
inductive Builds : SyntaxTree.Part → List Token → List Token → Prop
  | expr {power span operand applications a c rest} :
      g.HasRead power
        { kind := .expression, span, children := [operand], operators := applications } (a ++ c) rest →
      Builds (.operand operand) a (c ++ rest) → Builds (.operators power applications) c rest →
      g.EndsBefore power rest →
      Builds (.expr power
        { kind := .expression, span, children := [operand], operators := applications }) (a ++ c) rest
  | noOperator {power rest} : Builds (.operators power []) [] rest
  | operator {power o symbol operand applications w c rest} : o.symbol? = some symbol →
      power ≤ g.operators.precedence symbol →
      Builds (.expr (((g.operators.infixOp? symbol).map Operator.operandPower).getD 1) operand) w
        (c ++ rest) →
      Builds (.operators power applications) c rest →
      Builds (.operators power ((o, operand) :: applications)) (o :: (w ++ c)) rest
  | prefixed {o symbol op span operand w rest} : o.symbol? = some symbol →
      g.operators.prefixOp? symbol = some op → Builds (.expr op.precedence operand) w rest →
      Builds (.operand { kind := .unaryOperator, span, text := o.text, children := [operand] })
        (o :: w) rest
  | number {t rest} : t.kind = .number →
      Builds (.operand { kind := .constant, span := t.span, text := t.text }) [t] rest
  | reference {t rest} : t.kind = .identifier →
      Builds (.operand { kind := .reference, span := t.span, text := t.text }) [t] rest
  | callEmpty {f l r span rest} : f.kind = .identifier → l.kind = .openParen → r.kind = .closeParen →
      Builds (.operand { kind := .functionCall, span, text := f.text }) [f, l, r] rest
  | call {f l r span arguments w rest} : f.kind = .identifier → l.kind = .openParen →
      r.kind = .closeParen → Builds (.arguments arguments) w (r :: rest) →
      Builds (.operand { kind := .functionCall, span, text := f.text, children := arguments })
        (f :: l :: (w ++ [r])) rest
  | paren {l r span inner w rest} : l.kind = .openParen → r.kind = .closeParen →
      Builds (.expr 0 inner) w (r :: rest) →
      Builds (.operand { kind := .paren, span, children := [inner] }) (l :: (w ++ [r])) rest
  | conditional {i t e span x y z a b c rest} : i.kind = .keyword .ifWord →
      t.kind = .keyword .thenWord → e.kind = .keyword .elseWord →
      Builds (.expr 0 x) a (t :: (b ++ e :: (c ++ rest))) →
      Builds (.expr 0 y) b (e :: (c ++ rest)) → Builds (.expr 0 z) c rest →
      Builds (.operand { kind := .conditional, span, children := [x, y, z] })
        (i :: (a ++ t :: (b ++ e :: c))) rest
  | loop {f x q d i span place start condition body a b c rest} : f.kind = .keyword .forWord →
      x.kind = .identifier → q.symbol? = some '=' → d.kind = .comma → i.kind = .keyword .inWord →
      Builds (.expr 0 start) a (d :: (b ++ i :: (c ++ rest))) →
      Builds (.expr 0 condition) b (i :: (c ++ rest)) → Builds (.expr 0 body) c rest →
      Builds (.operand { kind := .forLoop, span, children := [
          { kind := .initializer, span := place, text := x.text, children := [start] },
          condition, body] })
        (f :: x :: q :: (a ++ d :: (b ++ i :: c))) rest
  | loopStep {f x q d d' i span place start condition step body a b v c rest} :
      f.kind = .keyword .forWord → x.kind = .identifier → q.symbol? = some '=' → d.kind = .comma →
      d'.kind = .comma → i.kind = .keyword .inWord →
      Builds (.expr 0 start) a (d :: (b ++ d' :: (v ++ i :: (c ++ rest)))) →
      Builds (.expr 0 condition) b (d' :: (v ++ i :: (c ++ rest))) →
      Builds (.expr 0 step) v (i :: (c ++ rest)) → Builds (.expr 0 body) c rest →
      Builds (.operand { kind := .forLoop, span, children := [
          { kind := .initializer, span := place, text := x.text, children := [start] },
          condition, step, body] })
        (f :: x :: q :: (a ++ d :: (b ++ d' :: (v ++ i :: c)))) rest
  | varIn {v i span bindings body w c rest} : v.kind = .keyword .varWord →
      i.kind = .keyword .inWord → Builds (.bindings bindings) w (i :: (c ++ rest)) →
      Builds (.expr 0 body) c rest →
      Builds (.operand { kind := .varIn, span, children := bindings ++ [body] })
        (v :: (w ++ i :: c)) rest
  | argument {t w rest} : Builds (.expr 0 t) w rest → Builds (.arguments [t]) w rest
  | arguments {t ts w d v rest} : Builds (.expr 0 t) w (d :: (v ++ rest)) → d.kind = .comma →
      Builds (.arguments ts) v rest → Builds (.arguments (t :: ts)) (w ++ d :: v) rest
  | unset {x span rest} : x.kind = .identifier →
      Builds (.binding { kind := .initializer, span, text := x.text }) [x] rest
  | set {x q span value w rest} : x.kind = .identifier → q.symbol? = some '=' →
      Builds (.expr 0 value) w rest →
      Builds (.binding { kind := .initializer, span, text := x.text, children := [value] })
        (x :: q :: w) rest
  | binding {t w rest} : Builds (.binding t) w rest → Builds (.bindings [t]) w rest
  | bindings {t ts w d v rest} : Builds (.binding t) w (d :: (v ++ rest)) → d.kind = .comma →
      Builds (.bindings ts) v rest → Builds (.bindings (t :: ts)) (w ++ d :: v) rest

variable {g} {level : Level} {part : SyntaxTree.Part} {w rest : List Token}

theorem Builds.arguments_ne_nil {ts : List SyntaxTree} (built : g.Builds (.arguments ts) w rest) :
    ts ≠ [] := by
  cases built <;> simp

theorem Builds.bindings_ne_nil {ts : List SyntaxTree} (built : g.Builds (.bindings ts) w rest) :
    ts ≠ [] := by
  cases built <;> simp

/-- What is written for a part of a tree is what it stands for. -/
theorem Builds.words_eq (built : g.Builds part w rest) (lexed : AllLexed level w) :
    part.words = w.map Token.spelling := by
  induction built with
  | expr _ _ _ _ operand applications =>
    have first := operand lexed.left
    have others := applications lexed.right
    simpa [Part.words, Kind.words] using congrArg₂ (· ++ ·) first others
  | noOperator => rfl
  | operator _ _ _ _ operand applications =>
    have first := operand lexed.tail.left
    have others := applications lexed.tail.right
    simpa [Part.words] using congrArg₂ (· ++ ·) first others
  | prefixed sign _ _ operand =>
    have first := operand lexed.tail
    have same := Token.spelling_of_kind (Token.kind_of_symbol? sign)
    simpa [Part.words, Kind.words, same] using first
  | number same => simp [Part.words, Kind.words, Token.spelling_of_kind same]
  | reference same => simp [Part.words, Kind.words, Token.spelling_of_kind same]
  | callEmpty name opened closed =>
    simp only [allLexed_cons_iff] at lexed
    have opened := lexed.2.1.spelling_eq opened rfl
    have closed := lexed.2.2.1.spelling_eq closed rfl
    simp [Part.words, Kind.words, Token.spelling_of_kind name, opened, closed, List.intercalate]
  | call name opened closed _ arguments =>
    simp only [allLexed_cons_iff, allLexed_append_iff] at lexed
    have opened := lexed.2.1.spelling_eq opened rfl
    have closed := lexed.2.2.2.1.spelling_eq closed rfl
    have inner := arguments lexed.2.2.1
    simp only [Part.words] at inner
    simp [Part.words, Kind.words, Token.spelling_of_kind name, opened, closed, inner]
  | paren opened closed _ inner =>
    simp only [allLexed_cons_iff, allLexed_append_iff] at lexed
    have opened := lexed.1.spelling_eq opened rfl
    have closed := lexed.2.2.1.spelling_eq closed rfl
    have inner := inner lexed.2.1
    simp only [Part.words] at inner
    simp [Part.words, Kind.words, opened, closed, inner]
  | conditional word thenWord elseWord _ _ _ first second third =>
    simp only [allLexed_cons_iff, allLexed_append_iff] at lexed
    obtain ⟨i, a, t, b, e, c⟩ := lexed
    have words := i.spelling_eq word rfl
    have words' := t.spelling_eq thenWord rfl
    have words'' := e.spelling_eq elseWord rfl
    have first := first a
    have second := second b
    have third := third c
    simp only [Part.words] at first second third
    simp [Part.words, Kind.words, words, words', words'', first, second, third]
  | loop word name assign comma inWord _ _ _ first second third =>
    simp only [allLexed_cons_iff, allLexed_append_iff] at lexed
    obtain ⟨f, _, q, a, d, b, i, c⟩ := lexed
    have word := f.spelling_eq word rfl
    have assign := q.spelling_operator assign
    have comma := d.spelling_eq comma rfl
    have inWord := i.spelling_eq inWord rfl
    have first := first a
    have second := second b
    have third := third c
    simp only [Part.words] at first second third
    simp [Part.words, Kind.words, scopeWords, List.intercalate, Token.spelling_of_kind name, word,
      assign, comma, inWord, first, second, third]
  | loopStep word name assign comma comma' inWord _ _ _ _ first second third fourth =>
    simp only [allLexed_cons_iff, allLexed_append_iff] at lexed
    obtain ⟨f, _, q, a, d, b, d', v, i, c⟩ := lexed
    have word := f.spelling_eq word rfl
    have assign := q.spelling_operator assign
    have comma := d.spelling_eq comma rfl
    have comma' := d'.spelling_eq comma' rfl
    have inWord := i.spelling_eq inWord rfl
    have first := first a
    have second := second b
    have third := third v
    have fourth := fourth c
    simp only [Part.words] at first second third fourth
    simp [Part.words, Kind.words, scopeWords, List.intercalate, Token.spelling_of_kind name, word,
      assign, comma, comma', inWord, first, second, third, fourth]
  | varIn word inWord _ _ bindings body =>
    simp only [allLexed_cons_iff, allLexed_append_iff] at lexed
    obtain ⟨v, w, i, c⟩ := lexed
    have word := v.spelling_eq word rfl
    have inWord := i.spelling_eq inWord rfl
    have first := bindings w
    have second := body c
    simp only [Part.words] at first second
    simp [Part.words, Kind.words, scopeWords, word, inWord, first, second]
  | argument _ one =>
    have one := one lexed
    simpa [Part.words, List.intercalate] using one
  | arguments _ comma others one more =>
    simp only [allLexed_cons_iff, allLexed_append_iff] at lexed
    obtain ⟨w, d, v⟩ := lexed
    have comma := d.spelling_eq comma rfl
    have one := one w
    have more := more v
    simp only [Part.words] at one more
    simp [Part.words, List.intercalate_cons_of_ne_nil, others.arguments_ne_nil, one, comma, more]
  | unset name => simp [Part.words, Kind.words, Token.spelling_of_kind name]
  | set name assign _ value =>
    simp only [allLexed_cons_iff] at lexed
    have assign := lexed.2.1.spelling_operator assign
    have value := value lexed.2.2
    simp only [Part.words] at value
    simp [Part.words, Kind.words, Token.spelling_of_kind name, assign, value]
  | binding _ one =>
    have one := one lexed
    simpa [Part.words, List.intercalate] using one
  | bindings _ comma others one more =>
    simp only [allLexed_cons_iff, allLexed_append_iff] at lexed
    obtain ⟨w, d, v⟩ := lexed
    have comma := d.spelling_eq comma rfl
    have one := one w
    have more := more v
    simp only [Part.words] at one more
    simp [Part.words, List.intercalate_cons_of_ne_nil, others.bindings_ne_nil, one, comma, more]

end Grammar

end OpenExpr
