import OpenExpr.Proofs.Parse.Statement
import OpenExpr.Proofs.Parse.Yields
import OpenExpr.Proofs.Placement.Parse
import OpenExpr.Resolution.Statement

namespace OpenExpr

open Parse

/-- The tree is that of a name which is bound, with at most one value. -/
structure SyntaxTree.IsInitializer (t : SyntaxTree) : Prop where
  kind : t.kind = .initializer
  operators : t.operators = []
  single : t.children.length ≤ 1

/-- The trees of expressions as sources write them. -/
inductive SyntaxTree.IsExpr : SyntaxTree → Prop
  | chain {span text operand operators} : IsExpr operand →
      (∀ o ∈ operators, o.1.kind = .operator ∧ IsSign o.1.text) →
      (∀ o ∈ operators, IsExpr o.2) →
      IsExpr { kind := .expression, span, text, children := [operand], operators }
  | paren {span text inner} : IsExpr inner →
      IsExpr { kind := .paren, span, text, children := [inner] }
  | constant {span text} : (Decimal.float? text).isSome = true →
      IsExpr { kind := .constant, span, text }
  | reference {span text} : IsPlain text → IsExpr { kind := .reference, span, text }
  | call {span text arguments} : (∀ a ∈ arguments, IsExpr a) →
      IsExpr { kind := .functionCall, span, text, children := arguments }
  | prefixed {span text operand} : IsSign text → IsExpr operand →
      IsExpr { kind := .unaryOperator, span, text, children := [operand] }
  | conditional {span text first second third} : IsExpr first → IsExpr second → IsExpr third →
      IsExpr { kind := .conditional, span, text, children := [first, second, third] }
  | loop {span text place name value condition body} : IsExpr value → IsExpr condition →
      IsExpr body →
      IsExpr { kind := .forLoop, span, text,
               children := [{ kind := .initializer, span := place, text := name, children := [value] },
                 condition, body] }
  | loopStep {span text place name value condition step body} : IsExpr value → IsExpr condition →
      IsExpr step → IsExpr body →
      IsExpr { kind := .forLoop, span, text,
               children := [{ kind := .initializer, span := place, text := name, children := [value] },
                 condition, step, body] }
  | varIn {span text initializers body} : (∀ i ∈ initializers, i.IsInitializer) →
      (∀ i ∈ initializers, ∀ v ∈ i.children, IsExpr v) → IsExpr body →
      IsExpr { kind := .varIn, span, text, children := initializers ++ [body] }

namespace Grammar

/-- The predicate holds of every expression that the grammar can make of parts of which it
holds. The grammar knows the prefix operators that it reads. -/
structure Closes (g : Grammar) (P : SyntaxTree → Prop) : Prop where
  chain {span text operand operators} : P operand →
    (∀ o ∈ operators, (o.1.kind = .operator ∧ IsSign o.1.text) ∧ P o.2) →
    P { kind := .expression, span, text, children := [operand], operators }
  paren {span text inner} : P inner → P { kind := .paren, span, text, children := [inner] }
  constant {span text} : (Decimal.float? text).isSome = true → P { kind := .constant, span, text }
  reference {span text} : IsPlain text → P { kind := .reference, span, text }
  call {span text arguments} : IsPlain text → (∀ a ∈ arguments, P a) →
    P { kind := .functionCall, span, text, children := arguments }
  prefixed {span text operand c} : IsSign text → text.toList.head? = some c →
    (g.operators.prefixOp? c).isSome = true → P operand →
    P { kind := .unaryOperator, span, text, children := [operand] }
  conditional {span text first second third} : P first → P second → P third →
    P { kind := .conditional, span, text, children := [first, second, third] }
  loop {span text place name value condition body} : P value → P condition → P body →
    P { kind := .forLoop, span, text,
        children := [{ kind := .initializer, span := place, text := name, children := [value] },
          condition, body] }
  loopStep {span text place name value condition step body} : P value → P condition → P step →
    P body →
    P { kind := .forLoop, span, text,
        children := [{ kind := .initializer, span := place, text := name, children := [value] },
          condition, step, body] }
  varIn {span text initializers body} : (∀ i ∈ initializers, i.IsInitializer) →
    (∀ i ∈ initializers, ∀ v ∈ i.children, P v) → P body →
    P { kind := .varIn, span, text, children := initializers ++ [body] }

variable {g : Grammar} {level : Level} {e : Int32 → Parse SyntaxTree} {P : SyntaxTree → Prop}

/-- Each operator stands before an expression. -/
def IsTail (P : SyntaxTree → Prop) (operators : List (Token × SyntaxTree)) : Prop :=
  ∀ o ∈ operators, (o.1.kind = .operator ∧ IsSign o.1.text) ∧ P o.2

theorem isSign_current {s : TokenStream} {symbol : Char} (lexed : AllLexed level s.pending)
    (operator : s.current.symbol? = some symbol) :
    s.current.kind = .operator ∧ IsSign s.current.text := by
  have kind := Token.kind_of_symbol? operator
  exact ⟨kind, (lexed.isLexed_current kind (by decide)).sign kind⟩

theorem yields_initializer (inner : ∀ power, Yields level P (e power)) :
    Yields level (fun t => t.IsInitializer ∧ ∀ v ∈ t.children, P v) (initializer e) := by
  refine (yields_expect _).bind fun name _ => yields_current.bind fun t _ =>
    yields_ite (fun _ => ?_) fun _ => ?_
  · exact yields_advance.bind fun _ _ => (inner 0).bind fun value good =>
      yields_node fun _ => ⟨⟨rfl, rfl, Nat.le_refl 1⟩, by simpa using good⟩
  · exact yields_node fun _ => ⟨⟨rfl, rfl, Nat.zero_le 1⟩, by simp⟩

theorem yields_operatorTail (inner : ∀ power, Yields level P (e power)) (power : Int32)
    (budget : Nat) : Yields level (IsTail P) (g.operatorTail e power budget) := by
  induction budget with
  | zero => exact yields_pure (by simp [IsTail])
  | succ budget ih =>
    intro s lexed
    unfold operatorTail
    rw [bind_ok (current_apply s)]
    cases operator : s.current.symbol? with
    | none => exact ⟨by simp [IsTail], lexed⟩
    | some symbol =>
      dsimp only
      have next : Gives level (IsTail P) ((do
          let operator ← advance
          let operand ← e (g.rightPower symbol)
          return (operator, operand) :: (← g.operatorTail e power budget)) s) :=
        gives_advance lexed ((inner _).bind fun operand good => ih.bind fun rest others =>
          yields_pure (List.forall_mem_cons.mpr ⟨⟨isSign_current lexed operator, good⟩, others⟩))
      split
      · exact ⟨by simp [IsTail], lexed⟩
      · split
        · rename_i assignment
          by_cases allowed : Level.mutableVariables ≤ g.level
          · rw [bind_ok ((requireLevel_apply _ _ _ s).trans (if_pos allowed))]
            exact next
          · rw [bind_error ((requireLevel_apply _ _ _ s).trans (if_neg allowed))]
            exact ⟨InputError.isNoNumber_of_cause (by simp), lexed⟩
        · exact next

namespace Closes

variable (closes : g.Closes P)

include closes

/-- A number of a source can be read. -/
theorem gives_constant {s : TokenStream} (lexed : AllLexed level s.pending)
    (number : s.current.kind = .number) : Gives level P (Grammar.constant s) := by
  have numeral := (lexed.isLexed_current number (by decide)).numeral number
  refine gives_advance lexed (yields_ite (fun _ => yields_pure ?_) fun other => absurd numeral other)
  exact closes.constant (by simpa [Decimal.float?] using numeral)

theorem gives_nameOrCall (inner : ∀ power, Yields level P (e power)) {s : TokenStream}
    (lexed : AllLexed level s.pending) (name : s.current.kind = .identifier) :
    Gives level P (nameOrCall e s) := by
  have plain := (lexed.isLexed_current name (by decide)).plain name
  have finish (arguments : List SyntaxTree) (each : ∀ a ∈ arguments, P a) :
      Yields level P (expect .closeParen >>= fun _ =>
        node .functionCall s.current.span.start s.current.text arguments) :=
    (yields_expect .closeParen).bind fun _ _ => yields_node fun _ => closes.call plain each
  refine gives_advance lexed (yields_current.bind fun t _ => yields_ite (fun _ => ?_) fun _ => ?_)
  · refine yields_advance.bind fun _ _ => yields_current.bind fun t _ =>
      yields_ite (fun _ => ?_) fun _ => ?_
    · exact (yields_pure (P := fun ts => ∀ t ∈ ts, P t) (by simp)).bind finish
    · exact yields_remaining.bind fun budget _ => (yields_commaSeparated (inner 0) budget).bind finish
  · exact yields_pure (closes.reference plain)

theorem yields_parenthesised (inner : ∀ power, Yields level P (e power)) :
    Yields level P (parenthesised e) :=
  yields_advance.bind fun _ _ => (inner 0).bind fun _ tree => (yields_expect _).bind fun _ _ =>
    yields_node fun _ => closes.paren tree

theorem yields_conditional (inner : ∀ power, Yields level P (e power)) :
    Yields level P (Grammar.conditional e) :=
  yields_advance.bind fun _ _ => (inner 0).bind fun _ first => (yields_expect _).bind fun _ _ =>
    (inner 0).bind fun _ second => (yields_expect _).bind fun _ _ => (inner 0).bind fun _ third =>
    yields_node fun _ => closes.conditional first second third

theorem yields_forLoop (inner : ∀ power, Yields level P (e power)) :
    Yields level P (forLoop e) := by
  refine yields_advance.bind fun start _ => (yields_expect _).bind fun name _ => ?_
  have ending (parts : List SyntaxTree) (whole : ∀ body span, P body →
      P { kind := .forLoop, span, text := "", children := parts ++ [body] }) :
      Yields level P (expect (.keyword .inWord) >>= fun _ => e 0 >>= fun body =>
        node .forLoop start.span.start "" (parts ++ [body])) :=
    (yields_expect _).bind fun _ _ => (inner 0).bind fun body last =>
      yields_node fun span => whole body span last
  have value : Yields level P (do
      let _ ← advance
      let value ← e 0
      let initializer ← node .initializer name.span.start name.text [value]
      let _ ← expect .comma
      let condition ← e 0
      let step ← if ← eat .comma then pure [← e 0] else pure []
      let _ ← expect (.keyword .inWord)
      let body ← e 0
      node .forLoop start.span.start "" ([initializer, condition] ++ step ++ [body])) := by
    refine yields_advance.bind fun _ _ => (inner 0).bind fun value first => ?_
    refine (yields_node (P := fun t => ∃ span, t = { kind := .initializer, span, text := name.text, children := [value] }) fun span => ⟨span, rfl⟩).bind ?_
    rintro _ ⟨place, rfl⟩
    refine (yields_expect .comma).bind fun _ _ => (inner 0).bind fun condition second =>
      (yields_eat .comma).bind fun more _ => ?_
    cases more with
    | true =>
      refine (inner 0).bind fun step third => ending [_, condition, step] fun body span last => ?_
      exact closes.loopStep first second third last
    | false =>
      refine ending [_, condition] fun body span last => ?_
      exact closes.loop first second last
  refine yields_current.bind fun t _ => yields_ite (fun _ => value) fun _ => ?_
  exact (yields_unexpectedDetailed (P := fun _ => True) _).bind fun _ _ => value

theorem yields_varIn (inner : ∀ power, Yields level P (e power)) :
    Yields level P (Grammar.varIn e) :=
  yields_advance.bind fun _ _ => yields_remaining.bind fun budget _ =>
    (yields_commaSeparated (yields_initializer inner) budget).bind fun _ each =>
    (yields_expect _).bind fun _ _ => (inner 0).bind fun _ body =>
    yields_node fun _ => closes.varIn (fun i member => (each i member).1)
      (fun i member => (each i member).2) body

theorem yields_primaryWith (inner : ∀ power, Yields level P (e power)) :
    Yields level P (g.primaryWith e) := by
  intro s lexed
  unfold primaryWith
  split
  · exact yields_unexpected s lexed
  rw [bind_ok (current_apply s)]
  cases kind : s.current.kind with
  | number => exact closes.gives_constant lexed kind
  | identifier => exact closes.gives_nameOrCall inner lexed kind
  | openParen => exact closes.yields_parenthesised inner s lexed
  | keyword word =>
    cases word with
    | ifWord => exact closes.yields_conditional inner s lexed
    | forWord => exact closes.yields_forLoop inner s lexed
    | varWord => exact closes.yields_varIn inner s lexed
    | _ => exact yields_unexpected s lexed
  | _ => exact yields_unexpected s lexed

theorem yields_operandWith (inner : ∀ power, Yields level P (e power)) :
    Yields level P (g.operandWith e) := by
  intro s lexed
  unfold operandWith
  rw [bind_ok (current_apply s)]
  cases operator : s.current.symbol? with
  | none => exact closes.yields_primaryWith inner s lexed
  | some symbol =>
    dsimp only
    cases known : g.operators.prefixOp? symbol with
    | none => exact yields_unexpectedDetailed _ s lexed
    | some op =>
      obtain ⟨kind, sign⟩ := isSign_current lexed operator
      rw [Token.symbol?, if_pos kind] at operator
      exact gives_advance lexed ((inner _).bind fun _ operand => yields_node fun _ =>
        closes.prefixed sign operator (Option.isSome_of_eq_some known) operand)

theorem yields_exprWith (inner : ∀ power, Yields level P (e power)) (power : Int32) :
    Yields level P (g.exprWith e power) :=
  yields_position.bind fun start _ => (closes.yields_operandWith inner).bind fun _ operand =>
    yields_remaining.bind fun budget _ => (yields_operatorTail inner power budget).bind
    fun _ tail => (yields_spanFrom start).bind fun _ _ => yields_pure
      (closes.chain operand tail)

theorem yields_exprWithin (budget : Nat) (power : Int32) :
    Yields level P (g.exprWithin budget power) := by
  induction budget generalizing power with
  | zero => exact yields_unexpected
  | succ budget ih => exact closes.yields_exprWith ih power

/-- It holds of every expression that the grammar reads. -/
theorem yields_expr (power : Int32) : Yields level P (g.expr power) :=
  yields_remaining.bind fun budget _ => closes.yields_exprWithin budget power

end Closes

theorem closes_isExpr (g : Grammar) : g.Closes SyntaxTree.IsExpr where
  chain operand tail := .chain operand (fun o member => (tail o member).1) fun o member => (tail o member).2
  paren := .paren
  constant := .constant
  reference := .reference
  call _ := .call
  prefixed sign _ _ operand := .prefixed sign operand
  conditional := .conditional
  loop := .loop
  loopStep := .loopStep
  varIn := .varIn

theorem yields_expr (g : Grammar) (power : Int32) : Yields level SyntaxTree.IsExpr (g.expr power) :=
  g.closes_isExpr.yields_expr power

end Grammar

end OpenExpr
