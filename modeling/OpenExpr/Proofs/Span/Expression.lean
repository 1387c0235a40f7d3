import OpenExpr.Proofs.Span.Reading
import OpenExpr.Proofs.Token.Lexed

namespace OpenExpr.Grammar

open Parse SyntaxTree

variable {g : Grammar} {size : Nat} {e : Int32 → Parse SyntaxTree} {s : TokenStream}

theorem laid_constant (ordered : s.InOrder size) (some : s.current.kind ≠ .endOfInput) :
    Laid size s (constant s) := by
  refine (lands_token ordered some).bind fun token s₁ r₁ inside => lands_ite (fun _ => ?_) fun _ => ?_
  · exact lands_pure r₁.ordered ⟨inside, isLaid_leaf inside.forward⟩
  · exact lands_throw r₁.ordered (inside.lower_le.trans r₁.ordered.back_le)

theorem laid_nameOrCall (inner : ∀ power, Lays size (e power)) (ordered : s.InOrder size)
    (some : s.current.kind ≠ .endOfInput) : Laid size s (nameOrCall e s) := by
  refine (lands_token ordered some).bind fun name s₁ r₁ inside =>
    lands_current (lands_ite (fun _ => ?_) fun _ => ?_)
  · refine (lands_advance r₁.ordered).bind fun _ s₂ r₂ _ => ?_
    have finish (arguments : List SyntaxTree) (s₃ : TokenStream) (r₃ : s₂.Reaches size s₃)
        (each : AllLieIn s₂.back s₃.back arguments) :
        Lands size s₃ (fun s' t => t.LiesIn s.next s'.back) ((expect .closeParen >>= fun _ =>
          node .functionCall name.span.start name.text arguments) s₃) := by
      refine (lands_expect r₃.ordered (by decide)).bind fun _ s₄ r₄ _ => ?_
      have inside' : AllLieIn name.span.lower s₄.back arguments :=
        each.mono (inside.lower_le.trans r₂.back) r₄.back
      exact Lands.imp (lands_node r₄.ordered inside') fun t s₅ _ lies =>
        lies.mono inside.lower (Nat.le_refl _)
    refine lands_current (lands_ite (fun _ => ?_) fun _ => lands_remaining ?_)
    · exact finish [] s₂ (.refl r₂.ordered) (.nil (Nat.le_refl _))
    · exact (lands_commaSeparated (inner 0) _ r₂.ordered).bind fun arguments s₃ r₃ each =>
        finish arguments s₃ r₃ (each.mono r₂.ordered.gap (Nat.le_refl _))
  · exact lands_pure r₁.ordered ⟨inside, isLaid_leaf inside.forward⟩

/-- A node that starts with the token that is next in `s`. -/
theorem laid_node {kind : SyntaxTree.Kind} {start : Token} {text : String} {s' : TokenStream}
    {children : List SyntaxTree} (first : start = s.current) (ordered : s'.InOrder size)
    (inside : AllLieIn (s.next + kind.lead) s'.back children) :
    Lands size s' (fun s'' t => t.LiesIn s.next s''.back)
      (node kind start.span.start text children s') := by
  subst first
  exact lands_node ordered inside

theorem laid_parenthesised (inner : ∀ power, Lays size (e power)) (ordered : s.InOrder size) :
    Laid size s (parenthesised e s) :=
  (lands_advance ordered).bind fun _ s₁ r₁ start => (inner 0 s₁ r₁.ordered).bind
    fun _ s₂ r₂ tree => (lands_expect r₂.ordered (by decide)).bind fun _ s₃ r₃ _ =>
    laid_node start r₃.ordered (tree.one.mono r₁.next r₃.back)

theorem laid_conditional (inner : ∀ power, Lays size (e power)) (ordered : s.InOrder size) :
    Laid size s (Grammar.conditional e s) :=
  (lands_advance ordered).bind fun _ s₁ r₁ start =>
    (inner 0 s₁ r₁.ordered).bind fun _ s₂ r₂ first =>
    (lands_expect r₂.ordered (by decide)).bind fun _ s₃ r₃ _ =>
    (inner 0 s₃ r₃.ordered).bind fun _ s₄ r₄ second =>
    (lands_expect r₄.ordered (by decide)).bind fun _ s₅ r₅ _ =>
    (inner 0 s₅ r₅.ordered).bind fun _ s₆ r₆ third =>
    laid_node start r₆.ordered
      ((first.cons r₃.gap (second.cons r₅.gap third.one)).mono r₁.next (Nat.le_refl _))

/-- The variable of a loop or of a `var`, whose name was read from `s` on and whose value
stands behind it. -/
theorem lands_initializer {name : Token} {s' s'' : TokenStream} {value : List SyntaxTree}
    (named : name.span.Within s.next s'.back) (ordered : s''.InOrder size)
    (inside : AllLieIn s'.back s''.back value) :
    Lands size s'' (fun s₃ t => t.LiesIn s.next s₃.back)
      (node .initializer name.span.start name.text value s'') := by
  have inside' : AllLieIn name.span.lower s''.back value :=
    inside.mono named.lower_le (Nat.le_refl _)
  exact Lands.imp (lands_node ordered inside') fun t s₃ _ lies =>
    lies.mono named.lower (Nat.le_refl _)

theorem lays_initializer (inner : ∀ power, Lays size (e power)) : Lays size (initializer e) := by
  intro s ordered
  refine (lands_expect ordered (by decide)).bind fun name s₁ r₁ named =>
    lands_current (lands_ite (fun _ => ?_) fun _ => ?_)
  · exact (lands_advance r₁.ordered).bind fun _ s₂ r₂ _ => (inner 0 s₂ r₂.ordered).bind
      fun value s₃ r₃ lies => lands_initializer named r₃.ordered (lies.one.mono r₂.gap (Nat.le_refl _))
  · exact lands_initializer named r₁.ordered (.nil (Nat.le_refl _))

theorem laid_forLoop (inner : ∀ power, Lays size (e power)) (ordered : s.InOrder size)
    (some : s.current.kind ≠ .endOfInput) : Laid size s (forLoop e s) := by
  refine (lands_opening ordered some).bind fun start s₁ r₁ opens =>
    (lands_expect r₁.ordered (by decide)).bind fun name s₂ r₂ named => ?_
  obtain ⟨first, lead⟩ := opens
  have ending {s₆ s₇ : TokenStream} (parts : List SyntaxTree) (r₇ : s₆.Reaches size s₇)
      (inside : AllLieIn s₁.next s₇.back parts) :
      Lands size s₇ (fun s' t => t.LiesIn s.next s'.back)
        ((expect (.keyword .inWord) >>= fun _ => e 0 >>= fun body =>
          node .forLoop start.span.start "" (parts ++ [body])) s₇) :=
    (lands_expect r₇.ordered (by decide)).bind fun _ s₈ r₈ _ =>
      (inner 0 s₈ r₈.ordered).bind fun body s₉ r₉ last =>
      laid_node first r₉.ordered
        ((inside.append r₈.gap last.one).mono (lead.trans_le r₁.ordered.gap) (Nat.le_refl _))
  have value : Lands size s₂ (fun s' t => t.LiesIn s.next s'.back) ((do
      let _ ← advance
      let value ← e 0
      let initializer ← node .initializer name.span.start name.text [value]
      let _ ← expect .comma
      let condition ← e 0
      let step ← if ← eat .comma then pure [← e 0] else pure []
      let _ ← expect (.keyword .inWord)
      let body ← e 0
      node .forLoop start.span.start "" ([initializer, condition] ++ step ++ [body])) s₂) := by
    refine (lands_advance r₂.ordered).bind fun _ s₃ r₃ _ => (inner 0 s₃ r₃.ordered).bind
      fun value s₄ r₄ lies => ?_
    refine (lands_initializer named r₄.ordered (lies.one.mono r₃.gap (Nat.le_refl _))).bind
      fun counter s₅ r₅ counts => (lands_expect r₅.ordered (by decide)).bind fun _ s₆ r₆ _ =>
      (inner 0 s₆ r₆.ordered).bind fun condition s₇ r₇ holds =>
      (lands_eat r₇.ordered .comma).bind fun more s₈ r₈ _ => ?_
    cases more with
    | true =>
      refine (inner 0 s₈ r₈.ordered).bind fun step s₉ r₉ steps => ?_
      exact ending [counter, condition, step] r₉ (counts.cons r₆.gap (holds.cons r₈.gap steps.one))
    | false =>
      exact ending [counter, condition] r₈
        (counts.cons r₆.gap (holds.one.mono (Nat.le_refl _) r₈.back))
  refine lands_current (lands_ite (fun _ => value) fun _ => ?_)
  exact (lands_unexpectedDetailed (P := fun s' _ => s' = s₂) r₂.ordered _).bind
    fun _ _ _ same => same ▸ value

theorem laid_varIn (inner : ∀ power, Lays size (e power)) (ordered : s.InOrder size) :
    Laid size s (Grammar.varIn e s) :=
  (lands_advance ordered).bind fun _ s₁ r₁ start => lands_remaining <|
    (lands_commaSeparated (lays_initializer inner) _ r₁.ordered).bind fun _ s₂ r₂ locals =>
    (lands_expect r₂.ordered (by decide)).bind fun _ s₃ r₃ _ =>
    (inner 0 s₃ r₃.ordered).bind fun _ s₄ r₄ body =>
    laid_node start r₄.ordered ((locals.append r₃.gap body.one).mono r₁.next (Nat.le_refl _))

theorem lays_primaryWith (inner : ∀ power, Lays size (e power)) : Lays size (g.primaryWith e) := by
  intro s ordered
  refine lands_ite (fun _ => lands_unexpected ordered) fun _ => lands_current ?_
  have some (kind : Token.Kind) (same : s.current.kind = kind) (other : kind ≠ .endOfInput) :
      s.current.kind ≠ .endOfInput := same ▸ other
  cases kind : s.current.kind with
  | number => exact laid_constant ordered (some _ kind (by decide))
  | identifier => exact laid_nameOrCall inner ordered (some _ kind (by decide))
  | openParen => exact laid_parenthesised inner ordered
  | keyword word =>
    cases word with
    | ifWord => exact laid_conditional inner ordered
    | forWord => exact laid_forLoop inner ordered (some _ kind (by decide))
    | varWord => exact laid_varIn inner ordered
    | _ => exact lands_unexpected ordered
  | _ => exact lands_unexpected ordered

theorem lays_operandWith (inner : ∀ power, Lays size (e power)) : Lays size (g.operandWith e) := by
  intro s ordered
  refine lands_current ?_
  cases operator : s.current.symbol? with
  | none => exact lays_primaryWith inner s ordered
  | some symbol =>
    dsimp only
    cases g.operators.prefixOp? symbol with
    | none => exact lands_unexpectedDetailed ordered _
    | some op =>
      exact (lands_advance ordered).bind fun _ s₁ r₁ start => (inner _ s₁ r₁.ordered).bind
        fun _ s₂ r₂ operand => laid_node start r₂.ordered (operand.one.mono r₁.next (Nat.le_refl _))

/-- Operators and operands follow each other behind what was read. -/
theorem lands_operatorTail (inner : ∀ power, Lays size (e power)) (power : Int32) (budget : Nat)
    (ordered : s.InOrder size) :
    Lands size s (fun s' os => TailLiesIn s.back s'.back os) (g.operatorTail e power budget s) := by
  induction budget generalizing s with
  | zero => exact lands_pure ordered (.nil (Nat.le_refl _))
  | succ budget ih =>
    unfold operatorTail
    refine lands_current ?_
    cases operator : s.current.symbol? with
    | none => exact lands_pure ordered (.nil (Nat.le_refl _))
    | some symbol =>
      have next : Lands size s (fun s' os => TailLiesIn s.back s'.back os) ((do
          let operator ← advance
          let operand ← e (g.rightPower symbol)
          return (operator, operand) :: (← g.operatorTail e power budget)) s) :=
        (lands_token ordered (Token.kind_ne_endOfInput_of_symbol? operator)).bind fun token s₁ r₁ sign =>
          (inner _ s₁ r₁.ordered).bind fun operand s₂ r₂ lies =>
          (ih r₂.ordered).bind fun rest s₃ r₃ others => lands_pure r₃.ordered
            (.cons (sign.mono ordered.gap (Nat.le_refl _)) r₁.ordered.gap lies others)
      refine lands_ite (fun _ => lands_pure ordered (.nil (Nat.le_refl _))) fun _ =>
        lands_ite (fun _ => ?_) fun _ => next
      exact (lands_requireLevel ordered _ _ _).bind fun _ s₁ r₁ same => same ▸ next

theorem lays_exprWith (inner : ∀ power, Lays size (e power)) (power : Int32) :
    Lays size (g.exprWith e power) := by
  intro s ordered
  refine lands_position ((lays_operandWith inner s ordered).bind fun operand s₁ r₁ lies =>
    lands_remaining ((lands_operatorTail inner power _ r₁.ordered).bind fun operators s₂ r₂ tail => ?_))
  have upper : (s₂.spanFrom s.current.span.start).upper = s₂.back :=
    TokenStream.upper_spanFrom (lies.span.le.trans r₂.back)
  refine lands_pure r₂.ordered ⟨⟨Nat.le_refl _, ?_, Nat.le_of_eq upper⟩, LiesIn.isLaid_chain lies ?_⟩
  · rw [upper]
    exact lies.span.le.trans r₂.back
  · rw [upper]
    exact tail

theorem lays_exprWithin (budget : Nat) (power : Int32) : Lays size (g.exprWithin budget power) := by
  induction budget generalizing power with
  | zero => exact fun s ordered => lands_unexpected ordered
  | succ budget ih => exact lays_exprWith ih power

/-- What is read as an expression is laid out along the tokens. -/
theorem lays_expr (power : Int32) : Lays size (g.expr power) :=
  fun s ordered => lands_remaining (lays_exprWithin s.pending.length power s ordered)

end OpenExpr.Grammar
