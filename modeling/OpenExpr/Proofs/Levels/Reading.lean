import OpenExpr.Proofs.Grammar.Header

namespace OpenExpr

/-- The same grammar at another level. -/
def Grammar.atLevel (g : Grammar) (level : Level) : Grammar :=
  { g with level }

namespace Parse

variable {α β : Type}

/-- Whatever `p` reads, `q` reads too, and leaves the same tokens. -/
def Covers (p q : Parse α) : Prop :=
  ∀ s a s', p s = .ok a s' → q s = .ok a s'

theorem Covers.refl (p : Parse α) : Covers p p :=
  fun _ _ _ run => run

theorem Covers.bind {p q : Parse α} {f f' : α → Parse β} (first : Covers p q)
    (next : ∀ a, Covers (f a) (f' a)) : Covers (p >>= f) (q >>= f') := by
  intro s b s'' run
  obtain ⟨a, s', one, other⟩ := bind_eq_ok run
  rw [bind_ok (first s a s' one)]
  exact next a s' b s'' other

/-- Readings that begin alike. -/
theorem Covers.after (p : Parse α) {f f' : α → Parse β} (next : ∀ a, Covers (f a) (f' a)) :
    Covers (p >>= f) (p >>= f') :=
  (Covers.refl p).bind next

theorem Covers.ite {p q p' q' : Parse α} (condition : Prop) [Decidable condition]
    (yes : Covers p q) (no : Covers p' q') :
    Covers (if condition then p else p') (if condition then q else q') := by
  split
  · exact yes
  · exact no

theorem covers_commaSeparated {p q : Parse SyntaxTree} (item : Covers p q) (budget : Nat) :
    Covers (commaSeparated p budget) (commaSeparated q budget) := by
  induction budget with
  | zero => exact item.bind fun _ => .refl _
  | succ budget ih =>
    exact item.bind fun _ => .after _ fun _ => .ite _ (ih.bind fun _ => .refl _) (.refl _)

/-- A construct that a level has is there at all levels above. -/
theorem covers_requireLevel {low high : Level} (le : low ≤ high) (required : Level) (feature : String) :
    Covers (requireLevel low required feature) (requireLevel high required feature) := by
  intro s a s' run
  rw [requireLevel_apply] at run ⊢
  by_cases allowed : required ≤ low
  · rw [if_pos allowed] at run
    rwa [if_pos (Level.le_trans allowed le)]
  · rw [if_neg allowed] at run
    cases run

end Parse

open Parse

namespace Grammar

variable (g : Grammar) {high : Level} {e e' : Int32 → Parse SyntaxTree}

theorem operators_atLevel : (g.atLevel high).operators = g.operators := rfl

theorem introduce_atLevel (op? : Option OperatorDefinition) :
    (g.atLevel high).introduce op? = (g.introduce op?).atLevel high := by
  cases op? <;> rfl

theorem covers_nameOrCall (inner : ∀ power, Covers (e power) (e' power)) :
    Covers (nameOrCall e) (nameOrCall e') := by
  refine .after _ fun name => .after _ fun t => .ite _ (.after _ fun _ => .after _ fun t => ?_) (.refl _)
  refine .ite _ (.refl _) ?_
  exact .after _ fun n => (covers_commaSeparated (inner 0) n).bind fun _ => .refl _

theorem covers_parenthesised (inner : ∀ power, Covers (e power) (e' power)) :
    Covers (parenthesised e) (parenthesised e') :=
  .after _ fun _ => (inner 0).bind fun _ => .refl _

theorem covers_conditional (inner : ∀ power, Covers (e power) (e' power)) :
    Covers (conditional e) (conditional e') :=
  .after _ fun _ => (inner 0).bind fun _ => .after _ fun _ => (inner 0).bind fun _ =>
    .after _ fun _ => (inner 0).bind fun _ => .refl _

theorem covers_forLoop (inner : ∀ power, Covers (e power) (e' power)) :
    Covers (forLoop e) (forLoop e') := by
  refine .after _ fun start => .after _ fun name => .after _ fun t => ?_
  have body (initializer condition : SyntaxTree) (step : List SyntaxTree) :=
    Covers.after (expect (.keyword .inWord)) fun _ => (inner 0).bind fun body =>
      .refl (node .forLoop start.span.start "" ([initializer, condition] ++ step ++ [body]))
  have value := Covers.after advance fun _ => (inner 0).bind fun value =>
    .after (node .initializer name.span.start name.text [value]) fun initializer =>
    .after (expect .comma) fun _ => (inner 0).bind fun condition =>
    .after (eat .comma) fun more => .ite (more = true)
      ((inner 0).bind fun step => .after (pure [step]) (body initializer condition))
      (.after (pure []) (body initializer condition))
  exact .ite _ value (.after _ fun _ => value)

theorem covers_initializer (inner : ∀ power, Covers (e power) (e' power)) :
    Covers (initializer e) (initializer e') := by
  refine .after _ fun name => .after _ fun t => .ite _ ?_ (.refl _)
  exact .after _ fun _ => (inner 0).bind fun _ => .refl _

theorem covers_varIn (inner : ∀ power, Covers (e power) (e' power)) :
    Covers (varIn e) (varIn e') :=
  .after _ fun _ => .after _ fun n => (covers_commaSeparated (covers_initializer inner) n).bind fun _ =>
    .after _ fun _ => (inner 0).bind fun _ => .refl _

theorem covers_primaryWith (inner : ∀ power, Covers (e power) (e' power)) :
    Covers (g.primaryWith e) ((g.atLevel high).primaryWith e') := by
  refine .ite _ (.refl _) (.after _ fun t => ?_)
  split
  · exact .refl _
  · exact covers_nameOrCall inner
  · exact covers_parenthesised inner
  · exact covers_conditional inner
  · exact covers_forLoop inner
  · exact covers_varIn inner
  · exact .refl _

theorem covers_operandWith (inner : ∀ power, Covers (e power) (e' power)) :
    Covers (g.operandWith e) ((g.atLevel high).operandWith e') := by
  refine .after _ fun t => ?_
  split
  · exact g.covers_primaryWith inner
  · rw [operators_atLevel]
    split
    · exact .refl _
    · exact .after _ fun _ => (inner _).bind fun _ => .refl _

variable (le : g.level ≤ high)

include le

/-- Only here does the level count: an assignment that is read at a level is read above it. -/
theorem covers_operatorTail (inner : ∀ power, Covers (e power) (e' power)) (power : Int32) (budget : Nat) :
    Covers (g.operatorTail e power budget) ((g.atLevel high).operatorTail e' power budget) := by
  induction budget with
  | zero => exact .refl _
  | succ budget ih =>
    refine .after _ fun t => ?_
    split
    · exact .refl _
    · rename_i symbol _
      have next := Covers.after advance fun operator => (inner (g.rightPower symbol)).bind fun operand =>
        ih.bind fun rest => .refl (pure ((operator, operand) :: rest))
      refine .ite _ (.refl _) (.ite _ ?_ next)
      exact (covers_requireLevel le _ _).bind fun _ => next

theorem covers_exprWith (inner : ∀ power, Covers (e power) (e' power)) (power : Int32) :
    Covers (g.exprWith e power) ((g.atLevel high).exprWith e' power) :=
  .after _ fun _ => (g.covers_operandWith inner).bind fun _ => .after _ fun budget =>
    (g.covers_operatorTail le inner power budget).bind fun _ => .refl _

theorem covers_exprWithin (budget : Nat) (power : Int32) :
    Covers (g.exprWithin budget power) ((g.atLevel high).exprWithin budget power) := by
  induction budget generalizing power with
  | zero => exact .refl _
  | succ budget ih => exact g.covers_exprWith le ih power

theorem covers_expr (power : Int32) : Covers (g.expr power) ((g.atLevel high).expr power) :=
  .after _ fun budget => g.covers_exprWithin le budget power

theorem covers_topLevel : Covers g.topLevel (g.atLevel high).topLevel :=
  .after _ fun _ => (g.covers_expr le 0).bind fun _ => .refl _

theorem covers_definition : Covers g.definition (g.atLevel high).definition := by
  refine .after _ fun _ => .after _ fun (header, op?) => ?_
  dsimp only
  rw [introduce_atLevel]
  exact ((g.introduce op?).covers_expr (g.level_introduce op? ▸ le) 0).bind fun _ => .refl _

theorem covers_statementOf (kind : Token.Kind) :
    Covers (g.statementOf kind) ((g.atLevel high).statementOf kind) := by
  unfold statementOf
  split
  · exact g.covers_definition le
  · exact .refl _
  · exact g.covers_topLevel le

/-- A statement that is read at a level is read as the same statement at all levels above. -/
theorem covers_statement : Covers g.statement (g.atLevel high).statement :=
  .ite _ (g.covers_topLevel le) (.after _ fun t => g.covers_statementOf le t.kind)

theorem covers_single : Covers g.single (g.atLevel high).single :=
  .after _ fun _ => (g.covers_statement le).bind fun _ => .refl _

end Grammar

end OpenExpr
