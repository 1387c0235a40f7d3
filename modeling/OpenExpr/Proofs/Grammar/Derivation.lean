import OpenExpr.Proofs.Token.Lexed
import OpenExpr.SyntaxTree.Statement

namespace OpenExpr

/-- The parts of an expression. -/
inductive Phrase where
  /-- An operand and the operators after it. -/
  | expr
  /-- Operators, each with the operand on its right. -/
  | chain
  /-- Prefix operators and what they stand before. -/
  | operand
  | primary
  /-- One or more expressions with commas between them. -/
  | exprs
  | binding
  /-- One or more bindings with commas between them. -/
  | bindings
deriving DecidableEq

/-- The operator may stand between two operands at the level. -/
def Token.IsInfixAt (level : Level) (t : Token) : Prop :=
  t.kind = .operator ∧ (t.symbol? = some '=' → .mutableVariables ≤ level)

theorem Token.isInfixAt_of_symbol? {level : Level} {t : Token} {symbol : Char}
    (operator : t.symbol? = some symbol) (allowed : symbol = '=' → .mutableVariables ≤ level) :
    t.IsInfixAt level := by
  refine ⟨kind_of_symbol? operator, fun assign => ?_⟩
  rw [operator] at assign
  exact allowed (Option.some.inj assign)

/-- The token lists that a level allows for a part of an expression, where the
prefix operators are those given. Precedences have no say in it. -/
inductive Derives (level : Level) (isPrefix : Char → Prop) : Phrase → List Token → Prop
  | expr {u c} : Derives level isPrefix .operand u → Derives level isPrefix .chain c →
      Derives level isPrefix .expr (u ++ c)
  | chainEnd : Derives level isPrefix .chain []
  | chainNext {op u c} : op.IsInfixAt level → Derives level isPrefix .operand u →
      Derives level isPrefix .chain c → Derives level isPrefix .chain (op :: (u ++ c))
  | prefixed {op symbol u} : op.symbol? = some symbol → isPrefix symbol →
      Derives level isPrefix .operand u → Derives level isPrefix .operand (op :: u)
  | primary {w} : Derives level isPrefix .primary w → Derives level isPrefix .operand w
  | number {t} : t.kind = .number → Derives level isPrefix .primary [t]
  | reference {t} : t.kind = .identifier → Derives level isPrefix .primary [t]
  | callEmpty {f l r} : f.kind = .identifier → l.kind = .openParen → r.kind = .closeParen →
      Derives level isPrefix .primary [f, l, r]
  | call {f l r w} : f.kind = .identifier → l.kind = .openParen → r.kind = .closeParen →
      Derives level isPrefix .exprs w → Derives level isPrefix .primary (f :: l :: (w ++ [r]))
  | paren {l r w} : l.kind = .openParen → r.kind = .closeParen →
      Derives level isPrefix .expr w → Derives level isPrefix .primary (l :: (w ++ [r]))
  | conditional {i a t b e c} : i.kind = .keyword .ifWord → t.kind = .keyword .thenWord →
      e.kind = .keyword .elseWord → Derives level isPrefix .expr a →
      Derives level isPrefix .expr b → Derives level isPrefix .expr c →
      Derives level isPrefix .primary (i :: (a ++ t :: (b ++ e :: c)))
  | loop {f x eq a d b i c} : f.kind = .keyword .forWord → x.kind = .identifier →
      eq.symbol? = some '=' → d.kind = .comma → i.kind = .keyword .inWord →
      Derives level isPrefix .expr a → Derives level isPrefix .expr b →
      Derives level isPrefix .expr c →
      Derives level isPrefix .primary (f :: x :: eq :: (a ++ d :: (b ++ i :: c)))
  | loopStep {f x eq a d b d' s i c} : f.kind = .keyword .forWord → x.kind = .identifier →
      eq.symbol? = some '=' → d.kind = .comma → d'.kind = .comma → i.kind = .keyword .inWord →
      Derives level isPrefix .expr a → Derives level isPrefix .expr b →
      Derives level isPrefix .expr s → Derives level isPrefix .expr c →
      Derives level isPrefix .primary (f :: x :: eq :: (a ++ d :: (b ++ d' :: (s ++ i :: c))))
  | varIn {v w i c} : v.kind = .keyword .varWord → i.kind = .keyword .inWord →
      Derives level isPrefix .bindings w → Derives level isPrefix .expr c →
      Derives level isPrefix .primary (v :: (w ++ i :: c))
  | exprsOne {w} : Derives level isPrefix .expr w → Derives level isPrefix .exprs w
  | exprsMore {w d ws} : Derives level isPrefix .expr w → d.kind = .comma →
      Derives level isPrefix .exprs ws → Derives level isPrefix .exprs (w ++ d :: ws)
  | bindingBare {x} : x.kind = .identifier → Derives level isPrefix .binding [x]
  | bindingValue {x eq w} : x.kind = .identifier → eq.symbol? = some '=' →
      Derives level isPrefix .expr w → Derives level isPrefix .binding (x :: eq :: w)
  | bindingsOne {w} : Derives level isPrefix .binding w → Derives level isPrefix .bindings w
  | bindingsMore {w d ws} : Derives level isPrefix .binding w → d.kind = .comma →
      Derives level isPrefix .bindings ws → Derives level isPrefix .bindings (w ++ d :: ws)

namespace Derives

variable {level : Level} {isPrefix : Char → Prop} {c d u w : List Token}

theorem exprOfOperand (operand : Derives level isPrefix .operand u) :
    Derives level isPrefix .expr u := by
  simpa only [List.append_nil] using operand.expr chainEnd

theorem chain_append (first : Derives level isPrefix .chain c)
    (second : Derives level isPrefix .chain d) : Derives level isPrefix .chain (c ++ d) := by
  generalize same : Phrase.chain = phrase at first
  induction first with
  | chainEnd => exact second
  | chainNext operator operand _ _ ih =>
    rw [List.cons_append, List.append_assoc]
    exact .chainNext operator operand (ih same)
  | _ => cases same

/-- Operators after an expression make it longer. -/
theorem expr_append (first : Derives level isPrefix .expr w)
    (second : Derives level isPrefix .chain c) : Derives level isPrefix .expr (w ++ c) := by
  cases first with
  | expr operand chain =>
    rw [List.append_assoc]
    exact .expr operand (chain.chain_append second)

theorem chain_cons {op : Token} (operator : op.IsInfixAt level)
    (operand : Derives level isPrefix .expr w) (second : Derives level isPrefix .chain c) :
    Derives level isPrefix .chain (op :: (w ++ c)) := by
  cases operand with
  | expr operand chain =>
    rw [List.append_assoc]
    exact .chainNext operator operand (chain.chain_append second)

theorem prefixed_expr {op : Token} {symbol : Char} (operator : op.symbol? = some symbol)
    (known : isPrefix symbol) (operand : Derives level isPrefix .expr w) :
    Derives level isPrefix .expr (op :: w) := by
  cases operand with
  | expr operand chain => exact (operand.prefixed operator known).expr chain

end Derives

/-- The token lists that a grammar allows for a part of an expression. -/
abbrev Grammar.Allows (g : Grammar) : Phrase → List Token → Prop :=
  Derives g.level fun c => (g.operators.prefixOp? c).isSome = true

/-- The names of a function header, each with or without a comma after it. -/
inductive DerivesParameters : List Token → Prop
  | nil : DerivesParameters []
  | bare {x ws} : x.kind = .identifier → DerivesParameters ws → DerivesParameters (x :: ws)
  | comma {x d ws} : x.kind = .identifier → d.kind = .comma → DerivesParameters ws →
      DerivesParameters (x :: d :: ws)

/-- The number that the text writes is a whole one that a precedence may be. -/
def IsPrecedence (text : String) : Prop :=
  ∃ x n, Decimal.float? text = some x ∧ (Decimal.Double.ofFloat x).toNat? = some n ∧
    1 ≤ n ∧ n ≤ Operator.maxPrecedence

/-- The precedence of an operator header, which may be left out. -/
inductive DerivesPrecedence : List Token → Prop
  | default : DerivesPrecedence []
  | given {t} : t.kind = .number → IsPrecedence t.text → DerivesPrecedence [t]

/-- The header of a definition or declaration, and the prefix operator that it
introduces if it does. -/
inductive DerivesHeader : Option Char → List Token → Prop
  | function {f l r ws} : f.kind = .identifier → l.kind = .openParen → r.kind = .closeParen →
      DerivesParameters ws → DerivesHeader none (f :: l :: (ws ++ [r]))
  | unary {u op symbol p l x r} : u.kind = .keyword .unaryWord → op.symbol? = some symbol →
      DerivesPrecedence p → l.kind = .openParen → x.kind = .identifier → r.kind = .closeParen →
      DerivesHeader (some symbol) (u :: op :: (p ++ [l, x, r]))
  | binary {b op symbol p l x y r} : b.kind = .keyword .binaryWord → op.symbol? = some symbol →
      BuiltIn.ofSymbol? symbol = none → DerivesPrecedence p → l.kind = .openParen →
      x.kind = .identifier → y.kind = .identifier → r.kind = .closeParen →
      DerivesHeader none (b :: op :: (p ++ [l, x, y, r]))
  | binaryComma {b op symbol p l x d y r} : b.kind = .keyword .binaryWord →
      op.symbol? = some symbol → BuiltIn.ofSymbol? symbol = none → DerivesPrecedence p →
      l.kind = .openParen → x.kind = .identifier → d.kind = .comma → y.kind = .identifier →
      r.kind = .closeParen → DerivesHeader none (b :: op :: (p ++ [l, x, d, y, r]))

/-- A statement. The operator of a header may be used in the body of its own
definition. -/
inductive DerivesUnit (level : Level) (isPrefix : Char → Prop) : List Token → Prop
  | definition {k introduced h w} : k.kind = .keyword .defWord → DerivesHeader introduced h →
      Derives level (fun c => isPrefix c ∨ introduced = some c) .expr w →
      DerivesUnit level isPrefix (k :: (h ++ w))
  | declaration {k introduced h} : k.kind = .keyword .externWord → DerivesHeader introduced h →
      DerivesUnit level isPrefix (k :: h)
  | expression {w} : Derives level isPrefix .expr w → DerivesUnit level isPrefix w

/-- A statement by itself, with or without the semicolon that ends it. -/
inductive DerivesStatement (level : Level) (isPrefix : Char → Prop) : List Token → Prop
  | bare {w} : DerivesUnit level isPrefix w → DerivesStatement level isPrefix w
  | ended {w d} : DerivesUnit level isPrefix w → d.kind = .semicolon →
      DerivesStatement level isPrefix (w ++ [d])

end OpenExpr
