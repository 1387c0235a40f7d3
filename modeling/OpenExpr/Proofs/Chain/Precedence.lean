import Mathlib
import OpenExpr.Proofs.Chain.Reading

namespace OpenExpr

open Parse

/-- A chain of closed operands is read whole, and the expression made of it applies its
operators to its operands in their order. The application of a later operator lies in
the right operand of that of an earlier one just when no operator from the earlier one
up to the later one binds more loosely than that operand asks for. -/
theorem chain_grouped_by_precedence (g : Grammar) (env : Environment) {operand rest : List Token}
    {tree : SyntaxTree} {links : List Link} (closed : g.IsClosedOperand operand tree)
    (readable : ∀ l ∈ links, ∃ symbol, l.IsReadable g symbol)
    (bounds : ∀ l ∈ links, 0 ≤ l.meaning.precedence ∧ l.meaning.precedence < Int32.maxValue)
    (known : ∀ l ∈ links, ∃ symbol, l.IsKnown env symbol) (stop : Stops rest) :
    Reads (g.expr 0) (operand ++ Link.tokens links) rest fun t =>
      ∃ whole : Grouping Link, whole.operators = links ∧
        (∀ i j x, i < j → j < links.length → links[i]? = some x →
          (whole.InRight i j ↔ ∀ k y, i < k → k ≤ j → links[k]? = some y →
            x.meaning.operandPower ≤ y.meaning.precedence)) ∧
        Resolve.Mirrors (Applies env whole) (Resolve.exprs env (tree :: links.map Link.tree))
          (Resolve.expr env t) := by
  have bounded : ∀ l ∈ links, l.IsBounded := fun l member _ => (bounds l member).2
  have nonneg : ∀ l ∈ links, 0 ≤ l.precedence := fun l member => (bounds l member).1
  refine (Link.reads_expr closed readable bounded nonneg stop).imp ?_
  rintro _ ⟨span, operators, whole, rfl, arranges, groups⟩
  have all : whole.operators = links := arranges.operators_eq
  refine ⟨whole, all, ?_, Resolve.expr_of_arranges arranges known tree span ""⟩
  intro i j x before small atPlace
  subst all
  exact groups.inRight_iff before small atPlace

/-- A token that stands nowhere. -/
def Token.unplaced (kind : Token.Kind) (text : String) : Token :=
  { kind, text, span := .null }

/-- The tree of a number that stands nowhere. -/
def SyntaxTree.unplacedNumber (text : String) : SyntaxTree :=
  { kind := .constant, span := .null, text }

/-- An operator as tight as the subtraction, but one that groups to the right. -/
def rightOperator : Operator :=
  { symbol := '@', fixity := .infixRight, precedence := 20, isBuiltIn := false }

/-- What follows the first operand in `x - f(1) @ (2) - 3`. -/
def mixedLinks : List Link :=
  [{ operator := .unplaced .operator "-"
     meaning := BuiltIn.subtract.operator
     operand := [.unplaced .identifier "f", .unplaced .openParen "(", .unplaced .number "1",
       .unplaced .closeParen ")"]
     tree := { kind := .functionCall, span := .null, text := "f", children :=
       [{ kind := .expression, span := .null, children := [.unplacedNumber "1"] }] } },
   { operator := .unplaced .operator "@"
     meaning := rightOperator
     operand := [.unplaced .openParen "(", .unplaced .number "2", .unplaced .closeParen ")"]
     tree := { kind := .paren, span := .null, children :=
       [{ kind := .expression, span := .null, children := [.unplacedNumber "2"] }] } },
   { operator := .unplaced .operator "-"
     meaning := BuiltIn.subtract.operator
     operand := [.unplaced .number "3"]
     tree := .unplacedNumber "3" }]

/-- What is known where the operator that groups to the right has been declared. -/
def mixedEnvironment : Environment :=
  { operators := OperatorTable.empty.register '@' .infixRight 20
    declarations := Std.ExtTreeMap.empty.insert "binary-op$@"
      { name := "binary-op$@", parameters := [], isExternal := true, isGenerated := false,
        span := .null } }

def mixedGrammar : Grammar :=
  { level := .mutableVariables, operators := mixedEnvironment.operators }

theorem isClosedOperand_of_run {g : Grammar} {first : Token} {w : List Token} {t : SyntaxTree}
    (starts : first.StartsClosed)
    (run : ∀ finish kind readTo, g.primary ⟨first :: w ++ [], finish, kind, readTo⟩ =
      .ok t ⟨[], finish, kind, some Span.null.stop⟩) : g.IsClosedOperand (first :: w) t where
  starts := ⟨first, rfl, starts⟩
  alone := by
    rintro ⟨pending, finish, kind, readTo⟩ rfl
    exact ⟨t, _, run finish kind readTo, rfl, rfl⟩

theorem mixedLinks_readable : ∀ l ∈ mixedLinks, ∃ symbol, l.IsReadable mixedGrammar symbol := by
  simp only [mixedLinks, List.forall_mem_cons]
  refine ⟨⟨'-', rfl, by decide +kernel, ⟨rfl, by decide⟩, ?_⟩,
    ⟨'@', rfl, by decide +kernel, ⟨rfl, by decide⟩, ?_⟩,
    ⟨'-', rfl, by decide +kernel, ⟨rfl, by decide⟩, ?_⟩, by simp⟩
  · exact isClosedOperand_of_run (.inr (.inl rfl)) fun _ _ _ => by cbv
  · exact isClosedOperand_of_run (.inr (.inr rfl)) fun _ _ _ => by cbv
  · exact isClosedOperand_of_run (.inl rfl) fun _ _ _ => by cbv

theorem mixedLinks_known : ∀ l ∈ mixedLinks, ∃ symbol, l.IsKnown mixedEnvironment symbol := by
  simp only [mixedLinks, List.forall_mem_cons]
  refine ⟨⟨'-', rfl, by decide +kernel, by decide⟩, ⟨'@', rfl, by decide +kernel, fun _ => ?_⟩,
    ⟨'-', rfl, by decide +kernel, by decide⟩, by simp⟩
  decide +kernel

/-- Of three operators of one precedence the first and the last group to the left and
the second to the right, so the chain reads `(x - f(1)) @ ((2) - 3)`. -/
theorem mixed_chain_grouped :
    mixedGrammar.IsClosedOperand [.unplaced .identifier "x"]
        { kind := .reference, span := .null, text := "x" } ∧
      (∀ l ∈ mixedLinks, ∃ symbol, l.IsReadable mixedGrammar symbol) ∧
      (∀ l ∈ mixedLinks, 0 ≤ l.meaning.precedence ∧ l.meaning.precedence < Int32.maxValue) ∧
      (∀ l ∈ mixedLinks, ∃ symbol, l.IsKnown mixedEnvironment symbol) ∧ Stops [] ∧
      Reads (mixedGrammar.expr 0) (.unplaced .identifier "x" :: Link.tokens mixedLinks) [] fun t =>
        ∃ whole : Grouping Link, whole.operators = mixedLinks ∧ ¬ whole.InRight 0 1 ∧
          ¬ whole.InRight 0 2 ∧ whole.InRight 1 2 ∧
          Resolve.Mirrors (Applies mixedEnvironment whole)
            (Resolve.exprs mixedEnvironment
              ({ kind := .reference, span := .null, text := "x" } :: mixedLinks.map Link.tree))
            (Resolve.expr mixedEnvironment t) := by
  have closed : mixedGrammar.IsClosedOperand [.unplaced .identifier "x"]
      { kind := .reference, span := .null, text := "x" } :=
    Grammar.isClosedOperand_reference rfl rfl
  have bounds : ∀ l ∈ mixedLinks,
      0 ≤ l.meaning.precedence ∧ l.meaning.precedence < Int32.maxValue := by decide
  refine ⟨closed, mixedLinks_readable, bounds, mixedLinks_known, stops_nil, ?_⟩
  refine (chain_grouped_by_precedence mixedGrammar mixedEnvironment closed mixedLinks_readable
    bounds mixedLinks_known stops_nil).imp ?_
  rintro t ⟨whole, all, grouped, resolved⟩
  refine ⟨whole, all, ?_, ?_, ?_, resolved⟩
  · rw [grouped 0 1 _ (by decide) (by decide) rfl]
    intro tight
    exact absurd (tight 1 _ (by decide) (by decide) rfl) (by decide)
  · rw [grouped 0 2 _ (by decide) (by decide) rfl]
    intro tight
    exact absurd (tight 1 _ (by decide) (by decide) rfl) (by decide)
  · rw [grouped 1 2 _ (by decide) (by decide) rfl]
    intro k y behind upTo found
    obtain rfl : k = 2 := by omega
    cases found
    decide

end OpenExpr
