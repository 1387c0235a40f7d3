import OpenExpr.Proofs.Placement.Coherence

namespace OpenExpr

open Parse

/-- All prefix operators of a tree are in the table. -/
inductive SyntaxTree.PrefixesIn (table : OperatorTable) : SyntaxTree → Prop
  | node {kind span text children operators} :
      (kind = .unaryOperator →
        ∃ c, text.toList.head? = some c ∧ (table.prefixOp? c).isSome = true) →
      (∀ t ∈ children, PrefixesIn table t) → (∀ o ∈ operators, PrefixesIn table o.2) →
      PrefixesIn table { kind, span, text, children, operators }

namespace SyntaxTree

variable {table table' : OperatorTable}

theorem PrefixesIn.mono {t : SyntaxTree} (known : t.PrefixesIn table) (within : table.Within table') :
    t.PrefixesIn table' := by
  induction known with
  | node sign _ _ children operators =>
    refine .node (fun kind => ?_) children operators
    obtain ⟨c, first, known⟩ := sign kind
    exact ⟨c, first, within.prefixOp? c known⟩

/-- A tree that is no prefix operator and has no operators behind it. -/
theorem prefixesIn_of_children {t : SyntaxTree} (other : t.kind ≠ .unaryOperator)
    (bare : t.operators = []) (parts : ∀ part ∈ t.children, part.PrefixesIn table) :
    t.PrefixesIn table := by
  obtain ⟨kind, span, text, children, operators⟩ := t
  cases bare
  exact .node (fun same => absurd same other) parts (by simp)

theorem IsInitializer.prefixesIn {t : SyntaxTree} (form : t.IsInitializer)
    (values : ∀ v ∈ t.children, v.PrefixesIn table) : t.PrefixesIn table :=
  prefixesIn_of_children (by simp [form.kind]) form.operators values

/-- The body of a statement that has one holds no prefix operators but those of the table. -/
def BodyPrefixesIn (table : OperatorTable) (t : SyntaxTree) : Prop :=
  t.kind ≠ .externalDeclaration → ∀ body ∈ t.children.getLast?, body.PrefixesIn table

end SyntaxTree

namespace Grammar

/-- A grammar reads a prefix operator only where it knows it. -/
theorem closes_prefixesIn (g : Grammar) : g.Closes (SyntaxTree.PrefixesIn g.operators) where
  chain operand tail := .node (by simp) (by simpa using operand) fun o member => (tail o member).2
  paren inner := SyntaxTree.prefixesIn_of_children (by simp) rfl (by simpa using inner)
  constant _ := SyntaxTree.prefixesIn_of_children (by simp) rfl (by simp)
  reference _ := SyntaxTree.prefixesIn_of_children (by simp) rfl (by simp)
  call _ each := SyntaxTree.prefixesIn_of_children (by simp) rfl each
  prefixed _ first known operand := .node (fun _ => ⟨_, first, known⟩) (by simpa using operand) (by simp)
  conditional first second third :=
    SyntaxTree.prefixesIn_of_children (by simp) rfl (by simp [first, second, third])
  loop value condition body := by
    have counter (span : Span) (text : String) := SyntaxTree.IsInitializer.prefixesIn
      (t := ⟨.initializer, span, text, [_], []⟩) ⟨rfl, rfl, Nat.le_refl 1⟩ (by simpa using value)
    refine SyntaxTree.prefixesIn_of_children (by simp) rfl (List.forall_mem_cons.mpr ⟨counter _ _, ?_⟩)
    simp [condition, body]
  loopStep value condition step body := by
    have counter (span : Span) (text : String) := SyntaxTree.IsInitializer.prefixesIn
      (t := ⟨.initializer, span, text, [_], []⟩) ⟨rfl, rfl, Nat.le_refl 1⟩ (by simpa using value)
    refine SyntaxTree.prefixesIn_of_children (by simp) rfl (List.forall_mem_cons.mpr ⟨counter _ _, ?_⟩)
    simp [condition, step, body]
  varIn initializers values body := by
    refine SyntaxTree.prefixesIn_of_children (by simp) rfl (List.forall_mem_append.mpr ⟨?_, ?_⟩)
    · exact fun i member => (initializers i member).prefixesIn (values i member)
    · simpa using body

variable (g : Grammar) {level : Level}

/-- What holds of every expression that a grammar reads with its operators holds of the body
of a statement, with those that are known behind its header. -/
theorem yields_body {P : OperatorTable → SyntaxTree → Prop}
    (closes : ∀ g : Grammar, g.Closes (P g.operators)) :
    Yields level (fun a => a.1.kind ≠ .externalDeclaration →
      ∀ body ∈ a.1.children.getLast?, P (g.introduce a.2).operators body) g.statement := by
  have bare : Yields level (fun a => a.1.kind ≠ .externalDeclaration →
      ∀ body ∈ a.1.children.getLast?, P (g.introduce a.2).operators body) g.topLevel :=
    yields_position.bind fun _ _ => ((closes g).yields_expr 0).bind fun body known =>
      (yields_node (P := fun t => t.kind ≠ .externalDeclaration →
        ∀ body ∈ t.children.getLast?, P g.operators body) fun _ _ => by simpa using known).bind
      fun _ unit => yields_pure unit
  refine yields_ite (fun _ => bare) fun _ => yields_current.bind fun t _ => ?_
  unfold statementOf
  split
  · refine yields_advance.bind fun _ _ => yields_introduction.bind fun a _ =>
      ((closes (g.introduce a.2)).yields_expr 0).bind fun body known =>
      (yields_node (P := fun t => t.kind ≠ .externalDeclaration →
        ∀ body ∈ t.children.getLast?, P (g.introduce a.2).operators body) ?_).bind
      fun _ unit => yields_pure unit
    exact fun _ _ => by simpa using known
  · refine yields_advance.bind fun _ _ => yields_introduction.bind fun a _ =>
      (yields_node (P := fun t => t.kind ≠ .externalDeclaration →
        ∀ body ∈ t.children.getLast?, P (g.introduce a.2).operators body) ?_).bind
      fun _ unit => yields_pure unit
    exact fun _ other => absurd rfl other
  · exact bare

theorem yields_bodyPrefixesIn :
    Yields level (fun a => a.1.BodyPrefixesIn (g.introduce a.2).operators) g.statement :=
  g.yields_body closes_prefixesIn

end Grammar

/-- A statement as sources write it, of which the operators have the prefix operators of the
body and admit what it makes known. -/
structure SyntaxTree.IsReadWith (table : OperatorTable) (t : SyntaxTree) : Prop where
  fits : t.FitsIn table
  body : t.BodyPrefixesIn table

/-- All that is read of a source is read with the operators known at its end. -/
theorem SourceReader.isReadWith_of_mem_statements {level : Level} {r : SourceReader} (budget : Nat)
    (lexed : AllLexed level r.tokens.pending) (full : r.grammar.isBare = false) :
    r.grammar.operators.Within (statements budget r).2.grammar.operators ∧
      ∀ t ∈ (statements budget r).1,
        t.IsReadWith (statements budget r).2.grammar.operators ∨ t.kind = .error := by
  refine of_mem_statements (fun _ _ _ good within => ?_) (fun g s a s' lexed run => ?_) budget lexed full
  · exact ⟨good.fits.mono within, fun other body last => (good.body other body last).mono within⟩
  · have body := g.yields_bodyPrefixesIn s lexed
    rw [run] at body
    exact ⟨g.fitsIn_statement lexed run, body.1⟩

end OpenExpr
