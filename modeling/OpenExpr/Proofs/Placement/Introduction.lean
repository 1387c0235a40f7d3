import OpenExpr.Proofs.Placement.Unit
import OpenExpr.Proofs.Registry.Operators

namespace OpenExpr

open Parse

/-- If the header is that of an operator, it names the operands, and the operator is
introduced. No operator that is built in is. -/
def SyntaxTree.Introduces (header : SyntaxTree) (op? : Option OperatorDefinition) : Prop :=
  match header.kind with
  | .unaryPrototype => header.children.length = 1 ∧ ∃ op, op? = some op ∧ op.fixity = .prefixed ∧
      header.text.toList.head? = some op.symbol
  | .binaryPrototype => header.children.length = 2 ∧ ∃ op, op? = some op ∧ op.fixity = .infixLeft ∧
      header.text.toList.head? = some op.symbol ∧ BuiltIn.ofSymbol? op.symbol = none
  | _ => True

/-- If the statement has the header of an operator, the operator is introduced. -/
def SyntaxTree.UnitIntroduces (t : SyntaxTree) (op? : Option OperatorDefinition) : Prop :=
  t.kind ≠ .topLevelExpression → ∀ header ∈ t.children.head?, header.Introduces op?

namespace Grammar

variable {level : Level} (g : Grammar)

theorem yields_symbol :
    Yields level (fun a => a.2.text.toList.head? = some a.1) operatorSymbol := by
  intro s lexed
  unfold operatorSymbol
  rw [bind_ok (current_apply s)]
  cases operator : s.current.symbol? with
  | none => exact yields_unexpectedDetailed _ s lexed
  | some symbol =>
    refine gives_advance lexed (yields_pure ?_)
    rwa [Token.symbol?, if_pos (Token.kind_of_symbol? operator)] at operator

theorem yields_unaryIntroduction :
    Yields level (fun a => a.1.Introduces (some a.2)) unaryPrototype := by
  refine yields_advance.bind fun _ _ => yields_symbol.bind ?_
  rintro ⟨symbol, operator⟩ sign
  refine (yields_precedence _).bind fun precedence _ => (yields_expect _).bind fun _ _ =>
    (yields_expect _).bind fun operand _ => (yields_expect _).bind fun _ _ =>
    (yields_node (P := fun t => t.Introduces (some ⟨symbol, .prefixed, precedence⟩)) ?_).bind
    fun _ header => yields_pure header
  exact fun _ => ⟨rfl, _, rfl, rfl, sign⟩

theorem yields_binaryIntroduction :
    Yields level (fun a => a.1.Introduces (some a.2)) binaryPrototype := by
  refine yields_advance.bind fun _ _ => yields_symbol.bind ?_
  rintro ⟨symbol, operator⟩ sign
  refine yields_ite (fun _ => (yields_throw (P := fun _ => False)
    (InputError.isNoNumber_of_cause (by simp))).bind fun _ never => never.elim) fun free => ?_
  refine (yields_precedence _).bind fun precedence _ => (yields_expect _).bind fun _ _ =>
    (yields_expect _).bind fun left _ => (yields_eat _).bind fun _ _ => (yields_expect _).bind
    fun right _ => (yields_expect _).bind fun _ _ =>
    (yields_node (P := fun t => t.Introduces (some ⟨symbol, .infixLeft, precedence⟩)) ?_).bind
    fun _ header => yields_pure header
  exact fun _ => ⟨rfl, _, rfl, rfl, sign, by simpa [OperatorTable.isBuiltIn] using free⟩

theorem yields_function : Yields level (fun t => t.kind = .functionPrototype) functionPrototype :=
  yields_advance.bind fun _ _ => (yields_expect _).bind fun _ _ => yields_remaining.bind
    fun budget _ => (yields_parameters budget).bind fun _ _ => (yields_expect _).bind fun _ _ =>
    yields_node fun _ => rfl

theorem yields_introduction : Yields level (fun a => a.1.Introduces a.2) prototype := by
  refine yields_current.bind fun t _ => ?_
  split
  · refine yields_function.bind fun header kind => yields_pure ?_
    simp [SyntaxTree.Introduces, kind]
  · exact yields_unaryIntroduction.bind fun _ header => yields_pure header
  · exact yields_binaryIntroduction.bind fun _ header => yields_pure header
  · exact yields_unexpectedDetailed _

theorem yields_unitIntroduction : Yields level (fun a => a.1.UnitIntroduces a.2) g.statement := by
  have bare : Yields level (fun a => a.1.UnitIntroduces a.2) g.topLevel :=
    yields_position.bind fun _ _ => (g.yields_expr 0).bind fun body _ =>
      (yields_node (P := fun t => t.UnitIntroduces none) fun _ other => absurd rfl other).bind
      fun _ unit => yields_pure unit
  refine yields_ite (fun _ => bare) fun _ => yields_current.bind fun t _ => ?_
  unfold statementOf
  split
  · refine yields_advance.bind fun _ _ => yields_introduction.bind fun a header =>
      ((g.introduce _).yields_expr 0).bind fun body _ =>
      (yields_node (P := fun t => t.UnitIntroduces a.2) ?_).bind fun _ unit => yields_pure unit
    rintro span _ _ ⟨⟩
    exact header
  · refine yields_advance.bind fun _ _ => yields_introduction.bind fun a header =>
      (yields_node (P := fun t => t.UnitIntroduces a.2) ?_).bind fun _ unit => yields_pure unit
    rintro span _ _ ⟨⟩
    exact header
  · exact bare

end Grammar

namespace OperatorTable

theorem isSome_infixOp?_register (table : OperatorTable) (symbol : Char) (fixity : Fixity)
    (precedence : Int32) (c : Char) :
    ((table.register symbol fixity precedence).infixOp? c).isSome = true ↔
      (table.infixOp? c).isSome = true ∨ fixity ≠ .prefixed ∧ symbol = c := by
  unfold register
  cases builtIn : BuiltIn.ofSymbol? symbol with
  | some b =>
    have known : symbol = c → (table.infixOp? c).isSome = true := by
      rintro rfl
      simp [infixOp?, builtIn]
    cases fixity <;> simp [isBuiltIn, builtIn, infixOp?] <;> simpa [infixOp?] using known
  | none =>
    cases fixity with
    | prefixed => simp [isBuiltIn, infixOp?]
    | infixLeft | infixRight =>
      by_cases same : symbol = c
      · subst same
        simp [isBuiltIn, builtIn, infixOp?]
      · simp [isBuiltIn, builtIn, infixOp?, Std.ExtTreeMap.getElem?_insert, same]

theorem within_register (table : OperatorTable) (symbol : Char) (fixity : Fixity) (precedence : Int32) :
    table.Within (table.register symbol fixity precedence) where
  infixOp? c known := (isSome_infixOp?_register table symbol fixity precedence c).mpr (.inl known)
  prefixOp? c known := (prefixOp?_register table symbol fixity precedence c).mpr (.inl known)

end OperatorTable

namespace Grammar

variable (g : Grammar)

theorem within_introduce (op? : Option OperatorDefinition) :
    g.operators.Within (g.introduce op?).operators := by
  cases op? with
  | none => exact .refl _
  | some op => exact g.operators.within_register op.symbol op.fixity op.precedence

theorem admits_introduce {header : SyntaxTree} (form : ResolveUnit.isPrototype header = true)
    (writes : header.kind.Writes header.text) {op? : Option OperatorDefinition}
    (introduces : header.Introduces op?) :
    (g.introduce op?).operators.Admits (ResolveUnit.prototypeName header) := by
  obtain ⟨kind, span, text, children, operators⟩ := header
  cases kind with
  | functionPrototype => exact OperatorTable.admits_plain writes
  | unaryPrototype =>
    obtain ⟨_, op, rfl, prefixed, sign⟩ := introduces
    refine OperatorTable.admits_unary fun c same => ?_
    rw [show text.toList = [c] from same] at sign
    exact (OperatorTable.prefixOp?_register _ _ _ _ c).mpr (.inr ⟨prefixed, (Option.some.inj sign).symm⟩)
  | binaryPrototype =>
    obtain ⟨_, op, rfl, infixed, sign, _⟩ := introduces
    refine OperatorTable.admits_binary fun c same => ?_
    rw [show text.toList = [c] from same] at sign
    exact (OperatorTable.isSome_infixOp?_register _ _ _ _ c).mpr
      (.inr ⟨by simp [infixed], (Option.some.inj sign).symm⟩)
  | _ => cases form

/-- Once the header of a statement was read, the name that it writes may become that
of a function. -/
theorem admitsUnit_introduce {t t' : SyntaxTree} (form : t.IsUnit) (alike : t.Alike t')
    {op? : Option OperatorDefinition} (introduces : t.UnitIntroduces op?) :
    (g.introduce op?).operators.AdmitsUnit t := by
  intro other header first
  have introduced := introduces other header first
  cases alike with
  | node _ children _ =>
    cases children with
    | nil => cases first
    | cons one _ =>
      cases first
      have writes : header.kind.Writes header.text := by cases one; assumption
      cases form with
      | definition prototype | declaration prototype =>
        exact g.admits_introduce prototype writes introduced
      | bare => exact absurd rfl other

end Grammar

end OpenExpr
