import OpenExpr.Proofs.Placement.Introduction

namespace OpenExpr

/-- Whether the operator stands between two operands. -/
def Fixity.isInfix : Fixity → Bool
  | .infixLeft | .infixRight => true
  | .prefixed => false

/-- The entry that an operator gets in a table. -/
def OperatorDefinition.operator (op : OperatorDefinition) : Operator :=
  { symbol := op.symbol, fixity := op.fixity, precedence := op.precedence, isBuiltIn := false }

namespace OperatorTable

/-- The entry that the last registration of a symbol asks for, among those on one side. -/
def lastRegistered? (between : Bool) (c : Char) (ops : List OperatorDefinition) : Option Operator :=
  ((ops.filter fun op => op.fixity.isInfix == between && op.symbol == c).getLast?).map
    OperatorDefinition.operator

/-- A table after operators were registered one after the other. -/
def registerAll (table : OperatorTable) (ops : List OperatorDefinition) : OperatorTable :=
  ops.foldl (fun table op => table.register op.symbol op.fixity op.precedence) table

variable {table : OperatorTable} {c : Char}

theorem registerAll_append (table : OperatorTable) (first later : List OperatorDefinition) :
    table.registerAll (first ++ later) = (table.registerAll first).registerAll later :=
  List.foldl_append

theorem within_registerAll (table : OperatorTable) (ops : List OperatorDefinition) :
    table.Within (table.registerAll ops) := by
  induction ops generalizing table with
  | nil => exact .refl table
  | cons op ops ih => exact (table.within_register op.symbol op.fixity op.precedence).trans (ih _)

theorem lastRegistered?_cons (between : Bool) (c : Char) (op : OperatorDefinition)
    (ops : List OperatorDefinition) : lastRegistered? between c (op :: ops) =
      (lastRegistered? between c ops).or
        (if op.fixity.isInfix = between ∧ op.symbol = c then some op.operator else none) := by
  unfold lastRegistered?
  by_cases counts : op.fixity.isInfix = between ∧ op.symbol = c
  · rw [List.filter_cons_of_pos (by simpa using counts), if_pos counts, List.getLast?_cons]
    cases (ops.filter fun op => op.fixity.isInfix == between && op.symbol == c).getLast? <;> rfl
  · rw [List.filter_cons_of_neg (by simpa using counts), if_neg counts, Option.or_none]

/-- There is a last registration exactly if there is one. -/
theorem isSome_lastRegistered?_iff {between : Bool} {ops : List OperatorDefinition} :
    (lastRegistered? between c ops).isSome = true ↔
      ∃ op ∈ ops, op.fixity.isInfix = between ∧ op.symbol = c := by
  simp [lastRegistered?]

/-- What is built in stays. -/
theorem infixOp?_of_builtIn {b : BuiltIn} (builtIn : BuiltIn.ofSymbol? c = some b)
    (table : OperatorTable) : table.infixOp? c = some b.operator := by
  simp [infixOp?, builtIn]

/-- A registration between operands decides on its own symbol alone. -/
theorem infixOp?_register_eq (free : BuiltIn.ofSymbol? c = none) (op : OperatorDefinition) :
    (table.register op.symbol op.fixity op.precedence).infixOp? c =
      if op.fixity.isInfix = true ∧ op.symbol = c then some op.operator else table.infixOp? c := by
  obtain ⟨symbol, fixity, precedence⟩ := op
  by_cases same : symbol = c
  · subst same
    cases fixity <;>
      simp [register, isBuiltIn, free, infixOp?, Fixity.isInfix, OperatorDefinition.operator]
  · unfold register
    split
    · simp [same]
    · cases fixity <;> simp [infixOp?, free, Std.ExtTreeMap.getElem?_insert, same, Fixity.isInfix]

/-- So does one in front of an operand, where nothing is built in. -/
theorem prefixOp?_register_eq (op : OperatorDefinition) :
    (table.register op.symbol op.fixity op.precedence).prefixOp? c =
      if op.fixity.isInfix = false ∧ op.symbol = c then some op.operator else table.prefixOp? c := by
  obtain ⟨symbol, fixity, precedence⟩ := op
  unfold register
  split
  · cases fixity <;> simp_all [isBuiltIn, Fixity.isInfix]
  · cases fixity <;> simp [prefixOp?, Std.ExtTreeMap.getElem?_insert, Fixity.isInfix,
      OperatorDefinition.operator]

/-- A symbol that is not built in reads as its last registration between operands. -/
theorem infixOp?_registerAll (free : BuiltIn.ofSymbol? c = none) (ops : List OperatorDefinition) :
    (table.registerAll ops).infixOp? c =
      (lastRegistered? true c ops).or (table.infixOp? c) := by
  induction ops generalizing table with
  | nil => rfl
  | cons op ops ih =>
    have later := @ih (table.register op.symbol op.fixity op.precedence)
    rw [infixOp?_register_eq free] at later
    rw [lastRegistered?_cons, Option.or_assoc]
    refine later.trans (congrArg _ ?_)
    split <;> rfl

/-- In front of an operand every symbol reads as its last registration there. -/
theorem prefixOp?_registerAll (c : Char) (ops : List OperatorDefinition) :
    (table.registerAll ops).prefixOp? c =
      (lastRegistered? false c ops).or (table.prefixOp? c) := by
  induction ops generalizing table with
  | nil => rfl
  | cons op ops ih =>
    have later := @ih (table.register op.symbol op.fixity op.precedence)
    rw [prefixOp?_register_eq] at later
    rw [lastRegistered?_cons, Option.or_assoc]
    refine later.trans (congrArg _ ?_)
    split <;> rfl

theorem infixOp?_empty (free : BuiltIn.ofSymbol? c = none) : empty.infixOp? c = none := by
  simp [infixOp?, free, empty]

theorem prefixOp?_empty (c : Char) : empty.prefixOp? c = none := by
  simp [prefixOp?, empty]

end OperatorTable

end OpenExpr
