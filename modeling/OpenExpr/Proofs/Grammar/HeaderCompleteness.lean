import OpenExpr.Proofs.Grammar.Completeness
import OpenExpr.Proofs.Grammar.Statement

namespace OpenExpr

open Parse

theorem DerivesParameters.noComma {w rest : List Token} (names : DerivesParameters w)
    (noComma : ∀ t, IsNext rest t → t.kind ≠ .comma) : ∀ t, IsNext (w ++ rest) t → t.kind ≠ .comma := by
  cases names with
  | nil => exact noComma
  | bare name _ | comma name _ _ =>
    intro t next
    rw [next.eq, name]
    decide

namespace OperatorTable

theorem infixOp?_register {table : OperatorTable} {symbol : Char} {fixity : Fixity}
    {precedence : Int32} {c : Char} {op : Operator}
    (known : (table.register symbol fixity precedence).infixOp? c = some op) :
    table.infixOp? c = some op ∨ op.precedence = precedence := by
  unfold register at known
  split at known
  · exact .inl known
  · cases fixity with
    | prefixed => exact .inl known
    | infixLeft | infixRight =>
      unfold infixOp? at known ⊢
      cases builtIn : BuiltIn.ofSymbol? c with
      | some b =>
        rw [builtIn] at known
        exact .inl known
      | none =>
        simp only [builtIn, Std.ExtTreeMap.getElem?_insert] at known
        split at known
        · cases known
          exact .inr rfl
        · exact .inl known

end OperatorTable

namespace Grammar

variable {g : Grammar} {rest : List Token}

theorem IsOrdinary.introduce (ordinary : g.IsOrdinary) {op? : Option OperatorDefinition}
    (loosest : ∀ op ∈ op?, 0 ≤ op.precedence) : (g.introduce op?).IsOrdinary := by
  cases op? with
  | none => exact ordinary
  | some op =>
    refine ⟨ordinary.full, fun c op' known => ?_⟩
    rcases OperatorTable.infixOp?_register known with old | same
    · exact ordinary.loosest c op' old
    · rw [same]
      exact loosest op rfl

theorem reads_parameters {w : List Token} (names : DerivesParameters w)
    (noName : ∀ t, IsNext rest t → t.kind ≠ .identifier)
    (noComma : ∀ t, IsNext rest t → t.kind ≠ .comma) :
    ∀ budget, w.length ≤ budget → Reads (parameters budget) w rest fun _ => True := by
  induction names with
  | nil =>
    intro budget _
    cases budget with
    | zero => exact reads_done [] rest
    | succ budget =>
      refine reads_current fun t next => ?_
      rw [if_neg (noName t next)]
      exact reads_done [] rest
  | bare name names ih =>
    intro budget enough
    obtain ⟨budget, rfl⟩ := Nat.exists_eq_add_of_le' (by simp at enough; omega : 1 ≤ budget)
    refine reads_current_cons ?_
    rw [if_pos name]
    exact reads_advance (reads_eat_other (names.noComma noComma)
      ((ih budget (by simpa using enough)).last fun _ _ => reads_done _ rest))
  | comma name comma names ih =>
    intro budget enough
    obtain ⟨budget, rfl⟩ := Nat.exists_eq_add_of_le' (by simp at enough; omega : 1 ≤ budget)
    refine reads_current_cons ?_
    rw [if_pos name]
    exact reads_advance (reads_eat comma
      ((ih budget (by simp at enough; omega)).last fun _ _ => reads_done _ rest))

/-- A precedence that a header may have is given or taken by default. -/
theorem exists_givesPrecedence {p : List Token} (derived : DerivesPrecedence p) (usual : Int32)
    (loosest : 0 ≤ usual) : ∃ n, GivesPrecedence usual n p ∧ 0 ≤ n := by
  cases derived with
  | default => exact ⟨usual, .default, loosest⟩
  | given number valid =>
    obtain ⟨n, parsed⟩ := IsPrecedence.exists_precedence valid
    exact ⟨n, .given number parsed, Int32.le_trans (by decide) (precedence?_eq_some parsed).2.1⟩

theorem reads_precedence {usual n : Int32} {p : List Token} (gives : GivesPrecedence usual n p)
    (noNumber : ∀ t, IsNext rest t → t.kind ≠ .number) :
    Reads (precedence usual) p rest fun m => m = n := by
  cases gives with
  | default =>
    refine reads_current fun t next => ?_
    rw [if_neg (noNumber t next)]
    exact reads_pure rfl
  | given number parsed =>
    refine reads_current_cons ?_
    rw [if_pos number]
    refine reads_advance ?_
    rw [parsed]
    exact reads_pure rfl

/-- What is known of a header that was read. -/
def HeaderRead (introduced : Option Char) (a : SyntaxTree × Option OperatorDefinition) : Prop :=
  OperatorDefinition.introduced a.2 = introduced ∧ ∀ op ∈ a.2, 0 ≤ op.precedence

theorem reads_functionPrototype {f l r : Token} {ws : List Token} (opened : l.kind = .openParen)
    (closed : r.kind = .closeParen) (names : DerivesParameters ws) (rest : List Token) :
    Reads functionPrototype (f :: l :: (ws ++ [r])) rest fun _ => True := by
  refine reads_advance ((reads_expect opened _).bind (v := ws ++ [r]) fun _ _ =>
    reads_remaining fun budget enough => ?_)
  rw [List.length_append] at enough
  exact (reads_parameters names (next_ne _ closed (by decide)) (next_ne _ closed (by decide)) budget
    (by omega)).bind (v := [r]) fun _ _ =>
    (reads_expect closed rest).last fun _ _ => reads_node _ _ _ _ rest

theorem reads_unaryPrototype {u op l x r : Token} {symbol : Char} {n : Int32} {p : List Token}
    (operator : op.symbol? = some symbol)
    (gives : GivesPrecedence Operator.defaultPrefixPrecedence n p) (opened : l.kind = .openParen)
    (name : x.kind = .identifier) (closed : r.kind = .closeParen) (rest : List Token) :
    Reads unaryPrototype (u :: op :: (p ++ [l, x, r])) rest fun a => a.2 = ⟨symbol, .prefixed, n⟩ := by
  have read : Reads operatorSymbol [op] (p ++ [l, x, r] ++ rest) fun a => a = (symbol, op) := by
    refine reads_current_cons ?_
    rw [operator]
    exact reads_advance (reads_pure rfl)
  refine reads_advance (read.bind (v := p ++ [l, x, r]) ?_)
  rintro _ rfl
  refine (reads_precedence gives (next_ne _ opened (by decide))).bind fun m same => ?_
  subst m
  refine (reads_expect opened _).bind (v := [x, r]) fun _ _ => ?_
  refine (reads_expect name _).bind (v := [r]) fun _ _ => ?_
  refine (reads_expect closed rest).last fun _ _ => (reads_node _ _ _ _ rest).last fun tree _ => ?_
  exact reads_pure rfl

/-- The operands of a binary header may have a comma between them. -/
theorem reads_binaryPrototype {b op l x y r : Token} {symbol : Char} {n : Int32} {p c : List Token}
    (operator : op.symbol? = some symbol) (free : BuiltIn.ofSymbol? symbol = none)
    (gives : GivesPrecedence Operator.defaultInfixPrecedence n p) (opened : l.kind = .openParen)
    (name : x.kind = .identifier) (comma : c = [] ∨ ∃ d, c = [d] ∧ d.kind = .comma)
    (name' : y.kind = .identifier) (closed : r.kind = .closeParen) (rest : List Token) :
    Reads binaryPrototype (b :: op :: (p ++ l :: x :: (c ++ [y, r]))) rest fun a =>
      a.2 = ⟨symbol, .infixLeft, n⟩ := by
  have read (tokens : List Token) : Reads definableSymbol [op] tokens fun a => a = (symbol, op) := by
    refine reads_current_cons ?_
    rw [operator]
    refine reads_advance ?_
    rw [if_neg (by simp [OperatorTable.isBuiltIn, free])]
    exact reads_pure rfl
  rw [binaryPrototype_eq]
  refine reads_advance ((read _).bind (v := p ++ l :: x :: (c ++ [y, r])) ?_)
  rintro _ rfl
  refine (reads_precedence gives (next_ne _ opened (by decide))).bind fun m same => ?_
  subst m
  refine (reads_expect opened _).bind (v := x :: (c ++ [y, r])) fun _ _ => ?_
  refine (reads_expect name _).bind (v := c ++ [y, r]) fun left _ => ?_
  have good (tree : SyntaxTree) : Reads (pure (tree, OperatorDefinition.mk symbol .infixLeft n)) []
      rest fun a => a.2 = ⟨symbol, .infixLeft, n⟩ := reads_pure rfl
  have second := (reads_expect name' ([r] ++ rest)).bind (v := [r]) fun right _ =>
    (reads_expect closed rest).last fun _ _ =>
    (reads_node .binaryPrototype b.span.start op.text [parameter left, parameter right] rest).last
    fun tree _ => good tree
  rcases comma with rfl | ⟨d, rfl, comma⟩
  · exact reads_eat_other (next_ne _ name' (by decide)) second
  · exact reads_eat comma second

/-- Where the header of an operator comes next, it is read with the operator. -/
theorem reads_introduction {op : OperatorDefinition} {h : List Token}
    (introduces : IntroducesOperator op h) (rest : List Token) :
    Reads prototype h rest fun a => a.2 = some op := by
  have whole (a : SyntaxTree × OperatorDefinition) (same : a.2 = op) :
      Reads (pure (a.1, some a.2)) [] rest fun a => a.2 = some op := reads_pure (congrArg some same)
  cases introduces with
  | unary word operator gives opened name closed =>
    refine reads_current_cons ?_
    rw [word]
    exact (reads_unaryPrototype operator gives opened name closed rest).last whole
  | binary word operator free gives opened name name' closed =>
    refine reads_current_cons ?_
    rw [word]
    exact (reads_binaryPrototype operator free gives opened name (.inl rfl) name' closed rest).last
      whole
  | binaryComma word operator free gives opened name comma name' closed =>
    refine reads_current_cons ?_
    rw [word]
    exact (reads_binaryPrototype operator free gives opened name (.inr ⟨_, rfl, comma⟩) name'
      closed rest).last whole

theorem headerRead_of_introduction {op : OperatorDefinition} (strong : 0 ≤ op.precedence)
    {a : SyntaxTree × Option OperatorDefinition} (same : a.2 = some op) :
    HeaderRead (OperatorDefinition.introduced (some op)) a := by
  refine ⟨by rw [same], fun op' member => ?_⟩
  rw [same] at member
  cases member
  exact strong

theorem reads_prototype {introduced : Option Char} {h : List Token}
    (header : DerivesHeader introduced h) (rest : List Token) :
    Reads prototype h rest (HeaderRead introduced) := by
  cases header with
  | function name opened closed names =>
    refine reads_current_cons ?_
    rw [name]
    exact (reads_functionPrototype opened closed names rest).last fun tree _ =>
      reads_pure ⟨rfl, fun op member => by cases member⟩
  | unary word operator given opened name closed =>
    obtain ⟨n, gives, strong⟩ := exists_givesPrecedence given Operator.defaultPrefixPrecedence (by decide)
    exact (reads_introduction (.unary word operator gives opened name closed) rest).imp fun _ =>
      headerRead_of_introduction strong
  | binary word operator free given opened name name' closed =>
    obtain ⟨n, gives, strong⟩ := exists_givesPrecedence given Operator.defaultInfixPrecedence (by decide)
    exact (reads_introduction (.binary word operator free gives opened name name' closed) rest).imp
      fun _ => headerRead_of_introduction strong
  | binaryComma word operator free given opened name comma name' closed =>
    obtain ⟨n, gives, strong⟩ := exists_givesPrecedence given Operator.defaultInfixPrecedence (by decide)
    exact (reads_introduction (.binaryComma word operator free gives opened name comma name' closed)
      rest).imp fun _ => headerRead_of_introduction strong

/-- The introduced operator may be used in the body, which is read with it. -/
theorem reads_definition (ordinary : g.IsOrdinary) {k : Token} {introduced : Option Char}
    {h w : List Token} (header : DerivesHeader introduced h) (lexed : AllLexed g.level w)
    (body : Derives g.level (fun c => (g.operators.prefixOp? c).isSome = true ∨ introduced = some c)
      .expr w) (stop : Stops rest) :
    Reads g.definition (k :: (h ++ w)) rest fun _ => True := by
  refine reads_advance ((reads_prototype header _).bind ?_)
  rintro ⟨tree, op?⟩ ⟨rfl, strong⟩
  have allowed : (g.introduce op?).Allows .expr w := by rwa [g.allows_introduce]
  have read := reads_expr (ordinary.introduce strong) (by rwa [g.level_introduce]) allowed stop
  exact read.last fun body _ => (reads_node _ _ _ _ rest).last fun _ _ => reads_done _ rest

theorem reads_declaration {k : Token} {introduced : Option Char} {h : List Token}
    (header : DerivesHeader introduced h) (rest : List Token) :
    Reads declaration (k :: h) rest fun _ => True :=
  reads_advance ((reads_prototype header _).last fun _ _ =>
    (reads_node _ _ _ _ rest).last fun _ _ => reads_done _ rest)

theorem reads_topLevel (ordinary : g.IsOrdinary) {w : List Token} (lexed : AllLexed g.level w)
    (derived : g.Allows .expr w) (stop : Stops rest) : Reads g.topLevel w rest fun _ => True :=
  reads_position fun _ => (reads_expr ordinary lexed derived stop).last fun _ _ =>
    (reads_node _ _ _ _ rest).last fun _ _ => reads_done _ rest

theorem reads_statement (ordinary : g.IsOrdinary) {w : List Token} (lexed : AllLexed g.level w)
    (derived : g.AllowsUnit w) (stop : Stops rest) : Reads g.statement w rest fun _ => True := by
  unfold statement
  rw [if_neg (by simp [ordinary.full])]
  cases derived with
  | definition word header body =>
    refine reads_current_cons ?_
    rw [word]
    exact reads_definition ordinary header lexed.tail.right body stop
  | declaration word header =>
    refine reads_current_cons ?_
    rw [word]
    exact reads_declaration header rest
  | expression derived =>
    obtain ⟨t, v, rfl, starter⟩ := Derives.starts derived (by decide)
    refine reads_current_cons ?_
    have other : g.statementOf t.kind = g.topLevel := by
      unfold statementOf
      split
      · exact absurd ‹_› (ne_of_starter starter (by decide))
      · exact absurd ‹_› (ne_of_starter starter (by decide))
      · rfl
    rw [other]
    exact reads_topLevel ordinary lexed derived stop

theorem reads_ending {w : List Token} (last : EndingOf w) (start : Position) (tree : SyntaxTree) :
    Reads (ending start tree) w [] fun _ => True := by
  have closing : Reads (closing start tree) [] [] fun _ => True := by
    intro s pending
    rw [closing_of_end pending]
    exact reads_node _ _ _ _ [] s pending
  rcases last with rfl | ⟨d, rfl, semicolon⟩
  · refine reads_eat_other (fun t next => ?_) closing
    rcases next with none | ⟨_, finish⟩
    · cases none
    · rw [finish]
      decide
  · exact reads_eat semicolon closing

/-- Every statement that the grammar allows is read, and nothing is left. -/
theorem reads_single (ordinary : g.IsOrdinary) {w : List Token} (lexed : AllLexed g.level w)
    (derived : g.AllowsStatement w) : Reads g.single w [] fun _ => True := by
  have read {v e : List Token} (lexed : AllLexed g.level v) (derived : g.AllowsUnit v)
      (last : EndingOf e) (stop : Stops (e ++ [])) : Reads g.single (v ++ e) [] fun _ => True :=
    reads_position fun start => (reads_statement ordinary lexed derived stop).bind fun a _ =>
      (reads_ending last start a.1).last fun _ _ => reads_done _ []
  cases derived with
  | bare derived =>
    have whole := read lexed derived (.inl rfl) stops_nil
    rwa [List.append_nil] at whole
  | ended derived semicolon =>
    exact read lexed.left derived (.inr ⟨_, rfl, semicolon⟩)
      (stops_cons [] semicolon (by decide))

end Grammar

end OpenExpr
