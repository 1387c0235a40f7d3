import OpenExpr.Proofs.Grammar.Soundness
import OpenExpr.Proofs.Parse.Header
import OpenExpr.Proofs.Parse.Statement

namespace OpenExpr

open Parse

/-- The prefix operator that a header introduces, if it introduces one. -/
def OperatorDefinition.introduced (op? : Option OperatorDefinition) : Option Char :=
  op?.bind fun op => if op.fixity = .prefixed then some op.symbol else none

namespace OperatorTable

theorem prefixOp?_register (table : OperatorTable) (symbol : Char) (fixity : Fixity)
    (precedence : Int32) (c : Char) :
    ((table.register symbol fixity precedence).prefixOp? c).isSome = true ↔
      (table.prefixOp? c).isSome = true ∨ fixity = .prefixed ∧ symbol = c := by
  unfold register
  cases fixity with
  | prefixed =>
    by_cases same : symbol = c
    · simp [isBuiltIn, prefixOp?, same]
    · simp [isBuiltIn, prefixOp?, Std.ExtTreeMap.getElem?_insert, same]
  | infixLeft | infixRight => split <;> simp [prefixOp?]

end OperatorTable

namespace Grammar

theorem prefixOp?_introduce (g : Grammar) (op? : Option OperatorDefinition) (c : Char) :
    ((g.introduce op?).operators.prefixOp? c).isSome = true ↔
      (g.operators.prefixOp? c).isSome = true ∨ OperatorDefinition.introduced op? = some c := by
  cases op? with
  | none => simp [introduce, OperatorDefinition.introduced]
  | some op => simp [introduce, define, OperatorDefinition.introduced, OperatorTable.prefixOp?_register]

theorem level_introduce (g : Grammar) (op? : Option OperatorDefinition) :
    (g.introduce op?).level = g.level := by
  cases op? <;> rfl

/-- In the body of a definition the operator of its header counts too. -/
theorem allows_introduce (g : Grammar) (op? : Option OperatorDefinition) :
    (g.introduce op?).Allows = Derives g.level fun c =>
      (g.operators.prefixOp? c).isSome = true ∨ OperatorDefinition.introduced op? = some c := by
  unfold Allows
  rw [level_introduce]
  congr
  funext c
  exact propext (g.prefixOp?_introduce op? c)

/-- What a text gives is a whole number within the bounds. -/
theorem precedence?_eq_some {text : String} {n : Int32} (given : precedence? text = some n) :
    IsPrecedence text ∧ 1 ≤ n ∧ n ≤ .ofNat Operator.maxPrecedence := by
  unfold precedence? at given
  obtain ⟨x, float, rest⟩ := Option.bind_eq_some_iff.mp given
  obtain ⟨m, whole, rest⟩ := Option.bind_eq_some_iff.mp rest
  split at rest
  · rename_i bounds
    cases rest
    have small : m < 2 ^ 31 := Nat.lt_of_le_of_lt bounds.2 (by decide)
    exact ⟨⟨x, m, float, whole, bounds⟩, (Int32.ofNat_le_iff_le (by decide) small).mpr bounds.1,
      (Int32.ofNat_le_iff_le small (by decide)).mpr bounds.2⟩
  · cases rest

theorem IsPrecedence.exists_precedence {text : String} (valid : IsPrecedence text) :
    ∃ n, precedence? text = some n := by
  obtain ⟨x, m, float, whole, bounds⟩ := valid
  refine ⟨.ofNat m, ?_⟩
  unfold precedence?
  rw [float, Option.bind_eq_bind, Option.bind_some, whole, Option.bind_eq_bind, Option.bind_some,
    if_pos bounds]

theorem takes_settle {α : Type} {level : Level} {L : α → List Token → Prop} {s : TokenStream}
    {t : Token} {rest : List Token} (pending : s.pending = t :: rest)
    (judge : Token → Except InputError α) (good : ∀ a, judge t = .ok a → L a [t])
    (bad : ∀ e, judge t = .error e → e.isEndOfInput = false) :
    Takes level L s ((advance >>= fun t => settle (judge t)) s) := by
  rw [bind_ok (advance_apply s), TokenStream.current_of_pending pending]
  cases verdict : judge t with
  | ok a =>
    refine ⟨[t], ?_, good a verdict⟩
    rw [pending, TokenStream.pending_advance_of_pending pending]
    rfl
  | error e => exact takes_error (bad e verdict)

theorem recognises_parameters (level : Level) (budget : Nat) :
    Recognises level (parameters budget) fun _ => DerivesParameters := by
  have stop : Recognises level (pure []) fun (_ : List SyntaxTree) => DerivesParameters :=
    (recognises_pure []).imp fun _ _ h => h ▸ .nil
  induction budget with
  | zero => exact stop
  | succ budget ih =>
    refine recognises_choice (M := fun _ _ w => DerivesParameters w ∨
      ∃ d v, w = d :: v ∧ d.kind = .comma ∧ DerivesParameters v) ?_ (fun name _ => ?_) stop ?_
    · intro name same
      rw [same]
      decide
    · refine recognises_eat .comma (by decide) (ih.bind fun _ => recognises_pure _)
        ((ih.bind fun _ => recognises_pure _).imp ?_) ?_
      · rintro _ _ ⟨_, w, _, rfl, names, rfl⟩
        rw [List.append_nil]
        exact .inl names
      · rintro d _ _ comma ⟨_, w, _, rfl, names, rfl⟩
        rw [List.append_nil]
        exact .inr ⟨d, w, rfl, comma, names⟩
    · rintro name _ _ same (names | ⟨d, v, rfl, comma, names⟩)
      · exact .bare same names
      · exact .comma same comma names

theorem takes_functionPrototype {level : Level} {s : TokenStream} {t : Token} {rest : List Token}
    (pending : s.pending = t :: rest) (lexed : AllLexed level s.pending)
    (name : t.kind = .identifier) :
    Takes level (fun _ => DerivesHeader none) s (functionPrototype s) := by
  refine takes_advance pending lexed ((recognises_openParen level).bind fun _ =>
    recognises_remaining fun budget => (recognises_parameters level budget).bind fun _ =>
    (recognises_closeParen level).bind fun _ => recognises_node _ _ _ _) ?_
  rintro _ _ ⟨l, _, _, rfl, ⟨rfl, opened⟩, _, ws, _, rfl, names, r, _, _, rfl, ⟨rfl, closed⟩, rfl⟩
  exact .function name opened closed names

theorem recognises_operatorSymbol (level : Level) :
    Recognises level operatorSymbol fun x w => w = [x.2] ∧ x.2.symbol? = some x.1 := by
  have word : HasWord level fun (x : Char × Token) w => w = [x.2] ∧ x.2.symbol? = some x.1 := by
    obtain ⟨t, operator, lexed⟩ := Token.exists_assignment level
    exact ⟨('=', t), [t], AllLexed.nil.cons lexed, rfl, operator⟩
  refine ⟨fun s lexed => ?_, word⟩
  unfold operatorSymbol
  rw [bind_ok (current_apply s)]
  cases pending : s.pending with
  | nil =>
    rw [TokenStream.current_symbol_of_end pending]
    exact takes_unexpectedDetailed word _ s
  | cons t rest =>
    rw [TokenStream.current_of_pending pending]
    cases operator : t.symbol? with
    | none => exact takes_unexpectedDetailed word _ s
    | some symbol =>
      refine takes_advance pending lexed (recognises_value (symbol, t)) ?_
      rintro _ _ ⟨rfl, rfl⟩
      exact ⟨rfl, operator⟩

theorem recognises_definableSymbol (level : Level) :
    Recognises level definableSymbol fun x w =>
      w = [x.2] ∧ x.2.symbol? = some x.1 ∧ BuiltIn.ofSymbol? x.1 = none := by
  have word : HasWord level fun (x : Char × Token) w =>
      w = [x.2] ∧ x.2.symbol? = some x.1 ∧ BuiltIn.ofSymbol? x.1 = none := by
    obtain ⟨t, c, operator, free, lexed⟩ := Token.exists_definable level
    exact ⟨(c, t), [t], AllLexed.nil.cons lexed, rfl, operator, free⟩
  refine ⟨fun s lexed => ?_, word⟩
  unfold definableSymbol
  rw [bind_ok (current_apply s)]
  cases pending : s.pending with
  | nil =>
    rw [TokenStream.current_symbol_of_end pending]
    exact takes_unexpectedDetailed word _ s
  | cons t rest =>
    rw [TokenStream.current_of_pending pending]
    cases operator : t.symbol? with
    | none => exact takes_unexpectedDetailed word _ s
    | some symbol =>
      refine takes_settle pending _ (fun a verdict => ?_) fun e verdict => ?_
      · split at verdict
        · cases verdict
        · rename_i free
          cases verdict
          exact ⟨rfl, operator, by simpa [OperatorTable.isBuiltIn] using free⟩
      · split at verdict <;> cases verdict
        rfl

/-- The precedence that an operator gets from its header, or otherwise by default. -/
inductive GivesPrecedence (usual : Int32) : Int32 → List Token → Prop
  | default : GivesPrecedence usual usual []
  | given {t n} : t.kind = .number → precedence? t.text = some n → GivesPrecedence usual n [t]

theorem GivesPrecedence.derives {usual n : Int32} {w : List Token} (gives : GivesPrecedence usual n w) :
    DerivesPrecedence w := by
  cases gives with
  | default => exact .default
  | given number valid => exact .given number (precedence?_eq_some valid).1

theorem recognises_precedence (level : Level) (default : Int32) :
    Recognises level (precedence default) (GivesPrecedence default) := by
  have stop : Recognises level (pure default) (GivesPrecedence default) :=
    (recognises_value default).imp fun _ _ h => h.1 ▸ h.2 ▸ .default
  refine ⟨fun s lexed => ?_, stop.word⟩
  rw [precedence_eq, bind_ok (current_apply s)]
  split
  · rename_i number
    cases pending : s.pending with
    | nil =>
      rw [TokenStream.current_kind_of_end pending] at number
      cases number
    | cons t rest =>
      rw [TokenStream.current_of_pending pending] at number
      refine takes_settle pending _ (fun n verdict => ?_) fun e verdict => ?_
      · cases given : precedence? t.text with
        | none => rw [given] at verdict; cases verdict
        | some m =>
          rw [given] at verdict
          cases verdict
          exact .given number given
      · cases given : precedence? t.text with
        | none => rw [given] at verdict; cases verdict; rfl
        | some m => rw [given] at verdict; cases verdict
  · exact stop.takes s lexed

/-- The header of an operator, with what it introduces. -/
inductive IntroducesOperator : OperatorDefinition → List Token → Prop
  | unary {u op symbol n p l x r} : u.kind = .keyword .unaryWord → op.symbol? = some symbol →
      GivesPrecedence Operator.defaultPrefixPrecedence n p → l.kind = .openParen →
      x.kind = .identifier → r.kind = .closeParen →
      IntroducesOperator { symbol, fixity := .prefixed, precedence := n }
        (u :: op :: (p ++ [l, x, r]))
  | binary {b op symbol n p l x y r} : b.kind = .keyword .binaryWord → op.symbol? = some symbol →
      BuiltIn.ofSymbol? symbol = none → GivesPrecedence Operator.defaultInfixPrecedence n p →
      l.kind = .openParen → x.kind = .identifier → y.kind = .identifier → r.kind = .closeParen →
      IntroducesOperator { symbol, fixity := .infixLeft, precedence := n }
        (b :: op :: (p ++ [l, x, y, r]))
  | binaryComma {b op symbol n p l x d y r} : b.kind = .keyword .binaryWord →
      op.symbol? = some symbol → BuiltIn.ofSymbol? symbol = none →
      GivesPrecedence Operator.defaultInfixPrecedence n p → l.kind = .openParen →
      x.kind = .identifier → d.kind = .comma → y.kind = .identifier → r.kind = .closeParen →
      IntroducesOperator { symbol, fixity := .infixLeft, precedence := n }
        (b :: op :: (p ++ [l, x, d, y, r]))

theorem IntroducesOperator.derives {op : OperatorDefinition} {w : List Token}
    (introduces : IntroducesOperator op w) :
    DerivesHeader (OperatorDefinition.introduced (some op)) w := by
  cases introduces with
  | unary word operator given opened name closed =>
    exact .unary word operator given.derives opened name closed
  | binary word operator free given opened name name' closed =>
    exact .binary word operator free given.derives opened name name' closed
  | binaryComma word operator free given opened name comma name' closed =>
    exact .binaryComma word operator free given.derives opened name comma name' closed

/-- What a header is, by what it introduces. -/
def HeaderOf (a : SyntaxTree × Option OperatorDefinition) : List Token → Prop :=
  DerivesHeader (OperatorDefinition.introduced a.2)

/-- A header together with the operator that it introduces, if it introduces one. -/
def IntroductionOf : SyntaxTree × Option OperatorDefinition → List Token → Prop
  | (_, none), w => DerivesHeader none w
  | (_, some op), w => IntroducesOperator op w

theorem IntroductionOf.derives {a : SyntaxTree × Option OperatorDefinition} {w : List Token}
    (introduction : IntroductionOf a w) : HeaderOf a w := by
  obtain ⟨tree, _ | op⟩ := a
  · exact introduction
  · exact IntroducesOperator.derives introduction

theorem takes_unaryPrototype {level : Level} {s : TokenStream} {t : Token} {rest : List Token}
    (pending : s.pending = t :: rest) (lexed : AllLexed level s.pending)
    (word : t.kind = .keyword .unaryWord) :
    Takes level (fun a => IntroducesOperator a.2) s (unaryPrototype s) := by
  refine takes_advance pending lexed ((recognises_operatorSymbol level).bind fun x =>
    (recognises_precedence level _).bind fun n => (recognises_openParen level).bind fun _ =>
    (recognises_identifier level).bind fun name => (recognises_closeParen level).bind fun _ =>
    (recognises_node .unaryPrototype t.span.start x.2.text [parameter name]).bind fun tree =>
    recognises_value (tree, OperatorDefinition.mk x.1 .prefixed n)) ?_
  rintro _ _ ⟨⟨symbol, op⟩, _, _, rfl, ⟨rfl, operator⟩, n, p, _, rfl, given, l, _, _, rfl, ⟨rfl, opened⟩,
    x, _, _, rfl, ⟨rfl, name⟩, r, _, _, rfl, ⟨rfl, closed⟩, _, _, _, rfl, rfl, rfl, rfl⟩
  exact .unary word operator given opened name closed

/-- The second operand of the header of an infix operator, and its end. -/
def SecondOperand (op : OperatorDefinition) (a : SyntaxTree × OperatorDefinition) (w : List Token) :
    Prop :=
  a.2 = op ∧ ∃ y r, w = [y, r] ∧ y.kind = .identifier ∧ r.kind = .closeParen

/-- The second operand, perhaps after a comma. -/
def SecondOperandRest (op : OperatorDefinition) (a : SyntaxTree × OperatorDefinition)
    (w : List Token) : Prop :=
  SecondOperand op a w ∨ ∃ d v, w = d :: v ∧ d.kind = .comma ∧ SecondOperand op a v

theorem takes_binaryPrototype {level : Level} {s : TokenStream} {t : Token} {rest : List Token}
    (pending : s.pending = t :: rest) (lexed : AllLexed level s.pending)
    (word : t.kind = .keyword .binaryWord) :
    Takes level (fun a => IntroducesOperator a.2) s (binaryPrototype s) := by
  rw [binaryPrototype_eq]
  refine takes_advance pending lexed ((recognises_definableSymbol level).bind fun x =>
    (recognises_precedence level _).bind fun n => (recognises_openParen level).bind fun _ =>
    (recognises_identifier level).bind (M := fun _ => SecondOperandRest ⟨x.1, .infixLeft, n⟩)
      fun name => ?_) ?_
  · have second := ((recognises_identifier level).bind fun name' =>
      (recognises_closeParen level).bind fun _ =>
      (recognises_node .binaryPrototype t.span.start x.2.text [parameter name, parameter name']).bind
      fun tree => recognises_value (tree, OperatorDefinition.mk x.1 .infixLeft n)).imp
      (M := SecondOperand ⟨x.1, .infixLeft, n⟩) (by
        rintro _ _ ⟨y, _, _, rfl, ⟨rfl, name⟩, r, _, _, rfl, ⟨rfl, closed⟩, _, _, _, rfl, rfl, rfl, rfl⟩
        exact ⟨rfl, y, r, rfl, name, closed⟩)
    exact recognises_eat .comma (by decide) second (second.imp fun _ _ => .inl)
      fun d _ v comma last => .inr ⟨d, v, rfl, comma, last⟩
  · rintro ⟨tree, op⟩ _ ⟨⟨symbol, _⟩, _, _, rfl, ⟨rfl, operator, free⟩, n, p, _, rfl, given,
      l, _, _, rfl, ⟨rfl, opened⟩, x, _, _, rfl, ⟨rfl, name⟩, last⟩
    rcases last with ⟨rfl, y, r, rfl, name', closed⟩ | ⟨d, _, rfl, comma, rfl, y, r, rfl, name', closed⟩
    · exact .binary word operator free given opened name name' closed
    · exact .binaryComma word operator free given opened name comma name' closed

theorem hasWord_header (level : Level) : HasWord level IntroductionOf := by
  obtain ⟨f, name, lexed⟩ := Token.exists_identifier level
  obtain ⟨l, opened, lexed'⟩ := Token.exists_openParen level
  obtain ⟨r, closed, lexed''⟩ := Token.exists_closeParen level
  exact ⟨(⟨.functionPrototype, Span.null, "", [], []⟩, none), [f, l, r],
    ((AllLexed.nil.cons lexed'').cons lexed').cons lexed, .function name opened closed .nil⟩

/-- What is read as a header is one that introduces the operator that is returned, and
a header that stops too early can be completed. -/
theorem recognises_introduction (level : Level) : Recognises level prototype IntroductionOf := by
  refine ⟨fun s lexed => ?_, hasWord_header level⟩
  unfold prototype
  cases pending : s.pending with
  | nil =>
    rw [bind_ok (current_apply s), TokenStream.current_kind_of_end pending]
    exact takes_unexpectedDetailed (hasWord_header level) _ s
  | cons t rest =>
    rw [bind_ok (current_apply s), TokenStream.current_of_pending pending]
    cases kind : t.kind with
    | identifier => exact (takes_functionPrototype pending lexed kind).map fun _ _ => id
    | keyword word =>
      cases word with
      | unaryWord => exact (takes_unaryPrototype pending lexed kind).map fun _ _ => id
      | binaryWord => exact (takes_binaryPrototype pending lexed kind).map fun _ _ => id
      | _ => exact takes_unexpectedDetailed (hasWord_header level) _ s
    | _ => exact takes_unexpectedDetailed (hasWord_header level) _ s

theorem recognises_prototype (level : Level) : Recognises level prototype HeaderOf :=
  (recognises_introduction level).imp fun _ _ => IntroductionOf.derives

end Grammar

end OpenExpr
