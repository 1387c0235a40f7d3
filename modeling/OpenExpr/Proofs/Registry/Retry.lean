import OpenExpr.Proofs.Registry.Statement
import OpenExpr.Proofs.Token.Prefix

namespace OpenExpr

open Parse

theorem HasIntroduction.append {op : OperatorDefinition} {w : List Token}
    (introduction : HasIntroduction op w) (more : List Token) : HasIntroduction op (w ++ more) := by
  cases introduction with
  | definition word introduces =>
    rw [List.cons_append, List.append_assoc]
    exact .definition word introduces
  | declaration word introduces =>
    rw [List.cons_append, List.append_assoc]
    exact .declaration word introduces

/-- An operator that is known as a definition makes it known may be made known again. -/
theorem OperatorTable.register_register (table : OperatorTable) (symbol : Char) (fixity : Fixity)
    (precedence : Int32) : (table.register symbol fixity precedence).register symbol fixity precedence =
      table.register symbol fixity precedence := by
  have twice (m : Std.ExtTreeMap Char Operator) (op : Operator) :
      (m.insert symbol op).insert symbol op = m.insert symbol op := by
    refine Std.ExtTreeMap.ext_getElem? fun c => ?_
    simp only [Std.ExtTreeMap.getElem?_insert]
    split <;> rfl
  unfold register
  cases builtIn : isBuiltIn symbol fixity with
  | true => rfl
  | false => cases fixity <;> simp [twice]

namespace Grammar

variable {g g' : Grammar} {s s' : TokenStream} {op : OperatorDefinition}

theorem headerOperator?_of_introducesOperator {h rest : List Token}
    (introduces : IntroducesOperator op h) (pending : s.pending = h ++ rest) :
    headerOperator? s = some op := by
  obtain ⟨a, _, run, _, same⟩ := reads_introduction introduces rest s pending
  unfold headerOperator?
  rw [run]
  exact same

/-- The header of an operator is found wherever tokens start with one. -/
theorem introduced?_of_hasIntroduction (introduction : HasIntroduction op s.pending) :
    introduced? s = some op := by
  generalize pending : s.pending = w at introduction
  unfold introduced?
  cases introduction with
  | definition word introduces | declaration word introduces =>
    rw [TokenStream.current_of_pending pending, word]
    exact headerOperator?_of_introducesOperator introduces
      (TokenStream.pending_advance_of_pending pending)

/-- Tokens behind the header of an operator have no say in it. -/
theorem introduced?_append {level : Level} (lexed : AllLexed level s.pending)
    (found : introduced? s = some op) {more : List Token} (longer : s'.pending = s.pending ++ more) :
    introduced? s' = some op :=
  introduced?_of_hasIntroduction (longer ▸ (hasIntroduction_of_introduced? lexed found).append more)

/-- Grammars that are the same once the operator of a header is known read the statement
with that header alike: the header itself needs no grammar. -/
theorem statement_eq_of_introduced? (full : g.isBare = false) (full' : g'.isBare = false)
    (found : introduced? s = some op) (same : g.define op = g'.define op) :
    g.statement s = g'.statement s := by
  have start (g : Grammar) (full : g.isBare = false) :
      g.statement s = g.statementOf s.current.kind s := by
    unfold statement
    rw [full]
    rfl
  rw [start g full, start g' full']
  unfold introduced? at found
  split at found
  · rename_i word
    rw [word]
    change g.definition s = g'.definition s
    unfold definition
    rw [bind_ok (advance_apply s), bind_ok (advance_apply s)]
    unfold headerOperator? at found
    cases run : prototype s.advance with
    | error e _ => simp [run] at found
    | ok a s' =>
      obtain ⟨header, op?⟩ := a
      simp only [run] at found
      subst found
      rw [bind_ok run, bind_ok run]
      dsimp only [introduce]
      rw [same]
  · rename_i word
    rw [word]
    rfl
  · cases found

theorem single_eq_of_introduced? (full : g.isBare = false) (full' : g'.isBare = false)
    (found : introduced? s = some op) (same : g.define op = g'.define op) :
    g.single s = g'.single s := by
  have statements := statement_eq_of_introduced? full full' found same
  have start : (position : Parse Position) s = .ok s.current.span.start s := rfl
  unfold single
  rw [bind_ok start, bind_ok start]
  cases run : g'.statement s with
  | ok a s' => rw [bind_ok run, bind_ok (statements.trans run)]
  | error e s' => rw [bind_error run, bind_error (statements.trans run)]

end Grammar

/-- A statement with the header of an operator is read alike whether or not the operator
is known before. -/
theorem parse_repl_register (level : Level) (operators : OperatorTable) {file : String}
    {tokens : List Token} {op : OperatorDefinition}
    (found : Grammar.introduced? (.ofTokens file tokens) = some op) :
    parse level (operators.register op.symbol op.fixity op.precedence) .repl file tokens =
      parse level operators .repl file tokens := by
  have known := operators.register_register op.symbol op.fixity op.precedence
  let g : Grammar := { level, operators }
  have same : (g.define op).define op = g.define op :=
    congrArg (fun operators => Grammar.mk level operators false) known
  refine Prod.ext ?_ ?_
  · rw [parse_repl, parse_repl]
    rw [show Grammar.single { level, operators := _ } _ = g.single _ from
      Grammar.single_eq_of_introduced? (g := g.define op) rfl rfl found same]
  · rw [parse_repl_operators, parse_repl_operators, found]
    exact known

namespace Session

/-- The session with another table of operators. -/
def withOperators (s : Session) (operators : OperatorTable) : Session :=
  { s with env := { s.env with operators } }

/-- What a session is after a text that asked for more: only the operator is known whose
header was read. -/
theorem parseStatement_early {s : Session} {text : String}
    (early : (s.parseStatement text).1 = .needMoreInput) :
    ∃ tokens, tokenize s.env.options.level s.sourceName text = .ok tokens ∧
      (s.parseStatement text).2 = s.withOperators
        (Grammar.introduce { level := s.env.options.level, operators := s.env.operators }
          (Grammar.introduced? (.ofTokens s.sourceName tokens))).operators := by
  unfold parseStatement syntaxTree at early ⊢
  cases run : tokenize s.env.options.level s.sourceName text with
  | error e =>
    have final := isEndOfInput_of_tokenize run
    rw [run] at early
    simp [final] at early
  | ok tokens =>
    refine ⟨tokens, rfl, ?_⟩
    rw [run] at early
    rw [← parse_repl_operators]
    dsimp only at early ⊢
    cases result : (OpenExpr.parse s.env.options.level s.env.operators .repl s.sourceName tokens).1 with
    | error e => rfl
    | ok tree =>
      rw [result] at early
      dsimp only at early
      split at early <;> cases early

/-- The text consists of tokens and what stands between them. -/
def Scans (s : Session) (text : String) : Prop :=
  (tokenize s.env.options.level s.sourceName text).isOk = true

instance (s : Session) (text : String) : Decidable (s.Scans text) :=
  inferInstanceAs (Decidable (_ = true))

/-- A text that does not consist of tokens changes nothing, and what is wrong with it does
not depend on the operators. -/
theorem parseStatement_of_not_scans {s : Session} {text : String} (bad : ¬ s.Scans text) :
    ∃ ds, ∀ operators, (s.withOperators operators).parseStatement text =
      (.failed ds, s.withOperators operators) := by
  unfold Scans at bad
  cases run : tokenize s.env.options.level s.sourceName text with
  | ok tokens =>
    rw [run] at bad
    exact absurd rfl bad
  | error e =>
    refine ⟨[e.diagnostic], fun operators => ?_⟩
    have read : (s.withOperators operators).syntaxTree .repl text =
        (.error e, s.withOperators operators) := by
      unfold syntaxTree withOperators
      rw [run]
    rw [parseStatement_of_error read, isEndOfInput_of_tokenize run]
    rfl

/-- The operator that a text has made known before it asked for more is made known again
by any text that goes on with it, before anything is read with it. -/
theorem syntaxTree_again {s : Session} {a b : String}
    (early : (s.parseStatement a).1 = .needMoreInput) (scans : s.Scans (a ++ "\n" ++ b)) :
    (s.parseStatement a).2.syntaxTree .repl (a ++ "\n" ++ b) =
      s.syntaxTree .repl (a ++ "\n" ++ b) := by
  obtain ⟨tokens, first, after⟩ := parseStatement_early early
  obtain ⟨whole, run⟩ := exists_of_isOk scans
  obtain ⟨front, finish, more, finish', first', rfl, final, final', lexed⟩ := tokenize_newline run
  obtain rfl : tokens = front ++ [finish] := Except.ok.inj (first.symm.trans first')
  rw [ofTokens_body _ lexed.left final] at after
  rw [after]
  unfold syntaxTree withOperators
  dsimp only
  rw [run]
  dsimp only
  cases found : Grammar.introduced? ⟨front, finish, final, none⟩ with
  | none => rfl
  | some op =>
    have found' : Grammar.introduced? (.ofTokens s.sourceName (front ++ more ++ [finish'])) = some op :=
      Grammar.introduced?_append (s := ⟨front, finish, final, none⟩) lexed.left found
        (congrArg TokenStream.pending (ofTokens_body _ lexed final'))
    rw [show (Grammar.introduce _ (some op)).operators = s.env.operators.register op.symbol op.fixity
      op.precedence from rfl, parse_repl_register _ _ found']

/-- What was read of a statement before the rest of it arrived does not count. If the whole
does not consist of tokens, nothing is read of it and what was known stays known. -/
theorem parseStatement_again {s : Session} {a : String}
    (early : (s.parseStatement a).1 = .needMoreInput) (b : String) :
    (s.Scans (a ++ "\n" ++ b) → (s.parseStatement a).2.parseStatement (a ++ "\n" ++ b) =
      s.parseStatement (a ++ "\n" ++ b)) ∧
    (¬ s.Scans (a ++ "\n" ++ b) → ∃ ds,
      (s.parseStatement a).2.parseStatement (a ++ "\n" ++ b) = (.failed ds, (s.parseStatement a).2) ∧
      s.parseStatement (a ++ "\n" ++ b) = (.failed ds, s)) := by
  refine ⟨fun scans => ?_, fun bad => ?_⟩
  · have read := syntaxTree_again early scans
    unfold parseStatement at read ⊢
    rw [read]
  · obtain ⟨ds, failed⟩ := parseStatement_of_not_scans bad
    obtain ⟨_, _, after⟩ := parseStatement_early early
    rw [after]
    exact ⟨ds, failed _, failed s.env.operators⟩

end Session

end OpenExpr
