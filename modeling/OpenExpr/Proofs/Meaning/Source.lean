import OpenExpr.Proofs.Meaning.Unit

namespace OpenExpr

open Parse

/-- A statement as sources write it where the operators are known: its header is complete,
and what its body calls can be written. -/
structure SyntaxTree.IsSource (table : OperatorTable) (t : SyntaxTree) : Prop where
  read : t.IsReadWith table
  header : ∃ op?, t.UnitIntroduces op?
  calls : ∀ site ∈ t.bodyCalls, site.IsWritten

theorem SyntaxTree.IsSource.mono {table table' : OperatorTable} {t : SyntaxTree}
    (source : t.IsSource table) (within : table.Within table') : t.IsSource table' where
  read := ⟨source.read.fits.mono within, fun other body last => (source.read.body other body last).mono within⟩
  header := source.header
  calls := source.calls

/-- What a grammar reads as a statement is as sources write it once its operator is known. -/
theorem Grammar.yields_isSource (g : Grammar) {level : Level} :
    Yields level (fun a => a.1.IsSource (g.introduce a.2).operators) g.statement := by
  intro s lexed
  have forms := ((g.yields_unitIntroduction.and g.yields_bodyPrefixesIn).and
    (g.yields_body (P := fun _ t => ∀ site ∈ t.calls, site.IsWritten) closes_isWritten)) s lexed
  cases run : g.statement s with
  | error e s' =>
    rw [run] at forms
    exact forms
  | ok a s' =>
    rw [run] at forms
    obtain ⟨⟨⟨introduces, body⟩, calls⟩, rest⟩ := forms
    have fits := g.fitsIn_statement lexed run
    refine ⟨⟨⟨fits, body⟩, ⟨a.2, introduces⟩, ?_⟩, rest⟩
    generalize a.1 = t at fits calls ⊢
    cases fits.form with
    | definition => exact calls (by simp) _ rfl
    | declaration => simp [SyntaxTree.bodyCalls]
    | bare => exact calls (by simp) _ rfl

theorem SourceReader.isSource_of_mem_statements {level : Level} {r : SourceReader} (budget : Nat)
    (lexed : AllLexed level r.tokens.pending) (full : r.grammar.isBare = false) :
    ∀ t ∈ (statements budget r).1,
      t.IsSource (statements budget r).2.grammar.operators ∨ t.kind = .error := by
  refine (of_mem_statements (fun _ _ _ source within => source.mono within)
    (fun g s a s' lexed run => ?_) budget lexed full).2
  have source := g.yields_isSource s lexed
  rw [run] at source
  exact source.1

/-- The statements of a text are as sources write them where the operators are known that
are known when it has been read. -/
theorem parse_isSource {level : Level} {operators : OperatorTable} {mode : ParseMode}
    {file source : String} {tokens : List Token} (run : tokenize level file source = .ok tokens)
    {tree : SyntaxTree} {table : OperatorTable}
    (read : parse level operators mode file tokens = (.ok tree, table)) :
    ∀ t ∈ tree.children, t.IsSource table ∨ t.kind = .error := by
  have lexed := allLexed_ofTokens run
  cases mode with
  | repl =>
    let g : Grammar := { level, operators }
    have single := g.yields_single_of_statement g.yields_isSource _ lexed
    cases run : g.single (.ofTokens file tokens) with
    | error e s =>
      have failed := congrArg Prod.fst read
      rw [parse_repl, show Grammar.single _ _ = _ from run] at failed
      cases failed
    | ok a s =>
      rw [run] at single
      obtain ⟨⟨unit, span, form, same⟩, _⟩ := single
      rw [parse_repl_ok_of_single run, same] at read
      cases read
      simpa using .inl form
  | fullSource =>
    cases read
    exact SourceReader.isSource_of_mem_statements _ lexed rfl

theorem Session.isSource_of_syntaxTree {s s' : Session} {mode : ParseMode} {text : String}
    {tree : SyntaxTree} (read : s.syntaxTree mode text = (.ok tree, s')) :
    ∀ t ∈ tree.children, t.IsSource s'.env.operators ∨ t.kind = .error := by
  obtain ⟨tokens, table, run, parsed, rfl⟩ := parse_of_syntaxTree read
  exact parse_isSource run parsed

end OpenExpr
