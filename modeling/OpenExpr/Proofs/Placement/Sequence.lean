import OpenExpr.Proofs.Grammar.Separation
import OpenExpr.Proofs.Placement.Coherence

namespace OpenExpr

open Parse

/-- Some tokens and the semicolon that ends them. -/
def IsEnded (w : List Token) : Prop :=
  ∃ body d, w = body ++ [d] ∧ body ≠ [] ∧ HasNoSemicolon body ∧ d.kind = .semicolon

/-- The tokens are read by themselves as the statement wherever they stand, and the
operators that are known then are those of the table. -/
structure Grammar.ReadsAs (g : Grammar) (s : TokenStream) (t : SyntaxTree) (table : OperatorTable) :
    Prop where
  fits : t.FitsIn table
  within : g.operators.Within table
  reads : ∀ s', s.Alike s' → ∃ span t' op? rest,
    g.single s' = .ok ({ kind := .repl, span, children := [t'] }, op?) rest ∧ t.Alike t' ∧
      (g.introduce op?).operators = table

/-- In front of others a statement is read up to its semicolon, and it is the same that
is read by itself. -/
theorem Grammar.readsAs_of_statement {g : Grammar} {s s' : TokenStream} {w rest : List Token}
    (lexed : AllLexed g.level s.pending) (pending : s.pending = w ++ rest) (ended : IsEnded w)
    {a : SyntaxTree × Option OperatorDefinition} (run : g.statement s = .ok a s')
    (behind : s'.current.kind = .semicolon) :
    s'.advance.pending = rest ∧
      g.ReadsAs { s with pending := w } a.1 (g.introduce a.2).operators := by
  obtain ⟨body, d, rfl, -, free, semicolon⟩ := ended
  let short : TokenStream := { s with pending := body ++ [d] }
  have whole : s = short.extend rest := by
    obtain ⟨_, _, _, _⟩ := s
    cases pending
    rfl
  rw [pending] at lexed
  obtain ⟨left, span, s'', single⟩ := single_of_statement (s := short) lexed.left rfl free semicolon
    (whole ▸ run) behind lexed.right
  have fits := g.fitsIn_statement (pending ▸ lexed) run
  refine ⟨TokenStream.pending_advance_of_pending left, fits, g.within_introduce a.2, ?_⟩
  intro other alike
  have agree := g.blind_single short other alike
  rw [single] at agree
  cases run' : g.single other with
  | error e s' =>
    rw [run'] at agree
    exact agree.elim
  | ok a' s' =>
    obtain ⟨tree, op?⟩ := a'
    rw [run'] at agree
    obtain ⟨⟨trees, rfl⟩, _⟩ := agree
    cases trees with
    | node _ children operators =>
      cases operators
      cases children with
      | cons first none =>
        cases none
        exact ⟨_, _, _, _, rfl, first, rfl⟩

/-- Statements are read by themselves one after the other, each with the operators that
are known from those before it. -/
inductive ReadsEach (level : Level) (finish : Token) :
    OperatorTable → List (List Token) → List SyntaxTree → OperatorTable → Prop
  | nil {operators} : ReadsEach level finish operators [] [] operators
  | cons {operators next last w ws t ts} {s : TokenStream} : s.pending = w → s.finish = finish →
      Grammar.ReadsAs { level, operators } s t next → ReadsEach level finish next ws ts last →
      ReadsEach level finish operators (w :: ws) (t :: ts) last

theorem ReadsEach.within {level : Level} {finish : Token} {operators last : OperatorTable}
    {ws : List (List Token)} {ts : List SyntaxTree}
    (reads : ReadsEach level finish operators ws ts last) : operators.Within last := by
  induction reads with
  | nil => exact .refl _
  | cons _ _ first _ ih => exact first.within.trans ih

/-- A grammar that is known by its operators. -/
theorem Grammar.introduce_mk (level : Level) (operators : OperatorTable)
    (op? : Option OperatorDefinition) : Grammar.introduce { level, operators } op? =
      { level, operators := (Grammar.introduce { level, operators } op?).operators } := by
  cases op? <;> rfl

namespace SourceReader

/-- Where nothing is wrong, the first statement is read up to its semicolon. -/
theorem statements_of_ended {g : Grammar} {tokens : TokenStream} {w rest : List Token} {budget : Nat}
    (lexed : AllLexed g.level tokens.pending) (pending : tokens.pending = w ++ rest) (ended : IsEnded w)
    (sound : ∀ t ∈ (statements (budget + 1) ⟨g, tokens⟩).1, t.kind ≠ .error) :
    ∃ a s, g.statement tokens = .ok a s ∧ s.current.kind = .semicolon ∧
      statements (budget + 1) ⟨g, tokens⟩ =
        (a.1 :: (statements budget ⟨g.introduce a.2, s.advance⟩).1,
          (statements budget ⟨g.introduce a.2, s.advance⟩).2) := by
  obtain ⟨body, d, rfl, some, free, semicolon⟩ := ended
  obtain ⟨t, body, rfl⟩ := List.exists_cons_of_ne_nil some
  have front : tokens.pending = t :: (body ++ d :: rest) := by simp [pending]
  have start : tokens.current = t := TokenStream.current_of_pending front
  rw [statements, if_neg (by simp [TokenStream.hasTokens, front]),
    if_neg (by rw [start]; exact (HasNoSemicolon.cons_iff.mp free).1)] at sound ⊢
  cases run : g.statement tokens with
  | error e s =>
    obtain ⟨g', same⟩ := ParseUnit.statement_follows.error (r := ⟨g, tokens⟩) run
    simp only [same] at sound
    exact absurd rfl (sound (.ofError e) List.mem_cons_self)
  | ok a s =>
    simp only [ParseUnit.statement_follows.ok (r := ⟨g, tokens⟩) run] at sound ⊢
    by_cases behind : s.current.kind = .semicolon
    · rw [if_pos behind] at sound ⊢
      exact ⟨a, s, rfl, behind, rfl⟩
    · have still := Grammar.not_waits_statement lexed (by simp [front, semicolon])
      rw [run] at still
      have more : s.hasTokens = true := by
        simpa [TokenStream.hasTokens] using show s.pending ≠ [] from still
      rw [if_neg behind, if_pos more] at sound
      exact absurd rfl (sound (.ofError _) (List.mem_cons_of_mem _ List.mem_cons_self))

/-- A source in which nothing is wrong is read as its statements are by themselves. -/
theorem readsEach_statements {level : Level} {ws : List (List Token)} (ended : ∀ w ∈ ws, IsEnded w)
    (lexed : AllLexed level ws.flatten) {budget : Nat} (enough : ws.flatten.length ≤ budget)
    {operators : OperatorTable} {tokens : TokenStream} (pending : tokens.pending = ws.flatten)
    (sound : ∀ t ∈ (statements budget ⟨{ level, operators }, tokens⟩).1, t.kind ≠ .error) :
    ReadsEach level tokens.finish operators ws (statements budget ⟨{ level, operators }, tokens⟩).1
      (statements budget ⟨{ level, operators }, tokens⟩).2.grammar.operators := by
  induction ws generalizing budget tokens operators with
  | nil =>
    have empty (r : SourceReader) (atEnd : r.tokens.pending = []) : statements budget r = ([], r) := by
      cases budget <;> simp [statements, TokenStream.hasTokens, atEnd]
    rw [empty _ pending]
    exact .nil
  | cons w ws ih =>
    obtain ⟨first, others⟩ := List.forall_mem_cons.mp ended
    rw [List.flatten_cons] at lexed pending enough
    have longer : 1 ≤ w.length := by
      obtain ⟨body, d, rfl, -⟩ := first
      simp
    rw [List.length_append] at enough
    obtain ⟨budget, rfl⟩ := Nat.exists_eq_add_of_le' (show 1 ≤ budget by omega)
    obtain ⟨a, s, run, behind, all⟩ := statements_of_ended (pending ▸ lexed) pending first sound
    obtain ⟨left, reads⟩ := Grammar.readsAs_of_statement (pending ▸ lexed) pending first run behind
    have kept : s.advance.finish = tokens.finish :=
      (finish_advance s).trans (Grammar.finish_of_statement run)
    rw [all] at sound ⊢
    rw [Grammar.introduce_mk] at sound ⊢
    refine .cons (s := { tokens with pending := w }) rfl rfl reads (kept ▸ ih others lexed.right (by omega) left ?_)
    exact (List.forall_mem_cons.mp sound).2

end SourceReader

/-- What comes of a statement shows what became of the unit. -/
def StatementResult.Shows : StatementResult → Program → Prop
  | .complete v, u => u.isError = false ∧ v.display = u.display
  | .failed _, u => u.isError = true
  | .needMoreInput, _ => False

theorem Program.Alike.shows {u u' : Program} (alike : u.Alike u') : u'.result.Shows u := by
  rw [alike.result_eq, ← alike.isError]
  split
  · assumption
  · rename_i accepted
    exact ⟨Bool.eq_false_iff.mpr accepted, (alike.display (Bool.eq_false_iff.mpr accepted)).symm⟩

/-- A session does to a statement by itself what becomes of it in a source. -/
theorem Session.parseStatement_of_readsAs {s : Session} {text : String} {tokens : List Token}
    (run : tokenize s.env.options.level s.sourceName text = .ok tokens) {stream : TokenStream}
    (alike : stream.Alike (.ofTokens s.sourceName tokens)) {t : SyntaxTree}
    {table known : OperatorTable} (reads : Grammar.ReadsAs
      { level := s.env.options.level, operators := s.env.operators } stream t table)
    (within : table.Within known) {r : Resolver}
    (idle : Resolver.Idle known s.env.operators r { env := s.env }) :
    (s.parseStatement text).1.Shows (r.unit t).1 ∧
      Resolver.Idle known table (r.unit t).2 { env := (s.parseStatement text).2.env } ∧
      (s.parseStatement text).2.sourceName = s.sourceName := by
  obtain ⟨span, t', op?, rest, single, trees, same⟩ := reads.reads _ alike
  have parsed := parse_repl_ok_of_single single
  rw [same] at parsed
  rw [parseStatement_of_ok (syntaxTree_of_tokens run parsed)]
  have env : { r.env with operators := known } = r.env := by rw [← idle.operators]
  have later : Resolver.Idle known table r { env := { s.env with operators := table } } := by
    refine ⟨?_, idle.body, idle.operators, rfl⟩
    exact env ▸ idle.env.withOperators (idle.operators ▸ .refl _) reads.within
  have units := Resolver.unit_alike trees reads.fits.form later (reads.fits.mono within).admits
    reads.fits.admits
  exact ⟨units.1.shows, ⟨units.2.env, units.2.body.renew, units.2.operators, units.2.operators'⟩, rfl⟩

/-- Input that cannot be read is an error of its kind. -/
theorem Resolver.kind_ne_error_of_units {r : Resolver} {ts : List SyntaxTree}
    (sound : ∀ d, .error d ∈ (r.units ts).1 → d.code ≠ .syntaxError) : ∀ t ∈ ts, t.kind ≠ .error := by
  induction ts generalizing r with
  | nil => simp
  | cons t ts ih =>
    have others := ih (r := (r.unit t).2) fun d member => sound d (List.mem_cons_of_mem _ member)
    refine List.forall_mem_cons.mpr ⟨fun error => sound t.misplaced ?_ ?_, others⟩
    · rw [units, unit_of_error error]
      exact List.mem_cons_self
    · rw [SyntaxTree.misplaced, if_pos error]
      rfl

/-- The units of a source are those of its statements, each read by itself, with all
operators known that are known at the end. -/
theorem Session.readsEach_parseSource {s : Session} {text : String} {ws : List (List Token)}
    {finish : Token}
    (lexed : tokenize s.env.options.level s.sourceName text = .ok (ws.flatten ++ [finish]))
    (ended : ∀ w ∈ ws, IsEnded w) {units : List Program} {span : Span} {after : Session}
    (read : s.parseSource text = (.root units span, after))
    (sound : ∀ d, .error d ∈ units → d.code ≠ .syntaxError) :
    ∃ trees last, ReadsEach s.env.options.level finish s.env.operators ws trees last ∧
      units = (Resolver.units { env := { s.env with operators := last } } trees).1 ∧
      after.env = (Resolver.units { env := { s.env with operators := last } } trees).2.env := by
  obtain ⟨all, final⟩ := allLexed_of_tokenize lexed
  unfold parseSource syntaxTree at read
  rw [lexed] at read
  dsimp only [OpenExpr.parse, SourceReader.ofTokens] at read
  rw [ofTokens_body s.sourceName all final] at read
  obtain ⟨roots, rfl⟩ := Prod.mk.inj read
  obtain ⟨rfl, -⟩ := Program.root.inj roots
  exact ⟨_, _, SourceReader.readsEach_statements ended all (Nat.le_refl _) rfl
    (Resolver.kind_ne_error_of_units sound), rfl, rfl⟩

/-- A source has units, whatever is wrong with it. -/
theorem Session.parseSource_eq_root (s : Session) (text : String) :
    ∃ units span after, s.parseSource text = (.root units span, after) := by
  unfold parseSource syntaxTree
  cases tokenize s.env.options.level s.sourceName text with
  | error e => exact ⟨_, _, _, rfl⟩
  | ok tokens => exact ⟨_, _, _, rfl⟩

end OpenExpr
