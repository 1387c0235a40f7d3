import OpenExpr.Proofs.Recovery.Locality
import OpenExpr.Proofs.Registry.Retry
import OpenExpr.Proofs.Registry.Table

namespace OpenExpr

open Parse

/-- The operators whose headers the runs of tokens start with, in their order. A run that
starts with no such header, or with one that is not read to its end, has none. -/
inductive Introductions : List (List Token) → List OperatorDefinition → Prop
  | nil : Introductions [] []
  | header {op run later ops} : HasIntroduction op run → Introductions later ops →
      Introductions (run :: later) (op :: ops)
  | other {run later ops} : (∀ op, ¬ HasIntroduction op run) → Introductions later ops →
      Introductions (run :: later) ops

/-- The runs of tokens that are read as one statement each. -/
def ParseMode.runs : ParseMode → List Token → List (List Token)
  | .repl, tokens => [tokens]
  | .fullSource, tokens => SourceReader.runs tokens

theorem ParseMode.flatten_runs (mode : ParseMode) (tokens : List Token) :
    (mode.runs tokens).flatten = tokens := by
  cases mode with
  | repl => simp [runs]
  | fullSource => exact Text.flatten_piecesAfter _ tokens

/-- The operator is one that a header can introduce: an infix operator that groups to the
left and is not built in or a prefix operator, with a precedence within the bounds. -/
structure OperatorDefinition.IsDefinable (op : OperatorDefinition) : Prop where
  side : op.fixity = .prefixed ∨ op.fixity = .infixLeft ∧ BuiltIn.ofSymbol? op.symbol = none
  lower : 1 ≤ op.precedence
  upper : op.precedence ≤ .ofNat Operator.maxPrecedence

namespace Grammar

theorem GivesPrecedence.bounds {usual n : Int32} {w : List Token} (gives : GivesPrecedence usual n w)
    (lower : 1 ≤ usual) (upper : usual ≤ .ofNat Operator.maxPrecedence) :
    1 ≤ n ∧ n ≤ .ofNat Operator.maxPrecedence := by
  cases gives with
  | default => exact ⟨lower, upper⟩
  | given _ valid => exact (precedence?_eq_some valid).2

theorem IntroducesOperator.isDefinable {op : OperatorDefinition} {w : List Token}
    (introduces : IntroducesOperator op w) : op.IsDefinable := by
  cases introduces with
  | unary _ _ given =>
    obtain ⟨lower, upper⟩ := given.bounds (by decide) (by decide)
    exact ⟨.inl rfl, lower, upper⟩
  | binary _ _ free given | binaryComma _ _ free given =>
    obtain ⟨lower, upper⟩ := given.bounds (by decide) (by decide)
    exact ⟨.inr ⟨rfl, free⟩, lower, upper⟩

theorem operators_introduce (g : Grammar) (op? : Option OperatorDefinition) :
    (g.introduce op?).operators = g.operators.registerAll op?.toList := by
  cases op? <;> rfl

end Grammar

theorem HasIntroduction.isDefinable {op : OperatorDefinition} {w : List Token}
    (introduction : HasIntroduction op w) : op.IsDefinable := by
  cases introduction with
  | definition _ introduces | declaration _ introduces => exact introduces.isDefinable

theorem Introductions.isDefinable {runs : List (List Token)} {ops : List OperatorDefinition}
    (introductions : Introductions runs ops) : ∀ op ∈ ops, op.IsDefinable := by
  induction introductions with
  | nil => simp
  | header introduction _ ih => exact List.forall_mem_cons.mpr ⟨introduction.isDefinable, ih⟩
  | other _ _ ih => exact ih

namespace SourceReader

/-- The operators of the headers that runs start with. Each is read as an input that ends
like `s`. -/
def introductions (s : TokenStream) (runs : List (List Token)) : List OperatorDefinition :=
  runs.filterMap fun run => Grammar.introduced? { s with pending := run, readTo := none }

theorem introductions_cons (s : TokenStream) (run : List Token) (later : List (List Token)) :
    introductions s (run :: later) =
      (Grammar.introduced? { s with pending := run, readTo := none }).toList ++
        introductions s later := by
  unfold introductions
  rw [List.filterMap_cons]
  split <;> rename_i found <;> rw [found] <;> rfl

theorem introduced?_eq_some_iff {level : Level} {s : TokenStream} (lexed : AllLexed level s.pending)
    {op : OperatorDefinition} : Grammar.introduced? s = some op ↔ HasIntroduction op s.pending :=
  ⟨Grammar.hasIntroduction_of_introduced? lexed, Grammar.introduced?_of_hasIntroduction⟩

/-- The headers of runs can be told without reading them, in only one way. -/
theorem introductions_iff {level : Level} (s : TokenStream) {runs : List (List Token)}
    (lexed : ∀ run ∈ runs, AllLexed level run) {ops : List OperatorDefinition} :
    Introductions runs ops ↔ ops = introductions s runs := by
  induction runs generalizing ops with
  | nil =>
    refine ⟨fun introductions => ?_, fun same => same ▸ .nil⟩
    cases introductions
    rfl
  | cons run later ih =>
    obtain ⟨first, others⟩ := List.forall_mem_cons.mp lexed
    have reads (op : OperatorDefinition) : Grammar.introduced? { s with pending := run, readTo := none } =
        some op ↔ HasIntroduction op run := introduced?_eq_some_iff first
    rw [introductions_cons]
    cases found : Grammar.introduced? { s with pending := run, readTo := none } with
    | none =>
      have none (op : OperatorDefinition) : ¬ HasIntroduction op run := fun introduction =>
        absurd (found.symm.trans ((reads op).mpr introduction)) (by simp)
      refine ⟨fun introductions => ?_, fun same => .other none ((ih others).mpr same)⟩
      cases introductions with
      | header introduction => exact absurd introduction (none _)
      | other _ later => exact (ih others).mp later
    | some op =>
      have header := (reads op).mp found
      constructor
      · intro introductions
        cases introductions with
        | @header op' _ _ _ introduction later =>
          obtain rfl : op = op' := Option.some.inj (found.symm.trans ((reads op').mpr introduction))
          exact congrArg _ ((ih others).mp later)
        | other none => exact absurd header (none op)
      · rintro rfl
        exact .header header ((ih others).mpr rfl)

/-- Reading runs registers the operators of their headers one after the other. -/
theorem operators_rounds (s : TokenStream) {g : Grammar} (full : g.isBare = false)
    (runs : List (List Token)) :
    (rounds s g runs).2.operators = g.operators.registerAll (introductions s runs) := by
  induction runs generalizing g with
  | nil => rfl
  | cons run later ih =>
    have first := grammar_round (r := ⟨g, { s with pending := run, readTo := none }⟩) full
    have full' : (round ⟨g, { s with pending := run, readTo := none }⟩).2.grammar.isBare = false :=
      first ▸ (g.isBare_introduce _).trans full
    rw [introductions_cons, OperatorTable.registerAll_append, ← Grammar.operators_introduce, ← first]
    exact ih full'

end SourceReader

/-- The operators that are known after tokens were read are those known before and those
whose headers were read, whatever else came of it. -/
theorem parse_operators {level : Level} (operators : OperatorTable) (mode : ParseMode)
    (file : String) {tokens : List Token} {finish : Token} (lexed : AllLexed level tokens)
    (final : finish.kind = .endOfInput) :
    (parse level operators mode file (tokens ++ [finish])).2 = operators.registerAll
      (SourceReader.introductions ⟨tokens, finish, final, none⟩ (mode.runs tokens)) := by
  have stream := ofTokens_body file lexed final
  cases mode with
  | repl =>
    rw [parse_repl_operators, stream, Grammar.operators_introduce, ParseMode.runs,
      SourceReader.introductions_cons]
    exact congrArg _ (List.append_nil _).symm
  | fullSource =>
    obtain ⟨_, read, _⟩ := parse_fullSource level operators file (tokens ++ [finish])
    rw [read, stream]
    exact SourceReader.operators_rounds _ rfl _

end OpenExpr
