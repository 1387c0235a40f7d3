import OpenExpr.Proofs.Grammar.Productions

namespace OpenExpr

open Parse

namespace Grammar

variable {g : Grammar} {rest : List Token}

/-- The grammar has operands, and none of its infix operators is looser than a
symbol that is no operator. -/
structure IsOrdinary (g : Grammar) : Prop where
  full : g.isBare = false
  loosest : ∀ c op, g.operators.infixOp? c = some op → 0 ≤ op.precedence

theorem IsOrdinary.leftPower_nonneg (ordinary : g.IsOrdinary) (c : Char) : 0 ≤ g.leftPower c := by
  unfold leftPower
  cases known : g.operators.infixOp? c with
  | none => exact Int32.le_refl 0
  | some op => exact ordinary.loosest c op known

/-- The first of the operators binds too loosely to be read. -/
def Looser (g : Grammar) (power : Int32) (v : List Token) : Prop :=
  ∀ t ∈ v.head?, ∀ c, t.symbol? = some c → g.leftPower c < power

theorem looser_nil (power : Int32) : g.Looser power [] := by
  intro t member
  cases member

/-- Expressions of fewer than `n` tokens are read up to operators that are too loose. -/
def ReadsShort (g : Grammar) (n : Nat) : Prop :=
  ∀ w, w.length < n → AllLexed g.level w → g.Allows .expr w → ∀ power rest, Stops rest →
    ∃ u v, w = u ++ v ∧ g.Allows .chain v ∧ g.Looser power v ∧
      Reads (g.expr power) u (v ++ rest) fun _ => True

/-- The operand that starts with a token of the given kind. -/
def primaryOf (e : Int32 → Parse SyntaxTree) : Token.Kind → Parse SyntaxTree
  | .number => constant
  | .identifier => nameOrCall e
  | .openParen => parenthesised e
  | .keyword .ifWord => conditional e
  | .keyword .forWord => forLoop e
  | .keyword .varWord => varIn e
  | _ => Parse.unexpected

theorem primary_apply (full : g.isBare = false) (s : TokenStream) :
    g.primary s = primaryOf g.expr s.current.kind s := by
  unfold primary primaryWith
  rw [if_neg (by simp [full]), bind_ok (current_apply s)]
  cases s.current.kind with
  | keyword word => cases word <;> rfl
  | _ => rfl

theorem reads_primary (full : g.isBare = false) {t : Token} {w : List Token} {kind : Token.Kind}
    {good : SyntaxTree → Prop} (same : t.kind = kind)
    (read : Reads (primaryOf g.expr kind) (t :: w) rest good) :
    Reads g.primary (t :: w) rest good := by
  intro s pending
  obtain ⟨a, s', run, left⟩ := read s pending
  refine ⟨a, s', ?_, left⟩
  rw [primary_apply full, TokenStream.current_of_pending pending, same, run]

theorem Derives.separated {w : List Token} (derived : g.Allows .exprs w) :
    CommaSeparated (g.Allows .expr) w := by
  generalize same : Phrase.exprs = phrase at derived
  induction derived with
  | exprsOne item => exact .one item
  | exprsMore item comma _ _ ih => exact .more item comma (ih same)
  | _ => cases same

theorem Derives.separatedBindings {w : List Token} (derived : g.Allows .bindings w) :
    CommaSeparated (g.Allows .binding) w := by
  generalize same : Phrase.bindings = phrase at derived
  induction derived with
  | bindingsOne item => exact .one item
  | bindingsMore item comma _ _ ih => exact .more item comma (ih same)
  | _ => cases same

/-- At the loosest an expression is read whole. -/
theorem ReadsShort.whole {n : Nat} (short : g.ReadsShort n) (ordinary : g.IsOrdinary)
    {w : List Token} (small : w.length < n) (lexed : AllLexed g.level w) (derived : g.Allows .expr w)
    (stop : Stops rest) : Reads (g.expr 0) w rest fun _ => True := by
  obtain ⟨u, v, rfl, chain, loose, read⟩ := short w small lexed derived 0 rest stop
  cases chain with
  | chainEnd => simpa only [List.append_nil, List.nil_append] using read
  | @chainNext op u' c operator _ _ =>
    obtain ⟨symbol, same⟩ := (lexed op (by simp)).symbol operator.1
    have weak := loose op rfl symbol same
    have strong := ordinary.leftPower_nonneg symbol
    exact absurd weak (Int32.not_lt.mpr strong)

theorem chain_noCall {c : List Token} (chain : g.Allows .chain c) (stop : Stops rest) :
    ∀ t, IsNext (c ++ rest) t → t.kind ≠ .openParen := by
  intro t next
  cases chain with
  | chainEnd => exact (stop t next).2
  | chainNext operator _ _ =>
    rw [next.eq, operator.1]
    decide

/-- The tokens that an expression may start with. -/
def starters : List Token.Kind :=
  [.operator, .number, .identifier, .openParen, .keyword .ifWord, .keyword .forWord,
    .keyword .varWord]

theorem ne_of_starter {t : Token} {kind : Token.Kind} (starter : t.kind ∈ starters)
    (other : kind ∉ starters) : t.kind ≠ kind :=
  fun same => other (same ▸ starter)

theorem Derives.starts {phrase : Phrase} {w : List Token} (derived : g.Allows phrase w)
    (some : phrase ≠ .chain) : ∃ t v, w = t :: v ∧ t.kind ∈ starters := by
  induction derived with
  | expr _ _ ih _ =>
    obtain ⟨t, v, rfl, kind⟩ := ih (by decide)
    exact ⟨t, _, rfl, kind⟩
  | chainEnd => contradiction
  | chainNext => contradiction
  | prefixed operator _ _ _ =>
    exact ⟨_, _, rfl, by simp [starters, Token.kind_of_symbol? operator]⟩
  | primary _ ih => exact ih (by decide)
  | exprsOne _ ih => exact ih (by decide)
  | exprsMore _ _ _ ih _ =>
    obtain ⟨t, v, rfl, kind⟩ := ih (by decide)
    exact ⟨t, _, rfl, kind⟩
  | bindingsOne _ ih => exact ih (by decide)
  | bindingsMore _ _ _ ih _ =>
    obtain ⟨t, v, rfl, kind⟩ := ih (by decide)
    exact ⟨t, _, rfl, kind⟩
  | number kind | reference kind | callEmpty kind | call kind | paren kind | conditional kind
  | loop kind | loopStep kind | varIn kind | bindingBare kind | bindingValue kind =>
    exact ⟨_, _, rfl, by simp [starters, kind]⟩

theorem Derives.primary_starts {w : List Token} (derived : g.Allows .primary w) :
    ∃ t v, w = t :: v ∧ t.kind ≠ .operator := by
  cases derived with
  | number kind | reference kind | callEmpty kind | call kind | paren kind | conditional kind
  | loop kind | loopStep kind | varIn kind => exact ⟨_, _, rfl, by simp [kind]⟩

theorem reads_operand {t : Token} {w : List Token} {good : SyntaxTree → Prop}
    (plain : t.kind ≠ .operator) (read : Reads g.primary (t :: w) rest good) :
    Reads g.operand (t :: w) rest good := by
  refine reads_current_cons ?_
  rw [Token.symbol?_eq_none_of_kind plain]
  exact read

theorem ReadsShort.binding {n : Nat} (short : g.ReadsShort n) (ordinary : g.IsOrdinary)
    {w : List Token} (derived : g.Allows .binding w) (small : w.length < n)
    (lexed : AllLexed g.level w) (stop : Stops rest) :
    Reads (initializer g.expr) w rest fun _ => True := by
  cases derived with
  | bindingBare name => exact reads_initializerBare name fun t isNext => (stop t isNext).1
  | bindingValue name assign value =>
    rw [List.length_cons, List.length_cons] at small
    exact reads_initializerValue name assign
      (short.whole ordinary (by omega) lexed.tail.tail value stop)

theorem ReadsShort.exprs {n : Nat} (short : g.ReadsShort n) (ordinary : g.IsOrdinary)
    {w : List Token} (derived : g.Allows .exprs w) (small : w.length < n)
    (lexed : AllLexed g.level w) (stop : Stops rest) (noComma : ∀ t, IsNext rest t → t.kind ≠ .comma) :
    ∀ budget, w.length ≤ budget → Reads (commaSeparated (g.expr 0) budget) w rest fun _ => True :=
  reads_commaSeparated (fun _ _ item small lexed stop => short.whole ordinary small lexed item stop)
    (Derives.separated derived) stop noComma small lexed

theorem ReadsShort.bindings {n : Nat} (short : g.ReadsShort n) (ordinary : g.IsOrdinary)
    {w : List Token} (derived : g.Allows .bindings w) (small : w.length < n)
    (lexed : AllLexed g.level w) (stop : Stops rest) (noComma : ∀ t, IsNext rest t → t.kind ≠ .comma) :
    ∀ budget, w.length ≤ budget →
      Reads (commaSeparated (initializer g.expr) budget) w rest fun _ => True :=
  reads_commaSeparated (fun _ _ item small lexed stop => short.binding ordinary item small lexed stop)
    (Derives.separatedBindings derived) stop noComma small lexed

/-- Where a part that goes on to the end of the input comes last, it takes up the
operators behind it, and any other part leaves them. -/
theorem ReadsShort.primary {n : Nat} (short : g.ReadsShort n) (ordinary : g.IsOrdinary)
    {w c : List Token} (primary : g.Allows .primary w) (chain : g.Allows .chain c)
    (small : (w ++ c).length ≤ n) (lexed : AllLexed g.level (w ++ c)) (stop : Stops rest) :
    ∃ u v, w ++ c = u ++ v ∧ u ≠ [] ∧ g.Allows .chain v ∧
      Reads g.primary u (v ++ rest) fun _ => True := by
  cases primary with
  | @number t kind =>
    have numeral := (lexed t (by simp)).numeral kind
    exact ⟨[t], c, rfl, by simp, chain, reads_primary ordinary.full kind (reads_constant numeral _)⟩
  | @reference t kind =>
    exact ⟨[t], c, rfl, by simp, chain,
      reads_primary ordinary.full kind
        ((reads_reference (chain_noCall chain stop)).imp fun _ _ => trivial)⟩
  | callEmpty kind opened closed =>
    exact ⟨_, c, rfl, by simp, chain,
      reads_primary ordinary.full kind (reads_callEmpty opened closed _)⟩
  | @call f l r w kind opened closed arguments =>
    simp only [List.cons_append, List.append_assoc, List.length_cons, List.length_append] at small lexed
    refine ⟨_, c, rfl, by simp, chain,
      reads_primary ordinary.full kind (reads_call opened closed (fun t isNext => ?_)
        (short.exprs ordinary arguments (by omega) lexed.tail.tail.left
          (stops_cons _ closed (by decide)) (next_ne _ closed (by decide))))⟩
    obtain ⟨t', v, rfl, starter⟩ := Derives.starts arguments (by decide)
    rw [isNext.eq]
    exact ne_of_starter starter (by decide)
  | @paren l r w kind closed inner =>
    refine ⟨_, c, rfl, by simp, chain, reads_primary ordinary.full kind (reads_parenthesised closed ?_)⟩
    simp only [List.cons_append, List.append_assoc, List.length_cons, List.length_append] at small lexed
    exact short.whole ordinary (by omega) lexed.tail.left inner (stops_cons _ closed (by decide))
  | @conditional i a t b o w kind thenWord elseWord first second third =>
    have last := third.expr_append chain
    refine ⟨i :: (a ++ t :: (b ++ o :: (w ++ c))), [], by simp, by simp, .chainEnd,
      reads_primary ordinary.full kind (reads_conditional thenWord elseWord ?_ ?_ ?_)⟩
    all_goals simp only [List.cons_append, List.append_assoc, List.length_cons, List.length_append] at small lexed
    · exact short.whole ordinary (by omega) lexed.tail.left first (stops_cons _ thenWord (by decide))
    · exact short.whole ordinary (by omega) lexed.tail.right.tail.left second
        (stops_cons _ elseWord (by decide))
    · exact short.whole ordinary (by simp only [List.length_append]; omega)
        lexed.tail.right.tail.right.tail last stop
  | @loop f x q a d b i w kind name assign comma inWord first second third =>
    have last := third.expr_append chain
    simp only [List.cons_append, List.append_assoc, List.length_cons, List.length_append] at small lexed
    refine ⟨f :: x :: q :: (a ++ d :: (b ++ i :: (w ++ c))), [], by simp, by simp, .chainEnd,
      reads_primary ordinary.full kind (reads_forLoop name assign comma ?_ ?_
        (.inl ⟨i, w ++ c, rfl, inWord, ?_⟩))⟩
    · exact short.whole ordinary (by omega) lexed.tail.tail.tail.left first
        (stops_cons _ comma (by decide))
    · exact short.whole ordinary (by omega) lexed.tail.tail.tail.right.tail.left second
        (stops_cons _ inWord (by decide))
    · exact short.whole ordinary (by simp only [List.length_append]; omega)
        lexed.tail.tail.tail.right.tail.right.tail last stop
  | @loopStep f x q a d b d' v i w kind name assign comma comma' inWord first second step third =>
    have last := third.expr_append chain
    simp only [List.cons_append, List.append_assoc, List.length_cons, List.length_append] at small lexed
    refine ⟨f :: x :: q :: (a ++ d :: (b ++ d' :: (v ++ i :: (w ++ c)))), [], by simp, by simp,
      .chainEnd, reads_primary ordinary.full kind (reads_forLoop name assign comma ?_ ?_
        (.inr ⟨d', v, i, w ++ c, rfl, comma', inWord, ?_, ?_⟩))⟩
    · exact short.whole ordinary (by omega) lexed.tail.tail.tail.left first
        (stops_cons _ comma (by decide))
    · exact short.whole ordinary (by omega) lexed.tail.tail.tail.right.tail.left second
        (stops_cons _ comma' (by decide))
    · exact short.whole ordinary (by omega) lexed.tail.tail.tail.right.tail.right.tail.left step
        (stops_cons _ inWord (by decide))
    · exact short.whole ordinary (by simp only [List.length_append]; omega)
        lexed.tail.tail.tail.right.tail.right.tail.right.tail last stop
  | @varIn v w i b kind inWord bindings body =>
    have last := body.expr_append chain
    simp only [List.cons_append, List.append_assoc, List.length_cons, List.length_append] at small lexed
    refine ⟨v :: (w ++ i :: (b ++ c)), [], by simp, by simp, .chainEnd,
      reads_primary ordinary.full kind (reads_varIn inWord (short.bindings ordinary bindings (by omega)
        lexed.tail.left (stops_cons _ inWord (by decide)) (next_ne _ inWord (by decide))) ?_)⟩
    exact short.whole ordinary (by simp only [List.length_append]; omega) lexed.tail.right.tail last stop

/-- A prefix operator reads what follows it as an expression of its own. -/
theorem ReadsShort.operand {n : Nat} (short : g.ReadsShort n) (ordinary : g.IsOrdinary)
    {w : List Token} (derived : g.Allows .expr w) (small : w.length ≤ n)
    (lexed : AllLexed g.level w) (stop : Stops rest) :
    ∃ u v, w = u ++ v ∧ u ≠ [] ∧ g.Allows .chain v ∧
      Reads g.operand u (v ++ rest) fun _ => True := by
  cases derived with
  | @expr u c operand chain =>
  cases operand with
  | @prefixed op symbol u operator known operand =>
    obtain ⟨op', known⟩ := Option.isSome_iff_exists.mp known
    obtain ⟨u', v, split, chain', _, read⟩ := short (u ++ c) (by
      simp only [List.cons_append, List.length_cons] at small
      omega) lexed.tail (operand.expr chain) op'.operandPower rest stop
    refine ⟨op :: u', v, by rw [List.cons_append, split, List.cons_append], by simp, chain', ?_⟩
    refine reads_current_cons ?_
    rw [operator]
    dsimp only
    rw [known]
    exact reads_advance (read.last fun _ _ => reads_node _ _ _ _ _)
  | primary primary =>
    obtain ⟨u', v, split, some, chain', read⟩ := short.primary ordinary primary chain small lexed stop
    refine ⟨u', v, split, some, chain', ?_⟩
    obtain ⟨t, _, rfl, plain⟩ := Derives.primary_starts primary
    obtain ⟨t', u', rfl⟩ := List.exists_cons_of_ne_nil some
    obtain ⟨rfl, _⟩ := List.cons.inj split
    exact reads_operand plain read

/-- Of the operators behind an operand those up to the first that is too loose are
read, each with the expression on its right. -/
theorem ReadsShort.applications {n : Nat} (short : g.ReadsShort n) (power : Int32)
    (stop : Stops rest) : ∀ c : List Token, c.length ≤ n → AllLexed g.level c →
      g.Allows .chain c → ∃ u v, c = u ++ v ∧ g.Allows .chain v ∧ g.Looser power v ∧
        Reads (g.applications power) u (v ++ rest) fun _ => True := by
  intro c small lexed chain
  induction size : c.length using Nat.strongRecOn generalizing c with
  | ind m ih =>
  cases chain with
  | chainEnd =>
    refine ⟨[], [], rfl, .chainEnd, looser_nil power, fun s pending => ?_⟩
    have next := s.isNext_current
    rw [pending] at next
    have none := Token.symbol?_eq_none_of_kind (stop s.current next).1
    exact ⟨[], s, g.applications_of_none none, pending, trivial⟩
  | @chainNext op u c operator operand chain =>
    obtain ⟨symbol, same⟩ := (lexed op (by simp)).symbol operator.1
    by_cases weaker : g.leftPower symbol < power
    · refine ⟨[], _, rfl, .chainNext operator operand chain, ?_, fun s pending => ?_⟩
      · intro t first c' same'
        cases first
        rw [same] at same'
        cases same'
        exact weaker
      · have current := TokenStream.current_of_pending pending
        exact ⟨[], s, g.applications_of_weaker (current ▸ same) weaker, pending, trivial⟩
    · rw [List.length_cons] at small size
      obtain ⟨u', v, split, chain', _, read⟩ := short (u ++ c) (by omega) lexed.tail
        (operand.expr chain) (g.rightPower symbol) rest stop
      have shorter : v.length ≤ (u ++ c).length := by rw [split, List.length_append]; omega
      have lexed' : AllLexed g.level v := (split ▸ lexed.tail).right
      obtain ⟨w, v', rfl, chain'', loose, more⟩ := ih v.length (by omega) v (by omega) lexed' chain' rfl
      refine ⟨op :: (u' ++ w), v', by rw [split]; simp, chain'', loose, fun s pending => ?_⟩
      have current := TokenStream.current_of_pending pending
      obtain ⟨tree, s', run, left, _⟩ := read s.advance (by
        rw [TokenStream.pending_advance_of_pending pending]
        simp)
      obtain ⟨others, s'', run', left', _⟩ := more s' (by rw [left, List.append_assoc])
      have all := g.applications_of_tighter (current ▸ same) (Int32.not_lt.mp weaker)
        (fun assign => operator.2 (by rw [same, assign])) run run'
      exact ⟨_, s'', all, left', trivial⟩

theorem readsShort_succ {n : Nat} (ordinary : g.IsOrdinary) (short : g.ReadsShort n) :
    g.ReadsShort (n + 1) := by
  intro w small lexed derived power rest stop
  obtain ⟨u, v, rfl, some, chain, read⟩ := short.operand ordinary derived (by omega) lexed stop
  rw [List.length_append] at small
  have size : u.length ≠ 0 := by simp [some]
  obtain ⟨u', v', rfl, chain', loose, more⟩ := short.applications power stop v (by omega)
    lexed.right chain
  refine ⟨u ++ u', v', by simp, chain', loose, ?_⟩
  rw [expr_eq, exprWith_expr]
  rw [List.append_assoc] at read
  exact reads_position fun start => read.bind fun tree _ => more.last fun others _ =>
    reads_spanFrom fun span => reads_done _ _

/-- Every expression that the grammar allows is read as far as operators at least
as tight as `power` go. -/
theorem readsShort (ordinary : g.IsOrdinary) (n : Nat) : g.ReadsShort n := by
  induction n with
  | zero =>
    intro w small
    omega
  | succ n ih => exact readsShort_succ ordinary ih

/-- Every expression that the grammar allows is read. -/
theorem reads_expr (ordinary : g.IsOrdinary) {w : List Token} (lexed : AllLexed g.level w)
    (derived : g.Allows .expr w) (stop : Stops rest) : Reads (g.expr 0) w rest fun _ => True :=
  (readsShort ordinary (w.length + 1)).whole ordinary (Nat.lt_succ_self _) lexed derived stop

end Grammar

end OpenExpr
