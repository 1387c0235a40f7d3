import Mathlib.Data.List.TakeWhile
import OpenExpr.Proofs.Chain.Operand
import OpenExpr.Proofs.Chain.Resolution

namespace OpenExpr

open Parse

namespace Link

/-- The operator of the link is in the table and allowed at the level, and its operand
is closed. -/
structure IsReadable (g : Grammar) (l : Link) (symbol : Char) : Prop where
  operator : l.operator.symbol? = some symbol
  meaning : g.operators.infixOp? symbol = some l.meaning
  allowed : l.operator.IsInfixAt g.level
  operand : g.IsClosedOperand l.operand l.tree

def precedence (l : Link) : Int32 := l.meaning.precedence

def operandPower (l : Link) : Int32 := l.meaning.operandPower

def tokens (links : List Link) : List Token :=
  links.flatMap fun l => l.operator :: l.operand

/-- The links up to the first whose operator is looser than `power`. -/
def tight (power : Int32) (links : List Link) : List Link :=
  links.takeWhile fun l => power ≤ l.precedence

def loose (power : Int32) (links : List Link) : List Link :=
  links.dropWhile fun l => power ≤ l.precedence

theorem tight_append_loose (power : Int32) (links : List Link) :
    tight power links ++ loose power links = links :=
  List.takeWhile_append_dropWhile

theorem le_of_mem_tight {power : Int32} {links : List Link} {l : Link}
    (member : l ∈ tight power links) : power ≤ l.precedence := by
  simpa using List.mem_takeWhile_imp member

theorem lt_of_head_loose {power : Int32} {links : List Link} {l : Link}
    (first : (loose power links).head? = some l) : l.precedence < power := by
  have stop := List.head?_dropWhile_not (fun l : Link => decide (power ≤ l.precedence)) links
  unfold loose at first
  rw [first] at stop
  simpa using stop

theorem loose_length_le (power : Int32) (links : List Link) :
    (loose power links).length ≤ links.length :=
  List.length_dropWhile_le _ _

theorem tokens_cons (l : Link) (links : List Link) :
    tokens (l :: links) = l.operator :: (l.operand ++ tokens links) :=
  List.flatMap_cons

theorem tokens_append (links more : List Link) : tokens (links ++ more) = tokens links ++ tokens more :=
  List.flatMap_append

/-- There is room for tighter operators, if the operator asks for them. -/
def IsBounded (l : Link) : Prop := l.meaning.IsBounded

theorem IsBounded.precedence_le_operandPower {l : Link} (bounded : l.IsBounded) :
    l.precedence ≤ l.operandPower :=
  Operator.IsBounded.precedence_le_operandPower bounded

theorem tight_enough {power : Int32} {l : Link} (bounded : l.IsBounded)
    (tighter : power ≤ l.precedence) (links : List Link) :
    ∀ x ∈ tight l.operandPower links, decide (power ≤ x.precedence) = true := by
  intro x member
  have more := Int32.le_trans bounded.precedence_le_operandPower (le_of_mem_tight member)
  exact decide_eq_true (Int32.le_trans tighter more)

/-- The operand of the first operator takes what is tight enough for it, and all of that
is tight enough for the whole. -/
theorem tight_cons {power : Int32} {l : Link} (bounded : l.IsBounded)
    (tighter : power ≤ l.precedence) (links : List Link) :
    tight power (l :: links) =
      l :: (tight l.operandPower links ++ tight power (loose l.operandPower links)) := by
  have first : tight power (l :: links) = l :: tight power links :=
    List.takeWhile_cons_of_pos (by simpa using tighter)
  rw [first]
  conv => lhs; rw [← tight_append_loose l.operandPower links]
  exact congrArg (l :: ·) (List.takeWhile_append_of_pos (tight_enough bounded tighter links))

theorem loose_cons {power : Int32} {l : Link} (bounded : l.IsBounded)
    (tighter : power ≤ l.precedence) (links : List Link) :
    loose power (l :: links) = loose power (loose l.operandPower links) := by
  have first : loose power (l :: links) = loose power links :=
    List.dropWhile_cons_of_pos (by simpa using tighter)
  rw [first]
  conv => lhs; rw [← tight_append_loose l.operandPower links]
  exact List.dropWhile_append_of_pos (tight_enough bounded tighter links)

/-- The nesting respects the precedences of the operators. -/
abbrev Groups (t : Grouping Link) : Prop :=
  t.Respects precedence operandPower

/-- An operator that waits for an operand has ended all operators on its left once the
operators that are too loose for it come. -/
theorem ended_application {left right : Grouping Link} {l next : Link}
    (ended : Grouping.Ended precedence operandPower left.operators l)
    (bounded : ∀ x ∈ right.operators, x.IsBounded)
    (tighter : ∀ x ∈ right.operators, l.operandPower ≤ x.precedence)
    (looser : next.precedence < l.operandPower) :
    Grouping.Ended precedence operandPower (Grouping.application left l right).operators next := by
  refine ended.append (Grouping.ended_of_looser fun x member => ?_)
  rcases List.mem_cons.mp member with rfl | inRight
  · exact looser
  · have more := Int32.le_trans (tighter x inRight) (bounded x inRight).precedence_le_operandPower
    exact Int32.lt_of_lt_of_le looser more

variable {g : Grammar} {rest : List Token}

theorem IsReadable.leftPower {l : Link} {symbol : Char} (readable : l.IsReadable g symbol) :
    g.leftPower symbol = l.precedence := by
  simp [Grammar.leftPower, readable.meaning, precedence]

theorem IsReadable.rightPower {l : Link} {symbol : Char} (readable : l.IsReadable g symbol) :
    g.rightPower symbol = l.operandPower := by
  simp [Grammar.rightPower, readable.meaning, operandPower]

/-- The operators that were read nest the links in a grouping that respects the
precedences, whatever grouping of operators that have ended stands on their left. -/
def Continues (links : List Link) (power : Int32) (operators : List (Token × SyntaxTree)) : Prop :=
  ∀ left, Groups left →
    (∀ l ∈ links.head?, power ≤ l.precedence →
      Grouping.Ended precedence operandPower left.operators l) →
    ∃ whole, Arranges left operators (tight power links) whole ∧ Groups whole

/-- The tree of an expression whose operand is `operand` and that nests the links. -/
def Nests (operand : SyntaxTree) (links : List Link) (t : SyntaxTree) : Prop :=
  ∃ span operators whole, t = { kind := .expression, span, children := [operand], operators } ∧
    Arranges .operand operators links whole ∧ Groups whole

theorem noCall_tokens {links : List Link} (readable : ∀ l ∈ links, ∃ symbol, l.IsReadable g symbol)
    (stop : Stops rest) : ∀ t, IsNext (tokens links ++ rest) t → t.kind ≠ .openParen := by
  intro t next
  cases links with
  | nil => exact (stop t next).2
  | cons l links =>
    obtain ⟨symbol, first⟩ := readable l (by simp)
    rw [next.eq, first.allowed.1]
    decide

/-- A closed operand is read together with the links behind it that are tight enough. -/
theorem reads_expr_of_applications {operand : List Token} {tree : SyntaxTree} {links : List Link}
    {power : Int32} (closed : g.IsClosedOperand operand tree)
    (readable : ∀ l ∈ links, ∃ symbol, l.IsReadable g symbol) (stop : Stops rest)
    (more : Reads (g.applications power) (tokens (tight power links))
      (tokens (loose power links) ++ rest) (Continues links power)) :
    Reads (g.expr power) (operand ++ tokens (tight power links)) (tokens (loose power links) ++ rest)
      (Nests tree (tight power links)) := by
  rw [Grammar.expr_eq, Grammar.exprWith_expr]
  have first : Reads g.operand operand
      (tokens (tight power links) ++ (tokens (loose power links) ++ rest)) (· = tree) := by
    refine closed.reads ?_
    rw [← List.append_assoc, ← tokens_append, tight_append_loose]
    exact noCall_tokens readable stop
  refine reads_position fun start => first.bind fun t same => ?_
  subst same
  refine more.last fun operators continues => reads_spanFrom fun span => reads_pure ?_
  obtain ⟨whole, arranges, groups⟩ := continues .operand trivial fun _ _ _ => trivial
  exact ⟨span, operators, whole, rfl, arranges, groups⟩

theorem continues_nil {power : Int32} {links : List Link} (none : tight power links = []) :
    Continues links power [] := by
  intro left groups _
  rw [none]
  exact ⟨left, .nil, groups⟩

/-- After an operator come the links that its operand takes, then the others. -/
theorem Continues.cons {power : Int32} {l : Link} {links : List Link} {right : SyntaxTree}
    {operators : List (Token × SyntaxTree)} (bounded : ∀ x ∈ l :: links, x.IsBounded)
    (tighter : power ≤ l.precedence)
    (nests : Nests l.tree (tight l.operandPower links) right)
    (continues : Continues (loose l.operandPower links) power operators) :
    Continues (l :: links) power ((l.operator, right) :: operators) := by
  intro left groups before
  obtain ⟨span, inner, inRight, rfl, arranges, groups'⟩ := nests
  have operators_eq : inRight.operators = tight l.operandPower links := by
    simpa [Grouping.operators] using arranges.operators_eq
  have ended := before l rfl tighter
  have boundedOperand : ∀ x ∈ inRight.operators, x.IsBounded := by
    rw [operators_eq]
    exact fun x member => bounded x (List.mem_cons_of_mem _ ((List.takeWhile_sublist _).mem member))
  have tightOperand : ∀ x ∈ inRight.operators, l.operandPower ≤ x.precedence := by
    rw [operators_eq]
    exact fun x member => le_of_mem_tight member
  obtain ⟨whole, arranges', groups''⟩ := continues (.application left l inRight)
    ⟨groups, groups', ended, tightOperand⟩
    fun next first _ => ended_application ended boundedOperand tightOperand (lt_of_head_loose first)
  refine ⟨whole, ?_, groups''⟩
  rw [tight_cons (bounded l List.mem_cons_self) tighter]
  exact .cons arranges arranges'

/-- An operator that is tight enough is read with its operand, and then what follows. -/
theorem reads_applications_cons {l : Link} {symbol : Char} {links : List Link} {power : Int32}
    (first : l.IsReadable g symbol) (bounded : ∀ x ∈ l :: links, x.IsBounded)
    (tighter : power ≤ l.precedence)
    (operand : Reads (g.expr l.operandPower) (l.operand ++ tokens (tight l.operandPower links))
      (tokens (loose l.operandPower links) ++ rest) (Nests l.tree (tight l.operandPower links)))
    (more : Reads (g.applications power) (tokens (tight power (loose l.operandPower links)))
      (tokens (loose power (loose l.operandPower links)) ++ rest)
      (Continues (loose l.operandPower links) power)) :
    Reads (g.applications power) (tokens (tight power (l :: links)))
      (tokens (loose power (l :: links)) ++ rest) (Continues (l :: links) power) := by
  have one := bounded l List.mem_cons_self
  rw [tight_cons one tighter, loose_cons one tighter]
  intro s pending
  have current : s.current = l.operator := TokenStream.current_of_pending pending
  rw [tokens_cons, List.cons_append] at pending
  have rejoin : tokens (loose l.operandPower links) =
      tokens (tight power (loose l.operandPower links)) ++
        tokens (loose power (loose l.operandPower links)) := by
    rw [← tokens_append, tight_append_loose]
  obtain ⟨right, s', runOperand, left, nests⟩ := operand s.advance (by
    rw [TokenStream.pending_advance_of_pending pending, tokens_append, rejoin]
    simp only [List.append_assoc])
  obtain ⟨operators, s'', runMore, left', continues⟩ := more s' (by
    rw [left, rejoin, List.append_assoc])
  rw [← first.rightPower] at runOperand
  have run := g.applications_of_tighter (current ▸ first.operator) (by rwa [first.leftPower])
    (fun assign => first.allowed.2 (by rw [first.operator, assign])) runOperand runMore
  rw [current] at run
  exact ⟨_, s'', run, left', Continues.cons bounded tighter nests continues⟩

/-- The operators behind an operand are read up to the first that is too loose. -/
theorem reads_applications (stop : Stops rest) (n : Nat) : ∀ links : List Link, links.length ≤ n →
    (∀ l ∈ links, ∃ symbol, l.IsReadable g symbol) → (∀ l ∈ links, l.IsBounded) → ∀ power,
    Reads (g.applications power) (tokens (tight power links)) (tokens (loose power links) ++ rest)
      (Continues links power) := by
  induction n with
  | zero =>
    intro links small _ _ power
    obtain rfl := List.eq_nil_of_length_eq_zero (Nat.le_zero.mp small)
    intro s pending
    have next := s.isNext_current
    rw [pending] at next
    have none := Token.symbol?_eq_none_of_kind (stop s.current next).1
    exact ⟨[], s, g.applications_of_none none, pending, continues_nil rfl⟩
  | succ n ih =>
    intro links small readable bounded power
    cases links with
    | nil => exact ih [] (Nat.zero_le n) readable bounded power
    | cons l links =>
      obtain ⟨symbol, first⟩ := readable l (by simp)
      have others : ∀ l ∈ links, ∃ symbol, l.IsReadable g symbol :=
        fun l member => readable l (List.mem_cons_of_mem _ member)
      have boundedOthers : ∀ l ∈ links, l.IsBounded :=
        fun l member => bounded l (List.mem_cons_of_mem _ member)
      rw [List.length_cons] at small
      by_cases tighter : power ≤ l.precedence
      · have operand := reads_expr_of_applications first.operand others stop
          (ih links (by omega) others boundedOthers l.operandPower)
        have shorter := loose_length_le l.operandPower links
        have behind : (loose l.operandPower links).Sublist links := List.dropWhile_sublist _
        have more := ih (loose l.operandPower links) (by omega) (fun x member => others x (behind.mem member))
          (fun x member => boundedOthers x (behind.mem member)) power
        exact reads_applications_cons first bounded tighter operand more
      · have none : tight power (l :: links) = [] :=
          List.takeWhile_cons_of_neg (by simpa using tighter)
        have all : loose power (l :: links) = l :: links :=
          List.dropWhile_cons_of_neg (by simpa using tighter)
        rw [none, all]
        intro s pending
        have current : s.current = l.operator := TokenStream.current_of_pending pending
        have weaker : g.leftPower symbol < power := by
          rw [first.leftPower]
          exact Int32.not_le.mp tighter
        exact ⟨[], s, g.applications_of_weaker (current ▸ first.operator) weaker, pending,
          continues_nil none⟩

/-- A chain whose operators are all tight enough is read whole. -/
theorem reads_expr {operand : List Token} {tree : SyntaxTree} {links : List Link} {power : Int32}
    (closed : g.IsClosedOperand operand tree)
    (readable : ∀ l ∈ links, ∃ symbol, l.IsReadable g symbol) (bounded : ∀ l ∈ links, l.IsBounded)
    (tighter : ∀ l ∈ links, power ≤ l.precedence) (stop : Stops rest) :
    Reads (g.expr power) (operand ++ tokens links) rest (Nests tree links) := by
  have all : tight power links = links :=
    List.takeWhile_eq_self_iff.mpr fun l member => by simpa using tighter l member
  have none : loose power links = [] :=
    List.dropWhile_eq_nil_iff.mpr fun l member => by simpa using tighter l member
  have read := reads_expr_of_applications closed readable stop
    (reads_applications stop links.length links (Nat.le_refl _) readable bounded power)
  rwa [all, none] at read

end Link

end OpenExpr
