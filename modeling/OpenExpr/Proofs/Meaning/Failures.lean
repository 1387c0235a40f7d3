import OpenExpr.Program.Walk
import OpenExpr.Proofs.Placement.Session
import OpenExpr.Proofs.Registry.Steps

namespace OpenExpr

namespace Node

/-- The diagnostic that a node holds, if it is an error. -/
def error? : Node → Option Diagnostic
  | .expr (.error d) => some d
  | _ => none

def isError (n : Node) : Bool :=
  n.error?.isSome

/-- The diagnostics that stand among nodes, in their order. -/
def errorsAmong (nodes : List (Nat × Node)) : List Diagnostic :=
  nodes.filterMap fun n => n.2.error?

variable {depth : Nat} {n : Node} {ns ms : List (Nat × Node)}

theorem errorsAmong_append : errorsAmong (ns ++ ms) = errorsAmong ns ++ errorsAmong ms :=
  List.filterMap_append

/-- All errors of a node that is none itself stand below it. -/
theorem errorsAmong_below (sound : n.error? = none) :
    errorsAmong ((depth, n) :: ns) = errorsAmong ns :=
  List.filterMap_cons_none sound

theorem isError_eq_false_of_errorsAmong (none : errorsAmong ns = []) :
    ∀ n ∈ ns, n.2.isError = false := fun n member => by
  rw [isError, List.filterMap_eq_nil_iff.mp none n member]
  rfl

end Node

open Node

/-! The diagnostics of a program are those of its nodes, each once and in their order. -/

mutual

theorem Expr.errorsAmong_outline (depth : Nat) (e : Expr) :
    errorsAmong (e.outline depth) = e.errors := by
  cases e with
  | constant | reference | error => rfl
  | call callee arguments span =>
    rw [Expr.outline, errorsAmong_below rfl, Expr.errorsAmong_outlineAll, Expr.errors]
  | builtIn op left right span =>
    rw [Expr.outline, errorsAmong_below rfl, Expr.errors]
    simp only [errorsAmong_append, left.errorsAmong_outline, right.errorsAmong_outline]
  | conditional condition thenBranch elseBranch result span =>
    rw [Expr.outline, errorsAmong_below rfl, Expr.errors]
    simp only [errorsAmong_append, condition.errorsAmong_outline, thenBranch.errorsAmong_outline,
      elseBranch.errorsAmong_outline]
  | forLoop counter condition step body span =>
    rw [Expr.outline, errorsAmong_below rfl, Expr.errors]
    simp only [errorsAmong_append, counter.errorsAmong_outline, condition.errorsAmong_outline,
      step.errorsAmong_outline, body.errorsAmong_outline]
  | varIn locals body span =>
    rw [Expr.outline, errorsAmong_below rfl, Expr.errors]
    simp only [errorsAmong_append, Local.errorsAmong_outlineAll, body.errorsAmong_outline]

theorem Expr.errorsAmong_outlineAll (depth : Nat) (es : List Expr) :
    errorsAmong (Expr.outlineAll depth es) = Expr.errorsAll es := by
  cases es with
  | nil => rfl
  | cons e es =>
    rw [Expr.outlineAll, Expr.errorsAll, errorsAmong_append, e.errorsAmong_outline,
      Expr.errorsAmong_outlineAll]

theorem Local.errorsAmong_outline (depth : Nat) (l : Local) :
    errorsAmong (l.outline depth) = l.errors := by
  cases l with
  | initialized declared value =>
    rw [Local.outline, errorsAmong_below rfl, Local.errors]
    exact value.errorsAmong_outline (depth + 1)
  | slot => rfl

theorem Local.errorsAmong_outlineAll (depth : Nat) (ls : List Local) :
    errorsAmong (Local.outlineAll depth ls) = Local.errorsAll ls := by
  cases ls with
  | nil => rfl
  | cons l ls =>
    rw [Local.outlineAll, Local.errorsAll, errorsAmong_append, l.errorsAmong_outline,
      Local.errorsAmong_outlineAll]

end

/-- A prototype has parameters below it and nothing else. -/
theorem Prototype.errorsAmong_outline (depth : Nat) (p : Prototype) :
    errorsAmong (p.outline depth) = [] := by
  simp [Prototype.outline, errorsAmong, Node.error?]

mutual

theorem Program.errorsAmong_outline (depth : Nat) (u : Program) :
    errorsAmong (u.outline depth) = u.errors := by
  cases u with
  | root units span =>
    rw [Program.outline, errorsAmong_below rfl, Program.errors]
    exact Program.errorsAmong_outlineAll (depth + 1) units
  | error d => rfl
  | prototype p => exact p.errorsAmong_outline depth
  | definition d =>
    rw [Program.outline, errorsAmong_below rfl, Program.errors, errorsAmong_append, Prototype.errorsAmong_outline,
      d.body.errorsAmong_outline, List.nil_append]
  | expression e => exact e.errorsAmong_outline depth

theorem Program.errorsAmong_outlineAll (depth : Nat) (us : List Program) :
    errorsAmong (Program.outlineAll depth us) = Program.errorsAll us := by
  cases us with
  | nil => rfl
  | cons u us =>
    rw [Program.outlineAll, Program.errorsAll, errorsAmong_append, u.errorsAmong_outline,
      Program.errorsAmong_outlineAll]

end

namespace Program

/-- The diagnostic that a program is, if it is one. -/
def error? : Program → Option Diagnostic
  | error d => some d
  | _ => none

/-- The program says of itself whether it failed: it is an error or has none in it. -/
def FailsAsAWhole (u : Program) : Prop :=
  u.errors = u.error?.toList

variable {u : Program} {us : List Program}

/-- A program that is no error has none in it. -/
theorem FailsAsAWhole.sound (whole : u.FailsAsAWhole) (good : u.isError = false) (depth : Nat) :
    ∀ n ∈ u.outline depth, n.2.isError = false := by
  refine isError_eq_false_of_errorsAmong ?_
  rw [errorsAmong_outline, whole]
  cases u with
  | error => cases good
  | _ => rfl

/-- Errors stand nowhere but at the head of a unit. -/
theorem filter_outlineAll (whole : ∀ u ∈ us, u.FailsAsAWhole) (depth : Nat) :
    (outlineAll depth us).filter (fun n => n.2.isError) =
      (us.filter isError).map fun u => (depth, u.node) := by
  induction us with
  | nil => rfl
  | cons u us ih =>
    obtain ⟨first, others⟩ := List.forall_mem_cons.mp whole
    rw [outlineAll, List.filter_append, ih others]
    cases failed : u.isError with
    | false =>
      rw [List.filter_eq_nil_iff.mpr fun n member => by simp [first.sound failed depth n member],
        List.nil_append, List.filter_cons_of_neg (by simp [failed])]
    | true =>
      rw [List.filter_cons_of_pos failed]
      cases u with
      | error d => rfl
      | _ => cases failed

theorem errorsAll_of_failsAsAWhole (whole : ∀ u ∈ us, u.FailsAsAWhole) :
    errorsAll us = us.filterMap error? := by
  induction us with
  | nil => rfl
  | cons u us ih =>
    obtain ⟨first, others⟩ := List.forall_mem_cons.mp whole
    rw [errorsAll, ih others, first]
    cases failed : u.error? <;> simp [failed]

/-- The program of a text that ends inside its statement. -/
def IsCanceled (u : Program) : Prop :=
  ∃ d span, u = root [error d] span ∧ d.code = .parseCanceled

end Program

namespace Environment

variable {env env' : Environment}

theorem Step.failsAsAWhole {t : SyntaxTree} {u : Program} (step : env.Step t u env') :
    u.FailsAsAWhole := by
  cases step with
  | refused | bareRefused | declared => rfl
  | defined _ _ _ sound _ => exact sound
  | bare _ _ _ sound => exact sound

theorem Steps.failAsAWhole {ts : List SyntaxTree} {us : List Program} (steps : env.Steps ts us env') :
    ∀ u ∈ us, u.FailsAsAWhole := by
  induction steps with
  | nil => simp
  | unit first _ ih => exact List.forall_mem_cons.mpr ⟨first.step.failsAsAWhole, ih⟩
  | unreadable _ _ ih => exact List.forall_mem_cons.mpr ⟨rfl, ih⟩

end Environment

/-- What the two ways to read a statement make of the same text. -/
inductive StatementResult.Tells : Program → StatementResult → Prop
  | complete {u} : u.isError = false → ¬ u.IsCanceled → Tells u (.complete u)
  | failed {d} : Tells (.error d) (.failed [d])
  | needMoreInput {u} : u.IsCanceled → Tells u .needMoreInput

namespace StatementResult.Tells

variable {u : Program} {result : StatementResult}

theorem eq_complete_iff (tells : Tells u result) (v : Program) :
    result = .complete v ↔ u = v ∧ v.isError = false ∧ ¬ v.IsCanceled := by
  cases tells with
  | complete good finished =>
    refine ⟨fun same => ?_, fun same => congrArg _ same.1⟩
    cases same
    exact ⟨rfl, good, finished⟩
  | failed =>
    refine ⟨nofun, fun ⟨same, good, _⟩ => ?_⟩
    subst same
    cases good
  | needMoreInput canceled =>
    exact ⟨nofun, fun ⟨same, _, finished⟩ => absurd (same ▸ canceled) finished⟩

theorem eq_failed_iff (tells : Tells u result) (ds : List Diagnostic) :
    result = .failed ds ↔ ∃ d, ds = [d] ∧ u = .error d := by
  cases tells with
  | complete good =>
    refine ⟨nofun, fun ⟨d, _, same⟩ => ?_⟩
    subst same
    cases good
  | failed =>
    constructor
    · intro same
      cases same
      exact ⟨_, rfl, rfl⟩
    · rintro ⟨d, rfl, same⟩
      cases same
      rfl
  | needMoreInput canceled =>
    obtain ⟨_, _, rfl, _⟩ := canceled
    exact ⟨nofun, nofun⟩

theorem eq_needMoreInput_iff (tells : Tells u result) : result = .needMoreInput ↔ u.IsCanceled := by
  cases tells with
  | complete _ finished => exact ⟨nofun, fun canceled => absurd canceled finished⟩
  | failed => exact ⟨nofun, nofun⟩
  | needMoreInput canceled => exact iff_of_true rfl canceled

end StatementResult.Tells

theorem Environment.Step.tells {env env' : Environment} {t : SyntaxTree} {u : Program}
    (step : env.Step t u env') : StatementResult.Tells u u.result := by
  rw [step.result_eq]
  cases step with
  | refused | bareRefused => exact .failed
  | declared => exact .complete rfl nofun
  | defined => exact .complete rfl nofun
  | bare => exact .complete rfl nofun

namespace Session

theorem tells_parseStatement (s : Session) (text : String) :
    StatementResult.Tells (s.parse text).1 (s.parseStatement text).1 := by
  cases read : s.syntaxTree .repl text with
  | mk result s' =>
    cases result with
    | ok tree =>
      obtain ⟨t, u, env, _, step, resolved⟩ := resolve_of_repl read
      have parsed : s.parse text = s'.resolve tree := by rw [parse, read]
      rw [parseStatement_of_ok read, parsed, resolved]
      exact step.tells
    | error e =>
      rw [parseStatement_of_error read, parse, read]
      dsimp only
      cases e.isEndOfInput with
      | true => exact .needMoreInput ⟨_, _, rfl, rfl⟩
      | false => exact .failed

/-- A source becomes a root, and each of its units fails as a whole or not at all. -/
theorem exists_root_of_parseSource (s : Session) (text : String) : ∃ units span,
    (s.parseSource text).1 = .root units span ∧ ∀ u ∈ units, u.FailsAsAWhole := by
  unfold parseSource
  cases read : s.syntaxTree .fullSource text with
  | mk result s' =>
    cases result with
    | ok tree =>
      obtain ⟨env, steps, _⟩ := resolve_steps read
      have shape := s.isRead_of_syntaxTree (congrArg Prod.fst read)
      cases shape
      exact ⟨_, _, rfl, steps.failAsAWhole⟩
    | error e => exact ⟨_, _, rfl, List.forall_mem_cons.mpr ⟨rfl, by simp⟩⟩

end Session

/-- Whatever a session knows, a source becomes a root whose errors are units of it: none
stands below another unit, and each unit that failed gives one diagnostic, in the order of
the units. The two ways to read a single statement leave the same session, and tell the same
of the text: one that is complete is no error and not cut off, one that fails has a single
diagnostic, and more input is asked for exactly if the text is cut off. -/
theorem failures_stand_as_units (s : Session) (text : String) :
    (∃ units span, (s.parseSource text).1 = .root units span ∧
      (∀ u ∈ units, u.isError = false → ∀ n ∈ u.outline 1, n.2.isError = false) ∧
      ((s.parseSource text).1.outline 0).filter (fun n => n.2.isError) =
        (units.filter Program.isError).map (fun u => (1, u.node)) ∧
      (s.parseSource text).1.errors = units.filterMap Program.error?) ∧
    (s.parse text).2 = (s.parseStatement text).2 ∧
    (∀ u, (s.parseStatement text).1 = .complete u ↔
      (s.parse text).1 = u ∧ u.isError = false ∧ ¬ u.IsCanceled) ∧
    (∀ ds, (s.parseStatement text).1 = .failed ds ↔ ∃ d, ds = [d] ∧ (s.parse text).1 = .error d) ∧
    ((s.parseStatement text).1 = .needMoreInput ↔ (s.parse text).1.IsCanceled) := by
  have tells := s.tells_parseStatement text
  obtain ⟨units, span, root, whole⟩ := s.exists_root_of_parseSource text
  refine ⟨⟨units, span, root, fun u member good => (whole u member).sound good 1, ?_, ?_⟩,
    s.parse_session text, tells.eq_complete_iff, tells.eq_failed_iff, tells.eq_needMoreInput_iff⟩
  · rw [root, Program.outline, List.filter_cons_of_neg (by simp [isError, Node.error?])]
    exact Program.filter_outlineAll whole 1
  · rw [root, Program.errors]
    exact Program.errorsAll_of_failsAsAWhole whole

/-- A statement that cannot be read, one that calls an unknown function deep inside, and one
that is right. -/
example :
    let u := ((Session.new {}).parseSource "def 1; def f(x) if x then g(x) else 2; 1 + 2;").1
    u.errors.map Diagnostic.code = [.syntaxError, .invokeUnknownFunction] ∧
      ((u.outline 0).filter (fun n => n.2.isError)).map Prod.fst = [1, 1] := by
  decide +kernel

end OpenExpr
