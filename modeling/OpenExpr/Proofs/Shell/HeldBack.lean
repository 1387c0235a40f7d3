import OpenExpr.Proofs.Registry.Retry
import OpenExpr.Proofs.Shell.Pieces

namespace OpenExpr

namespace Terminator

variable {t : Terminator}

/-- Statements in the order in which they came, each with a line break behind it. -/
def joined (t : Terminator) (statements : List String) : String :=
  String.join (statements.map fun x => t.withSemicolon x ++ "\n")

theorem joined_append_singleton (statements : List String) (x : String) :
    t.joined (statements ++ [x]) = t.joined statements ++ t.withSemicolon x ++ "\n" := by
  simp [joined, String.append_assoc]

/-- A statement keeps its end behind whole lines: a line break is no terminator. -/
theorem withSemicolon_lines (front x : String) :
    t.withSemicolon (front ++ "\n" ++ x) = front ++ "\n" ++ t.withSemicolon x := by
  have text : (front ++ "\n" ++ x).toList = (front ++ "\n").toList ++ x.toList := by simp
  unfold withSemicolon
  dsimp only
  rw [text, List.getLast?_append]
  cases last : x.toList.getLast? with
  | none =>
    have empty : x = "" := by simpa using last
    simp [empty, t.newline_ne]
  | some c =>
    rw [Option.some_or]
    split
    · refine String.toList_inj.mp ?_
      rw [List.dropLast_append_of_ne_nil (by rintro none; simp [none] at last)]
      simp
    · rfl

end Terminator

namespace Dialogue

/-- What the dialogue makes of what came of a statement. -/
def settle (d : Dialogue) (text : String) : StatementResult × Session → Option Reply × Dialogue
  | (.complete u, session) =>
    let summary := { d.summary with parsed := d.summary.parsed + 1 }
    (some (.parsed u), { d with session, heldBack := "", summary })
  | (.failed diagnostics, session) =>
    let summary := { d.summary with failed := d.summary.failed + 1 }
    (some (.rejected session.sourceName text diagnostics),
      { d with session, heldBack := "", summary })
  | (.needMoreInput, session) => (none, { d with session, heldBack := text ++ "\n" })

/-- The reply to a text, if it gets one, and what the run is then. -/
def answer (d : Dialogue) (text : String) : List Reply × Dialogue :=
  ((d.settle text (d.session.parseStatement text)).1.toList,
    (d.settle text (d.session.parseStatement text)).2)

variable {d : Dialogue}

theorem respond_singleton (d : Dialogue) (x : String) :
    d.respond [x] = d.answer (d.heldBack ++ d.framer.terminator.withSemicolon x) := by
  have handled : d.handle { text := x, isPartial := false } =
      d.settle (d.heldBack ++ d.framer.terminator.withSemicolon x)
        (d.session.parseStatement (d.heldBack ++ d.framer.terminator.withSemicolon x)) := rfl
  rw [respond_cons, handled]
  simp [respond, replies, answer]

/-- Of a dialogue, only what it counted and the terminator have a say in a reply. -/
theorem settle_held (d : Dialogue) (session : Session) (heldBack text : String)
    (r : StatementResult × Session) :
    { d with session, heldBack }.settle text r = d.settle text r := by
  obtain ⟨result, after⟩ := r
  cases result <;> rfl

/-- What is held back is a text that asked for more, read in the session of `d`. -/
def Holds (d : Dialogue) (q : String) (d' : Dialogue) : Prop :=
  (d.session.parseStatement q).1 = .needMoreInput ∧
    d' = { d with session := (d.session.parseStatement q).2, heldBack := q ++ "\n" }

/-- There is no reply only to what asks for more. -/
theorem holds_of_answer {text : String} (waiting : (d.answer text).1 = []) :
    d.Holds text (d.answer text).2 := by
  unfold answer at waiting ⊢
  unfold Holds
  cases read : d.session.parseStatement text with
  | mk result session =>
    rw [read] at waiting
    cases result with
    | needMoreInput => exact ⟨rfl, rfl⟩
    | complete u | failed ds => cases waiting

/-- The rest of a statement gets the reply of the whole of it. If the whole does not consist
of tokens, the session stays the one that held the first part. -/
theorem Holds.respond {d' : Dialogue} {q : String} (holds : d.Holds q d') (x : String) :
    let text := q ++ "\n" ++ d.framer.terminator.withSemicolon x
    (d.session.Scans text → d'.respond [x] = d.answer text) ∧
      (¬ d.session.Scans text → (d.answer text).1 ≠ [] ∧ (d'.respond [x]).1 = (d.answer text).1 ∧
        (d'.respond [x]).2 = { (d.answer text).2 with session := d'.session }) := by
  intro text
  obtain ⟨early, rfl⟩ := holds
  have answered := respond_singleton
    { d with session := (d.session.parseStatement q).2, heldBack := q ++ "\n" } x
  have name := (parseStatement_changes d.session q).1
  obtain ⟨again, bad⟩ := Session.parseStatement_again early (d.framer.terminator.withSemicolon x)
  change _ = answer _ text at answered
  rw [answered]
  unfold answer
  simp only [settle_held]
  refine ⟨fun scans => by rw [again scans], fun missing => ?_⟩
  obtain ⟨ds, held, whole⟩ := bad missing
  rw [held, whole]
  refine ⟨List.cons_ne_nil _ _, ?_, rfl⟩
  exact congrArg (fun name => [Reply.rejected name text ds]) name

/-- Statements that got no reply are held back together. -/
theorem holds_of_respond (fresh : d.heldBack = "") {held : List String}
    (waiting : (d.respond held).1 = []) (some : held ≠ []) :
    ∃ q, d.framer.terminator.joined held = q ++ "\n" ∧ d.Holds q (d.respond held).2 := by
  induction held using List.reverseRecOn with
  | nil => exact absurd rfl some
  | append_singleton held x ih =>
    rw [Terminator.joined_append_singleton]
    rw [respond_append] at waiting ⊢
    obtain ⟨before, last⟩ := List.append_eq_nil_iff.mp waiting
    refine ⟨_, rfl, ?_⟩
    by_cases first : held = []
    · subst first
      rw [show d.respond [] = ([], d) from rfl, respond_singleton, fresh, String.empty_append] at last ⊢
      exact holds_of_answer last
    · obtain ⟨q, lines, holds⟩ := ih before first
      obtain ⟨again, bad⟩ := holds.respond x
      rw [lines]
      by_cases scans : d.session.Scans (q ++ "\n" ++ d.framer.terminator.withSemicolon x)
      · rw [again scans] at last ⊢
        exact holds_of_answer last
      · obtain ⟨replied, same, _⟩ := bad scans
        exact absurd (same.symm.trans last) replied

/-- What is no sequence of tokens leaves the session as it was. -/
theorem answer_of_not_scans {text : String} (bad : ¬ d.session.Scans text) :
    (d.answer text).2 = { (d.answer text).2 with session := d.session } := by
  obtain ⟨ds, failed⟩ := Session.parseStatement_of_not_scans bad
  have read : d.session.parseStatement text = (.failed ds, d.session) := failed d.session.env.operators
  unfold answer
  rw [read]
  rfl

/-- Statements that are held back end as the one statement that they are together. -/
theorem respond_held (fresh : d.heldBack = "") {held : List String}
    (waiting : (d.respond held).1 = []) (x : String) :
    let whole := d.framer.terminator.joined held ++ x
    (d.respond (held ++ [x])).1 = (d.respond [whole]).1 ∧
      (d.session.Scans (d.framer.terminator.withSemicolon whole) →
        (d.respond (held ++ [x])).2 = (d.respond [whole]).2) ∧
      (¬ d.session.Scans (d.framer.terminator.withSemicolon whole) →
        (d.respond (held ++ [x])).2 =
          { (d.respond [whole]).2 with session := (d.respond held).2.session }) := by
  intro whole
  by_cases first : held = []
  · have same : whole = x := by
      subst first
      exact String.empty_append
    subst first
    rw [same, List.nil_append, respond_singleton, fresh, String.empty_append]
    exact ⟨rfl, fun _ => rfl, answer_of_not_scans⟩
  · obtain ⟨q, lines, holds⟩ := holds_of_respond fresh waiting first
    obtain ⟨again, bad⟩ := holds.respond x
    have text : d.framer.terminator.withSemicolon whole =
        q ++ "\n" ++ d.framer.terminator.withSemicolon x := by
      rw [← Terminator.withSemicolon_lines, ← lines]
    rw [respond_append, waiting, List.nil_append, d.respond_singleton whole, fresh,
      String.empty_append, text]
    by_cases scans : d.session.Scans (q ++ "\n" ++ d.framer.terminator.withSemicolon x)
    · rw [again scans]
      exact ⟨rfl, fun _ => rfl, fun missing => absurd scans missing⟩
    · obtain ⟨_, reply, after⟩ := bad scans
      exact ⟨reply, fun found => absurd found scans, fun _ => after⟩

end Dialogue

/-- A text that asks for more may be given again with more: what comes of the whole does not
depend on the first attempt. Nor does the session that the whole leaves, unless it does not
consist of tokens: then nothing of it is read, and each session stays what it is. So statements
that are held back one after the other end as the one statement that they are together. -/
theorem first_attempt_does_not_count :
    (∀ (s : Session) (a b : String), (s.parseStatement a).1 = .needMoreInput →
      let later := (s.parseStatement a).2
      let whole := a ++ "\n" ++ b
      (later.parseStatement whole).1 = (s.parseStatement whole).1 ∧
        (s.Scans whole → (later.parseStatement whole).2 = (s.parseStatement whole).2) ∧
        (¬ s.Scans whole →
          (later.parseStatement whole).2 = later ∧ (s.parseStatement whole).2 = s)) ∧
    ∀ (d : Dialogue) (held : List String) (x : String),
      d.heldBack = "" → (d.respond held).1 = [] →
        let whole := d.framer.terminator.joined held ++ x
        (d.respond (held ++ [x])).1 = (d.respond [whole]).1 ∧
          (d.session.Scans (d.framer.terminator.withSemicolon whole) →
            (d.respond (held ++ [x])).2 = (d.respond [whole]).2) ∧
          (¬ d.session.Scans (d.framer.terminator.withSemicolon whole) →
            (d.respond (held ++ [x])).2 =
              { (d.respond [whole]).2 with session := (d.respond held).2.session }) := by
  refine ⟨fun s a b early => ?_, fun d held x fresh waiting => d.respond_held fresh waiting x⟩
  intro later whole
  obtain ⟨again, bad⟩ := Session.parseStatement_again early b
  by_cases scans : s.Scans whole
  · exact ⟨congrArg Prod.fst (again scans), fun _ => congrArg Prod.snd (again scans),
      fun missing => absurd scans missing⟩
  · obtain ⟨ds, second, direct⟩ := bad scans
    have result : (later.parseStatement whole).1 = .failed ds := congrArg Prod.fst second
    have result' : (s.parseStatement whole).1 = .failed ds := congrArg Prod.fst direct
    have after : (later.parseStatement whole).2 = later := by rw [second]
    have after' : (s.parseStatement whole).2 = s := by rw [direct]
    exact ⟨result.trans result'.symm, fun found => absurd found scans, fun _ => ⟨after, after'⟩⟩

theorem StatementResult.eq_needMoreInput {r : StatementResult}
    (early : (match r with | .needMoreInput => true | _ => false) = true) : r = .needMoreInput := by
  cases r <;> first | rfl | cases early

/-- The header of an operator may be given before the body of its definition, also with a
semicolon in a comment behind it. -/
theorem header_before_body :
    ((Session.new {}).parseStatement "def binary | (x y)").1 = .needMoreInput ∧
      ((Session.new {}).parseStatement "def binary | (x y)").2.parseStatement
          ("def binary | (x y)" ++ "\n" ++ "x + y;") =
        (Session.new {}).parseStatement ("def binary | (x y)" ++ "\n" ++ "x + y;") ∧
      ∃ d : Dialogue, (d.respond ["def binary | (x y) # ;"]).1 = [] ∧
        d.respond (["def binary | (x y) # ;"] ++ ["x + y;"]) =
          d.respond [d.framer.terminator.joined ["def binary | (x y) # ;"] ++ "x + y;"] := by
  have early : ((Session.new {}).parseStatement "def binary | (x y)").1 = .needMoreInput :=
    StatementResult.eq_needMoreInput (by decide +kernel)
  have scans : (Session.new {}).Scans ("def binary | (x y)" ++ "\n" ++ "x + y;") := by
    decide +kernel
  obtain ⟨result, after, _⟩ := first_attempt_does_not_count.1 _ _ "x + y;" early
  refine ⟨early, Prod.ext result (after scans), { session := .new {}, framer := {} }, ?_⟩
  have waiting : (Dialogue.respond { session := .new {}, framer := {} }
      ["def binary | (x y) # ;"]).1 = [] := List.isEmpty_iff.mp (by decide +kernel)
  have scans : (Session.new {}).Scans (Terminator.semicolon.withSemicolon
      (Terminator.semicolon.joined ["def binary | (x y) # ;"] ++ "x + y;")) := by decide +kernel
  obtain ⟨reply, after, _⟩ := first_attempt_does_not_count.2 _ _ "x + y;" rfl waiting
  exact ⟨waiting, Prod.ext reply (after scans)⟩

/-- Where the whole does not consist of tokens, the operator that the first attempt made known
is known only behind it. -/
theorem stray_character_keeps_operator :
    ((Session.new {}).parseStatement "def binary | (x y)").1 = .needMoreInput ∧
      (((Session.new {}).parseStatement "def binary | (x y)").2.parseStatement
          ("def binary | (x y)" ++ "\n" ++ "é")).2.env.operators ≠
        ((Session.new {}).parseStatement ("def binary | (x y)" ++ "\n" ++ "é")).2.env.operators := by
  refine ⟨StatementResult.eq_needMoreInput (by decide +kernel), fun same => ?_⟩
  have known : (((Session.new {}).parseStatement "def binary | (x y)").2.parseStatement
      ("def binary | (x y)" ++ "\n" ++ "é")).2.env.operators.infixOp? '|' =
        some { symbol := '|', fixity := .infixLeft, precedence := 30, isBuiltIn := false } := by
    decide +kernel
  have unknown : ((Session.new {}).parseStatement
      ("def binary | (x y)" ++ "\n" ++ "é")).2.env.operators.infixOp? '|' = none := by
    decide +kernel
  rw [same, unknown] at known
  cases known

end OpenExpr
