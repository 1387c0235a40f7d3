import OpenExpr.Proofs.Recovery.Faults
import OpenExpr.Proofs.Registry.Steps

namespace OpenExpr

/-- A unit that could not be read becomes the error that was found there. All others have
the shape that resolution asks for, so what is wrong with them is their meaning. -/
def SyntaxTree.YieldsUnit (t : SyntaxTree) (u : Program) : Prop :=
  (∃ e : InputError, t = .ofError e ∧ u = .error e.diagnostic) ∨
    t.kind ≠ .error ∧ ∀ d ∈ u.errors, d.IsOfMeaning

/-- A statement that is resolved gives no diagnostic but one of its meaning. -/
theorem Environment.Resolves.isOfMeaning {env env' : Environment} {t : SyntaxTree} {u : Program}
    (resolves : env.Resolves t u env') : ∀ d ∈ u.errors, d.IsOfMeaning := by
  have meaning := resolves.meaning
  cases resolves.step with
  | refused | bareRefused =>
    cases meaning with
    | refused ofMeaning => simpa [Program.errors] using ofMeaning
  | declared => simp [Program.errors]
  | defined _ _ _ sound _ => simp [Program.errors, sound]
  | bare _ _ _ sound => simp [Program.errors, sound]

theorem Environment.Steps.yieldsUnits {env env' : Environment} {ts : List SyntaxTree}
    {us : List Program} (steps : env.Steps ts us env')
    (faults : ∀ t ∈ ts, t.kind = .error → t.IsFault) : List.Forall₂ SyntaxTree.YieldsUnit ts us := by
  induction steps with
  | nil => exact .nil
  | unit first _ ih =>
    obtain ⟨_, others⟩ := List.forall_mem_cons.mp faults
    exact .cons (.inr ⟨first.source.read.fits.form.readable, first.isOfMeaning⟩) (ih others)
  | unreadable error _ ih =>
    obtain ⟨here, others⟩ := List.forall_mem_cons.mp faults
    obtain ⟨e, _, rfl⟩ := here error
    exact .cons (.inl ⟨e, rfl, rfl⟩) (ih others)

theorem Program.exists_of_mem_errorsAll {us : List Program} {d : Diagnostic}
    (member : d ∈ errorsAll us) : ∃ u ∈ us, d ∈ u.errors := by
  induction us with
  | nil => cases member
  | cons u us ih =>
    rcases List.mem_append.mp member with here | later
    · exact ⟨u, List.mem_cons_self, here⟩
    · obtain ⟨v, among, there⟩ := ih later
      exact ⟨v, List.mem_cons_of_mem _ among, there⟩

/-- The diagnostics of a program are those of its units. -/
theorem Program.exists_of_mem_errors {u : Program} {d : Diagnostic} (member : d ∈ u.errors) :
    ∃ v ∈ u.units, d ∈ v.errors := by
  cases u with
  | root us span => exact exists_of_mem_errorsAll member
  | _ => exact ⟨_, List.mem_singleton_self _, member⟩

namespace Session

/-- The diagnostic is of the meaning of a text, or it reports a fault of the text. -/
def Explains (s : Session) (mode : ParseMode) (text : String) (d : Diagnostic) : Prop :=
  d.IsOfMeaning ∨ ∃ e, s.HasFault mode text e ∧ d = e.diagnostic

variable {s s' : Session} {mode : ParseMode} {text : String}

theorem yieldsUnits_of_syntaxTree {tree : SyntaxTree} (read : s.syntaxTree mode text = (.ok tree, s')) :
    List.Forall₂ SyntaxTree.YieldsUnit tree.children (s'.resolve tree).1.units := by
  obtain ⟨env, steps, _⟩ := resolve_steps read
  exact steps.yieldsUnits (isFault_of_syntaxTree (congrArg Prod.fst read))

theorem explains_of_mem_errors {tree : SyntaxTree} (read : s.syntaxTree mode text = (.ok tree, s'))
    {d : Diagnostic} (member : d ∈ (s'.resolve tree).1.errors) : s.Explains mode text d := by
  obtain ⟨u, among, member⟩ := Program.exists_of_mem_errors member
  obtain ⟨t, inTree, yields⟩ := exists_of_forall₂ (yieldsUnits_of_syntaxTree read) among
  rcases yields with ⟨e, rfl, rfl⟩ | ⟨_, meaning⟩
  · exact .inr ⟨e, .unit (congrArg Prod.fst read) inTree, List.mem_singleton.mp member⟩
  · exact .inl (meaning d member)

/-- A fault of the whole text is reported as such. -/
theorem explains_of_error {e : InputError} (failed : s.syntaxTree mode text = (.error e, s')) :
    s.Explains mode text e.diagnostic :=
  .inr ⟨e, .whole (congrArg Prod.fst failed), rfl⟩

theorem parse_explained (s : Session) (text : String) :
    ∀ d ∈ (s.parse text).1.errors, s.Explains .repl text d := by
  intro d member
  unfold parse at member
  cases read : s.syntaxTree .repl text with
  | mk result s' =>
    rw [read] at member
    cases result with
    | ok tree => exact explains_of_mem_errors read member
    | error e =>
      dsimp only at member
      split at member
      · -- what is said of a text that ends too early blames nothing in it
        rw [canceled, Program.errors, Program.errorsAll, Program.errorsAll, Program.errors,
          List.append_nil, List.mem_singleton] at member
        exact .inl (member ▸ Problem.isOfMeaning rfl rfl)
      · rw [Program.errors, List.mem_singleton] at member
        exact member ▸ explains_of_error read

theorem parseStatement_explained (s : Session) (text : String) {ds : List Diagnostic}
    (failed : (s.parseStatement text).1 = .failed ds) : ∀ d ∈ ds, s.Explains .repl text d := by
  cases read : s.syntaxTree .repl text with
  | mk result s' =>
    cases result with
    | ok tree =>
      rw [parseStatement_of_ok read, Program.result] at failed
      split at failed
      · cases failed
      · cases failed
        exact fun d member => explains_of_mem_errors read member
    | error e =>
      rw [parseStatement_of_error read] at failed
      dsimp only at failed
      split at failed
      · cases failed
      · cases failed
        simpa using explains_of_error read

theorem parseSource_explained (s : Session) (text : String) :
    ∀ d ∈ (s.parseSource text).1.errors, s.Explains .fullSource text d := by
  intro d member
  unfold parseSource at member
  cases read : s.syntaxTree .fullSource text with
  | mk result s' =>
    rw [read] at member
    cases result with
    | ok tree => exact explains_of_mem_errors read member
    | error e =>
      rw [Program.errors, Program.errorsAll, Program.errorsAll, Program.errors, List.append_nil,
        List.mem_singleton] at member
      exact member ▸ explains_of_error read

end Session

/-- Whatever a session knows, what it reads of a text has the shape that resolution asks for.
No fault of a text is a number that cannot be read, each unit that cannot be read becomes the
error that was found there, and all other diagnostics are of what the text means, so that
nothing but a fault is ever called a syntax error. -/
theorem diagnostics_explained (s : Session) (text : String) :
    (∀ mode e, s.HasFault mode text e → e.IsNoNumber) ∧
    (∀ mode tree s', s.syntaxTree mode text = (.ok tree, s') →
      List.Forall₂ SyntaxTree.YieldsUnit tree.children (s'.resolve tree).1.units) ∧
    (∀ d ∈ (s.parse text).1.errors, s.Explains .repl text d) ∧
    (∀ ds, (s.parseStatement text).1 = .failed ds → ∀ d ∈ ds, s.Explains .repl text d) ∧
    ∀ d ∈ (s.parseSource text).1.errors, s.Explains .fullSource text d :=
  ⟨fun _ _ fault => fault.isNoNumber, fun _ _ _ read => Session.yieldsUnits_of_syntaxTree read,
    s.parse_explained text, fun _ failed => s.parseStatement_explained text failed,
    s.parseSource_explained text⟩

end OpenExpr
