import Mathlib.Data.List.Nodup
import OpenExpr.Proofs.Scoping.Resolution

namespace OpenExpr

mutual

/-- The local variables of an expression in the order in which they are declared. -/
def Expr.locals : Expr → List Local
  | .constant _ _ | .reference _ _ | .error _ => []
  | .call _ arguments _ => Expr.localsAll arguments
  | .builtIn _ left right _ => left.locals ++ right.locals
  | .conditional condition thenBranch elseBranch result _ =>
    condition.locals ++ thenBranch.locals ++ elseBranch.locals ++ [result]
  | .forLoop counter condition step body _ =>
    counter.localsBefore ++ [counter] ++ condition.locals ++ step.locals ++ body.locals
  | .varIn locals body _ => Local.localsAll locals ++ body.locals

def Expr.localsAll : List Expr → List Local
  | [] => []
  | e :: es => e.locals ++ Expr.localsAll es

/-- The local variables of the first value of a variable. -/
def Local.localsBefore : Local → List Local
  | .initialized _ value => value.locals
  | .slot _ => []

/-- Variables, each behind those of its first value. -/
def Local.localsAll : List Local → List Local
  | [] => []
  | l :: ls => l.localsBefore ++ [l] ++ Local.localsAll ls

end

/-- The name of the variable for the result of a conditional. -/
def resultName (n : Nat) : String :=
  "$ifresult$" ++ toString n

theorem resultName_injective : Function.Injective resultName := by
  intro m n same
  have digits : (toString m).toList = (toString n).toList := by
    simpa [resultName] using congrArg String.toList same
  have value (k : Nat) : Nat.ofDigitChars 10 (toString k).toList 0 = k := by
    simp
  rw [← value m, digits, value]

/-- The names that are not written, among those of local variables. -/
def generatedNames (ls : List Local) : List String :=
  (ls.filter fun l => l.declared.isGenerated).map Local.name

theorem generatedNames_append (a b : List Local) :
    generatedNames (a ++ b) = generatedNames a ++ generatedNames b := by
  simp [generatedNames]

/-- The names that are not written are those of the results from `m` on, up to `n`. -/
def Numbered (m n : Nat) (ls : List Local) : Prop :=
  ∃ k, n = m + k ∧ generatedNames ls = (List.range' m k).map resultName

theorem numbered_nil (m : Nat) : Numbered m m [] :=
  ⟨0, rfl, rfl⟩

theorem Numbered.append {m n k : Nat} {a b : List Local} (first : Numbered m n a)
    (second : Numbered n k b) : Numbered m k (a ++ b) := by
  obtain ⟨i, rfl, names⟩ := first
  obtain ⟨j, rfl, names'⟩ := second
  refine ⟨i + j, Nat.add_assoc m i j, ?_⟩
  rw [generatedNames_append, names, names', ← List.map_append, List.range'_append_1]

theorem numbered_written (m : Nat) {l : Local} (written : l.declared.isGenerated = false) :
    Numbered m m [l] :=
  ⟨0, rfl, by simp [generatedNames, written]⟩

/-- Names that are numbered are all different. -/
theorem Numbered.nodup {m n : Nat} {ls : List Local} (numbered : Numbered m n ls) :
    (generatedNames ls).Nodup := by
  obtain ⟨k, _, names⟩ := numbered
  rw [names]
  exact List.Nodup.map resultName_injective List.nodup_range'

namespace Resolve

variable {α β : Type}

/-- The local variables that `p` declares go with its value, and the results among them are
numbered on from those before. -/
def Declares (p : Resolve α) (L : α → List Local → Prop) : Prop :=
  ∀ b a b', p b = .ok a b' →
    ∃ ls, b'.locals = b.locals ++ ls ∧ Numbered b.results b'.results ls ∧ L a ls

variable {L : α → List Local → Prop} {p : Resolve α}

/-- What the next part declares comes behind what the first declares. -/
theorem Declares.bind {f : α → Resolve β} {K : β → List Local → Prop} (h : Declares p L)
    (next : ∀ a us, L a us → Declares (f a) fun c vs => K c (us ++ vs)) : Declares (p >>= f) K := by
  intro b c b'' run
  change EStateM.bind p f b = _ at run
  unfold EStateM.bind at run
  cases first : p b with
  | error d b' =>
    rw [first] at run
    cases run
  | ok a b' =>
    rw [first] at run
    obtain ⟨us, locals, numbered, inL⟩ := h b a b' first
    obtain ⟨vs, locals', numbered', inK⟩ := next a us inL b' c b'' run
    exact ⟨us ++ vs, by rw [locals', locals, List.append_assoc], numbered.append numbered', inK⟩

theorem Declares.imp {L' : α → List Local → Prop} (h : Declares p L)
    (sub : ∀ a ls, L a ls → L' a ls) : Declares p L' := by
  intro b a b' run
  obtain ⟨ls, locals, numbered, inL⟩ := h b a b' run
  exact ⟨ls, locals, numbered, sub a ls inL⟩

theorem declares_pure {a : α} (none : L a []) : Declares (pure a) L := by
  rintro b _ _ ⟨⟩
  exact ⟨[], (List.append_nil _).symm, numbered_nil _, none⟩

theorem declares_throw (d : Diagnostic) : Declares (throw d) L := by
  intro b a b' run
  cases run

theorem declares_inScope (h : Declares p L) : Declares (inScope p) L := by
  intro b a b' run
  unfold inScope at run
  cases inner : p { b with scopes := b.scopes.push } with
  | ok c s =>
    rw [inner] at run
    cases run
    obtain ⟨ls, locals, numbered, inL⟩ := h _ a s inner
    exact ⟨ls, locals, numbered, inL⟩
  | error d s =>
    rw [inner] at run
    cases run

theorem declares_declare {l : Local} (written : l.declared.isGenerated = false) :
    Declares (declare l) fun _ ls => ls = [l] := by
  rintro b _ _ ⟨⟩
  exact ⟨[l], rfl, numbered_written _ written, rfl⟩

theorem declares_declareResult (span : Span) :
    Declares (declareResult span) fun l ls => ls = [l] := by
  rintro b _ _ ⟨⟩
  exact ⟨_, rfl, ⟨1, rfl, rfl⟩, rfl⟩

/-- The value declares what it contains. -/
abbrev DeclaresLocals (p : Resolve Expr) : Prop :=
  Declares p fun e ls => ls = e.locals

variable (env : Environment)

theorem declares_reference (name : String) (span : Span) : DeclaresLocals (reference name span) := by
  intro b
  unfold reference
  rw [get_bind]
  cases b.scopes.find? name with
  | some binding => exact declares_pure (L := fun (e : Expr) ls => ls = e.locals) rfl b
  | none => exact declares_throw _ b

/-- An operator adds nothing to its operands. -/
theorem declares_apply (left : Expr) (operator : Token) (right : Expr) :
    Declares (apply env left operator right) fun (e : Expr) ls =>
      ls = [] ∧ e.locals = left.locals ++ right.locals := by
  unfold apply
  dsimp only
  split
  · exact declares_pure ⟨rfl, rfl⟩
  split
  · exact declares_throw _
  split
  · exact declares_throw _
  · exact declares_pure ⟨rfl, by simp [Expr.locals, Expr.localsAll]⟩

theorem declares_unaryCallee (symbol : Char) (text : String) (span : Span) :
    Declares (unaryCallee env symbol text span) fun _ ls => ls = [] := by
  unfold unaryCallee
  split
  · exact declares_throw _
  dsimp only
  split
  · exact declares_throw _
  · exact declares_pure rfl

mutual

/-- Whatever the tree, its parts declare their variables one after the other. -/
theorem declares_expr (t : SyntaxTree) : DeclaresLocals (expr env t) := by
  obtain ⟨kind, span, text, children, operators⟩ := t
  unfold expr
  cases kind with
  | expression =>
    cases children with
    | nil => exact declares_throw _
    | cons operand _ =>
      refine (declares_expr operand).bind ?_
      rintro left _ rfl
      exact (declares_applyAll left operators).imp fun _ _ same => same.symm
  | paren =>
    cases children with
    | nil => exact declares_throw _
    | cons inner _ => exact declares_expr inner
  | constant =>
    dsimp only
    cases Decimal.float? text with
    | none => exact declares_throw _
    | some value => exact declares_pure rfl
  | reference => exact declares_reference text span
  | functionCall =>
    dsimp only
    cases env.callee? text with
    | none => exact declares_throw _
    | some callee =>
      refine (declares_exprs children).bind ?_
      rintro arguments _ rfl
      exact declares_pure (List.append_nil _)
  | unaryOperator =>
    refine (declares_unaryCallee env _ text span).bind ?_
    rintro callee _ rfl
    cases children with
    | nil => exact declares_throw _
    | cons operand _ =>
      refine (declares_expr operand).bind ?_
      rintro argument _ rfl
      exact declares_pure rfl
  | conditional =>
    cases children with
    | nil => exact declares_throw _
    | cons first rest =>
      refine (declares_expr first).bind ?_
      rintro condition _ rfl
      cases rest with
      | nil => exact declares_throw _
      | cons second rest =>
        refine (declares_expr second).bind ?_
        rintro thenBranch _ rfl
        cases rest with
        | nil => exact declares_throw _
        | cons third _ =>
          refine (declares_expr third).bind ?_
          rintro elseBranch _ rfl
          refine (declares_declareResult span).bind ?_
          rintro result _ rfl
          exact declares_pure (by simp [Expr.locals])
  | forLoop =>
    cases children with
    | nil => exact declares_throw _
    | cons first rest =>
      -- the first value is built outside the scope of the counter and comes in front of it
      refine (declares_initializer first).bind ?_
      rintro counter _ ⟨rfl, written⟩
      refine declares_inScope ((declares_declare written).bind ?_)
      rintro _ _ rfl
      cases rest with
      | nil => exact declares_throw _
      | cons second rest =>
        refine (declares_expr second).bind ?_
        rintro condition _ rfl
        cases rest with
        | nil => exact declares_throw _
        | cons third rest =>
          cases rest with
          | nil =>
            refine (declares_expr third).bind ?_
            rintro body _ rfl
            exact declares_pure (by simp [Expr.locals])
          | cons last _ =>
            refine (declares_expr third).bind ?_
            rintro step _ rfl
            refine (declares_expr last).bind ?_
            rintro body _ rfl
            exact declares_pure (by simp [Expr.locals])
  | varIn =>
    refine (declares_inScope (declares_bindings _ children)).bind ?_
    rintro ⟨ls, body⟩ _ rfl
    exact declares_pure (List.append_nil _)
  | _ => exact declares_throw _
termination_by sizeOf t

theorem declares_exprs (ts : List SyntaxTree) :
    Declares (exprs env ts) fun es ls => ls = Expr.localsAll es := by
  cases ts with
  | nil => exact declares_pure rfl
  | cons t ts =>
    refine (declares_expr t).bind ?_
    rintro e _ rfl
    refine (declares_exprs ts).bind ?_
    rintro es _ rfl
    exact declares_pure (by simp [Expr.localsAll])
termination_by sizeOf ts

/-- The operands on the right come behind what stands on the left. -/
theorem declares_applyAll (left : Expr) (operators : List (Token × SyntaxTree)) :
    Declares (applyAll env left operators) fun (e : Expr) ls => e.locals = left.locals ++ ls := by
  cases operators with
  | nil => exact declares_pure (List.append_nil _).symm
  | cons o rest =>
    obtain ⟨operator, operand⟩ := o
    refine (declares_expr operand).bind ?_
    rintro right _ rfl
    refine (declares_apply env left operator right).bind ?_
    rintro whole _ ⟨rfl, both⟩
    refine (declares_applyAll whole rest).imp fun e ls same => ?_
    rw [same, both, List.append_assoc, List.nil_append]
termination_by sizeOf operators

theorem declares_initializer (t : SyntaxTree) :
    Declares (initializer env t) fun (l : Local) ls =>
      ls = l.localsBefore ∧ l.declared.isGenerated = false := by
  obtain ⟨kind, span, text, children, operators⟩ := t
  unfold initializer
  dsimp only
  split
  · cases children with
    | nil => exact declares_pure ⟨rfl, rfl⟩
    | cons value _ =>
      refine (declares_expr value).bind ?_
      rintro e _ rfl
      exact declares_pure ⟨List.append_nil _, rfl⟩
  · exact declares_throw _
termination_by sizeOf t

theorem declares_bindings (missing : Diagnostic) (ts : List SyntaxTree) :
    Declares (bindings env missing ts) fun a ls => ls = Local.localsAll a.1 ++ a.2.locals := by
  cases ts with
  | nil => exact declares_throw _
  | cons first rest =>
    cases rest with
    | nil =>
      refine (declares_expr first).bind ?_
      rintro body _ rfl
      exact declares_pure (List.append_nil _)
    | cons next rest =>
      refine (declares_initializer first).bind ?_
      rintro l _ ⟨rfl, written⟩
      refine (declares_declare written).bind ?_
      rintro _ _ rfl
      refine (declares_bindings missing (next :: rest)).bind ?_
      rintro ⟨ls, body⟩ _ rfl
      exact declares_pure (by simp [Local.localsAll])
termination_by sizeOf ts

end

end Resolve

end OpenExpr
