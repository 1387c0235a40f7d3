import OpenExpr.Proofs.Registry.Steps
import OpenExpr.Proofs.Source.Line
import OpenExpr.Proofs.Span.Statement
import OpenExpr.Proofs.Span.Unit

namespace OpenExpr

namespace Program

variable {size : Nat} {u : Program} {us : List Program}

theorem Fits.nests (fits : u.Fits size) (sound : u.isError = false) : u.Nests size := by
  cases fits with
  | nested nests => exact nests
  | error => cases sound

theorem Fits.inside (fits : u.Fits size) (depth : Nat) :
    ∀ n ∈ u.outline depth, ∀ place ∈ n.2.spans, place.Within 0 size := by
  cases fits with
  | nested nests => exact fun n member => (nests depth n member).inside
  | error inside =>
    rw [outline]
    exact List.forall_mem_singleton.mpr (List.forall_mem_singleton.mpr inside)

theorem inside_outlineAll (each : ∀ u ∈ us, u.Fits size) (depth : Nat) :
    ∀ n ∈ outlineAll depth us, ∀ place ∈ n.2.spans, place.Within 0 size := by
  induction us with
  | nil => simp [outlineAll]
  | cons u us ih =>
    obtain ⟨first, others⟩ := List.forall_mem_cons.mp each
    rw [outlineAll]
    exact List.forall_mem_append.mpr ⟨first.inside depth, ih others⟩

end Program

/-- What a text is read as becomes a root in the source whose units fit there. -/
theorem Session.fits_parseSource (s : Session) {text : String} (small : text.utf8ByteSize < UInt32.size) :
    ∃ units span, (s.parseSource text).1 = .root units span ∧ span.Within 0 text.utf8ByteSize ∧
      ∀ u ∈ units, u.Fits text.utf8ByteSize := by
  unfold parseSource
  cases read : s.syntaxTree .fullSource text with
  | mk result s' =>
    cases result with
    | ok tree =>
      have inside := liesInSource_of_syntaxTree small (congrArg Prod.fst read)
      have shape := s.isRead_of_syntaxTree (congrArg Prod.fst read)
      cases shape with
      | source forms => exact ⟨_, _, rfl, inside.span,
          Resolver.fits_units forms inside.units (Body.liesInSource_empty _)⟩
    | error e =>
      have inside := position_le_of_syntaxTree small (congrArg Prod.fst read)
      have within : e.diagnostic.span.Within 0 text.utf8ByteSize :=
        ⟨Nat.zero_le _, Nat.le_refl _, inside⟩
      exact ⟨_, _, rfl, within, List.forall_mem_singleton.mpr (.error within)⟩

/-- Whatever a session knows, all spans of what it makes of a text lie in the text. In a unit
that is no error the nodes below a node are inside it, apart from each other and in the order
of the source, but for a step that no loop has in the text. For each unit that is an error
there is a line of the text to be shown. -/
theorem spans_nest_in_source (s : Session) {text : String} (small : text.utf8ByteSize < UInt32.size) :
    ∃ units span, (s.parseSource text).1 = .root units span ∧
      (∀ n ∈ (s.parseSource text).1.outline 0, ∀ place ∈ n.2.spans,
        place.Within 0 text.utf8ByteSize) ∧
      (∀ u ∈ units, u.isError = false → ∀ n ∈ u.outline 1, n.2.Nests text.utf8ByteSize) ∧
      ∀ d, .error d ∈ units → d.span.Within 0 text.utf8ByteSize ∧
        (text ≠ "" → (lineAt text d.span.start.offset.toNat).isSome = true) := by
  obtain ⟨units, span, root, within, each⟩ := s.fits_parseSource small
  refine ⟨units, span, root, ?_, fun u member sound => (each u member).nests sound 1, ?_⟩
  · rw [root, Program.outline]
    exact List.forall_mem_cons.mpr ⟨List.forall_mem_singleton.mpr within, Program.inside_outlineAll each 1⟩
  · intro d member
    have inside : d.span.Within 0 text.utf8ByteSize :=
      (each _ member).inside 0 _ (List.mem_singleton_self _) _ (List.mem_singleton_self _)
    exact ⟨inside, fun some => isSome_lineAt some inside.lower_le⟩

/-- A loop without a step, a variable without a value, parentheses that leave no node, one
statement that cannot be read and one that has no meaning. -/
def nestedSource : String :=
  "def unary !(v) if v then 0 else 1;
   def f(x) for i = 1, i < x in var a = !x, b in a * (b + 1);
   def 1; f(2) + g(3); f(1 - 2)"

theorem nested_source_spans : nestedSource.utf8ByteSize < UInt32.size ∧
    ∃ units span, ((Session.new {}).parseSource nestedSource).1 = .root units span ∧
      units.map Program.isError = [false, false, true, true, false] ∧
      (∀ u ∈ units, u.isError = false → ∀ n ∈ u.outline 1, n.2.Nests nestedSource.utf8ByteSize) ∧
      ∀ d, .error d ∈ units → (lineAt nestedSource d.span.start.offset.toNat).isSome = true := by
  have small : nestedSource.utf8ByteSize < UInt32.size := by decide +kernel
  have some : nestedSource ≠ "" := by decide +kernel
  have errors : ((Session.new {}).parseSource nestedSource).1.units.map Program.isError =
      [false, false, true, true, false] := by decide +kernel
  obtain ⟨units, span, root, _, nest, lines⟩ := spans_nest_in_source (Session.new {}) small
  rw [root] at errors
  exact ⟨small, units, span, root, errors, nest, fun d member => (lines d member).2 some⟩

/-- The loop of the second statement stands from byte 47 to byte 95, its variables, its bound
and its body inside it in their order, and its step nowhere. -/
example : (((((Session.new {}).parseSource nestedSource).1.outline 0).drop 11).take 8).map
      (fun n => (n.1, n.2.span.lower, n.2.span.upper)) =
    [(2, 47, 95), (3, 51, 56), (4, 55, 56), (3, 58, 63), (4, 58, 59), (4, 62, 63), (3, 0, 0),
      (3, 67, 95)] := by
  decide +kernel

end OpenExpr
