import OpenExpr.Proofs.Shell.Framing
import OpenExpr.Proofs.Text.Cut

namespace OpenExpr

namespace Terminator

variable (t : Terminator)

/-- What stands behind the last terminator of a line. -/
def tailOf (line : String) : List Char :=
  line.toList.rtakeWhile (· != t.symbol)

/-- What framing keeps of a line: all up to its last terminator, and its tail with a line
break unless that is blank. -/
def keptOf (line : String) : List Char :=
  line.toList.rdropWhile (· != t.symbol) ++
    if (t.tailOf line).all Text.isBlank then [] else t.tailOf line ++ ['\n']

/-- Of the fragments of a line only the last may be unfinished. It is the tail of the
line, and it is missing only if the line ends in a terminator. -/
def HasTail (line : String) (fragments : List Fragment) : Prop :=
  ∃ ended : List Fragment, (∀ x ∈ ended, x.isPartial = false) ∧ fragments = ended ++
    if line.toList.getLast? = some t.symbol then []
    else [{ text := String.ofList (t.tailOf line), isPartial := true }]

theorem isBlank_symbol : Text.isBlank t.symbol = false :=
  (Bool.or_eq_false_iff.mp t.isVisible).1

/-- What cannot be seen is no terminator. -/
theorem ne_symbol {c : Char} (hidden : (Text.isBlank c || Text.isControl c) = true) : c ≠ t.symbol := by
  rintro rfl
  rw [t.isVisible] at hidden
  cases hidden

theorem newline_ne : '\n' ≠ t.symbol :=
  t.ne_symbol (by decide)

theorem cutAfter_rest (line : String) :
    (Text.cutAfter (· == t.symbol) line.toList).2 = t.tailOf line :=
  (Text.cutAfter_eq_right _ _).2

/-- What framing keeps of a line, from the cut of the line. -/
theorem keptOf_eq (line : String) : t.keptOf line =
    (Text.cutAfter (· == t.symbol) line.toList).1.flatten ++
      (Framer.carried (Text.cutAfter (· == t.symbol) line.toList).2).toList := by
  have pieces := (Text.cutAfter_eq_right (· == t.symbol) line.toList).1
  rw [cutAfter_rest, pieces, keptOf, Framer.carried]
  split
  · rfl
  · rw [String.toList_ofList]
    rfl

theorem not_mem_cutAfter_rest (text : List Char) :
    t.symbol ∉ (Text.cutAfter (· == t.symbol) text).2 := fun member => by
  simpa using Text.not_of_mem_cutAfter_rest (· == t.symbol) text _ member

theorem exists_body_of_mem_cutAfter {text piece : List Char}
    (member : piece ∈ (Text.cutAfter (· == t.symbol) text).1) :
    ∃ body, piece = body ++ [t.symbol] ∧ t.symbol ∉ body := by
  obtain ⟨body, c, rfl, last, others⟩ := Text.exists_of_mem_cutAfter _ text piece member
  refine ⟨body, by rw [beq_iff_eq.mp last], fun inside => ?_⟩
  simpa using others _ inside

theorem not_mem_carried (line : String) :
    t.symbol ∉ (Framer.carried (Text.cutAfter (· == t.symbol) line.toList).2).toList := by
  have tail := t.not_mem_cutAfter_rest line.toList
  unfold Framer.carried
  split
  · exact List.not_mem_nil
  · rw [String.toList_ofList, List.mem_append, List.mem_singleton]
    exact fun member => member.elim tail fun same => t.newline_ne same.symm

end Terminator

namespace Framer

/-- What lines are cut into, line by line, and the framer behind them. -/
def pushLines (f : Framer) : List String → List (List Fragment) × Framer
  | [] => ([], f)
  | line :: lines =>
    ((f.pushLine line).1 :: ((f.pushLine line).2.pushLines lines).1,
      ((f.pushLine line).2.pushLines lines).2)

variable {f : Framer}

private theorem uncut_of_not_mem {t : Terminator} {text : List Char} (free : t.symbol ∉ text) :
    ∀ c ∈ text, (c == t.symbol) = false := fun _ member =>
  beq_eq_false_iff_ne.mpr fun same => free (same ▸ member)

/-- A line is cut together with what was pending. -/
theorem pushLine_cut (free : f.terminator.symbol ∉ f.pending.toList) (line : String) :
    Text.cutAfter (· == f.terminator.symbol) (f.pending.toList ++ f.terminator.keptOf line) =
      ((Fragment.statements (f.pushLine line).1).map String.toList,
        (f.pushLine line).2.pending.toList) := by
  have ended := Text.exists_of_mem_cutAfter (· == f.terminator.symbol) line.toList
  have carriedFree := uncut_of_not_mem (f.terminator.not_mem_carried line)
  rw [f.terminator.keptOf_eq, Text.cutAfter_append_right _ (uncut_of_not_mem free),
    Text.cutAfter_append_left _ carriedFree, Text.cutAfter_flatten _ ended]
  unfold pushLine
  generalize Text.cutAfter (· == f.terminator.symbol) line.toList = cuts
  rcases cuts with ⟨_ | ⟨piece, pieces⟩, rest⟩
  · simp [Fragment.statements, complete]
  · have whole := f.statements_complete piece pieces (!rest.isEmpty) (String.ofList rest)
    dsimp only
    rw [show (piece :: pieces).isEmpty = false from rfl, Bool.false_or, whole]
    simp [Function.comp_def]

/-- A line is cut into whole statements and then its tail. Only a line that ends in a
terminator has no tail. -/
theorem pushLine_tail (f : Framer) (line : String) :
    f.terminator.HasTail line (f.pushLine line).1 := by
  have only : ∀ c, (c == f.terminator.symbol) = true ↔ c = f.terminator.symbol := fun _ => beq_iff_eq
  unfold Terminator.HasTail
  simp only [← Text.cutAfter_ended_iff only line.toList, ← f.terminator.cutAfter_rest]
  unfold pushLine
  generalize Text.cutAfter (· == f.terminator.symbol) line.toList = cuts
  rcases cuts with ⟨pieces, rest⟩
  refine ⟨f.complete pieces, ?_, ?_⟩
  · cases pieces <;> simp [complete]
  · cases pieces <;> cases rest <;> simp

theorem terminator_pushLine (f : Framer) (line : String) :
    (f.pushLine line).2.terminator = f.terminator := rfl

theorem pushLine_free (free : f.terminator.symbol ∉ f.pending.toList) (line : String) :
    f.terminator.symbol ∉ (f.pushLine line).2.pending.toList := by
  have left := Text.not_of_mem_cutAfter_rest (· == f.terminator.symbol)
    (f.pending.toList ++ f.terminator.keptOf line)
  rw [pushLine_cut free] at left
  exact fun member => by simpa using left _ member

/-- Lines are cut together with what was pending, by induction on the lines: what is
pending never holds a terminator. -/
theorem pushLines_cut_pending (free : f.terminator.symbol ∉ f.pending.toList)
    (lines : List String) : Text.cutAfter (· == f.terminator.symbol)
        (f.pending.toList ++ lines.flatMap f.terminator.keptOf) =
      ((Fragment.statements (f.pushLines lines).1.flatten).map String.toList,
        (f.pushLines lines).2.pending.toList) := by
  induction lines generalizing f with
  | nil =>
    have uncut := Text.cutAfter_append_left _ (uncut_of_not_mem free) []
    simpa [pushLines, Fragment.statements, Text.cutAfter] using uncut
  | cons line lines ih =>
    have first := pushLine_cut free line
    have others := ih (f := (f.pushLine line).2) (pushLine_free free line)
    rw [terminator_pushLine] at others
    rw [List.flatMap_cons, ← List.append_assoc, Text.cutAfter_append, first, others]
    simp [pushLines, Fragment.statements]

theorem pushLines_tails (f : Framer) (lines : List String) :
    List.Forall₂ f.terminator.HasTail lines (f.pushLines lines).1 := by
  induction lines generalizing f with
  | nil => exact .nil
  | cons line lines ih => exact .cons (f.pushLine_tail line) (ih (f.pushLine line).2)

/-- Nothing is lost or moved by framing. What is kept of the lines is the statements that
ended on them, cut after every terminator, and what is pending. -/
theorem pushLines_cut (t : Terminator) (lines : List String) :
    let run := Framer.pushLines { terminator := t } lines
    let statements := (Fragment.statements run.1.flatten).map String.toList
    let pending := run.2.pending.toList
    Text.cutAfter (· == t.symbol) (lines.flatMap t.keptOf) = (statements, pending) ∧
      statements.flatten ++ pending = lines.flatMap t.keptOf ∧
      (∀ statement ∈ statements, ∃ body, statement = body ++ [t.symbol] ∧ t.symbol ∉ body) ∧
      t.symbol ∉ pending ∧
      List.Forall₂ t.HasTail lines run.1 := by
  have cut := pushLines_cut_pending (f := { terminator := t }) (by simp) lines
  rw [show ({ terminator := t } : Framer).pending.toList = [] from rfl, List.nil_append] at cut
  have whole := Text.flatten_cutAfter (· == t.symbol) (lines.flatMap t.keptOf)
  have ended := Text.exists_of_mem_cutAfter (· == t.symbol) (lines.flatMap t.keptOf)
  have left := Text.not_of_mem_cutAfter_rest (· == t.symbol) (lines.flatMap t.keptOf)
  rw [cut] at whole ended left
  refine ⟨cut, whole, fun statement member => ?_, fun member => ?_, pushLines_tails { terminator := t } lines⟩
  · obtain ⟨body, c, same, last, free⟩ := ended statement member
    refine ⟨body, by rw [same, beq_iff_eq.mp last], fun member => ?_⟩
    simpa using free _ member
  · simpa using left _ member

end Framer

end OpenExpr
