import OpenExpr.Proofs.Shell.Pieces

namespace OpenExpr

/-- Fragments that come one after the other, each with the state in which it comes. -/
def ReadyState.meets (state : ReadyState) : List Fragment → List (ReadyState × Fragment)
  | [] => []
  | x :: xs => (state, x) :: (state.next x.isPartial x.isBlank).meets xs

theorem ReadyState.mem_of_meets {state : ReadyState} {xs : List Fragment} {m : ReadyState × Fragment}
    (met : m ∈ state.meets xs) : m.2 ∈ xs := by
  induction xs generalizing state with
  | nil => cases met
  | cons x xs ih =>
    rcases List.mem_cons.mp met with rfl | later
    · exact List.mem_cons_self
    · exact List.mem_cons_of_mem x (ih later)

/-- Where a statement has ended, another starts. -/
theorem ReadyState.next_complete (state : ReadyState) (isBlank : Bool) :
    state.next false isBlank = .start := by
  cases state <;> rfl

/-- A blank piece leaves the state as it is. -/
theorem ReadyState.next_blank (state : ReadyState) : state.next true true = state := by
  cases state <;> rfl

/-- Where a piece that says something is left unfinished, the next line goes on with it. -/
theorem ReadyState.next_unfinished (state : ReadyState) : state.next true false = .continuing := by
  cases state <;> rfl

theorem Terminator.symbol_of_ofChar {c : Char} {t : Terminator} (accepted : ofChar c = .ok t) :
    t.symbol = c := by
  unfold ofChar at accepted
  split at accepted <;> cases accepted
  rfl

namespace Framer

/-- What a framer can be asked to do. -/
inductive Call where
  | line (text : String)
  | finish

def call (f : Framer) : Call → Framer
  | .line text => (f.pushLine text).2
  | .finish => f.finish

/-- The framer behind calls that come one after the other. -/
def calls (f : Framer) (cs : List Call) : Framer :=
  cs.foldl call f

/-- The state tells whether something is pending, and what is pending is the unfinished
text of a statement: it is not blank, and it ends with a line. -/
structure IsSettled (f : Framer) : Prop where
  state : f.state = .continuing ↔ f.pending ≠ ""
  free : f.terminator.symbol ∉ f.pending.toList
  visible : f.pending ≠ "" → ∃ c ∈ f.pending.toList, Text.isBlank c = false
  broken : f.pending ≠ "" → f.pending.toList.getLast? = some '\n'

variable {f : Framer}

theorem isSettled_of_start (state : f.state = .start) (pending : f.pending = "") : f.IsSettled where
  state := by simp [state, pending]
  free := by simp [pending]
  visible some := absurd pending some
  broken some := absurd pending some

/-- A text that holds the terminator is not blank. -/
theorem isBlankText_of_mem {t : Terminator} {text : String} (member : t.symbol ∈ text.toList) :
    Text.isBlankText text = false := by
  refine Bool.eq_false_iff.mpr fun blank => ?_
  have all := List.all_eq_true.mp blank t.symbol member
  rw [t.isBlank_symbol] at all
  cases all

theorem mem_of_mem_complete {pieces : List (List Char)}
    (ended : ∀ piece ∈ pieces, f.terminator.symbol ∈ piece) {x : Fragment}
    (member : x ∈ f.complete pieces) : f.terminator.symbol ∈ x.text.toList := by
  cases pieces with
  | nil => cases member
  | cons piece pieces =>
    rcases List.mem_cons.mp member with rfl | later
    · simp [ended piece List.mem_cons_self]
    · obtain ⟨other, inside, rfl⟩ := List.mem_map.mp later
      simpa using ended other (List.mem_cons_of_mem piece inside)

/-- A whole statement holds its terminator, so it is not blank. -/
theorem isBlank_of_mem_pushLine {line : String} {x : Fragment} (member : x ∈ (f.pushLine line).1)
    (whole : x.isPartial = false) : x.isBlank = false := by
  have pieces := Text.exists_of_mem_cutAfter (· == f.terminator.symbol) line.toList
  have ended : ∀ piece ∈ (Text.cutAfter (· == f.terminator.symbol) line.toList).1,
      f.terminator.symbol ∈ piece := by
    intro piece inside
    obtain ⟨body, c, rfl, last, _⟩ := pieces piece inside
    rw [← beq_iff_eq.mp last]
    simp
  rcases List.mem_append.mp member with statement | tail
  · exact isBlankText_of_mem (mem_of_mem_complete ended statement)
  · split at tail
    · rw [List.mem_singleton.mp tail] at whole
      cases whole
    · cases tail

/-- Behind the statements that end on a line the next one starts. -/
theorem foldl_complete (state : ReadyState) (pieces : List (List Char)) :
    (f.complete pieces).foldl (fun s x => s.next x.isPartial x.isBlank) state =
      if pieces.isEmpty then state else .start := by
  have starts (xs : List Fragment) (whole : ∀ x ∈ xs, x.isPartial = false) :
      xs.foldl (fun s x => s.next x.isPartial x.isBlank) .start = ReadyState.start := by
    induction xs with
    | nil => rfl
    | cons x xs ih =>
      obtain ⟨first, others⟩ := List.forall_mem_cons.mp whole
      rw [List.foldl_cons, first, ReadyState.next_complete, ih others]
  cases pieces with
  | nil => rfl
  | cons piece pieces =>
    rw [complete, List.foldl_cons, ReadyState.next_complete]
    exact starts _ (by simp)

/-- A line leaves a statement unfinished if it says more behind its last terminator. If it
says nothing there, only the terminators count. -/
theorem state_pushLine (f : Framer) (line : String) : (f.pushLine line).2.state =
    if (f.terminator.tailOf line).all Text.isBlank then
      if (Text.cutAfter (· == f.terminator.symbol) line.toList).1.isEmpty then f.state else .start
    else .continuing := by
  have tail := f.terminator.cutAfter_rest line
  unfold pushLine
  dsimp only
  rw [List.foldl_append, foldl_complete, tail]
  generalize (Text.cutAfter (· == f.terminator.symbol) line.toList).1 = pieces
  generalize (if pieces.isEmpty then f.state else ReadyState.start) = before
  generalize f.terminator.tailOf line = rest
  have same : ({ text := String.ofList rest, isPartial := true } : Fragment).isBlank =
      rest.all Text.isBlank := by
    rw [Fragment.isBlank, Text.isBlankText, String.toList_ofList]
  cases blank : rest.all Text.isBlank with
  | true =>
    split
    · rw [List.foldl_cons, List.foldl_nil, same, blank, ReadyState.next_blank, if_pos rfl]
    · rfl
  | false =>
    have some : rest.isEmpty = false := by
      cases rest with
      | nil => cases blank
      | cons => rfl
    rw [some, Bool.not_false, Bool.or_true, if_pos rfl, List.foldl_cons, List.foldl_nil, same, blank,
      ReadyState.next_unfinished]
    rfl

theorem pending_pushLine (f : Framer) (line : String) : (f.pushLine line).2.pending =
    (if (Text.cutAfter (· == f.terminator.symbol) line.toList).1.isEmpty then f.pending else "") ++
      carried (f.terminator.tailOf line) := by
  rw [← f.terminator.cutAfter_rest]
  rfl

theorem toList_carried {rest : List Char} (visible : rest.all Text.isBlank = false) :
    (carried rest).toList = rest ++ ['\n'] := by
  rw [carried, visible, if_neg Bool.false_ne_true, String.toList_ofList]

namespace IsSettled

/-- What a line adds to what is pending, if it adds anything, can be seen and ends with a
line break. A line that adds nothing leaves all as it was, or ends what was pending. -/
theorem pushLine (settled : f.IsSettled) (line : String) : (f.pushLine line).2.IsSettled := by
  have free := pushLine_free settled.free line
  have state := f.state_pushLine line
  have pending := f.pending_pushLine line
  cases blank : (f.terminator.tailOf line).all Text.isBlank with
  | true =>
    rw [blank, if_pos rfl] at state
    rw [carried, if_pos blank, String.append_empty] at pending
    cases ends : (Text.cutAfter (· == f.terminator.symbol) line.toList).1.isEmpty with
    | true =>
      rw [ends, if_pos rfl] at state pending
      exact {
        state := by rw [state, pending]; exact settled.state
        free
        visible := by rw [pending]; exact settled.visible
        broken := by rw [pending]; exact settled.broken }
    | false =>
      rw [ends, if_neg Bool.false_ne_true] at state pending
      exact isSettled_of_start state pending
  | false =>
    rw [blank, if_neg Bool.false_ne_true] at state
    have letters := congrArg String.toList pending
    rw [String.toList_append, toList_carried blank, ← List.append_assoc] at letters
    obtain ⟨c, inside, visible⟩ : ∃ c ∈ f.terminator.tailOf line, Text.isBlank c = false := by
      simpa using blank
    have some : (f.pushLine line).2.pending ≠ "" := by
      intro none
      rw [none] at letters
      simp at letters
    exact {
      state := iff_of_true state some
      free
      visible := fun _ => ⟨c, by simp [letters, inside], visible⟩
      broken := fun _ => by rw [letters, List.getLast?_concat] }

theorem call (settled : f.IsSettled) (c : Call) : (f.call c).IsSettled := by
  cases c with
  | line text => exact settled.pushLine text
  | finish => exact isSettled_of_start rfl rfl

theorem calls (settled : f.IsSettled) (cs : List Call) : (f.calls cs).IsSettled := by
  induction cs generalizing f with
  | nil => exact settled
  | cons c cs ih => exact ih (settled.call c)

end IsSettled

theorem terminator_calls (f : Framer) (cs : List Call) : (f.calls cs).terminator = f.terminator := by
  induction cs generalizing f with
  | nil => rfl
  | cons c cs ih =>
    refine (ih (f.call c)).trans ?_
    cases c <;> rfl

/-- Whatever a framer has been asked to do, it goes on with a statement exactly if something
is pending. That never holds the terminator, is never blank, and ends with a line break. On
no line a blank text ends where a statement starts. -/
theorem prompt_of_pending {c : Char} {t : Terminator} (accepted : Terminator.ofChar c = .ok t)
    (cs : List Call) :
    let f := Framer.calls { terminator := t } cs
    (f.state = .continuing ↔ f.pending ≠ "") ∧
      c ∉ f.pending.toList ∧
      (f.pending ≠ "" → (∃ d ∈ f.pending.toList, Text.isBlank d = false) ∧
        f.pending.toList.getLast? = some '\n') ∧
      ∀ line, ∀ m ∈ f.state.meets (f.pushLine line).1,
        m.1 = .start → m.2.isPartial = false → m.2.isBlank = false := by
  intro f
  have settled : f.IsSettled := (isSettled_of_start rfl rfl).calls cs
  have free := settled.free
  rw [show f.terminator = t from terminator_calls _ cs, Terminator.symbol_of_ofChar accepted] at free
  refine ⟨settled.state, free, fun some => ⟨settled.visible some, settled.broken some⟩, ?_⟩
  exact fun line m met _ whole => isBlank_of_mem_pushLine (ReadyState.mem_of_meets met) whole

/-- A sum that is broken off, behind a statement on the same line and one that was given up. -/
theorem broken_sum_pending :
    let f := Framer.calls {} [.line "def f(x", .finish, .line "  ", .line "1; 2 +", .line " "]
    Terminator.ofChar ';' = .ok .semicolon ∧ f.pending = " 2 +\n" ∧
      f.state.meets (f.pushLine "3; ").1 =
        [(.continuing, { text := " 2 +\n3;", isPartial := false }),
          (.start, { text := " ", isPartial := true })] ∧
      (f.state = .continuing ↔ f.pending ≠ "") ∧
      ';' ∉ f.pending.toList ∧
      (f.pending ≠ "" → (∃ d ∈ f.pending.toList, Text.isBlank d = false) ∧
        f.pending.toList.getLast? = some '\n') ∧
      ∀ line, ∀ m ∈ f.state.meets (f.pushLine line).1,
        m.1 = .start → m.2.isPartial = false → m.2.isBlank = false := by
  have accepted : Terminator.ofChar ';' = .ok .semicolon := Terminator.ofChar_symbol .semicolon
  exact ⟨accepted, by decide +kernel, by decide +kernel, prompt_of_pending accepted _⟩

end Framer

end OpenExpr
