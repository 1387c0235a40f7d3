import OpenExpr.Statement.Stream

namespace OpenExpr

namespace Framer

/-- What the framer hands on of lines that come one after the other. -/
def fragments (f : Framer) : List String → List Fragment
  | [] => []
  | line :: lines => (f.pushLine line).1 ++ (f.pushLine line).2.fragments lines

/-- The framer behind the lines. -/
def afterLines (f : Framer) : List String → Framer
  | [] => f
  | line :: lines => (f.pushLine line).2.afterLines lines

/-- The states in which the lines come. -/
def statesBefore (f : Framer) : List String → List ReadyState
  | [] => []
  | line :: lines => f.state :: (f.pushLine line).2.statesBefore lines

variable (f : Framer)

/-- Every line says something, be it only that it leaves a statement unfinished. -/
theorem pushLine_ne_nil (line : String) : (f.pushLine line).1 ≠ [] := by
  unfold pushLine
  dsimp only
  cases (Text.cutAfter (· == f.terminator.symbol) line.toList).1 <;> simp [complete]

theorem terminator_afterLines (lines : List String) : (f.afterLines lines).terminator = f.terminator := by
  induction lines generalizing f with
  | nil => rfl
  | cons line lines ih => exact ih (f.pushLine line).2

end Framer

namespace Turn

/-- Nothing happens but that a line is asked for and read. -/
structure IsQuiet (t : Turn) : Prop where
  isCanceled : t.isCanceled = false
  promptFailure : t.promptFailure? = none
  isCanceledMeanwhile : t.isCanceledMeanwhile = false

/-- How an input ends in front of the lines that are left: with the item that is returned
then, whether a line was asked for, and the lines that stay unread. -/
inductive Ends (t : Turn) : List (Except String String) →
    Option (Except InputError Fragment) → Bool → List (Except String String) → Prop
  | canceled {lines} : t.isCanceled = true → Ends t lines none false lines
  | promptFailed {lines message} : t.isCanceled = false → t.promptFailure? = some message →
      Ends t lines (some (.error (.ofChannel message))) true lines
  | exhausted : t.isCanceled = false → t.promptFailure? = none → Ends t [] none true []
  | readFailed {message lines} : t.isCanceled = false → t.promptFailure? = none →
      Ends t (.error message :: lines) (some (.error (.ofChannel message))) true lines
  | canceledMeanwhile {line lines} : t.isCanceled = false → t.promptFailure? = none →
      t.isCanceledMeanwhile = true → Ends t (.ok line :: lines) none true lines

/-- A turn ends the input, or it delivers a line. -/
theorem ends_or_isQuiet (t : Turn) (lines : List (Except String String)) :
    (∃ last isAsked unread, t.Ends lines last isAsked unread) ∨
      t.IsQuiet ∧ ∃ line others, lines = .ok line :: others := by
  cases canceled : t.isCanceled with
  | true => exact .inl ⟨_, _, _, .canceled canceled⟩
  | false =>
    cases prompted : t.promptFailure? with
    | some message => exact .inl ⟨_, _, _, .promptFailed canceled prompted⟩
    | none =>
      cases lines with
      | nil => exact .inl ⟨_, _, _, .exhausted canceled prompted⟩
      | cons first others =>
        cases first with
        | error message => exact .inl ⟨_, _, _, .readFailed canceled prompted⟩
        | ok line =>
          cases meanwhile : t.isCanceledMeanwhile with
          | true => exact .inl ⟨_, _, _, .canceledMeanwhile canceled prompted meanwhile⟩
          | false => exact .inr ⟨⟨canceled, prompted, meanwhile⟩, line, others, rfl⟩

end Turn

namespace StatementStream

/-- The stream behind as many calls, in each of which happens what the turn of its number
says. -/
def after (s : StatementStream) (turns : Nat → Turn) : Nat → StatementStream
  | 0 => s
  | n + 1 => ((s.after turns n).next (turns n)).2

/-- What the call of the number returns. -/
def item (s : StatementStream) (turns : Nat → Turn) (n : Nat) : Option (Except InputError Fragment) :=
  ((s.after turns n).next (turns n)).1

variable {s s' s'' : StatementStream} {turns : Nat → Turn} {x : Fragment} {xs ys : List Fragment}
  {line : String} {read : List String} {lines others unread : List (Except String String)}
  {last : Option (Except InputError Fragment)} {isAsked : Bool}

theorem after_add (s : StatementStream) (turns : Nat → Turn) (n m : Nat) :
    s.after turns (n + m) = (s.after turns n).after (fun i => turns (n + i)) m := by
  induction m with
  | zero => rfl
  | succ m ih => rw [← Nat.add_assoc, after, after, ih]

theorem item_add (s : StatementStream) (turns : Nat → Turn) (n m : Nat) :
    s.item turns (n + m) = (s.after turns n).item (fun i => turns (n + i)) m := by
  rw [item, item, after_add]

/-- The stream returns the fragments, call by call, and is then as given. -/
structure HandsOut (s : StatementStream) (turns : Nat → Turn) (xs : List Fragment)
    (s' : StatementStream) : Prop where
  items : ∀ i x, xs[i]? = some x → s.item turns i = some (.ok x)
  after : s.after turns xs.length = s'

theorem handsOut_nil (s : StatementStream) (turns : Nat → Turn) : s.HandsOut turns [] s where
  items i x found := by cases found
  after := rfl

theorem HandsOut.one (called : s.next (turns 0) = (some (.ok x), s')) : s.HandsOut turns [x] s' where
  items
    | 0, y, found => by
      cases found
      exact congrArg Prod.fst called
  after := congrArg Prod.snd called

theorem HandsOut.append (first : s.HandsOut turns xs s')
    (others : s'.HandsOut (fun i => turns (xs.length + i)) ys s'') :
    s.HandsOut turns (xs ++ ys) s'' where
  items i x found := by
    rcases Nat.lt_or_ge i xs.length with before | behind
    · rw [List.getElem?_append_left before] at found
      exact first.items i x found
    · rw [List.getElem?_append_right behind] at found
      rw [← Nat.add_sub_of_le behind, item_add, first.after]
      exact others.items _ x found
  after := by rw [List.length_append, after_add, first.after, others.after]

/-- What waits to be handed out does not depend on what happens around the calls. -/
theorem handsOut_queue (s : StatementStream) (turns : Nat → Turn) (xs : List Fragment) :
    { s with queue := xs }.HandsOut turns xs { s with queue := [] } := by
  induction xs generalizing turns with
  | nil => exact handsOut_nil _ turns
  | cons x xs ih =>
    have called : { s with queue := x :: xs }.next (turns 0) = (some (.ok x), { s with queue := xs }) := rfl
    exact (HandsOut.one called).append (ih _)

/-- The stream has handed out all that it has read, and its input has not ended. -/
structure IsAtBoundary (s : StatementStream) : Prop where
  queue : s.queue = []
  isDone : s.isDone = false

theorem IsAtBoundary.next (boundary : s.IsAtBoundary) (t : Turn) :
    s.next t = if t.isCanceled then (none, s.stop) else s.readLine t := by
  simp [StatementStream.next, boundary.queue, boundary.isDone]

/-- A stream from which the line has been read. -/
def behind (s : StatementStream) (line : String) (others : List (Except String String)) :
    StatementStream :=
  { s with framer := (s.framer.pushLine line).2, lines := others,
           prompts := s.prompts ++ [s.framer.state] }

/-- A line is handed out as a whole, whatever happens meanwhile. -/
theorem IsAtBoundary.handsOut_line (boundary : s.IsAtBoundary) (left : s.lines = .ok line :: others)
    (quiet : (turns 0).IsQuiet) :
    s.HandsOut turns (s.framer.pushLine line).1 (s.behind line others) := by
  have read : s.next (turns 0) = ({ s.behind line others with
      queue := (s.framer.pushLine line).1 } : StatementStream).handOut := by
    rw [boundary.next, quiet.isCanceled, if_neg Bool.false_ne_true, readLine]
    simp only [quiet.promptFailure, left, quiet.isCanceledMeanwhile]
    rfl
  cases pushed : (s.framer.pushLine line).1 with
  | nil => exact absurd pushed (s.framer.pushLine_ne_nil line)
  | cons x xs =>
    rw [pushed] at read
    have rest := (s.behind line others).handsOut_queue (fun i => turns (1 + i)) xs
    have same : ({ s.behind line others with queue := [] } : StatementStream) = s.behind line others := by
      rw [← boundary.queue]
      rfl
    rw [same] at rest
    exact (HandsOut.one read).append rest

/-- Nothing happens in the calls with which the lines are read. The fragments of the lines
before give the number of the call. -/
def QuietBefore (turns : Nat → Turn) (f : Framer) (read : List String) : Prop :=
  ∀ k < read.length, (turns (f.fragments (read.take k)).length).IsQuiet

theorem quietBefore_cons {f : Framer} :
    QuietBefore turns f (line :: read) ↔ (turns 0).IsQuiet ∧
      QuietBefore (fun i => turns ((f.pushLine line).1.length + i)) (f.pushLine line).2 read := by
  have later (k : Nat) : (f.fragments ((line :: read).take (k + 1))).length =
      (f.pushLine line).1.length + ((f.pushLine line).2.fragments (read.take k)).length :=
    List.length_append
  constructor
  · intro quiet
    refine ⟨quiet 0 (Nat.succ_pos _), fun k inside => ?_⟩
    have here := quiet (k + 1) (Nat.succ_lt_succ inside)
    rwa [later] at here
  · rintro ⟨first, others⟩ k inside
    cases k with
    | zero => exact first
    | succ k =>
      rw [later]
      exact others k (Nat.lt_of_succ_lt_succ inside)

/-- A stream from which lines have been read. -/
def behindAll (s : StatementStream) (read : List String) (rest : List (Except String String)) :
    StatementStream :=
  { s with framer := s.framer.afterLines read, lines := rest,
           prompts := s.prompts ++ s.framer.statesBefore read }

theorem IsAtBoundary.handsOut_lines (boundary : s.IsAtBoundary) (left : s.lines = read.map .ok ++ others)
    (quiet : QuietBefore turns s.framer read) :
    s.HandsOut turns (s.framer.fragments read) (s.behindAll read others) := by
  induction read generalizing s turns with
  | nil =>
    have same : s.behindAll [] others = s := by
      rw [behindAll, Framer.statesBefore, List.append_nil]
      cases left
      rfl
    rw [same]
    exact handsOut_nil s turns
  | cons line read ih =>
    obtain ⟨now, later⟩ := quietBefore_cons.mp quiet
    have first := boundary.handsOut_line left now
    have rest := ih (s := s.behind line (read.map .ok ++ others)) ⟨boundary.queue, boundary.isDone⟩ rfl later
    have same : (s.behind line (read.map .ok ++ others)).behindAll read others =
        s.behindAll (line :: read) others := by
      simp only [behind, behindAll, Framer.afterLines, Framer.statesBefore, List.append_assoc,
        List.singleton_append]
    rw [same] at rest
    exact first.append rest

/-- There is a line in front of which the input ends, and all lines before it are read in
calls in which nothing happens. -/
theorem exists_end (turns : Nat → Turn) (f : Framer) (lines : List (Except String String)) :
    ∃ read rest, lines = read.map .ok ++ rest ∧ QuietBefore turns f read ∧
      ∃ last isAsked unread, (turns (f.fragments read).length).Ends rest last isAsked unread := by
  induction lines generalizing turns f with
  | nil =>
    rcases (turns 0).ends_or_isQuiet [] with ends | ⟨_, line, others, left⟩
    · exact ⟨[], [], rfl, nofun, ends⟩
    · cases left
  | cons first lines ih =>
    rcases (turns 0).ends_or_isQuiet (first :: lines) with ends | ⟨quiet, line, others, left⟩
    · exact ⟨[], _, rfl, nofun, ends⟩
    · cases left
      obtain ⟨read, rest, rfl, later, ends⟩ :=
        ih (fun i => turns ((f.pushLine line).1.length + i)) (f.pushLine line).2
      refine ⟨line :: read, rest, rfl, quietBefore_cons.mpr ⟨quiet, later⟩, ?_⟩
      rw [Framer.fragments, List.length_append]
      exact ends

/-- A stream whose input has ended: what was unfinished is forgotten. -/
def ended (s : StatementStream) (isAsked : Bool) (unread : List (Except String String)) :
    StatementStream :=
  { framer := { terminator := s.framer.terminator }, lines := unread, isDone := true,
    prompts := s.prompts ++ if isAsked then [s.framer.state] else [] }

/-- At its end the stream returns its last item. -/
theorem IsAtBoundary.next_of_ends (boundary : s.IsAtBoundary) (left : s.lines = lines) {t : Turn}
    (ends : t.Ends lines last isAsked unread) : s.next t = (last, s.ended isAsked unread) := by
  rw [boundary.next]
  cases ends with
  | canceled canceled =>
    rw [canceled, if_pos rfl, ended, if_neg Bool.false_ne_true, List.append_nil, ← left]
    rfl
  | promptFailed sound prompted =>
    rw [sound, if_neg Bool.false_ne_true, readLine, ← left]
    simp only [prompted]
    rfl
  | exhausted sound prompted | readFailed sound prompted =>
    rw [sound, if_neg Bool.false_ne_true, readLine]
    simp only [prompted, left]
    rfl
  | canceledMeanwhile sound prompted meanwhile =>
    rw [sound, if_neg Bool.false_ne_true, readLine]
    simp only [prompted, left, meanwhile]
    rfl

/-- A stream that has ended stays as it is. -/
theorem next_of_isDone (queue : s.queue = []) (isDone : s.isDone = true) (t : Turn) :
    s.next t = (none, s) := by
  simp [next, queue, isDone]

theorem after_of_isDone (queue : s.queue = []) (isDone : s.isDone = true) (turns : Nat → Turn) (n : Nat) :
    s.after turns n = s := by
  induction n with
  | zero => rfl
  | succ n ih => rw [after, ih, next_of_isDone queue isDone]

/-- A stream returns the fragments of the lines that it reads, then its last item, and then
nothing. It ends where a statement starts, with nothing pending, and is never asked again. -/
structure Gives (s : StatementStream) (turns : Nat → Turn) (read : List String)
    (last : Option (Except InputError Fragment)) (isAsked : Bool)
    (unread : List (Except String String)) : Prop where
  items : ∀ i x, (s.framer.fragments read)[i]? = some x → s.item turns i = some (.ok x)
  last : s.item turns (s.framer.fragments read).length = last
  nothing : ∀ n, (s.framer.fragments read).length < n → s.item turns n = none
  ended : ∀ n, (s.framer.fragments read).length < n → s.after turns n =
    { framer := { terminator := s.framer.terminator }, lines := unread, isDone := true,
      prompts := s.prompts ++ s.framer.statesBefore read ++
        if isAsked then [(s.framer.afterLines read).state] else [] }

theorem IsAtBoundary.gives (boundary : s.IsAtBoundary) (left : s.lines = read.map .ok ++ others)
    (quiet : QuietBefore turns s.framer read)
    (ends : (turns (s.framer.fragments read).length).Ends others last isAsked unread) :
    s.Gives turns read last isAsked unread := by
  have run := boundary.handsOut_lines left quiet
  have final := IsAtBoundary.next_of_ends (s := s.behindAll read others)
    ⟨boundary.queue, boundary.isDone⟩ rfl ends
  have ended (n : Nat) (behind : (s.framer.fragments read).length < n) :
      s.after turns n = (s.behindAll read others).ended isAsked unread := by
    obtain ⟨m, rfl⟩ := Nat.exists_eq_add_of_lt behind
    rw [Nat.add_right_comm, after_add, after, run.after, final]
    exact after_of_isDone rfl rfl _ m
  exact {
    items := run.items
    last := by rw [item, run.after, final]
    nothing n behind := by rw [item, ended n behind, next_of_isDone rfl rfl]
    ended n behind := by
      rw [ended n behind, StatementStream.ended, behindAll, Framer.terminator_afterLines] }

end StatementStream

/-- Who calls off an input cannot take it back. -/
def Turn.Persist (turns : Nat → Turn) : Prop :=
  ∀ n, (turns n).isCanceled ∨ (turns n).isCanceledMeanwhile → (turns (n + 1)).isCanceled

theorem Turn.Persist.isCanceled {turns : Nat → Turn} (lasting : Turn.Persist turns) {i n : Nat} (before : i ≤ n)
    (canceled : (turns i).isCanceled) : (turns n).isCanceled := by
  induction before with
  | refl => exact canceled
  | step _ ih => exact lasting _ (.inl ih)

/-- Whatever happens around the calls of a stream, it hands out the fragments of a number of
lines at the front of its input, each line as a whole, and ends in front of the first line at
which anything happens or behind all of them. Called off when it has handed out those of some line or a part of them, it
ends behind that line and does not ask for the next. Called off while it asks for a line, it
reads that line and drops it. If nothing happens and all lines can be read, it hands out all of
them, and asks once more at the end. -/
theorem stream_ends_at_line (f : Framer) (lines : List (Except String String)) (turns : Nat → Turn)
    (lasting : Turn.Persist turns) :
    ∃ read rest last isAsked unread, lines = read.map .ok ++ rest ∧
      StatementStream.QuietBefore turns f read ∧
      (turns (f.fragments read).length).Ends rest last isAsked unread ∧
      StatementStream.Gives { framer := f, lines } turns read last isAsked unread ∧
      (∀ k ≤ read.length, ∀ i ≤ (f.fragments (read.take k)).length, (turns i).isCanceled →
        k = read.length ∧ last = none ∧ isAsked = false ∧ unread = rest) ∧
      (∀ k ≤ read.length, (turns (f.fragments (read.take k)).length).isCanceledMeanwhile →
        k = read.length ∧ ∀ line others, rest = .ok line :: others →
          (turns (f.fragments read).length).isCanceled = false →
          (turns (f.fragments read).length).promptFailure? = none →
          last = none ∧ isAsked = true ∧ unread = others) ∧
      ((∀ n, (turns n).IsQuiet) → ∀ texts : List String, lines = texts.map .ok →
        read = texts ∧ last = none ∧ isAsked = true) := by
  obtain ⟨read, rest, split, quiet, last, isAsked, unread, ends⟩ :=
    StatementStream.exists_end turns f lines
  have gives := StatementStream.IsAtBoundary.gives (s := { framer := f, lines }) ⟨rfl, rfl⟩ split quiet ends
  have whole (k : Nat) (within : k ≤ read.length)
      (disturbed : ¬ (turns (f.fragments (read.take k)).length).IsQuiet) : k = read.length :=
    (Nat.lt_or_eq_of_le within).resolve_left fun inside => disturbed (quiet k inside)
  refine ⟨read, rest, last, isAsked, unread, split, quiet, ends, gives, ?_, ?_, ?_⟩
  · intro k within i before canceled
    have here := lasting.isCanceled before canceled
    obtain rfl := whole k within fun quiet => Bool.false_ne_true (quiet.isCanceled.symm.trans here)
    rw [List.take_length] at here
    refine ⟨rfl, ?_⟩
    cases ends with
    | canceled => exact ⟨rfl, rfl, rfl⟩
    | promptFailed sound | exhausted sound | readFailed sound | canceledMeanwhile sound =>
      exact absurd (sound.symm.trans here) Bool.false_ne_true
  · intro k within meanwhile
    obtain rfl := whole k within fun quiet =>
      Bool.false_ne_true (quiet.isCanceledMeanwhile.symm.trans meanwhile)
    refine ⟨rfl, fun line others here sound prompted => ?_⟩
    subst here
    cases ends with
    | canceled canceled => exact absurd (sound.symm.trans canceled) Bool.false_ne_true
    | promptFailed _ failed => cases prompted.symm.trans failed
    | canceledMeanwhile => exact ⟨rfl, rfl, rfl⟩
  · intro undisturbed texts all
    have now := undisturbed (f.fragments read).length
    rw [split] at all
    cases ends with
    | canceled canceled => exact absurd (now.isCanceled.symm.trans canceled) Bool.false_ne_true
    | promptFailed _ failed => cases now.promptFailure.symm.trans failed
    | canceledMeanwhile _ _ meanwhile =>
      exact absurd (now.isCanceledMeanwhile.symm.trans meanwhile) Bool.false_ne_true
    | @readFailed message =>
      have among : Except.error message ∈ texts.map Except.ok := by simp [← all]
      obtain ⟨_, _, same⟩ := List.mem_map.mp among
      cases same
    | exhausted =>
      rw [List.append_nil] at all
      exact ⟨(List.map_inj_right fun _ _ => Except.ok.inj).mp all, rfl, rfl⟩

/-- Two lines, and the input is called off when the first of three fragments has been
handed out: the other two follow, the second line is not asked for. -/
theorem stream_called_off_within_line :
    let s : StatementStream := { framer := {}, lines := [.ok "1; 2; 3", .ok "4;"] }
    let turns (n : Nat) : Turn := { isCanceled := n != 0, isCanceledMeanwhile := n != 0 }
    Turn.Persist turns ∧ s.Gives turns ["1; 2; 3"] none false [.ok "4;"] ∧
      s.framer.fragments ["1; 2; 3"] = [⟨"1;", false⟩, ⟨" 2;", false⟩, ⟨" 3", true⟩] := by
  intro s turns
  have lasting : Turn.Persist turns := fun n _ => by simp [turns]
  refine ⟨lasting, ?_, by decide +kernel⟩
  obtain ⟨read, rest, last, isAsked, unread, split, _, ends, gives, canceled, _⟩ :=
    stream_ends_at_line {} [.ok "1; 2; 3", .ok "4;"] turns lasting
  cases read with
  | nil =>
    subst split
    cases ends with
    | canceled now | canceledMeanwhile _ _ now | promptFailed _ now => cases now
  | cons line read =>
    obtain ⟨same, others⟩ := List.cons.inj split
    cases same
    have within : 1 ≤ (Framer.fragments {} ["1; 2; 3"]).length := by decide +kernel
    obtain ⟨one, rfl, rfl, rfl⟩ := canceled 1 (Nat.succ_le_succ (Nat.zero_le _)) 1 within rfl
    obtain rfl := List.eq_nil_of_length_eq_zero (Nat.succ.inj one).symm
    cases others
    exact gives

end OpenExpr
