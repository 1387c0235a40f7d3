import OpenExpr.Proofs.Token.Tiling

namespace OpenExpr

/-! The same text some bytes later in a source. -/

namespace Lexeme

def shift (n : Nat) (l : Lexeme) : Lexeme :=
  { l with offset := l.offset + n }

def Stray.shift (n : Nat) (e : Stray) : Stray :=
  { e with offset := e.offset + n }

def Pending.shift (n : Nat) : Pending → Pending
  | .nothing => .nothing
  | .comment => .comment
  | .word offset text => .word (offset + n) text
  | .whole offset digits => .whole (offset + n) digits
  | .point offset => .point (offset + n)
  | .fraction offset digits => .fraction (offset + n) digits

namespace Scanner

def shift (n : Nat) (s : Scanner) : Scanner :=
  { offset := s.offset + n, pending := s.pending.shift n, done := s.done.map (Lexeme.shift n) }

def resultShift (n : Nat) : Except Stray Scanner → Except Stray Scanner
  | .ok s => .ok (s.shift n)
  | .error e => .error (e.shift n)

variable (n : Nat) (s : Scanner) (c : Char)

theorem lexeme?_shift : (s.shift n).lexeme? = s.lexeme?.map (Lexeme.shift n) := by
  obtain ⟨_, pending, _⟩ := s
  cases pending <;> rfl

theorem flush_shift : (s.shift n).flush = s.flush.shift n := by
  have last := s.lexeme?_shift n
  unfold flush
  rw [last]
  cases s.lexeme? <;> rfl

theorem lexemes_shift : (s.shift n).lexemes = s.lexemes.map (Lexeme.shift n) := by
  have done : (s.shift n).flush.done = s.flush.done.map (Lexeme.shift n) := by
    rw [flush_shift]
    rfl
  exact (congrArg List.reverse done).trans List.map_reverse.symm

theorem moveTo_shift (pending : Pending) :
    (s.shift n).moveTo c (pending.shift n) = (s.moveTo c pending).shift n := by
  simp [moveTo, shift, Nat.add_right_comm]

theorem start_shift : (s.shift n).start c = resultShift n (s.start c) := by
  have moved (pending : Pending) : (.ok ((s.flush.shift n).moveTo c (pending.shift n)) :
      Except Stray Scanner) = resultShift n (.ok (s.flush.moveTo c pending)) := by
    rw [moveTo_shift]
    rfl
  unfold start
  rw [flush_shift]
  simp only [apply_ite (resultShift n)]
  refine ite_congr rfl (fun _ => moved .nothing) fun _ => ?_
  refine ite_congr rfl (fun _ => moved .comment) fun _ => ?_
  refine ite_congr rfl (fun _ => moved (.word s.offset [c])) fun _ => ?_
  refine ite_congr rfl (fun _ => moved (.whole s.offset [c])) fun _ => ?_
  refine ite_congr rfl (fun _ => moved (.point s.offset)) fun _ => ?_
  refine ite_congr rfl (fun _ => ?_) fun _ => rfl
  simp [resultShift, shift, moveTo, Pending.shift, Lexeme.shift, Nat.add_right_comm]

/-- A character does the same wherever it stands. -/
theorem feed_shift : (s.shift n).feed c = resultShift n (s.feed c) := by
  have started := s.start_shift n c
  have moved (pending : Pending) : (.ok ((s.shift n).moveTo c (pending.shift n)) :
      Except Stray Scanner) = resultShift n (.ok (s.moveTo c pending)) := by
    rw [moveTo_shift]
    rfl
  obtain ⟨offset, pending, done⟩ := s
  cases pending <;> simp only [feed, shift, Pending.shift, apply_ite (resultShift n)]
  case nothing => exact started
  case comment => exact ite_congr rfl (fun _ => started) fun _ => moved .comment
  case word start text =>
    exact ite_congr rfl (fun _ => moved (.word start (c :: text))) fun _ => started
  case whole start digits =>
    exact ite_congr rfl (fun _ => moved (.whole start (c :: digits))) fun _ =>
      ite_congr rfl (fun _ => moved (.fraction start (c :: digits))) fun _ => started
  case point start => exact ite_congr rfl (fun _ => moved (.fraction start [c, '.'])) fun _ => started
  case fraction start digits =>
    exact ite_congr rfl (fun _ => moved (.fraction start (c :: digits))) fun _ => started

theorem read_shift (text : List Char) : (s.shift n).read text = resultShift n (s.read text) := by
  induction text generalizing s with
  | nil => rfl
  | cons c text ih =>
    rw [read_cons, read_cons, feed_shift]
    cases s.feed c with
    | error e => rfl
    | ok t => exact ih t

end Scanner

/-- A text on a new line is read as it is by itself, only later in the source. -/
theorem ofSource_newline_eq (a b : String) : ofSource (a ++ "\n" ++ b) =
    (ofSource a).bind fun ls => match ofSource b with
      | .ok ls' => .ok (ls ++ ls'.map (shift (a.utf8ByteSize + 1)))
      | .error e => .error (e.shift (a.utf8ByteSize + 1)) := by
  have text : (a ++ "\n" ++ b).toList = a.toList ++ '\n' :: b.toList := by simp
  unfold ofSource
  rw [text, Scanner.read_append]
  cases first : Scanner.read {} a.toList with
  | error e => rfl
  | ok s =>
    have fresh : Scanner.HasRead {} [] := .idle rfl .nil
    have reached : s.offset = a.utf8ByteSize :=
      (fresh.read rfl first).2.trans (Text.byteCount_toList a)
    -- the line break leaves the scanner as at the start of a text, but for what it has done
    have line : s.flush.moveTo '\n' .nothing =
        (Scanner.shift (a.utf8ByteSize + 1) {}).onto s.flush.done := by
      simp [Scanner.moveTo, Scanner.flush, Scanner.shift, Scanner.onto, Pending.shift, reached]
      rfl
    change ((s.feed '\n').bind fun t => t.read b.toList).map Scanner.lexemes = _
    rw [Scanner.feed_newline, line]
    change (Scanner.read (.onto (.shift _ {}) s.flush.done) b.toList).map Scanner.lexemes = _
    rw [Scanner.read_onto, Scanner.read_shift]
    cases Scanner.read {} b.toList with
    | error e => rfl
    | ok t =>
      refine congrArg Except.ok ?_
      rw [Scanner.lexemes_onto, Scanner.lexemes_shift]
      rfl

end Lexeme

/-! Tokens and faults of the same text some bytes later. -/

def Position.shift (n : Nat) (p : Position) : Position :=
  { p with offset := (p.offset.toNat + n).toUInt32 }

def Span.shift (n : Nat) (s : Span) : Span :=
  { start := s.start.shift n, stop := s.stop.shift n }

def Token.shift (n : Nat) (t : Token) : Token :=
  { t with span := t.span.shift n }

def InputError.shift (n : Nat) (e : InputError) : InputError :=
  { e with position := e.position.shift n }

/-- The place lies the given number of bytes later, and the count does not wrap around. -/
def Position.IsShifted (n : Nat) (p : Position) : Prop :=
  (p.shift n).offset.toNat = p.offset.toNat + n

theorem Position.isShifted {n : Nat} {p : Position} (small : p.offset.toNat + n < UInt32.size) :
    p.IsShifted n :=
  toNat_toUInt32 small

theorem Position.shift_eq (n : Nat) (file : String) {offset : Nat} (small : offset < UInt32.size) :
    Position.shift n { offset := offset.toUInt32, file } = { offset := (offset + n).toUInt32, file } := by
  unfold Position.shift
  rw [toNat_toUInt32 small]

/-- A text is refused at a character inside it. -/
theorem Lexeme.offset_le_of_error {source : String} {e : Stray} (read : ofSource source = .error e) :
    e.offset ≤ source.utf8ByteSize := by
  have stray := ofSource_eq_error_iff.mp read
  obtain ⟨p, found, rfl⟩ := Option.map_eq_some_iff.mp stray
  have inside := Text.le_of_mem_outsideComments (List.mem_of_find?_eq_some found)
  rwa [Nat.zero_add, Text.byteCount_toList] at inside

theorem Lexeme.toToken_shift {l : Lexeme} (file : String) (level : Level) (n : Nat)
    (small : l.offset + l.text.utf8ByteSize < UInt32.size) :
    (l.shift n).toToken file level = (l.toToken file level).shift n := by
  have before : l.offset < UInt32.size := Nat.lt_of_le_of_lt (Nat.le_add_right _ _) small
  have start := Position.shift_eq n file before
  have stop := Position.shift_eq n file small
  have size : l.offset + n + l.text.utf8ByteSize = l.offset + l.text.utf8ByteSize + n :=
    Nat.add_right_comm _ _ _
  unfold toToken Token.shift Span.shift Lexeme.shift
  dsimp only
  rw [start, stop, size]
  rfl

/-! A text that leaves room in front of it for `n` more bytes. -/

section Room

variable {source : String} {n : Nat} (file : String) (level : Level)

theorem Lexeme.map_toToken_shift {lexemes : List Lexeme}
    (room : source.utf8ByteSize + n < UInt32.size) (read : ofSource source = .ok lexemes) :
    (lexemes.map (shift n)).map (toToken file level) =
      (lexemes.map (toToken file level)).map (Token.shift n) := by
  rw [List.map_map, List.map_map]
  refine List.map_congr_left fun l member => ?_
  have bound := bound_of_mem read member
  exact toToken_shift file level n (by omega)

theorem Token.endAt_shift (room : source.utf8ByteSize + n < UInt32.size) :
    (Token.endAt { offset := source.utf8ByteSize.toUInt32, file }).shift n =
      .endAt { offset := (source.utf8ByteSize + n).toUInt32, file } := by
  have finish := Position.shift_eq n file (Nat.lt_of_le_of_lt (Nat.le_add_right _ _) room)
  exact congrArg Token.endAt finish

/-- No token of the text ends so late that its place would wrap around. -/
theorem isShifted_of_tokenize (room : source.utf8ByteSize + n < UInt32.size) {tokens : List Token}
    (run : tokenize level file source = .ok tokens) :
    ∀ t ∈ tokens, t.span.start.IsShifted n ∧ t.span.stop.IsShifted n := by
  unfold tokenize at run
  cases read : Lexeme.ofSource source with
  | error e =>
    rw [read] at run
    cases run
  | ok lexemes =>
    rw [read] at run
    cases run
    intro t member
    rcases List.mem_append.mp member with body | last
    · obtain ⟨l, found, rfl⟩ := List.mem_map.mp body
      have bound := Lexeme.bound_of_mem read found
      have start := l.start_toToken file level (by omega)
      have stop := l.stop_toToken file level (by omega)
      exact ⟨Position.isShifted (by omega), Position.isShifted (by omega)⟩
    · obtain rfl := List.mem_singleton.mp last
      have finish := toNat_toUInt32 (Nat.lt_of_le_of_lt (Nat.le_add_right _ _) room)
      have shifted : Position.IsShifted n { offset := source.utf8ByteSize.toUInt32, file } :=
        Position.isShifted (by rw [finish]; exact room)
      exact ⟨shifted, shifted⟩

theorem isShifted_of_tokenize_error (room : source.utf8ByteSize + n < UInt32.size) {e : InputError}
    (run : tokenize level file source = .error e) : e.position.IsShifted n := by
  unfold tokenize at run
  cases read : Lexeme.ofSource source with
  | error stray =>
    have inside := Lexeme.offset_le_of_error read
    have place := toNat_toUInt32 (show stray.offset < UInt32.size by omega)
    rw [read] at run
    cases run
    exact Position.isShifted (by rw [place]; omega)
  | ok lexemes =>
    rw [read] at run
    cases run

end Room

theorem utf8ByteSize_newline (a b : String) :
    (a ++ "\n" ++ b).utf8ByteSize = b.utf8ByteSize + (a.utf8ByteSize + 1) := by
  have line : ("\n" : String).utf8ByteSize = 1 := by decide
  simp only [String.utf8ByteSize_append, line]
  omega

/-- A line break is always a boundary between tokens: the tokens of what follows it, or the
fault of that, are those of the text by itself, only later in the source, and without regard to
what stands before the line break. -/
theorem tokenize_across_newline (level : Level) (file : String) {a b : String}
    (small : a.utf8ByteSize + 1 + b.utf8ByteSize < UInt32.size) :
    (∀ ts us, tokenize level file a = .ok ts → tokenize level file b = .ok us →
      ∃ body finish, ts = body ++ [finish] ∧ finish.kind = .endOfInput ∧
        (∀ t ∈ body, t.kind ≠ .endOfInput) ∧
        tokenize level file (a ++ "\n" ++ b) =
          .ok (body ++ us.map (Token.shift (a.utf8ByteSize + 1))) ∧
        ∀ u ∈ us, u.span.start.IsShifted (a.utf8ByteSize + 1) ∧
          u.span.stop.IsShifted (a.utf8ByteSize + 1)) ∧
    (∀ e, tokenize level file a = .error e → tokenize level file (a ++ "\n" ++ b) = .error e) ∧
    ∀ ts e, tokenize level file a = .ok ts → tokenize level file b = .error e →
      tokenize level file (a ++ "\n" ++ b) = .error (e.shift (a.utf8ByteSize + 1)) ∧
        e.position.IsShifted (a.utf8ByteSize + 1) := by
  have read := Lexeme.ofSource_newline_eq a b
  have room : b.utf8ByteSize + (a.utf8ByteSize + 1) < UInt32.size := by omega
  have later (us : List Token) := @isShifted_of_tokenize _ _ file level room us
  have later' (e : InputError) := @isShifted_of_tokenize_error _ _ file level room e
  unfold tokenize at later later' ⊢
  rw [read]
  cases first : Lexeme.ofSource a with
  | error e =>
    refine ⟨fun ts us run => ?_, fun e run => ?_, fun ts e run => ?_⟩
    · cases run
    · exact run
    · cases run
  | ok ls =>
    cases second : Lexeme.ofSource b with
    | error stray =>
      rw [second] at later'
      refine ⟨fun ts us run run' => ?_, fun e run => ?_, fun ts e run run' => ⟨?_, later' e run'⟩⟩
      · cases run'
      · cases run
      · cases run'
        have inside := Lexeme.offset_le_of_error second
        change _ = Except.error (InputError.mk _ (Position.shift _ _))
        rw [Position.shift_eq _ _ (by omega)]
        rfl
    | ok ls' =>
      rw [second] at later
      refine ⟨fun ts us run run' => ?_, fun e run => ?_, fun ts e run run' => ?_⟩
      · cases run
        refine ⟨_, _, rfl, rfl, fun t member => ?_, ?_, later us run'⟩
        · exact (Lexeme.allLexed_of_ofSource first file level t member).kind_ne_end
        · cases run'
          change Except.ok (List.map _ (ls ++ _) ++ [Token.endAt _]) = _
          rw [List.map_append, List.map_append, Lexeme.map_toToken_shift file level room second,
            utf8ByteSize_newline, ← Token.endAt_shift file room, List.append_assoc]
          rfl
      · cases run
      · cases run'

/-- A number sign and a number that ends in a point, before a line break. -/
def cutShort : String :=
  "1.# é 2."

/-- The number after the line break is no part of the comment before it, nor of the number in it. -/
theorem cut_short_across_newline : cutShort.utf8ByteSize + 1 + "5é".utf8ByteSize < UInt32.size ∧
    (tokenize .mutableVariables "shell" (cutShort ++ "\n" ++ "5")).toOption.map
      (List.map Token.place) = some [(0, "1."), (10, "5"), (11, "EOF")] ∧
    tokenize .mutableVariables "shell" (cutShort ++ "\n" ++ "5é") =
      .error { cause := .unrecognisedToken "é", position := { offset := 11, file := "shell" } } ∧
    tokenize .mutableVariables "shell" ("é" ++ "\n" ++ "5") =
      .error { cause := .unrecognisedToken "é", position := { offset := 0, file := "shell" } } := by
  have small : cutShort.utf8ByteSize + 1 + "5é".utf8ByteSize < UInt32.size := by decide +kernel
  have small' : cutShort.utf8ByteSize + 1 + "5".utf8ByteSize < UInt32.size := by decide +kernel
  have small'' : "é".utf8ByteSize + 1 + "5".utf8ByteSize < UInt32.size := by decide +kernel
  have front : tokenize .mutableVariables "shell" cutShort = .ok [
      { kind := .number, text := "1.",
        span := { start := { offset := 0, file := "shell" }, stop := { offset := 2, file := "shell" } } },
      .endAt { offset := 9, file := "shell" }] := by rfl
  have back : tokenize .mutableVariables "shell" "5" = .ok [
      { kind := .number, text := "5",
        span := { start := { offset := 0, file := "shell" }, stop := { offset := 1, file := "shell" } } },
      .endAt { offset := 1, file := "shell" }] := by rfl
  have back' : tokenize .mutableVariables "shell" "5é" =
      .error { cause := .unrecognisedToken "é", position := { offset := 1, file := "shell" } } := by rfl
  have front' : tokenize .mutableVariables "shell" "é" =
      .error { cause := .unrecognisedToken "é", position := { offset := 0, file := "shell" } } := by rfl
  obtain ⟨both, _⟩ := tokenize_across_newline .mutableVariables "shell" small'
  obtain ⟨_, _, second⟩ := tokenize_across_newline .mutableVariables "shell" small
  obtain ⟨_, first, _⟩ := tokenize_across_newline .mutableVariables "shell" small''
  obtain ⟨body, finish, split, _, _, run, _⟩ := both _ _ front back
  have front_body := congrArg List.dropLast split
  rw [List.dropLast_concat] at front_body
  refine ⟨small, ?_, (second _ _ front back').1, first _ front'⟩
  rw [run, ← front_body]
  rfl

end OpenExpr
