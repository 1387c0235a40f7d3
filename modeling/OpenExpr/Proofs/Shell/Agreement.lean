import OpenExpr.Proofs.Placement.Sequence
import OpenExpr.Proofs.Shell.Statements

namespace OpenExpr

/-- The reply announces the unit, or the unit is an error and the reply says that there
is one. -/
def Reply.Shows : Reply → Program → Prop
  | .parsed v, u => u.isError = false ∧ v.display = u.display
  | .rejected _ _ _, u => u.isError = true

/-- The summary after more statements, of which these are the units. -/
def Summary.after (s : Summary) (us : List Program) : Summary :=
  { parsed := s.parsed + us.countP fun u => !u.isError
    failed := s.failed + us.countP Program.isError }

theorem Summary.after_append (s : Summary) (us vs : List Program) :
    (s.after us).after vs = s.after (us ++ vs) := by
  simp [after, Nat.add_assoc]

theorem Summary.total_after (s : Summary) (us : List Program) :
    (s.after us).parsed + (s.after us).failed = s.parsed + s.failed + us.length := by
  have all : us.length = us.countP Program.isError + us.countP fun u => !u.isError := by
    simpa using us.length_eq_countP_add_countP Program.isError
  rw [all]
  dsimp only [after]
  omega

namespace Dialogue

/-- Nothing is held back, and statements end with semicolons. -/
structure IsReady (d : Dialogue) : Prop where
  heldBack : d.heldBack = ""
  terminator : d.framer.terminator = .semicolon

variable {d : Dialogue}

/-- What a session says of a statement is replied. -/
theorem handle_of_shows (ready : d.IsReady) {text : String} {u : Program}
    (shows : (d.session.parseStatement text).1.Shows u) :
    ∃ reply, d.handle { text, isPartial := false } =
        (some reply, { d with
          session := (d.session.parseStatement text).2
          summary := d.summary.after [u] }) ∧ reply.Shows u := by
  obtain ⟨heldBack, terminator⟩ := ready
  have written : d.heldBack ++ d.framer.terminator.withSemicolon text = text := by
    rw [heldBack, terminator, Terminator.withSemicolon_semicolon, String.empty_append]
  unfold handle
  rw [if_neg (by simp)]
  dsimp only
  rw [written]
  generalize d.session.parseStatement text = result at shows ⊢
  rcases result with ⟨v | ds | _, s⟩
  · refine ⟨.parsed v, ?_, shows⟩
    simp [Summary.after, shows.1, heldBack]
  · refine ⟨.rejected s.sourceName text ds, ?_, shows⟩
    simp [Summary.after, show u.isError = true from shows, heldBack]
  · exact shows.elim

/-- What is replied to statements one by one is what becomes of them in a source. -/
theorem respond_of_readsEach {level : Level} {finish : Token} {operators last known : OperatorTable}
    {ws : List (List Token)} {ts : List SyntaxTree}
    (reads : ReadsEach level finish operators ws ts last) (within : last.Within known)
    (ready : d.IsReady) (same : d.session.env.options.level = level) {texts : List String}
    (written : List.Forall₂ (IsTextOf level d.session.sourceName finish) ws texts) {r : Resolver}
    (idle : Resolver.Idle known operators r { env := d.session.env }) :
    List.Forall₂ Reply.Shows (d.respond texts).1 (r.units ts).1 ∧
      Resolver.Idle known last (r.units ts).2 { env := (d.respond texts).2.session.env } ∧
      (d.respond texts).2.summary = d.summary.after (r.units ts).1 := by
  induction reads generalizing d texts r with
  | nil =>
    cases written
    exact ⟨.nil, idle, rfl⟩
  | @cons operators next last w ws t ts s pending final first later ih =>
    cases written with
    | @cons _ text _ texts firstText otherTexts =>
      obtain ⟨tokens, run, alike⟩ := firstText
      have now : d.session.env.operators = operators := idle.operators'
      subst same now
      obtain ⟨shows, idle', name⟩ := Session.parseStatement_of_readsAs run (alike s pending final) first
        (later.within.trans within) idle
      obtain ⟨reply, handled, shown⟩ := handle_of_shows ready shows
      have options := (parseStatement_changes d.session text).2.1
      obtain ⟨others, after, counted⟩ := @ih { d with
          session := (d.session.parseStatement text).2
          summary := d.summary.after [(r.unit t).1] }
        within ⟨ready.heldBack, ready.terminator⟩ (congrArg Options.level options) texts
        (name ▸ otherTexts) (r.unit t).2 idle'
      rw [respond_cons, handled]
      exact ⟨.cons shown others, after, counted.trans (d.summary.after_append [_] _)⟩

end Dialogue

namespace Shell

variable (shell : Shell)

/-- The shell and a source agree. Let the words of a text be statements, each of some
words and the semicolon that ends it, and let nothing be wrong with their syntax. If what
is typed in has the same words, on whatever lines, and no comments, then there is one
reply to each statement: it announces the unit of the source as the source shows it, or
rejects the statement if the unit is an error. What the sessions know at the end is the
same but for the places. -/
theorem run_of_parseSource (terminator : shell.terminator = .semicolon) (options : Options)
    {text : String} {ws : List (List Token)} {finish : Token}
    (lexed : tokenize options.level (Session.new options).sourceName text = .ok (ws.flatten ++ [finish]))
    (ended : ∀ w ∈ ws, IsEnded w) {units : List Program} {span : Span} {after : Session}
    (read : (Session.new options).parseSource text = (.root units span, after))
    (sound : ∀ d, .error d ∈ units → d.code ≠ .syntaxError) {typed : String}
    (uncommented : '#' ∉ typed.toList)
    (same : (tokenize options.level (Session.new options).sourceName typed).map (List.map Token.spelling) =
      .ok ((ws.flatten ++ [finish]).map Token.spelling))
    {sink : Sink} (unbounded : sink.room? = none) :
    ∃ summary session,
      shell.run (Session.new options) sink false (inputLines typed.toUTF8) =
        { result := .ok summary
          session
          sink := sink.followedBy (shell.output (shell.start (.new options)) (Text.linesOf typed)) } ∧
      summary.parsed + summary.failed = units.length ∧
      List.Forall₂ Reply.Shows
        ((shell.transcript (shell.start (.new options)) (Text.linesOf typed)).filterMap Entry.reply?)
        units ∧
      after.Alike session := by
  obtain ⟨_, -, -, final, named⟩ := words_of_tokenize lexed
  have each : ∀ w ∈ ws, AllLexed options.level w := fun w member t inWord =>
    (allLexed_of_tokenize lexed).1 t (List.mem_flatten.mpr ⟨w, member, inWord⟩)
  obtain ⟨trees, last, chain, rfl, kept⟩ := Session.readsEach_parseSource lexed ended read sound
  have written := isTextOf_statements uncommented ended each final named same
  let d := shell.start (Session.new options)
  have framer : d.framer = {} := congrArg (fun t => ({ terminator := t } : Framer)) terminator
  obtain ⟨replies, known, counted⟩ := Dialogue.respond_of_readsEach chain (.refl _) (d := d)
    ⟨rfl, terminator⟩ rfl written ((Session.isCoherent_new options).idle chain.within)
  obtain ⟨framer', readings⟩ := d.readLines_eq (Text.linesOf typed)
  rw [framer] at readings
  let last := (d.readLines (Text.linesOf typed)).2
  refine ⟨last.summary, last.session, ?_, ?_, ?_, ?_⟩
  · rw [inputLines_toUTF8]
    exact shell.run_of_unbounded unbounded _ _
  · rw [show last.summary = _ from (congrArg (fun x => x.2.summary) readings).trans counted]
    exact (Summary.total_after _ _).trans (Nat.zero_add _)
  · rw [transcript_replies]
    exact (congrArg Prod.fst readings) ▸ replies
  · rw [show last.session = _ from congrArg (fun x => x.2.session) readings]
    refine ⟨?_, ?_⟩ <;> rw [kept]
    · exact known.env
    · exact known.operators.trans known.operators'.symm

/-- The three statements stand on other lines than in the source. The last of them calls
no function that is known. -/
theorem three_statements_agree :
    ∃ units span after,
      (Session.new {}).parseSource "def f(x) x * 2; f(3); g(1);" = (.root units span, after) ∧
      (Program.root units span).errors.map Diagnostic.code = [.invokeUnknownFunction] ∧
      ∃ summary session,
        uncolored.run (.new {}) {} false
            (inputLines "def f(x)\n  x * 2; f(3)\r\n; g(1);".toUTF8) =
          { result := .ok summary
            session
            sink := Sink.followedBy {} (uncolored.output (uncolored.start (.new {}))
              (Text.linesOf "def f(x)\n  x * 2; f(3)\r\n; g(1);")) } ∧
        summary.parsed + summary.failed = units.length ∧
        List.Forall₂ Reply.Shows
          ((uncolored.transcript (uncolored.start (.new {}))
            (Text.linesOf "def f(x)\n  x * 2; f(3)\r\n; g(1);")).filterMap Entry.reply?) units ∧
        after.Alike session := by
  let text := "def f(x) x * 2; f(3); g(1);"
  let cut := Text.cutAfter fun t : Token => t.kind == .semicolon
  obtain ⟨tokens, run⟩ := exists_of_isOk (r := tokenize .mutableVariables "shell" text) (by decide +kernel)
  have shape : (tokenize .mutableVariables "shell" text).toOption.map (fun tokens =>
      ((cut tokens).1.map List.length, (cut tokens).2.length)) = some ([9, 5, 5], 1) := by
    decide +kernel
  rw [run] at shape
  obtain ⟨lengths, last⟩ := Prod.mk.inj (Option.some.inj shape)
  obtain ⟨finish, rest⟩ := List.length_eq_one_iff.mp last
  have whole : tokens = (cut tokens).1.flatten ++ [finish] := by
    rw [← rest]
    exact (Text.flatten_cutAfter _ tokens).symm
  have ended : ∀ w ∈ (cut tokens).1, IsEnded w := by
    intro w member
    have length : w.length ∈ (cut tokens).1.map List.length := List.mem_map_of_mem member
    rw [lengths] at length
    exact .of_mem_cutAfter member fun one => by simp [one] at length
  have same : (tokenize .mutableVariables "shell" "def f(x)\n  x * 2; f(3)\r\n; g(1);").map
      (List.map Token.spelling) = (tokenize .mutableVariables "shell" text).map
      (List.map Token.spelling) := by decide +kernel
  have codes : ((Session.new {}).parseSource text).1.errors.map Diagnostic.code =
      [.invokeUnknownFunction] := by decide +kernel
  obtain ⟨units, span, after, read⟩ := (Session.new {}).parseSource_eq_root text
  rw [read] at codes
  have sound : ∀ d, .error d ∈ units → d.code ≠ .syntaxError := by
    intro d member
    have code : d.code ∈ (Program.root units span).errors.map Diagnostic.code :=
      List.mem_map_of_mem (Program.mem_errorsAll member)
    rw [codes] at code
    rw [List.mem_singleton.mp code]
    decide
  rw [whole] at run
  rw [run] at same
  exact ⟨units, span, after, read, codes,
    uncolored.run_of_parseSource rfl {} run ended read sound (by decide) same rfl⟩

end Shell

end OpenExpr
