import OpenExpr.Proofs.Growth.Unit
import OpenExpr.Proofs.Recovery.Locality
import OpenExpr.Proofs.Registry.Retry

namespace OpenExpr

open Parse

/-- The text ends in a line that ends in a semicolon, with no comment in front of it. -/
def Text.EndsStatement (text : String) : Prop :=
  ∃ before line, text = before ++ line ++ ";" ++ "\n" ∧
    (before = "" ∨ ∃ lines, before = lines ++ "\n") ∧ '#' ∉ line.toList

namespace Lexeme.Scanner

/-- What is read from the start of a line is no comment without a number sign. -/
theorem pending_of_line {before line : String} (start : before = "" ∨ ∃ lines, before = lines ++ "\n")
    (uncommented : '#' ∉ line.toList) {s : Scanner}
    (run : Scanner.read {} (before ++ line).toList = .ok s) : s.pending ≠ .comment := by
  rcases start with rfl | ⟨lines, rfl⟩
  · rw [String.empty_append] at run
    exact read_pending run Pending.noConfusion uncommented
  · have letters : (lines ++ "\n" ++ line).toList = lines.toList ++ '\n' :: line.toList := by simp
    rw [letters, read_append] at run
    cases first : Scanner.read {} lines.toList with
    | error e =>
      rw [first] at run
      cases run
    | ok t =>
      rw [first] at run
      change t.read ('\n' :: line.toList) = .ok s at run
      rw [read_cons, feed_newline] at run
      exact read_pending run Pending.noConfusion uncommented

end Lexeme.Scanner

/-- The last lexeme of code with a semicolon behind it is that semicolon. -/
theorem Lexeme.ofSource_semicolon {before line : String}
    (start : before = "" ∨ ∃ lines, before = lines ++ "\n") (uncommented : '#' ∉ line.toList)
    {ls : List Lexeme} (run : ofSource (before ++ line ++ ";") = .ok ls) :
    ∃ l, ls.getLast? = some l ∧ ∀ level, l.kind level = .semicolon := by
  have letters : (before ++ line ++ ";").toList = (before ++ line).toList ++ [';'] := by simp
  unfold ofSource at run
  rw [letters, Scanner.read_append] at run
  cases first : Scanner.read {} (before ++ line).toList with
  | error e =>
    rw [first] at run
    cases run
  | ok s =>
    rw [first] at run
    change (s.read [';']).map Scanner.lexemes = .ok ls at run
    rw [Scanner.read_cons, Scanner.feed_semicolon (Scanner.pending_of_line start uncommented first)] at run
    cases run
    refine ⟨{ shape := .mark, text := ";", offset := s.offset }, ?_, fun _ => rfl⟩
    simp [Scanner.lexemes, Scanner.lexeme?, Scanner.moveTo]

theorem tokenize_semicolon {level : Level} {file before line : String}
    (start : before = "" ∨ ∃ lines, before = lines ++ "\n") (uncommented : '#' ∉ line.toList)
    {front : List Token} {finish : Token}
    (run : tokenize level file (before ++ line ++ ";") = .ok (front ++ [finish])) :
    ∃ mark, front.getLast? = some mark ∧ mark.kind = .semicolon := by
  unfold tokenize at run
  cases read : Lexeme.ofSource (before ++ line ++ ";") with
  | error e =>
    rw [read] at run
    cases run
  | ok ls =>
    rw [read] at run
    obtain ⟨rfl, _⟩ := List.append_inj' (Except.ok.inj run) rfl
    obtain ⟨l, last, semicolon⟩ := Lexeme.ofSource_semicolon start uncommented read
    exact ⟨l.toToken file level, by simp [List.getLast?_map, last], semicolon level⟩

/-- The tokens of a text that ends a statement come first in any text that goes on with it. -/
theorem tokenize_later {level : Level} {file a b : String} (ended : Text.EndsStatement a)
    {tokens tokens' : List Token} (run : tokenize level file a = .ok tokens)
    (run' : tokenize level file b = .ok tokens') :
    ∃ front stop more last, tokenize level file a = .ok (front ++ [stop]) ∧
      tokenize level file (a ++ b) = .ok (front ++ (more ++ [last])) ∧ stop.kind = .endOfInput ∧
      last.kind = .endOfInput ∧ AllLexed level (front ++ more) ∧
      ∃ mark, front.getLast? = some mark ∧ mark.kind = .semicolon := by
  obtain ⟨before, line, rfl, start, uncommented⟩ := ended
  obtain ⟨front, finish, _, _, code, _⟩ := tokenize_newline (b := "") (by rwa [String.append_empty])
  obtain ⟨all, whole⟩ := tokenize_lines code run'
  obtain ⟨front', finish', more, last, code', rfl, _, final, lexed⟩ := tokenize_newline whole
  obtain ⟨rfl, _⟩ := List.append_inj' (Except.ok.inj (code.symm.trans code')) rfl
  obtain ⟨stop, here, atEnd⟩ := tokenize_line code
  rw [List.append_assoc] at whole
  exact ⟨front, stop, more, last, here, whole, atEnd, final, lexed,
    tokenize_semicolon start uncommented code⟩

/-- A whole source is read as statements and errors, with the operators known at its end,
and none is forgotten. -/
theorem isReadWith_of_fullSource {level : Level} {operators table : OperatorTable} {file : String}
    {body : List Token} {finish : Token} (lexed : AllLexed level body)
    (final : finish.kind = .endOfInput) {t : SyntaxTree}
    (read : parse level operators .fullSource file (body ++ [finish]) = (.ok t, table)) :
    t.kind = .fullSource ∧ operators.Within table ∧
      ∀ x ∈ t.children, x.IsReadWith table ∨ x.kind = .error := by
  let r := SourceReader.ofTokens { level, operators } file (body ++ [finish])
  have all : AllLexed level r.tokens.pending := by
    change AllLexed level (TokenStream.ofTokens file (body ++ [finish])).pending
    rwa [ofTokens_body file lexed final]
  have trees := SourceReader.isReadWith_of_mem_statements r.tokens.pending.length all rfl
  cases read
  exact ⟨rfl, trees⟩

namespace Session

/-- The tree of a source and the operators known at its end, with which its statements are
read. -/
structure Reads (s : Session) (text : String) (t : SyntaxTree) (table : OperatorTable) : Prop where
  tree : s.syntaxTree .fullSource text = (.ok t, s.withOperators table)
  kind : t.kind = .fullSource
  within : s.env.operators.Within table
  units : ∀ x ∈ t.children, x.IsReadWith table ∨ x.kind = .error

variable {s : Session} {text : String} {t : SyntaxTree} {table : OperatorTable}

/-- The resolver that begins with the units of a source. -/
def resolverAt (s : Session) (table : OperatorTable) : Resolver :=
  { env := s.env.withOperators table }

theorem Reads.parseSource (reads : s.Reads text t table) :
    s.parseSource text = (.root ((s.resolverAt table).units t.children).1 t.span,
      { s with env := ((s.resolverAt table).units t.children).2.env }) := by
  unfold Session.parseSource
  rw [reads.tree]
  dsimp only [Session.resolve, Environment.resolve]
  rw [reads.kind]
  rfl

theorem Reads.operators (reads : s.Reads text t table) :
    ((s.resolverAt table).units t.children).2.env.operators = table :=
  Resolver.operators_units (fun x member => (reads.units x member).imp_left fun read => read.fits.form)
    Scopes.sees_empty

/-- Operators that become known while the source is read leave the session coherent. -/
theorem Reads.idle (reads : s.Reads text t table) (coherent : s.env.IsCoherent) :
    Resolver.Idle table table (s.resolverAt table) (s.resolverAt table) :=
  ⟨coherent.alike.withOperators reads.within reads.within, Body.idle_empty, rfl, rfl⟩

theorem reads_of_parse {body : List Token} {finish : Token}
    (run : tokenize s.env.options.level s.sourceName text = .ok (body ++ [finish]))
    (read : OpenExpr.parse s.env.options.level s.env.operators .fullSource s.sourceName
      (body ++ [finish]) = (.ok t, table)) : s.Reads text t table := by
  obtain ⟨lexed, final⟩ := allLexed_of_tokenize run
  obtain ⟨kind, within, units⟩ := isReadWith_of_fullSource lexed final read
  refine ⟨?_, kind, within, units⟩
  unfold syntaxTree
  rw [run]
  dsimp only
  rw [read]
  rfl

/-- What is read of a text that ends a statement is read first of any text that goes on
with it, before more operators become known. -/
theorem reads_later {a b : String} (ended : Text.EndsStatement a) (scans : s.Scans a)
    (scans' : s.Scans b) : ∃ t v more table table', s.Reads a t table ∧ s.Reads (a ++ b) v table' ∧
      v.children = t.children ++ more ∧ table.Within table' := by
  obtain ⟨_, scanned⟩ := exists_of_isOk scans
  obtain ⟨_, scanned'⟩ := exists_of_isOk scans'
  obtain ⟨front, stop, more, last, run, run', atEnd, final, lexed, mark⟩ :=
    tokenize_later ended scanned scanned'
  have endless : HasNoEnd front := fun t member => (lexed.left t member).kind_ne_end
  obtain ⟨t, u, v, first, later, whole, children, known⟩ := fullSource_append s.env.options.level
    s.env.operators s.sourceName endless (.inr mark)
    (show StartsAtEnd [stop] by simpa [StartsAtEnd] using atEnd) (more ++ [last])
  obtain ⟨_, within, _⟩ := isReadWith_of_fullSource lexed.right final (Prod.ext later known.symm)
  rw [← List.append_assoc] at run'
  refine ⟨t, v, u.children, _, _, reads_of_parse run (Prod.ext first rfl),
    reads_of_parse run' (Prod.ext ?_ rfl), children, ?_⟩
  all_goals rwa [List.append_assoc]

end Session

/-- Later text changes what is reported for earlier text only where that uses an operator
which only the later text makes known. If functions of operators are there only together
with these, such a unit stays an error at its place and no other is changed. -/
theorem later_text_keeps_units (s : Session) {a b : String} (ended : Text.EndsStatement a)
    (scans : s.Scans a) (scans' : s.Scans b) :
    ∃ us first later span span' after after', s.parseSource a = (.root us span, after) ∧
      s.parseSource (a ++ b) = (.root (first ++ later) span', after') ∧ us.length = first.length ∧
      (∀ front, front <+: us →
        (∀ u ∈ front, ¬ u.IsLate after.env.operators after'.env.operators) → front <+: first) ∧
      (s.env.IsCoherent → List.Forall₂
        (Program.Echoes after.env.operators after'.env.operators) us first) := by
  obtain ⟨t, v, more, table, table', reads, reads', children, within⟩ :=
    Session.reads_later ended scans scans'
  have whole := reads'.parseSource
  have known := reads'.operators
  rw [children, Resolver.units_append] at whole known
  refine ⟨_, _, _, _, _, _, _, reads.parseSource, whole, ?_, fun front before none => ?_, fun coherent => ?_⟩
  · rw [Resolver.length_units, Resolver.length_units]
  · rw [reads.operators, known] at none
    exact Resolver.prefix_units_withOperators (r := s.resolverAt table) rfl Scopes.sees_empty within
      reads.units before none
  · rw [reads.operators, known]
    exact Resolver.units_echo (reads.idle coherent) within reads.units

/-- An expression stands in front of the definition of its operator. -/
theorem operator_of_next_line :
    let s := Session.new {}
    let a := "1 | 2;\n"
    let b := "def binary | (x y) x;"
    Text.EndsStatement a ∧ s.Scans a ∧ s.Scans b ∧
      ∃ us first later span span' after after', s.parseSource a = (.root us span, after) ∧
        s.parseSource (a ++ b) = (.root (first ++ later) span', after') ∧
        us.length = first.length ∧
        List.Forall₂ (Program.Echoes after.env.operators after'.env.operators) us first := by
  intro s a b
  have ended : Text.EndsStatement a := ⟨"", "1 | 2", rfl, .inl rfl, by decide⟩
  have scans : s.Scans a := by decide +kernel
  have scans' : s.Scans b := by decide +kernel
  obtain ⟨us, first, later, span, span', after, after', parsed, parsed', length, _, echo⟩ :=
    later_text_keeps_units s ended scans scans'
  exact ⟨ended, scans, scans', us, first, later, span, span', after, after', parsed, parsed', length,
    echo (Session.isCoherent_new {})⟩

/-- An operator that is not known at the end of a text is missing there; with its definition
behind the text only its function is. -/
theorem later_text_replaces_error :
    let s := Session.new {}
    let a := "1 | 2;\n"
    let b := "def binary | (x y) x;"
    Text.EndsStatement a ∧ s.Scans a ∧ s.Scans b ∧
      ¬ ∃ us later span span' after after', s.parseSource a = (.root us span, after) ∧
        s.parseSource (a ++ b) = (.root (us ++ later) span', after') := by
  intro s a b
  refine ⟨⟨"", "1 | 2", rfl, .inl rfl, by decide⟩, by decide +kernel, by decide +kernel, ?_⟩
  rintro ⟨us, later, span, span', after, after', parsed, parsed'⟩
  have alone : (s.parseSource a).1.errors.map Diagnostic.code = [.invalidBinaryOp] := by
    decide +kernel
  have whole : (s.parseSource (a ++ b)).1.errors.map Diagnostic.code = [.unaryOpNotFound] := by
    decide +kernel
  rw [parsed, Program.errors] at alone
  rw [parsed', Program.errors, Program.errorsAll_append, List.map_append, alone] at whole
  cases whole

end OpenExpr
