import OpenExpr.Proofs.Levels.Tokens
import OpenExpr.Proofs.Token.Lexed
import OpenExpr.SyntaxTree.Basic

namespace OpenExpr

/-- How a token of this kind is written, where there is but one way. -/
def Token.Kind.fixedText? : Token.Kind → Option String
  | .openParen => some "("
  | .closeParen => some ")"
  | .comma => some ","
  | .semicolon => some ";"
  | .keyword word => some word.text
  | .endOfInput | .number | .identifier | .operator => none

/-- The token of such a kind without its place. -/
def Token.Kind.fixed (kind : Token.Kind) : Token.Kind × String :=
  (kind, kind.fixedText?.getD "")

namespace SyntaxTree

/-- A keyword, items with commas between them, and what they are in. -/
def scopeWords (word : Keyword) (parts : List (List (Token.Kind × String))) :
    List (Token.Kind × String) :=
  [(Token.Kind.keyword word).fixed] ++ [Token.Kind.comma.fixed].intercalate parts.dropLast ++
    [(Token.Kind.keyword .inWord).fixed] ++ parts.getLast?.getD []

/-- What is written for a construct, with what is written for the parts below it. -/
def Kind.words (kind : Kind) (text : String) (parts : List (List (Token.Kind × String))) :
    List (Token.Kind × String) :=
  match kind, parts with
  | .constant, _ => [(.number, text)]
  | .reference, _ => [(.identifier, text)]
  | .paren, _ => [Token.Kind.openParen.fixed] ++ parts.flatten ++ [Token.Kind.closeParen.fixed]
  | .functionCall, _ => [(.identifier, text), Token.Kind.openParen.fixed] ++
      [Token.Kind.comma.fixed].intercalate parts ++ [Token.Kind.closeParen.fixed]
  | .unaryOperator, _ => [(.operator, text)] ++ parts.flatten
  | .conditional, [condition, thenBranch, elseBranch] =>
    [(Token.Kind.keyword .ifWord).fixed] ++ condition ++
      [(Token.Kind.keyword .thenWord).fixed] ++ thenBranch ++
      [(Token.Kind.keyword .elseWord).fixed] ++ elseBranch
  | .forLoop, _ => scopeWords .forWord parts
  | .varIn, _ => scopeWords .varWord parts
  | .initializer, [value] => [(.identifier, text), (.operator, "=")] ++ value
  | .initializer, _ => [(.identifier, text)]
  | _, _ => parts.flatten

mutual

/-- The tokens of an expression in the order in which they are written, without their places. -/
def words (t : SyntaxTree) : List (Token.Kind × String) :=
  match t with
  | { kind, text, children, operators, .. } =>
    kind.words text (wordsEach children) ++ wordsBehind operators

def wordsEach : List SyntaxTree → List (List (Token.Kind × String))
  | [] => []
  | t :: ts => words t :: wordsEach ts

def wordsBehind : List (Token × SyntaxTree) → List (Token.Kind × String)
  | [] => []
  | (operator, t) :: rest => operator.spelling :: (words t ++ wordsBehind rest)

end

theorem wordsEach_eq (ts : List SyntaxTree) : wordsEach ts = ts.map words := by
  induction ts with
  | nil => rfl
  | cons t ts ih => exact congrArg (words t :: ·) ih

@[simp]
theorem wordsBehind_nil : wordsBehind [] = [] := rfl

@[simp]
theorem wordsBehind_cons (operator : Token) (t : SyntaxTree) (rest : List (Token × SyntaxTree)) :
    wordsBehind ((operator, t) :: rest) = operator.spelling :: (t.words ++ wordsBehind rest) := rfl

@[simp]
theorem words_mk (kind : Kind) (span : Span) (text : String) (children : List SyntaxTree)
    (operators : List (Token × SyntaxTree)) :
    words { kind, span, text, children, operators } =
      kind.words text (children.map words) ++ wordsBehind operators := by
  rw [words, wordsEach_eq]

/-- A part of a tree, where it is an expression or the operators behind an operand with how
tightly these have to bind. -/
inductive Part where
  | expr (power : Int32) (t : SyntaxTree)
  | operators (power : Int32) (applications : List (Token × SyntaxTree))
  | operand (t : SyntaxTree)
  | arguments (ts : List SyntaxTree)
  | binding (t : SyntaxTree)
  | bindings (ts : List SyntaxTree)

def Part.words : Part → List (Token.Kind × String)
  | .expr _ t | .operand t | .binding t => t.words
  | .operators _ applications => wordsBehind applications
  | .arguments ts | .bindings ts => [Token.Kind.comma.fixed].intercalate (ts.map SyntaxTree.words)

end SyntaxTree

namespace Token

variable {level : Level} {t : Token}

theorem ofMark_fixedText {text x : String} (fixed : (Kind.ofMark text).fixedText? = some x) :
    text = x := by
  unfold Kind.ofMark at fixed
  split at fixed
  · simp_all [Kind.fixedText?]
  split at fixed
  · simp_all [Kind.fixedText?]
  split at fixed
  · simp_all [Kind.fixedText?]
  split at fixed
  · simp_all [Kind.fixedText?]
  · cases fixed

/-- Tokens of a source whose kind can be written in but one way are written so. -/
theorem IsLexed.text_eq (lexed : t.IsLexed level) {x : String} (fixed : t.kind.fixedText? = some x) :
    t.text = x := by
  obtain ⟨⟨shape, text, offset⟩, _, kind, same⟩ := lexed
  rw [kind] at fixed
  rw [same]
  cases shape with
  | number => cases fixed
  | mark => exact ofMark_fixedText fixed
  | word =>
    change (((Keyword.ofText? level text).map Kind.keyword).getD .identifier).fixedText? = _ at fixed
    cases found : Keyword.ofText? level text with
    | none =>
      rw [found] at fixed
      cases fixed
    | some word =>
      rw [found] at fixed
      cases fixed
      exact (Keyword.ofText?_eq_some_iff.mp found).1.symm

theorem IsLexed.spelling_eq (lexed : t.IsLexed level) {kind : Kind} (same : t.kind = kind)
    {x : String} (fixed : kind.fixedText? = some x) : t.spelling = kind.fixed := by
  subst same
  unfold spelling Kind.fixed
  rw [lexed.text_eq fixed, fixed]
  rfl

theorem spelling_of_kind {kind : Kind} (same : t.kind = kind) : t.spelling = (kind, t.text) :=
  Prod.ext same rfl

theorem IsLexed.spelling_operator (lexed : t.IsLexed level) {symbol : Char}
    (operator : t.symbol? = some symbol) : t.spelling = (.operator, String.singleton symbol) := by
  have kind := kind_of_symbol? operator
  unfold symbol? at operator
  rw [if_pos kind] at operator
  rcases lexed.cases with name | ⟨_, word, _⟩ | ⟨number, _⟩ | ⟨c, text, _⟩
  · simp [kind] at name
  · simp [kind] at word
  · simp [kind] at number
  · have same : c = symbol := by simpa [text] using operator
    refine Prod.ext kind (String.toList_inj.mp ?_)
    simp [spelling, text, same]

end Token

variable {level : Level} {t : Token} {a b : List Token}

theorem allLexed_cons_iff : AllLexed level (t :: a) ↔ t.IsLexed level ∧ AllLexed level a :=
  List.forall_mem_cons

theorem allLexed_append_iff : AllLexed level (a ++ b) ↔ AllLexed level a ∧ AllLexed level b :=
  List.forall_mem_append

end OpenExpr
