import Mathlib.Data.List.Forall2
import OpenExpr.Proofs.Parse.Steady
import OpenExpr.Proofs.Token.Writing
import OpenExpr.Proofs.TwoRuns

namespace OpenExpr

/-- The text holds no character that is kept for names no source can write. -/
def IsPlain (text : String) : Prop :=
  '$' ∉ text.toList

/-- The text is a single character and no digit, as an operator is written. -/
def IsSign (text : String) : Prop :=
  ∃ c, text.toList = [c] ∧ c.isDigit = false

/-- The tokens are the same but for the places where they stand. -/
structure Token.Alike (t t' : Token) : Prop where
  kind : t.kind = t'.kind
  text : t.text = t'.text
  plain : t.kind = .identifier → IsPlain t.text
  sign : t.kind = .operator → IsSign t.text

theorem Token.Alike.symbol? {t t' : Token} (alike : t.Alike t') : t.symbol? = t'.symbol? := by
  unfold Token.symbol?
  rw [alike.kind, alike.text]

theorem Token.IsLexed.plain {level : Level} {t : Token} (lexed : t.IsLexed level)
    (name : t.kind = .identifier) : IsPlain t.text := by
  obtain ⟨⟨shape, text, offset⟩, spelled, kind, same⟩ := lexed
  rw [name] at kind
  rw [same]
  unfold Lexeme.IsSpelled at spelled
  dsimp only at spelled
  cases shape with
  | word =>
    intro dollar
    dsimp only at dollar
    generalize text.toList = chars at spelled dollar
    cases spelled with
    | word start rest =>
      rcases List.mem_cons.mp dollar with rfl | later
      · exact absurd start (by decide)
      · exact absurd (rest '$' later) (by decide)
  | number => cases kind
  | mark =>
    have mark := ofMark_mem text
    rw [show Token.Kind.ofMark text = .identifier from kind.symm] at mark
    exact absurd mark (by decide)

theorem Token.IsLexed.sign {level : Level} {t : Token} (lexed : t.IsLexed level)
    (operator : t.kind = .operator) : IsSign t.text := by
  obtain ⟨⟨shape, text, offset⟩, spelled, kind, same⟩ := lexed
  rw [operator] at kind
  rw [same]
  unfold Lexeme.IsSpelled at spelled
  dsimp only at spelled
  cases shape with
  | word =>
    change _ = ((Keyword.ofText? level text).map Kind.keyword).getD .identifier at kind
    cases found : Keyword.ofText? level text <;> simp [found] at kind
  | number => cases kind
  | mark =>
    unfold IsSign
    dsimp only
    generalize text.toList = chars at spelled
    cases spelled with
    | @mark c mark _ _ =>
      refine ⟨c, rfl, Bool.eq_false_iff.mpr fun digit => ?_⟩
      have range := Lexeme.toNat_of_isMark mark
      have bounds := Lexeme.toNat_of_isDigit digit
      omega

theorem Token.IsLexed.alike {level : Level} {t t' : Token} (lexed : t.IsLexed level)
    (same : t.spelling = t'.spelling) : t.Alike t' where
  kind := congrArg Prod.fst same
  text := congrArg Prod.snd same
  plain := lexed.plain
  sign := lexed.sign

theorem AllLexed.alike {level : Level} {w w' : List Token} (lexed : AllLexed level w)
    (same : w.map Token.spelling = w'.map Token.spelling) : List.Forall₂ Token.Alike w w' := by
  induction w generalizing w' with
  | nil =>
    rw [List.map_eq_nil_iff.mp same.symm]
    exact .nil
  | cons t w ih =>
    obtain ⟨t', rest, rfl, one, others⟩ := List.map_eq_cons_iff.mp same.symm
    exact .cons (lexed.head.alike one.symm) (ih (lexed.tail) others.symm)

/-- The text is one that a source can write for a node of the kind. -/
def SyntaxTree.Kind.Writes : SyntaxTree.Kind → String → Prop
  | .reference, text | .functionPrototype, text => IsPlain text
  | .unaryPrototype, text | .binaryPrototype, text | .unaryOperator, text => IsSign text
  | _, _ => True

mutual

/-- The trees are the same but for the places of their nodes. -/
inductive SyntaxTree.Alike : SyntaxTree → SyntaxTree → Prop
  | node {kind text span span' children children' operators operators'} :
      kind.Writes text → SyntaxTree.AllAlike children children' →
      SyntaxTree.OperatorsAlike operators operators' →
      SyntaxTree.Alike ⟨kind, span, text, children, operators⟩ ⟨kind, span', text, children', operators'⟩

inductive SyntaxTree.AllAlike : List SyntaxTree → List SyntaxTree → Prop
  | nil : SyntaxTree.AllAlike [] []
  | cons {t t' ts ts'} : SyntaxTree.Alike t t' → SyntaxTree.AllAlike ts ts' →
      SyntaxTree.AllAlike (t :: ts) (t' :: ts')

inductive SyntaxTree.OperatorsAlike :
    List (Token × SyntaxTree) → List (Token × SyntaxTree) → Prop
  | nil : SyntaxTree.OperatorsAlike [] []
  | cons {o o' t t' rest rest'} : o.Alike o' → o.kind = .operator → SyntaxTree.Alike t t' →
      SyntaxTree.OperatorsAlike rest rest' →
      SyntaxTree.OperatorsAlike ((o, t) :: rest) ((o', t') :: rest')

end

theorem SyntaxTree.AllAlike.one {t t' : SyntaxTree} (alike : t.Alike t') : AllAlike [t] [t'] :=
  .cons alike .nil

theorem SyntaxTree.AllAlike.append {ts ts' us us' : List SyntaxTree} (left : AllAlike ts ts')
    (right : AllAlike us us') : AllAlike (ts ++ us) (ts' ++ us') := by
  induction ts generalizing ts' with
  | nil =>
    cases left
    exact right
  | cons t ts ih =>
    cases left with
    | cons first rest => exact .cons first (ih rest)

/-- What is left to read is the same but for the places of the tokens. -/
structure TokenStream.Alike (s s' : TokenStream) : Prop where
  pending : List.Forall₂ Token.Alike s.pending s'.pending
  finish : s.finish.Alike s'.finish

namespace TokenStream.Alike

variable {s s' : TokenStream} (alike : s.Alike s')

include alike

theorem cases : s.pending = [] ∧ s'.pending = [] ∨ ∃ t t' rest rest', s.pending = t :: rest ∧
    s'.pending = t' :: rest' ∧ t.Alike t' ∧ List.Forall₂ Token.Alike rest rest' := by
  have pending := alike.pending
  cases left : s.pending <;> cases right : s'.pending <;> rw [left, right] at pending <;> cases pending
  · exact .inl ⟨rfl, rfl⟩
  · exact .inr ⟨_, _, _, _, rfl, rfl, ‹_›, ‹_›⟩

theorem current : s.current.Alike s'.current := by
  rcases alike.cases with ⟨left, right⟩ | ⟨t, t', rest, rest', left, right, first, _⟩
  · simpa only [TokenStream.current, left, right] using alike.finish
  · rwa [current_of_pending left, current_of_pending right]

theorem advance : s.advance.Alike s'.advance := by
  rcases alike.cases with ⟨left, right⟩ | ⟨t, t', rest, rest', left, right, _, others⟩
  · rwa [advance_of_end left, advance_of_end right]
  · refine ⟨?_, ?_⟩
    · rwa [pending_advance_of_pending left, pending_advance_of_pending right]
    · simpa only [TokenStream.advance, left, right] using alike.finish

theorem unexpected : s.unexpected.cause = s'.unexpected.cause := by
  rcases alike.cases with ⟨left, right⟩ | ⟨t, t', rest, rest', left, right, first, _⟩
  · simp [TokenStream.unexpected, left, right]
  · simp [TokenStream.unexpected, left, right, first.text]

theorem unexpectedDetailed (expected : String) :
    (s.unexpectedDetailed expected).cause = (s'.unexpectedDetailed expected).cause := by
  rcases alike.cases with ⟨left, right⟩ | ⟨t, t', rest, rest', left, right, first, _⟩
  · simp [TokenStream.unexpectedDetailed, TokenStream.unexpected, left, right]
  · simp [TokenStream.unexpectedDetailed, left, right, first.text]

end TokenStream.Alike

namespace Parse

variable {α α' β β' : Type} {R : α → α' → Prop} {S : β → β' → Prop}

/-- Both readings fail for the same reason. -/
abbrev SameCause (e e' : InputError) : Prop :=
  e.cause = e'.cause

/-- Where the tokens stand has no say in what the readings do: they give related
values or fail for the same cause, and leave the same tokens. -/
abbrev Blind (R : α → α' → Prop) (p : Parse α) (q : Parse α') : Prop :=
  Related TokenStream.Alike SameCause R p q

theorem blind_current : Blind Token.Alike current current :=
  fun _ _ alike => ⟨alike.current, alike⟩

theorem blind_advance : Blind Token.Alike advance advance :=
  fun _ _ alike => ⟨alike.current, alike.advance⟩

theorem blind_position : Blind (fun _ _ => True) position position :=
  fun _ _ alike => ⟨trivial, alike⟩

theorem blind_remaining : Blind Eq remaining remaining :=
  fun _ _ alike => ⟨alike.pending.length_eq, alike⟩

theorem blind_spanFrom (start start' : Position) :
    Blind (fun _ _ => True) (spanFrom start) (spanFrom start') :=
  fun _ _ alike => ⟨trivial, alike⟩

theorem blind_unexpected : Blind R unexpected unexpected :=
  fun _ _ alike => ⟨alike.unexpected, alike⟩

theorem blind_unexpectedDetailed (expected : String) :
    Blind R (unexpectedDetailed expected) (unexpectedDetailed expected) :=
  fun _ _ alike => ⟨alike.unexpectedDetailed expected, alike⟩

theorem blind_throw_bind {e e' : InputError} {f : β → Parse α} {f' : β' → Parse α'}
    (same : e.cause = e'.cause) :
    Blind R ((throw e : Parse β) >>= f) ((throw e' : Parse β') >>= f') :=
  fun _ _ alike => ⟨same, alike⟩

theorem blind_expect (kind : Token.Kind) : Blind Token.Alike (expect kind) (expect kind) :=
  blind_current.bind fun _ _ alike => related_ite (by rw [alike.kind]) blind_advance blind_unexpected

theorem blind_eat (kind : Token.Kind) : Blind Eq (eat kind) (eat kind) :=
  blind_current.bind fun _ _ alike => related_ite (by rw [alike.kind])
    (blind_advance.bind fun _ _ _ => related_pure rfl) (related_pure rfl)

/-- What a level forbids is forbidden wherever it stands. -/
theorem agree_requireLevel {p : Parse α} {p' : Parse α'} {s s' : TokenStream} (alike : s.Alike s')
    (level required : Level) (feature : String)
    (next : Agree TokenStream.Alike SameCause R (p s) (p' s')) :
    Agree TokenStream.Alike SameCause R ((requireLevel level required feature >>= fun _ => p) s)
      ((requireLevel level required feature >>= fun _ => p') s') := by
  by_cases allowed : required ≤ level
  · rw [bind_ok ((requireLevel_apply _ _ _ s).trans (if_pos allowed)),
      bind_ok ((requireLevel_apply _ _ _ s').trans (if_pos allowed))]
    exact next
  · rw [bind_error ((requireLevel_apply _ _ _ s).trans (if_neg allowed)),
      bind_error ((requireLevel_apply _ _ _ s').trans (if_neg allowed))]
    exact ⟨rfl, alike⟩

theorem blind_node (kind : SyntaxTree.Kind) (start start' : Position) {text text' : String}
    {children children' : List SyntaxTree} (same : text = text') (writes : kind.Writes text)
    (alike : SyntaxTree.AllAlike children children') :
    Blind SyntaxTree.Alike (node kind start text children) (node kind start' text' children') :=
  (blind_spanFrom start start').bind fun _ _ _ => related_pure (same ▸ .node writes alike .nil)

/-- The token that is taken is the one that was looked at before. -/
theorem agree_advance {f : Token → Parse α} {f' : Token → Parse α'} {s s' : TokenStream}
    (alike : s.Alike s') (next : Blind R (f s.current) (f' s'.current)) :
    Agree TokenStream.Alike SameCause R ((advance >>= f) s) ((advance >>= f') s') := by
  rw [bind_ok (advance_apply s), bind_ok (advance_apply s')]
  exact next _ _ alike.advance

theorem blind_commaSeparated {item item' : Parse SyntaxTree}
    (h : Blind SyntaxTree.Alike item item') (budget : Nat) :
    Blind SyntaxTree.AllAlike (commaSeparated item budget)
      (commaSeparated item' budget) := by
  induction budget with
  | zero => exact h.bind fun _ _ alike => related_pure (.one alike)
  | succ budget ih =>
    refine h.bind fun _ _ alike => (blind_eat .comma).bind fun _ _ same => ?_
    exact related_ite (by rw [same]) (ih.bind fun _ _ others => related_pure (.cons alike others))
      (related_pure (.one alike))

end Parse

end OpenExpr
