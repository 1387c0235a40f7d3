import OpenExpr.Decimal.Numeral
import OpenExpr.Token.Scan

namespace OpenExpr

namespace Lexeme

/-- The characters of a number: digits with at most one point among them, and not
a point alone. -/
inductive IsNumber : List Char → Prop
  | whole {digits : List Char} : digits ≠ [] → (∀ c ∈ digits, c.isDigit = true) → IsNumber digits
  | point {whole fraction : List Char} : whole ≠ [] ∨ fraction ≠ [] →
      (∀ c ∈ whole, c.isDigit = true) → (∀ c ∈ fraction, c.isDigit = true) →
      IsNumber (whole ++ '.' :: fraction)

theorem IsNumber.concat {text : List Char} {c : Char} (number : IsNumber text)
    (digit : c.isDigit = true) : IsNumber (text ++ [c]) := by
  cases number with
  | whole some digits =>
    refine .whole (by simp) fun d member => ?_
    rcases List.mem_append.mp member with old | new
    · exact digits d old
    · rwa [List.mem_singleton.mp new]
  | @point whole fraction some digits digits' =>
    rw [List.append_assoc, List.cons_append]
    refine .point (.inr (by simp)) digits fun d member => ?_
    rcases List.mem_append.mp member with old | new
    · exact digits' d old
    · rwa [List.mem_singleton.mp new]

/-- What the text of a lexeme looks like by its shape. -/
inductive Spells : Shape → List Char → Prop
  | word {c : Char} {rest : List Char} : isWordStart c = true →
      (∀ d ∈ rest, isWordRest d = true) → Spells .word (c :: rest)
  | number {text : List Char} : IsNumber text → Spells .number text
  | mark {c : Char} : isMark c = true → c ≠ '#' → isWordStart c = false → Spells .mark [c]

theorem Spells.word_concat {text : List Char} {c : Char} (word : Spells .word text)
    (more : isWordRest c = true) : Spells .word (text ++ [c]) := by
  cases word with
  | word first rest =>
    refine .word first fun d member => ?_
    rcases List.mem_append.mp member with old | new
    · exact rest d old
    · rwa [List.mem_singleton.mp new]

def IsSpelled (l : Lexeme) : Prop :=
  Spells l.shape l.text.toList

/-- A pending lexeme may go on, but as it stands it is spelled already. -/
def Pending.IsSpelled : Pending → Prop
  | .nothing | .comment | .point _ => True
  | .word _ text => Spells .word text.reverse
  | .whole _ digits => digits ≠ [] ∧ ∀ c ∈ digits, c.isDigit = true
  | .fraction _ digits => IsNumber digits.reverse

namespace Scanner

structure IsSpelled (s : Scanner) : Prop where
  pending : s.pending.IsSpelled
  done : ∀ l ∈ s.done, l.IsSpelled

theorem IsSpelled.lexeme {s : Scanner} {l : Lexeme} (spelled : s.IsSpelled)
    (found : s.lexeme? = some l) : l.IsSpelled := by
  have pending := spelled.pending
  unfold lexeme? at found
  split at found <;> rename_i same <;> rw [same] at pending <;> cases found
  · rw [Lexeme.IsSpelled, String.toList_ofList]
    exact pending
  · rw [Lexeme.IsSpelled, String.toList_ofList]
    exact .number (.whole (by simpa using pending.1) (by simpa using pending.2))
  · rw [Lexeme.IsSpelled, String.toList_ofList]
    exact .number pending
  · have point : ".".toList = ['.'] := by decide
    rw [Lexeme.IsSpelled, point]
    exact .mark (by decide) (by decide) (by decide)

theorem IsSpelled.flush {s : Scanner} (spelled : s.IsSpelled) : s.flush.IsSpelled where
  pending := trivial
  done l member := by
    rcases List.mem_append.mp member with last | old
    · exact spelled.lexeme (Option.mem_toList.mp last)
    · exact spelled.done l old

theorem IsSpelled.moveTo {s : Scanner} (spelled : s.IsSpelled) (c : Char) {pending : Pending}
    (next : pending.IsSpelled) : (s.moveTo c pending).IsSpelled where
  pending := next
  done := spelled.done

theorem IsSpelled.start {s t : Scanner} {c : Char} (spelled : s.IsSpelled)
    (run : s.start c = .ok t) : t.IsSpelled := by
  have flushed := spelled.flush
  unfold Scanner.start at run
  dsimp only at run
  split at run
  · cases run
    exact flushed.moveTo c trivial
  split at run
  · cases run
    exact flushed.moveTo c trivial
  rename_i noComment
  split at run
  · rename_i first
    cases run
    exact flushed.moveTo c (.word first (by simp))
  rename_i noWord
  split at run
  · rename_i digit
    cases run
    exact flushed.moveTo c ⟨by simp, by simpa using digit⟩
  split at run
  · cases run
    exact flushed.moveTo c trivial
  split at run
  · rename_i mark
    cases run
    refine ⟨trivial, fun l member => ?_⟩
    rcases List.mem_cons.mp member with rfl | old
    · rw [Lexeme.IsSpelled, String.toList_singleton]
      exact .mark mark noComment (by simpa using noWord)
    · exact flushed.done l old
  · cases run

theorem IsSpelled.feed {s t : Scanner} {c : Char} (spelled : s.IsSpelled)
    (run : s.feed c = .ok t) : t.IsSpelled := by
  have pending := spelled.pending
  unfold Scanner.feed at run
  split at run <;> rename_i same <;> rw [same] at pending
  case h_1 => exact spelled.start run
  case h_2 =>
    split at run
    · exact spelled.start run
    · cases run
      exact spelled.moveTo c trivial
  case h_3 =>
    split at run
    · rename_i more
      cases run
      exact spelled.moveTo c (by simpa [Pending.IsSpelled] using pending.word_concat more)
    · exact spelled.start run
  case h_4 offset digits =>
    split at run
    · rename_i digit
      cases run
      exact spelled.moveTo c ⟨by simp, by simpa using ⟨digit, pending.2⟩⟩
    split at run
    · rename_i point
      cases run
      refine spelled.moveTo c ?_
      have number : IsNumber (digits.reverse ++ '.' :: []) :=
        .point (.inl (by simpa using pending.1)) (by simpa using pending.2) (by simp)
      simpa [Pending.IsSpelled, point] using number
    · exact spelled.start run
  case h_5 =>
    split at run
    · rename_i digit
      cases run
      have number : IsNumber ([] ++ '.' :: [c]) :=
        .point (.inr (by simp)) (by simp) (by simpa using digit)
      exact spelled.moveTo c number
    · exact spelled.start run
  case h_6 =>
    split at run
    · rename_i digit
      cases run
      exact spelled.moveTo c (by simpa [Pending.IsSpelled] using pending.concat digit)
    · exact spelled.start run

theorem IsSpelled.read {s t : Scanner} {text : List Char} (spelled : s.IsSpelled)
    (run : s.read text = .ok t) : t.IsSpelled := by
  induction text generalizing s with
  | nil =>
    cases run
    exact spelled
  | cons c text ih =>
    rw [read_cons] at run
    cases step : s.feed c with
    | error stray =>
      rw [step] at run
      cases run
    | ok u =>
      rw [step] at run
      exact ih (spelled.feed step) run

end Scanner

/-- Whatever the source, its lexemes look as their shapes say. -/
theorem isSpelled_of_mem_ofSource {source : String} {lexemes : List Lexeme} {l : Lexeme}
    (run : ofSource source = .ok lexemes) (member : l ∈ lexemes) : l.IsSpelled := by
  unfold ofSource at run
  cases read : Scanner.read {} source.toList with
  | error stray =>
    rw [read] at run
    cases run
  | ok s =>
    rw [read] at run
    cases run
    have fresh : ({} : Scanner).IsSpelled := ⟨trivial, by simp⟩
    have spelled := fresh.read read
    rcases List.mem_append.mp (List.mem_reverse.mp member) with last | done
    · exact spelled.lexeme (Option.mem_toList.mp last)
    · exact spelled.done l done

end Lexeme

end OpenExpr
