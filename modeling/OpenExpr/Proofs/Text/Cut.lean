import Mathlib.Data.List.DropRight
import OpenExpr.Text.Cut

namespace OpenExpr

namespace Text

variable {α : Type}

/-- The pieces of a list are what stands up to its last element to cut after, the rest is
what stands behind it. -/
theorem cutAfter_eq_right (p : α → Bool) (l : List α) :
    (cutAfter p l).1.flatten = l.rdropWhile (fun a => !p a) ∧
      (cutAfter p l).2 = l.rtakeWhile (fun a => !p a) := by
  induction l using List.reverseRecOn with
  | nil => exact ⟨rfl, rfl⟩
  | append_singleton l a ih =>
    have whole := flatten_cutAfter p (l ++ [a])
    rw [cutAfter_append] at whole ⊢
    have free := not_of_mem_cutAfter_rest p l
    by_cases yes : p a = true
    · rw [cutAfter_piece p free yes] at whole ⊢
      rw [List.rdropWhile_concat_neg _ _ _ (by simp [yes]),
        List.rtakeWhile_concat_neg _ _ _ (by simp [yes])]
      simpa [cutAfter] using whole
    · have uncut : ∀ x ∈ (cutAfter p l).2 ++ [a], p x = false := by
        simpa [or_imp, forall_and] using And.intro free yes
      have rest := cutAfter_append_left p uncut []
      rw [List.nil_append] at rest
      rw [rest, List.rdropWhile_concat_pos _ _ _ (by simp [yes]),
        List.rtakeWhile_concat_pos _ _ _ (by simp [yes]), ← ih.1, ← ih.2]
      simp [cutAfter]

/-- Cutting leaves pieces and no rest exactly where a list ends in the element to cut
after. -/
theorem cutAfter_ended_iff {a : α} {p : α → Bool} (only : ∀ b, p b = true ↔ b = a) (l : List α) :
    ((cutAfter p l).1 ≠ [] ∧ (cutAfter p l).2 = []) ↔ l.getLast? = some a := by
  induction l using List.reverseRecOn with
  | nil => simp [cutAfter]
  | append_singleton l b _ =>
    have free := not_of_mem_cutAfter_rest p l
    rw [cutAfter_append, List.getLast?_concat, Option.some_inj, ← only]
    by_cases yes : p b = true
    · simp [cutAfter_piece p free yes, cutAfter, yes]
    · have uncut : ∀ x ∈ (cutAfter p l).2 ++ [b], p x = false := by
        simpa [or_imp, forall_and] using And.intro free yes
      have rest := cutAfter_append_left p uncut []
      rw [List.nil_append] at rest
      simp [rest, yes]

theorem length_cutAfter (p : α → Bool) (l : List α) : (cutAfter p l).1.length = l.countP p := by
  induction l with
  | nil => rfl
  | cons a l ih =>
    rw [List.countP_cons, ← ih, cutAfter]
    dsimp only
    split
    · rfl
    · cases (cutAfter p l).1 <;> rfl

theorem piecesAfter_append (p : α → Bool) (a b : List α) :
    piecesAfter p (a ++ b) = (cutAfter p a).1 ++ piecesAfter p ((cutAfter p a).2 ++ b) := by
  unfold piecesAfter
  rw [cutAfter_append]
  simp only [List.append_assoc]

/-- The first piece goes up to the first element to cut after. -/
theorem piecesAfter_piece (p : α → Bool) {body : List α} (none : ∀ x ∈ body, p x = false) {a : α}
    (yes : p a = true) (l : List α) :
    piecesAfter p (body ++ a :: l) = (body ++ [a]) :: piecesAfter p l := by
  rw [piecesAfter, cutAfter_piece p none yes]
  rfl

/-- Where there is nothing to cut after, the list is its only piece. -/
theorem piecesAfter_of_free (p : α → Bool) {l : List α} (none : ∀ x ∈ l, p x = false) (some : l ≠ []) :
    piecesAfter p l = [l] := by
  have rest := cutAfter_append_left p none []
  rw [List.nil_append] at rest
  simp [piecesAfter, rest, cutAfter, some]

/-- A list goes up to its first element to cut after and on, or has no such element. -/
theorem free_or_split (p : α → Bool) (l : List α) : (∀ x ∈ l, p x = false) ∨
    ∃ body a rest, l = body ++ a :: rest ∧ p a = true ∧ ∀ x ∈ body, p x = false := by
  induction l with
  | nil => exact .inl (by simp)
  | cons a l ih =>
    by_cases cut : p a = true
    · exact .inr ⟨[], a, l, rfl, cut, by simp⟩
    · rcases ih with free | ⟨body, b, rest, rfl, yes, free⟩
      · exact .inl (by simpa [cut] using free)
      · exact .inr ⟨a :: body, b, rest, rfl, yes, by simpa [cut] using free⟩

/-- Every piece ends at the first of its elements to cut after, but for the last, which may
have none. -/
theorem piecesAfter_eq_append {p : α → Bool} {l piece : List α} {above below : List (List α)}
    (pieces : piecesAfter p l = above ++ piece :: below) :
    (∀ x ∈ above, ∃ body a, x = body ++ [a] ∧ p a = true ∧ ∀ b ∈ body, p b = false) ∧
      ((∃ body a, piece = body ++ [a] ∧ p a = true ∧ ∀ b ∈ body, p b = false) ∨
        piece ≠ [] ∧ (∀ b ∈ piece, p b = false) ∧ below = []) := by
  induction above generalizing l with
  | nil =>
    rcases free_or_split p l with free | ⟨body, a, rest, rfl, yes, free⟩
    · have some : l ≠ [] := by
        rintro rfl
        cases pieces
      rw [piecesAfter_of_free p free some] at pieces
      obtain ⟨rfl, rfl⟩ := List.cons.inj pieces
      exact ⟨by simp, .inr ⟨some, free, rfl⟩⟩
    · rw [piecesAfter_piece p free yes] at pieces
      obtain ⟨rfl, _⟩ := List.cons.inj pieces
      exact ⟨by simp, .inl ⟨body, a, rfl, yes, free⟩⟩
  | cons x above ih =>
    rcases free_or_split p l with free | ⟨body, a, rest, rfl, yes, free⟩
    · have some : l ≠ [] := by
        rintro rfl
        cases pieces
      rw [piecesAfter_of_free p free some] at pieces
      cases above <;> cases pieces
    · rw [piecesAfter_piece p free yes] at pieces
      obtain ⟨rfl, others⟩ := List.cons.inj pieces
      obtain ⟨front, last⟩ := ih others
      exact ⟨List.forall_mem_cons.mpr ⟨⟨body, a, rfl, yes, free⟩, front⟩, last⟩

variable {β : Type}

/-- A list is cut where it was if its elements are replaced and those to cut after remain
such elements. -/
theorem cutAfter_map {p : β → Bool} {q : α → Bool} {f : α → β} {l : List α}
    (same : ∀ a ∈ l, p (f a) = q a) :
    cutAfter p (l.map f) = ((cutAfter q l).1.map (List.map f), (cutAfter q l).2.map f) := by
  induction l with
  | nil => rfl
  | cons a l ih =>
    obtain ⟨first, others⟩ := List.forall_mem_cons.mp same
    rw [List.map_cons, cutAfter, cutAfter, ih others, first]
    dsimp only
    split
    · rfl
    · cases (cutAfter q l).1 <;> rfl

theorem piecesAfter_map {p : β → Bool} {q : α → Bool} {f : α → β} {l : List α}
    (same : ∀ a ∈ l, p (f a) = q a) : piecesAfter p (l.map f) = (piecesAfter q l).map (List.map f) := by
  unfold piecesAfter
  rw [cutAfter_map same]
  dsimp only
  rw [List.isEmpty_map, List.map_append]
  split <;> rfl

end Text

end OpenExpr
