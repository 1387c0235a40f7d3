namespace OpenExpr.Text

variable {α : Type}

/-- Cuts a list after every element that satisfies `p`. The first part holds the
pieces that such elements end, the second what is left behind the last of them. -/
def cutAfter (p : α → Bool) : List α → List (List α) × List α
  | [] => ([], [])
  | a :: l =>
    let (pieces, rest) := cutAfter p l
    if p a then ([a] :: pieces, rest)
    else
      match pieces with
      | [] => ([], a :: rest)
      | piece :: pieces => ((a :: piece) :: pieces, rest)

/-- The pieces of a list, among which what is left at the end counts unless it
is empty. -/
def piecesAfter (p : α → Bool) (l : List α) : List (List α) :=
  let (pieces, rest) := cutAfter p l
  pieces ++ if rest.isEmpty then [] else [rest]

/-- Nothing is lost by cutting. -/
theorem flatten_cutAfter (p : α → Bool) (l : List α) :
    (cutAfter p l).1.flatten ++ (cutAfter p l).2 = l := by
  induction l with
  | nil => rfl
  | cons a l ih =>
    simp only [cutAfter]
    split
    · simpa using ih
    · split <;> rename_i h <;> rw [h] at ih <;> simpa using ih

/-- What is left behind the last cut holds no element to cut after. -/
theorem not_of_mem_cutAfter_rest (p : α → Bool) (l : List α) :
    ∀ a ∈ (cutAfter p l).2, p a = false := by
  induction l with
  | nil => simp [cutAfter]
  | cons a l ih =>
    simp only [cutAfter]
    split
    · exact ih
    · rename_i no
      split
      · simpa [no] using ih
      · exact ih

/-- A piece ends at the first of its elements to cut after. -/
theorem exists_of_mem_cutAfter (p : α → Bool) (l : List α) :
    ∀ piece ∈ (cutAfter p l).1,
      ∃ body a, piece = body ++ [a] ∧ p a = true ∧ ∀ b ∈ body, p b = false := by
  induction l with
  | nil => simp [cutAfter]
  | cons a l ih =>
    simp only [cutAfter]
    split
    · rename_i yes
      intro piece h
      rcases List.mem_cons.mp h with rfl | h
      · exact ⟨[], a, rfl, yes, by simp⟩
      · exact ih piece h
    · rename_i no
      split
      · simp
      · rename_i first pieces same
        rw [same] at ih
        intro piece h
        rcases List.mem_cons.mp h with rfl | h
        · obtain ⟨body, b, rfl, hb, hbody⟩ := ih first List.mem_cons_self
          refine ⟨a :: body, b, rfl, hb, ?_⟩
          simpa [no] using hbody
        · exact ih piece (List.mem_cons_of_mem _ h)

/-- What stands behind a list and holds no element to cut after goes to what is left
behind the last cut. -/
theorem cutAfter_append_left (p : α → Bool) {b : List α} (none : ∀ x ∈ b, p x = false) (a : List α) :
    cutAfter p (a ++ b) = ((cutAfter p a).1, (cutAfter p a).2 ++ b) := by
  induction a with
  | nil =>
    induction b with
    | nil => rfl
    | cons x b ih =>
      obtain ⟨first, others⟩ := List.forall_mem_cons.mp none
      have rest := ih others
      rw [List.nil_append] at rest ⊢
      simp [cutAfter, rest, first]
  | cons x a ih =>
    rw [List.cons_append, cutAfter, cutAfter, ih]
    dsimp only
    split
    · rfl
    · cases (cutAfter p a).1 <;> rfl

/-- What stands in front of a list and holds no element to cut after goes to the first
piece of it, or to what is left if there is none. -/
theorem cutAfter_append_right (p : α → Bool) {a : List α} (none : ∀ x ∈ a, p x = false) (b : List α) :
    cutAfter p (a ++ b) =
      match cutAfter p b with
      | ([], rest) => ([], a ++ rest)
      | (piece :: pieces, rest) => ((a ++ piece) :: pieces, rest) := by
  induction a with
  | nil =>
    rw [List.nil_append]
    rcases cutAfter p b with ⟨_ | _, _⟩ <;> rfl
  | cons x a ih =>
    obtain ⟨first, others⟩ := List.forall_mem_cons.mp none
    rw [List.cons_append, cutAfter, ih others]
    rcases cutAfter p b with ⟨_ | _, _⟩ <;> simp [first]

/-- Where a list was cut, cutting goes on with what was left. -/
theorem cutAfter_append (p : α → Bool) (a b : List α) :
    cutAfter p (a ++ b) = ((cutAfter p a).1 ++ (cutAfter p ((cutAfter p a).2 ++ b)).1,
      (cutAfter p ((cutAfter p a).2 ++ b)).2) := by
  induction a with
  | nil => rfl
  | cons x a ih =>
    rw [List.cons_append, cutAfter, cutAfter, ih]
    dsimp only
    split
    · rfl
    · rename_i no
      cases (cutAfter p a).1 with
      | nil => simp only [List.nil_append, List.cons_append, cutAfter, no, Bool.false_eq_true, if_false]
      | cons => rfl

/-- A list is cut at the first element to cut after, and then the rest of it is. -/
theorem cutAfter_piece (p : α → Bool) {body : List α} (none : ∀ x ∈ body, p x = false) {a : α}
    (yes : p a = true) (l : List α) :
    cutAfter p (body ++ a :: l) = ((body ++ [a]) :: (cutAfter p l).1, (cutAfter p l).2) := by
  rw [cutAfter_append_right p none]
  simp [cutAfter, yes]

/-- Pieces are cut where they were put together. -/
theorem cutAfter_flatten (p : α → Bool) {pieces : List (List α)}
    (each : ∀ piece ∈ pieces, ∃ body a, piece = body ++ [a] ∧ p a = true ∧ ∀ b ∈ body, p b = false) :
    cutAfter p pieces.flatten = (pieces, []) := by
  induction pieces with
  | nil => rfl
  | cons piece pieces ih =>
    obtain ⟨⟨body, a, rfl, yes, none⟩, others⟩ := List.forall_mem_cons.mp each
    rw [List.flatten_cons, List.append_assoc, List.singleton_append, cutAfter_piece p none yes,
      ih others]

/-- If elements to cut after become one such element each and no others do, the pieces
become the pieces. -/
theorem cutAfter_flatMap {β : Type} {p : β → Bool} {q : α → Bool} {f : α → List β}
    (cuts : ∀ a, q a = true → ∃ b, f a = [b] ∧ p b = true)
    (others : ∀ a, q a = false → ∀ b ∈ f a, p b = false) (l : List α) : cutAfter p (l.flatMap f) =
      ((cutAfter q l).1.map (List.flatMap f), (cutAfter q l).2.flatMap f) := by
  induction l with
  | nil => rfl
  | cons a l ih =>
    rw [List.flatMap_cons, cutAfter]
    cases cut : q a with
    | true =>
      obtain ⟨b, same, yes⟩ := cuts a cut
      rw [same, List.singleton_append, cutAfter, ih]
      simp [yes, same]
    | false =>
      rw [cutAfter_append_right p (others a cut), ih]
      rcases cutAfter q l with ⟨_ | _, _⟩ <;> simp

theorem flatten_piecesAfter (p : α → Bool) (l : List α) : (piecesAfter p l).flatten = l := by
  have h := flatten_cutAfter p l
  by_cases rest : (cutAfter p l).2 = []
  · simpa [piecesAfter, rest] using h
  · simpa [piecesAfter, rest] using h

end OpenExpr.Text
