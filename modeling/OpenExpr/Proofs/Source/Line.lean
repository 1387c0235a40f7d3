import OpenExpr.Proofs.Text.Cut
import OpenExpr.Proofs.Token.Layout
import OpenExpr.Source.Line

namespace OpenExpr

/-- A place that is not behind the last of the lines is on one of them. -/
theorem SourceLine.isSome_locate {lines : List (List Char)} (some : lines ≠ []) (number : Nat)
    {column : Nat} (inside : column ≤ Text.byteCount lines.flatten) :
    (locate number column (lines.map String.ofList)).isSome = true := by
  induction lines generalizing number column with
  | nil => exact absurd rfl some
  | cons line lines ih =>
    have size := Text.utf8ByteSize_ofList line
    rw [List.flatten_cons, Text.byteCount_append] at inside
    rw [List.map_cons, locate]
    split
    · rfl
    · split
      · rename_i last
        have none : lines = [] := List.map_eq_nil_iff.mp (List.isEmpty_iff.mp last)
        have empty : Text.byteCount lines.flatten = 0 := by rw [none]; rfl
        rw [if_pos (by omega)]
        rfl
      · rename_i more
        exact ih (fun none => more (by rw [none]; rfl)) (number + 1) (by omega)

/-- In a text that is not empty there is a line for every place up to its end. -/
theorem isSome_lineAt {text : String} (some : text ≠ "") {offset : Nat}
    (inside : offset ≤ text.utf8ByteSize) : (lineAt text offset).isSome = true := by
  have whole := Text.flatten_piecesAfter (· == '\n') text.toList
  refine SourceLine.isSome_locate (fun none => some ?_) 1 ?_
  · rw [none] at whole
    exact String.toList_inj.mp whole.symm
  · rw [whole, Text.byteCount_toList]
    exact inside

/-- All lines above a place are passed when a line is left behind them. -/
theorem SourceLine.locate_behind (above : List (List Char)) {rest : List (List Char)} (some : rest ≠ [])
    (number column : Nat) :
    locate number (Text.byteCount above.flatten + column) ((above ++ rest).map String.ofList) =
      locate (number + above.length) column (rest.map String.ofList) := by
  induction above generalizing number with
  | nil => rw [List.flatten_nil, Text.byteCount, Nat.zero_add]; rfl
  | cons line above ih =>
    have more : ((above ++ rest).map String.ofList).isEmpty = false := by
      simp [List.isEmpty_eq_false_iff, some]
    rw [List.cons_append, List.map_cons, locate, Text.utf8ByteSize_ofList, List.flatten_cons,
      Text.byteCount_append, if_neg (by omega), more, if_neg Bool.false_ne_true, Nat.add_assoc,
      Nat.add_sub_cancel_left, ih, List.length_cons, Nat.add_right_comm, Nat.add_assoc]

/-- A place is found on the line in which it stands. The end of a line belongs to it only where
no other line follows. -/
theorem SourceLine.locate_eq_some_iff {lines : List (List Char)} {number p : Nat} {l : SourceLine} :
    locate number p (lines.map String.ofList) = some l ↔
      ∃ above below, lines = above ++ l.text.toList :: below ∧ l.number = number + above.length ∧
        Text.byteCount above.flatten + l.column = p ∧
        (l.column < l.text.utf8ByteSize ∨ below = [] ∧ l.column = l.text.utf8ByteSize) := by
  constructor
  · intro found
    induction lines generalizing number p with
    | nil => cases found
    | cons line lines ih =>
      have size := Text.utf8ByteSize_ofList line
      rw [List.map_cons, locate] at found
      split at found
      · cases found
        exact ⟨[], lines, by simp, rfl, Nat.zero_add _, .inl ‹_›⟩
      split at found
      · rename_i last
        have none : lines = [] := List.map_eq_nil_iff.mp (List.isEmpty_iff.mp last)
        split at found
        · cases found
          exact ⟨[], [], by simp [none], rfl, Nat.zero_add _, .inr ⟨rfl, ‹_›⟩⟩
        · cases found
      · obtain ⟨above, below, rfl, counted, place, within⟩ := ih found
        refine ⟨line :: above, below, rfl, ?_, ?_, within⟩
        · rw [List.length_cons]
          omega
        · rw [List.flatten_cons, Text.byteCount_append]
          omega
  · rintro ⟨above, below, rfl, counted, rfl, within⟩
    rw [locate_behind above (List.cons_ne_nil _ _), List.map_cons, String.ofList_toList, ← counted, locate]
    rcases within with inside | ⟨rfl, last⟩
    · rw [if_pos inside]
    · rw [if_neg (Nat.not_lt_of_le last.ge), List.map_nil, List.isEmpty_nil, if_pos rfl, if_pos last]

/-- A line of a text between what stands above it and what stands below it. It goes up to its
line break, which only the last line may lack. -/
structure IsLine (text above line below : List Char) : Prop where
  split : text = above ++ line ++ below
  starts : above = [] ∨ ∃ front, above = front ++ ['\n']
  ends : (∃ body, line = body ++ ['\n'] ∧ '\n' ∉ body) ∨ line ≠ [] ∧ '\n' ∉ line ∧ below = []

namespace IsLine

variable {text above line below : List Char}

theorem unbroken_iff {cs : List Char} : (∀ c ∈ cs, (c == '\n') = false) ↔ '\n' ∉ cs := by
  simp only [beq_eq_false_iff_ne]
  exact ⟨fun free member => free _ member rfl, fun free c member same => free (same ▸ member)⟩

/-- A line is one of the pieces that the text is cut into. -/
theorem exists_pieces (h : IsLine text above line below) : ∃ front,
    Text.piecesAfter (· == '\n') text = front ++ line :: Text.piecesAfter (· == '\n') below ∧
      front.flatten = above := by
  have atBreak : (Text.cutAfter (· == '\n') above).2 = [] := by
    rcases h.starts with rfl | ⟨front, rfl⟩
    · rfl
    · exact ((Text.cutAfter_ended_iff (fun _ => beq_iff_eq) _).mpr List.getLast?_concat).2
  have whole := Text.flatten_cutAfter (· == '\n') above
  rw [atBreak, List.append_nil] at whole
  refine ⟨_, ?_, whole⟩
  rw [h.split, List.append_assoc, Text.piecesAfter_append, atBreak, List.nil_append]
  rcases h.ends with ⟨body, rfl, unbroken⟩ | ⟨some, unbroken, rfl⟩
  · rw [List.append_assoc, List.singleton_append,
      Text.piecesAfter_piece _ (unbroken_iff.mpr unbroken) rfl]
  · rw [List.append_nil, Text.piecesAfter_of_free _ (unbroken_iff.mpr unbroken) some]
    rfl

theorem of_pieces {front back : List (List Char)}
    (pieces : Text.piecesAfter (· == '\n') text = front ++ line :: back) :
    IsLine text front.flatten line back.flatten := by
  obtain ⟨ended, last⟩ := Text.piecesAfter_eq_append pieces
  refine ⟨?_, ?_, ?_⟩
  · rw [← Text.flatten_piecesAfter (· == '\n') text, pieces]
    simp
  · rcases List.eq_nil_or_concat front with rfl | ⟨front, x, rfl⟩
    · exact .inl rfl
    · obtain ⟨body, c, rfl, newline, _⟩ := ended x (by simp)
      exact .inr ⟨front.flatten ++ body, by simp [beq_iff_eq.mp newline]⟩
  · rcases last with ⟨body, c, rfl, newline, free⟩ | ⟨some, free, rfl⟩
    · exact .inl ⟨body, by rw [beq_iff_eq.mp newline], unbroken_iff.mp free⟩
    · exact .inr ⟨some, unbroken_iff.mp free, rfl⟩

/-- Above a line stand as many lines as line breaks. -/
theorem length_above {front back : List (List Char)}
    (pieces : Text.piecesAfter (· == '\n') text = front ++ line :: back) :
    front.length = front.flatten.count '\n' := by
  have cut := Text.cutAfter_flatten _ (Text.piecesAfter_eq_append pieces).1
  rw [List.count, ← Text.length_cutAfter, cut]

theorem byteCount_eq {text line : String} (h : IsLine text.toList above line.toList below) :
    Text.byteCount above + line.utf8ByteSize + Text.byteCount below = text.utf8ByteSize := by
  rw [← Text.byteCount_toList text, h.split, Text.byteCount_append, Text.byteCount_append,
    Text.byteCount_toList]

/-- The line of a character is what stands around it between two line breaks, of which the
second belongs to it. -/
theorem around (before after : List Char) {c : Char} (inLine : c ≠ '\n') :
    IsLine (before ++ c :: after) (before.rdropWhile (· != '\n'))
      (before.rtakeWhile (· != '\n') ++ c :: (after.takeWhile (· != '\n') ++
        (after.dropWhile (· != '\n')).take 1))
      ((after.dropWhile (· != '\n')).drop 1) where
  split := by
    have front := List.rdropWhile_append_rtakeWhile (p := (· != '\n')) (l := before)
    have back := List.takeWhile_append_dropWhile (p := (· != '\n')) (l := after)
    have rest := List.take_append_drop 1 (after.dropWhile (· != '\n'))
    conv_lhs => rw [← front, ← back, ← rest]
    simp only [List.append_assoc, List.cons_append]
  starts := by
    rcases List.eq_nil_or_concat' (before.rdropWhile (· != '\n')) with none | ⟨front, d, same⟩
    · exact .inl none
    · have stop := List.rdropWhile_last_not (· != '\n') before (by simp [same])
      simp only [same, List.getLast_append_singleton, bne_iff_ne, not_not] at stop
      exact .inr ⟨front, by rw [same, stop]⟩
  ends := by
    have front : '\n' ∉ before.rtakeWhile (· != '\n') := fun member => by
      simpa using List.mem_rtakeWhile_imp member
    have back : '\n' ∉ after.takeWhile (· != '\n') := fun member => by
      simpa using List.mem_takeWhile_imp member
    cases rest : after.dropWhile (· != '\n') with
    | nil => exact .inr ⟨by simp, by simp [front, back, inLine.symm], rfl⟩
    | cons d below =>
      have stop := List.head?_dropWhile_not (· != '\n') after
      have newline : d = '\n' := by simpa [rest] using stop
      refine .inl ⟨before.rtakeWhile (· != '\n') ++ c :: after.takeWhile (· != '\n'), ?_, ?_⟩
      · simp [newline]
      · simp [front, back, inLine.symm]

end IsLine

/-- The line of a place is the one that holds its byte and, for the place at the end of the
text, the last one. -/
theorem lineAt_eq_some_iff {text : String} {p : Nat} {l : SourceLine} :
    lineAt text p = some l ↔ ∃ above below, IsLine text.toList above l.text.toList below ∧
      l.number = above.count '\n' + 1 ∧ Text.byteCount above + l.column = p ∧
      (l.column < l.text.utf8ByteSize ∨ below = [] ∧ l.column = l.text.utf8ByteSize) := by
  rw [lineAt, SourceLine.locate_eq_some_iff]
  constructor
  · rintro ⟨front, back, pieces, counted, place, within⟩
    refine ⟨_, _, .of_pieces pieces, ?_, place, ?_⟩
    · rw [counted, IsLine.length_above pieces, Nat.add_comm]
    · exact within.imp_right fun ⟨last, atEnd⟩ => ⟨by rw [last]; rfl, atEnd⟩
  · rintro ⟨above, below, isLine, counted, place, within⟩
    obtain ⟨front, pieces, rfl⟩ := isLine.exists_pieces
    refine ⟨front, _, pieces, ?_, place, ?_⟩
    · rw [counted, IsLine.length_above pieces, Nat.add_comm]
    · exact within.imp_right fun ⟨last, atEnd⟩ => ⟨by rw [last]; rfl, atEnd⟩

/-- The line of a character counts the line breaks in front of it. -/
theorem lineAt_eq {text : String} {before after : List Char} {c : Char}
    (written : text.toList = before ++ c :: after) (inLine : c ≠ '\n') :
    lineAt text (Text.byteCount before) = some
      { number := before.count '\n' + 1
        text := String.ofList (before.rtakeWhile (· != '\n') ++ c :: (after.takeWhile (· != '\n') ++
          (after.dropWhile (· != '\n')).take 1))
        column := Text.byteCount (before.rtakeWhile (· != '\n')) } := by
  have front := List.rdropWhile_append_rtakeWhile (p := (· != '\n')) (l := before)
  have unbroken : (before.rtakeWhile (· != '\n')).count '\n' = 0 :=
    List.count_eq_zero.mpr fun member => by simpa using List.mem_rtakeWhile_imp member
  have counted : (before.rdropWhile (· != '\n')).count '\n' = before.count '\n' := by
    conv_rhs => rw [← front, List.count_append, unbroken, Nat.add_zero]
  have size := congrArg Text.byteCount front
  rw [Text.byteCount_append] at size
  refine lineAt_eq_some_iff.mpr
    ⟨_, (after.dropWhile (· != '\n')).drop 1, ?_, ?_, size, .inl ?_⟩
  · rw [written, String.toList_ofList]
    exact IsLine.around before after inLine
  · rw [counted]
  · have positive := Char.utf8Size_pos c
    dsimp only
    rw [Text.utf8ByteSize_ofList, Text.byteCount_append, Text.byteCount]
    omega

/-- No line is found behind the end of the text. -/
theorem lineAt_eq_none_iff {text : String} (some : text ≠ "") {p : Nat} :
    lineAt text p = none ↔ text.utf8ByteSize < p := by
  constructor
  · intro nowhere
    by_contra inside
    have found := isSome_lineAt some (Nat.le_of_not_lt inside)
    rw [nowhere] at found
    cases found
  · intro behind
    cases found : lineAt text p with
    | none => rfl
    | some l =>
      obtain ⟨above, below, isLine, _, place, within⟩ := lineAt_eq_some_iff.mp found
      have whole := isLine.byteCount_eq
      omega

/-- In a text that is not empty the places up to its end are on a line, and no others are. A
place in front of the end is on the line that holds its byte, the end is on the last line. The
line comes with its number, one more than there are line breaks above it, and with the number of
bytes between its start and the place. -/
theorem place_found_on_its_line {text : String} (some : text ≠ "") (p : Nat) :
    (lineAt text p = none ↔ text.utf8ByteSize < p) ∧
    (p < text.utf8ByteSize → (lineAt text p).isSome = true ∧
      ∀ l : SourceLine, lineAt text p = .some l ↔
        ∃ above below, IsLine text.toList above l.text.toList below ∧
          l.number = above.count '\n' + 1 ∧ Text.byteCount above + l.column = p ∧
          l.column < l.text.utf8ByteSize) ∧
    (p = text.utf8ByteSize → (lineAt text p).isSome = true ∧
      ∀ l : SourceLine, lineAt text p = .some l ↔
        ∃ above, IsLine text.toList above l.text.toList [] ∧
          l.number = above.count '\n' + 1 ∧ l.column = l.text.utf8ByteSize) := by
  refine ⟨lineAt_eq_none_iff some, fun inside => ⟨isSome_lineAt some inside.le, fun l => ?_⟩,
    fun atEnd => ⟨isSome_lineAt some atEnd.le, fun l => ?_⟩⟩
  · rw [lineAt_eq_some_iff]
    constructor
    · rintro ⟨above, below, isLine, counted, place, within⟩
      refine ⟨above, below, isLine, counted, place, within.resolve_right ?_⟩
      rintro ⟨rfl, last⟩
      have whole : _ + 0 = _ := isLine.byteCount_eq
      omega
    · rintro ⟨above, below, isLine, counted, place, within⟩
      exact ⟨above, below, isLine, counted, place, .inl within⟩
  · rw [lineAt_eq_some_iff]
    constructor
    · rintro ⟨above, below, isLine, counted, place, within⟩
      have whole := isLine.byteCount_eq
      obtain ⟨rfl, last⟩ := within.resolve_left (by omega)
      exact ⟨above, isLine, counted, last⟩
    · rintro ⟨above, isLine, counted, last⟩
      have whole : _ + 0 = _ := isLine.byteCount_eq
      exact ⟨above, [], isLine, counted, by omega, .inr ⟨rfl, last⟩⟩

/-- Bytes inside a character, at a line break and at the end of a text that no line break ends. -/
theorem places_on_three_lines :
    let text := "\u00e9\n\nx"
    text ≠ "" ∧ lineAt text 1 = some { number := 1, text := "\u00e9\n", column := 1 } ∧
      lineAt text 3 = some { number := 2, text := "\n", column := 0 } ∧
      lineAt text 5 = some { number := 3, text := "x", column := 1 } ∧ lineAt text 6 = none := by
  intro text
  have some : text ≠ "" := by decide
  refine ⟨some, ?_, ?_, ?_, ?_⟩
  · exact (((place_found_on_its_line some 1).2.1 (by decide)).2 _).mpr
      ⟨[], ['\n', 'x'], ⟨by decide, .inl rfl, .inl ⟨['\u00e9'], by decide, by decide⟩⟩, by decide⟩
  · exact (((place_found_on_its_line some 3).2.1 (by decide)).2 _).mpr
      ⟨['\u00e9', '\n'], ['x'], ⟨by decide, .inr ⟨['\u00e9'], by decide⟩, .inl ⟨[], by decide, by decide⟩⟩,
        by decide⟩
  · exact (((place_found_on_its_line some 5).2.2 (by decide)).2 _).mpr
      ⟨['\u00e9', '\n', '\n'], ⟨by decide, .inr ⟨['\u00e9', '\n'], by decide⟩,
        .inr ⟨by decide, by decide, rfl⟩⟩, by decide⟩
  · exact (place_found_on_its_line some 6).1.mpr (by decide)

end OpenExpr
