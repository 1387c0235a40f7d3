import OpenExpr.Proofs.Source.Line
import OpenExpr.Report
import OpenExpr.Session

namespace OpenExpr

namespace Text

variable {p : Char → Bool} {c : Char}

theorem dropWhile_append_stop (stop : p c = false) (a b : List Char) :
    (a ++ c :: b).dropWhile p = a.dropWhile p ++ c :: b := by
  rw [List.dropWhile_append, List.dropWhile_cons_of_neg (by simp [stop])]
  cases a.dropWhile p <;> rfl

theorem dropEndWhile_append_stop (stop : p c = false) (a b : List Char) :
    dropEndWhile p (a ++ c :: b) = a ++ c :: dropEndWhile p b := by
  have turned : (a ++ c :: b).reverse = b.reverse ++ c :: a.reverse := by simp
  rw [dropEndWhile, turned, dropWhile_append_stop stop]
  simp [dropEndWhile]

theorem dropEndWhile_append_of_all {b : List Char} (all : ∀ d ∈ b, p d = true) (a : List Char) :
    dropEndWhile p (a ++ b) = dropEndWhile p a := by
  rw [dropEndWhile, List.reverse_append,
    List.dropWhile_append_of_pos fun d member => all d (List.mem_reverse.mp member), dropEndWhile]

theorem not_of_mem_take_dropWhile {a : List Char} (member : c ∈ (a.dropWhile p).take 1) : p c = false := by
  have stop := List.head?_dropWhile_not p a
  cases rest : a.dropWhile p with
  | nil =>
    rw [rest] at member
    cases member
  | cons d _ =>
    rw [rest] at member stop
    rw [List.mem_singleton.mp member]
    simpa using stop

/-- The bytes that are left of the text in front, if those that are dropped are counted
together with what stands behind. -/
theorem byteCount_sub_dropWhile (p : Char → Bool) (a b : List Char) :
    byteCount a - (byteCount (a ++ b) - byteCount (a.dropWhile p ++ b)) = byteCount (a.dropWhile p) := by
  have whole := congrArg byteCount (List.takeWhile_append_dropWhile (p := p) (l := a))
  rw [byteCount_append] at whole ⊢
  rw [byteCount_append]
  omega

theorem ne_newline_of_visible (visible : isBlank c = false) : c ≠ '\n' := by
  rintro rfl
  exact absurd visible (by decide)

/-- Each character takes a byte at least, so only where all of them take one do
the bytes count the characters. -/
theorem length_eq_byteCount_iff (cs : List Char) :
    byteCount cs = cs.length ↔ ∀ d ∈ cs, d.utf8Size = 1 := by
  have atLeast (cs : List Char) : cs.length ≤ byteCount cs := by
    induction cs with
    | nil => exact Nat.le_refl 0
    | cons d cs ih =>
      have positive := Char.utf8Size_pos d
      rw [List.length_cons, byteCount]
      omega
  induction cs with
  | nil => simp [byteCount]
  | cons d cs ih =>
    have positive := Char.utf8Size_pos d
    have others := atLeast cs
    rw [List.forall_mem_cons, ← propext ih, byteCount, List.length_cons]
    omega

end Text

theorem Report.dropIndent_append {c : Char} (visible : Text.isBlank c = false) (a b : List Char) :
    dropIndent (a ++ c :: b) = dropIndent a ++ c :: b := by
  have noIndent : (c == ' ' || c == '\t') = false := by
    rw [Bool.or_eq_false_iff, beq_eq_false_iff_ne, beq_eq_false_iff_ne]
    constructor <;> (rintro rfl; exact absurd visible (by decide))
  exact Text.dropWhile_append_stop noIndent a b

/-- A line on which one character is pointed at. -/
structure MarkedLine where
  number : Nat
  front : List Char
  mark : Char
  back : List Char

namespace MarkedLine

/-- The line of a character between what is written in front of it and behind it. -/
def around (before : List Char) (c : Char) (after : List Char) : MarkedLine where
  number := before.count '\n' + 1
  front := before.rtakeWhile (· != '\n')
  mark := c
  back := after.takeWhile (· != '\n')

variable (line : MarkedLine)

def text : List Char :=
  line.front ++ line.mark :: line.back

/-- The line without its indentation and the white space at its end. -/
def stripped : MarkedLine :=
  { line with front := Report.dropIndent line.front, back := Text.dropEndWhile Text.isBlank line.back }

def digits : List Char :=
  (toString line.number).toList

/-- The margin of the rows that hold no text of the source. -/
def gutter : List Char :=
  List.replicate (line.digits.length + 1) ' ' ++ ['|']

/-- The line behind its number. -/
def shown : List Char :=
  line.digits ++ [' ', '|', ' '] ++ line.text

/-- A caret behind as many dashes as there are bytes in front of the character. -/
def pointer : List Char :=
  line.gutter ++ ' ' :: List.replicate (Text.byteCount line.front) '-' ++ ['^']

def rows : List (List Char) :=
  [line.gutter, line.shown, line.pointer]

def picture : String :=
  String.ofList (line.rows.flatMap (· ++ ['\n']))

/-- The place of the character among those of the row that shows it. -/
def column : Nat :=
  line.digits.length + 3 + line.front.length

variable {line} {before after : List Char} {c : Char}

theorem stripped_text (visible : Text.isBlank line.mark = false) :
    line.stripped.text = Text.dropEndWhile Text.isBlank (Report.dropIndent line.text) := by
  rw [text, text, Report.dropIndent_append visible, Text.dropEndWhile_append_stop visible]
  rfl

theorem shown_column : line.shown[line.column]? = some line.mark := by
  have front : (line.digits ++ [' ', '|', ' '] ++ line.front).length = line.column := by
    simp [column]
    omega
  rw [shown, text, ← List.append_assoc, List.getElem?_append_right front.le, front, Nat.sub_self]
  rfl

theorem idxOf_pointer :
    line.pointer.idxOf '^' = line.digits.length + 3 + Text.byteCount line.front := by
  have absent : '^' ∉ line.gutter ++ ' ' :: List.replicate (Text.byteCount line.front) '-' := by
    simp [gutter]
  rw [pointer, List.idxOf_append_of_notMem absent]
  simp [gutter]
  omega

/-- The caret stands below the character just where no character shown in front of it
takes more than one byte. -/
theorem pointer_below_iff :
    line.pointer.idxOf '^' = line.column ↔ ∀ d ∈ line.front, d.utf8Size = 1 := by
  rw [idxOf_pointer, column, Nat.add_left_cancel_iff, Text.length_eq_byteCount_iff]

theorem newline_not_mem_digits : '\n' ∉ line.digits := by
  intro member
  have written : line.digits = Nat.toDigits 10 line.number := Nat.toList_repr
  rw [written] at member
  have digit : '\n'.isDigit = true := Nat.isDigit_of_mem_toDigits (by decide) (by decide) member
  exact absurd digit (by decide)

/-- No row runs over a line break, since the line was taken between two of them. -/
theorem newline_not_mem_rows (inLine : c ≠ '\n') :
    ∀ row ∈ (around before c after).stripped.rows, '\n' ∉ row := by
  have digits : '\n' ∉ (around before c after).stripped.digits := newline_not_mem_digits
  have front : '\n' ∉ (around before c after).stripped.front := fun member => by
    simpa using List.mem_rtakeWhile_imp ((List.dropWhile_suffix _).mem member)
  have back : '\n' ∉ (around before c after).stripped.back := fun member => by
    simpa using List.mem_takeWhile_imp ((List.rdropWhile_prefix _ _).mem member)
  have mark : (around before c after).stripped.mark ≠ '\n' := inLine
  simp [rows, gutter, shown, pointer, text, digits, front, back, mark.symm]

/-- The lines of a picture are its rows. -/
theorem lines_picture (inLine : c ≠ '\n') :
    Text.piecesAfter (· == '\n') (around before c after).stripped.picture.toList =
      (around before c after).stripped.rows.map (· ++ ['\n']) := by
  have unbroken : ∀ row ∈ (around before c after).stripped.rows, '\n' ∉ row :=
    newline_not_mem_rows inLine
  generalize (around before c after).stripped = line at unbroken ⊢
  have cut : Text.cutAfter (· == '\n') (line.rows.map (· ++ ['\n'])).flatten =
      (line.rows.map (· ++ ['\n']), []) := by
    refine Text.cutAfter_flatten _ fun piece member => ?_
    obtain ⟨row, isRow, rfl⟩ := List.mem_map.mp member
    refine ⟨row, '\n', rfl, rfl, fun d inRow => ?_⟩
    rw [beq_eq_false_iff_ne]
    rintro rfl
    exact unbroken row isRow inRow
  rw [picture, String.toList_ofList, List.flatMap_def, Text.piecesAfter, cut]
  exact List.append_nil _

end MarkedLine

/-- Reports without colors. -/
def Report.plain : Report :=
  { hasColors := false }

/-- The excerpt at a visible character is the picture of the line on which it stands. -/
theorem Report.excerpt_eq {source : String} {before after : List Char} {c : Char} {start : UInt32}
    (written : source.toList = before ++ c :: after) (visible : Text.isBlank c = false)
    (starts : start.toNat = Text.byteCount before) :
    plain.excerpt source start = (MarkedLine.around before c after).stripped.picture := by
  have breaks : ∀ d ∈ (after.dropWhile (· != '\n')).take 1, Text.isBlank d = true := by
    intro d member
    have same : d = '\n' := by simpa using Text.not_of_mem_take_dropWhile member
    rw [same]
    decide
  rw [excerpt, starts, lineAt_eq written (Text.ne_newline_of_visible visible)]
  dsimp only [MarkedLine.around, MarkedLine.stripped]
  generalize before.rtakeWhile (· != '\n') = front
  generalize after.takeWhile (· != '\n') = back
  generalize (after.dropWhile (· != '\n')).take 1 = ends at breaks
  have trimmed : Text.dropEndWhile Text.isBlank (dropIndent front ++ c :: (back ++ ends)) =
      dropIndent front ++ c :: Text.dropEndWhile Text.isBlank back := by
    rw [Text.dropEndWhile_append_stop visible, Text.dropEndWhile_append_of_all breaks]
  have dashes : Text.byteCount front -
      (Text.byteCount (front ++ c :: (back ++ ends)) -
        Text.byteCount (dropIndent front ++ c :: (back ++ ends))) =
      Text.byteCount (dropIndent front) := Text.byteCount_sub_dropWhile _ _ _
  rw [String.toList_ofList, dropIndent_append visible, trimmed, Text.utf8ByteSize_ofList,
    Text.utf8ByteSize_ofList, dashes]
  have width : (Nat.repr (before.count '\n' + 1)).length =
      (Nat.toDigits 10 (before.count '\n' + 1)).length := by
    rw [← String.length_toList, Nat.toList_repr]
  apply String.toList_inj.mp
  simp [MarkedLine.picture, MarkedLine.rows, MarkedLine.gutter, MarkedLine.shown,
    MarkedLine.pointer, MarkedLine.digits, MarkedLine.text, emphasis, plain, width]

/-- A report on a place where a visible character stands ends with three rows: the gutter,
the line of the character without blanks at its ends behind the number of the line, and a
caret. The caret is moved to the right by the bytes in front of the character and so
stands in the column of the character just where none of those shown in front of it takes
more than one byte. What stands in front of these rows is the report on a text without lines. -/
theorem caret_stands_behind_bytes {source : String} {before after : List Char} {c : Char}
    {start : UInt32} (written : source.toList = before ++ c :: after)
    (visible : Text.isBlank c = false) (starts : start.toNat = Text.byteCount before) :
    let whole := MarkedLine.around before c after
    let line := whole.stripped
    (∀ name (d : Diagnostic), d.span.start.offset = start → d.span.isNull = false →
      Report.plain.diagnostic name source d = Report.plain.diagnostic name "" d ++ line.picture) ∧
    (∀ name (e : InputError), e.position.offset = start →
      Report.plain.inputError name source e = Report.plain.inputError name "" e ++ line.picture) ∧
    Text.piecesAfter (· == '\n') line.picture.toList = line.rows.map (· ++ ['\n']) ∧
    line.text = Text.dropEndWhile Text.isBlank (Report.dropIndent whole.text) ∧
    line.shown[line.column]? = some c ∧
    line.pointer.idxOf '^' + line.front.length = line.column + Text.byteCount line.front ∧
    (line.pointer.idxOf '^' = line.column ↔ ∀ d ∈ line.front, d.utf8Size = 1) := by
  intro whole line
  have excerpt : Report.plain.excerpt source start = line.picture :=
    Report.excerpt_eq written visible starts
  have nothing (offset : UInt32) : Report.plain.excerpt "" offset = "" := rfl
  refine ⟨fun name d place real => ?_, fun name e place => ?_,
    MarkedLine.lines_picture (Text.ne_newline_of_visible visible),
    MarkedLine.stripped_text visible, MarkedLine.shown_column, ?_, MarkedLine.pointer_below_iff⟩
  · unfold Report.diagnostic
    rw [place, excerpt, nothing, real]
    simp [String.append_assoc]
  · unfold Report.inputError
    rw [place, excerpt, nothing]
    simp [String.append_assoc]
  · rw [MarkedLine.idxOf_pointer, MarkedLine.column]
    omega

/-- In this text the character stands behind a tab, which is not shown, and behind a blank of
two bytes, which is. -/
theorem caret_behind_wide_blank :
    let source := "x;\n\t\u00a0 b; \n"
    let before := ['x', ';', '\n', '\t', '\u00a0', ' ']
    let after := [';', ' ', '\n']
    let place : Span := { start := { offset := 7, file := "shell" }, stop := { offset := 8, file := "shell" } }
    let d : Diagnostic := { code := .unknownVariable, message := "Unknown variable name: b", span := place }
    let line := (MarkedLine.around before 'b' after).stripped
    source.toList = before ++ 'b' :: after ∧ Text.isBlank 'b' = false ∧ Text.byteCount before = 7 ∧
      Report.plain.diagnostic "shell" source d =
        "error[KLS1001]: Unknown variable name: b\n-> shell\n  |\n2 | \u00a0 b;\n  | ---^\n" ∧
      line.shown[6]? = some 'b' ∧ line.pointer.idxOf '^' = 7 := by
  intro source before after place d line
  have written : source.toList = before ++ 'b' :: after := by decide
  have visible : Text.isBlank 'b' = false := by decide
  have starts : (7 : UInt32).toNat = Text.byteCount before := by decide
  obtain ⟨diagnostic, _, _, _, shown, pointer, _⟩ := caret_stands_behind_bytes written visible starts
  have column : line.column = 6 := by decide
  have bytes : line.front.length = 2 ∧ Text.byteCount line.front = 3 := by decide
  change line.shown[line.column]? = _ at shown
  change line.pointer.idxOf '^' + line.front.length = line.column + Text.byteCount line.front at pointer
  rw [column] at shown pointer
  exact ⟨written, visible, starts.symm, (diagnostic "shell" d rfl rfl).trans (by decide), shown, by omega⟩

/-- The variable stands in the fifth column of its row, counted from zero, the caret below it
in the sixth, since the blank in front of the variable takes two bytes. -/
theorem caret_beside_character :
    let source := "\u00a0b;"
    let shown := "1 | \u00a0b;".toList
    let pointer := "  | --^".toList
    source.toList = ['\u00a0'] ++ 'b' :: [';'] ∧ Text.isBlank 'b' = false ∧
      (∃ d, ((Session.new {}).parse source).1.errors = [d] ∧ d.span.isNull = false ∧
        d.span.start.offset.toNat = Text.byteCount ['\u00a0'] ∧
        Report.plain.diagnostic "shell" source d = Report.plain.diagnostic "shell" "" d ++
          String.ofList ("  |".toList ++ '\n' :: shown ++ '\n' :: pointer ++ ['\n'])) ∧
      shown.idxOf 'b' = 5 ∧ pointer.idxOf '^' = 6 := by
  let place : Span := { start := { offset := 2, file := "shell" }, stop := { offset := 3, file := "shell" } }
  refine ⟨by decide, by decide, ⟨(Problem.unknownVariable "b").diagnostic place, ?_⟩, by decide, by decide⟩
  decide +kernel

end OpenExpr
