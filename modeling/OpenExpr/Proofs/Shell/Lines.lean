import OpenExpr.Proofs.Shell.Framing
import OpenExpr.Statement.Stream

namespace OpenExpr

namespace Text

/-- A line of text without the line break at its end. -/
def dropBreak (line : List Char) : List Char :=
  match line.reverse with
  | [] => []
  | last :: body =>
    if last ≠ '\n' then line
    else
      match body with
      | [] => []
      | c :: body => if c = '\r' then body.reverse else (c :: body).reverse

/-- The lines of a text without their line breaks. -/
def linesOf (text : String) : List String :=
  (piecesAfter (· == '\n') text.toList).map fun line => String.ofList (dropBreak line)

/-- The bytes of a character are that of its code point if it is one of ASCII, and else
none of ASCII. -/
theorem utf8EncodeChar_cases (c : Char) :
    (c.toNat < 128 ∧ String.utf8EncodeChar c = [UInt8.ofNat c.toNat]) ∨
      128 ≤ c.toNat ∧ ∀ b ∈ String.utf8EncodeChar c, 128 ≤ b.toNat := by
  have size (n : Nat) : (UInt8.ofNat n).toNat = n % 256 := UInt8.toNat_ofNat'
  have code : c.val.toNat = c.toNat := rfl
  unfold String.utf8EncodeChar
  rw [code]
  dsimp only
  split
  · exact .inl ⟨by omega, rfl⟩
  · refine .inr ⟨by omega, ?_⟩
    split
    · simp only [List.forall_mem_cons, size]
      exact ⟨by omega, by omega, by simp⟩
    split
    · simp only [List.forall_mem_cons, size]
      exact ⟨by omega, by omega, by omega, by simp⟩
    · simp only [List.forall_mem_cons, size]
      exact ⟨by omega, by omega, by omega, by omega, by simp⟩

/-- No character but that of ASCII has the byte of one. -/
theorem eq_of_mem_utf8EncodeChar {a c : Char} (ascii : a.toNat < 128) {b : UInt8}
    (code : b = UInt8.ofNat a.toNat) (member : b ∈ String.utf8EncodeChar c) : c = a := by
  subst code
  have size (n : Nat) : (UInt8.ofNat n).toNat = n % 256 := UInt8.toNat_ofNat'
  rcases utf8EncodeChar_cases c with ⟨small, bytes⟩ | ⟨_, bytes⟩
  · rw [bytes, List.mem_singleton] at member
    have same := congrArg UInt8.toNat member
    rw [size, size] at same
    exact Char.toNat_inj.mp (by omega)
  · have large := bytes _ member
    rw [size] at large
    omega

theorem cutAfter_utf8 (text : List Char) :
    cutAfter (· == lineFeed) (text.flatMap String.utf8EncodeChar) =
      ((cutAfter (· == '\n') text).1.map (List.flatMap String.utf8EncodeChar),
        (cutAfter (· == '\n') text).2.flatMap String.utf8EncodeChar) := by
  refine cutAfter_flatMap (fun c same => ?_) (fun c other b member => ?_) text
  · rw [beq_iff_eq.mp same]
    exact ⟨lineFeed, rfl, rfl⟩
  · refine Bool.eq_false_iff.mpr fun same => beq_eq_false_iff_ne.mp other ?_
    exact eq_of_mem_utf8EncodeChar (a := '\n') (by decide) (beq_iff_eq.mp same) member

theorem piecesAfter_utf8 (text : List Char) :
    piecesAfter (· == lineFeed) (text.flatMap String.utf8EncodeChar) =
      (piecesAfter (· == '\n') text).map (List.flatMap String.utf8EncodeChar) := by
  have empty (rest : List Char) :
      (rest.flatMap String.utf8EncodeChar).isEmpty = rest.isEmpty := by
    cases rest with
    | nil => rfl
    | cons c rest => simp [String.utf8EncodeChar_ne_nil]
  unfold piecesAfter
  rw [cutAfter_utf8]
  dsimp only
  rw [empty, List.map_append]
  split <;> rfl

/-- A line break is cut off alike in a text and in its bytes. -/
theorem dropLineBreak_utf8 (line : List Char) : dropLineBreak (line.flatMap String.utf8EncodeChar) =
    (dropBreak line).flatMap String.utf8EncodeChar := by
  have ends (c : Char) : ∃ front b, String.utf8EncodeChar c = front ++ [b] ∧
      (c ≠ '\n' → b ≠ lineFeed) ∧ (c ≠ '\r' → b ≠ carriageReturn) := by
    obtain ⟨front, b, bytes⟩ := (List.eq_nil_or_concat' (String.utf8EncodeChar c)).resolve_left
      String.utf8EncodeChar_ne_nil
    have last : b ∈ String.utf8EncodeChar c := by simp [bytes]
    refine ⟨front, b, bytes, fun other same => other ?_, fun other same => other ?_⟩
    · exact eq_of_mem_utf8EncodeChar (a := '\n') (by decide) same last
    · exact eq_of_mem_utf8EncodeChar (a := '\r') (by decide) same last
  have feed : String.utf8EncodeChar '\n' = [lineFeed] := rfl
  have carriage : String.utf8EncodeChar '\r' = [carriageReturn] := rfl
  rcases List.eq_nil_or_concat' line with rfl | ⟨line, c, rfl⟩
  · rfl
  by_cases broken : c = '\n'
  · subst broken
    rcases List.eq_nil_or_concat' line with rfl | ⟨line, d, rfl⟩
    · rfl
    by_cases returned : d = '\r'
    · subst returned
      simp [dropLineBreak, dropBreak, feed, carriage]
    · obtain ⟨front, b, bytes, -, other⟩ := ends d
      simp [dropLineBreak, dropBreak, feed, bytes, returned, other returned]
  · obtain ⟨front, b, bytes, other, -⟩ := ends c
    simp [dropLineBreak, dropBreak, bytes, broken, other broken]

end Text

/-- A text that was encoded can be decoded. -/
theorem InputError.decode_utf8 (text : List Char) :
    decode ⟨(text.flatMap String.utf8EncodeChar).toArray⟩ = .ok (String.ofList text) := by
  have bytes : (⟨(text.flatMap String.utf8EncodeChar).toArray⟩ : ByteArray) =
      (String.ofList text).toByteArray := by
    rw [String.toByteArray_ofList]
    exact ByteArray.ext List.data_toByteArray.symm
  unfold decode String.fromUTF8?
  rw [bytes, dif_pos (String.ofList text).isValidUTF8]
  rfl

/-- The lines of an encoded text are its lines. -/
theorem inputLines_toUTF8 (text : String) :
    inputLines text.toUTF8 = (Text.linesOf text).map .ok := by
  have bytes : text.toUTF8.data.toList = text.toList.flatMap String.utf8EncodeChar := by
    rw [String.toUTF8_eq_toByteArray, ← String.utf8Encode_toList]
    exact List.toList_data_toByteArray
  unfold inputLines Text.lines Text.linesOf
  rw [bytes, Text.piecesAfter_utf8]
  simp only [List.map_map]
  refine List.map_congr_left fun line _ => ?_
  simp only [Function.comp_apply, Text.dropLineBreak_utf8, InputError.decode_utf8]

namespace Lexeme

theorem Scanner.feed_carriageReturn (s : Scanner) :
    ∃ t, s.feed '\r' = .ok t ∧ outcome (t.feed '\n') = outcome (s.feed '\n') := by
  obtain ⟨offset, pending, done⟩ := s
  cases pending <;> exact ⟨_, rfl, rfl⟩

/-- A line break is the same with a carriage return in front of it. -/
theorem SameReading.carriageReturn : SameReading ['\r', '\n'] ['\n'] := by
  intro s s' same
  obtain ⟨t, run, fed⟩ := s.feed_carriageReturn
  have single (s : Scanner) : s.read ['\n'] = s.feed '\n' := by
    rw [Scanner.read_cons]
    cases s.feed '\n' <;> rfl
  rw [Scanner.read_cons, run, single]
  exact ((congrArg Scanner.outcome (single t)).trans fed).trans (Scanner.outcome_feed_eq same '\n')

/-- A line that ends with a line break is read as the line without it and a line feed. -/
theorem SameReading.dropBreak (body : List Char) :
    SameReading (body ++ ['\n']) (Text.dropBreak (body ++ ['\n']) ++ ['\n']) := by
  rcases List.eq_nil_or_concat' body with rfl | ⟨body, c, rfl⟩
  · exact .refl _
  by_cases returned : c = '\r'
  · subst returned
    have same : Text.dropBreak (body ++ ['\r'] ++ ['\n']) = body := by simp [Text.dropBreak]
    rw [same, List.append_assoc]
    exact (SameReading.refl body).append .carriageReturn
  · have same : Text.dropBreak (body ++ [c] ++ ['\n']) = body ++ [c] := by
      simp [Text.dropBreak, returned]
    rw [same]
    exact .refl _

end Lexeme

open Lexeme (SameReading)

namespace Text

theorem sameReading_broken {pieces : List (List Char)}
    (broken : ∀ piece ∈ pieces, ∃ body, piece = body ++ ['\n']) : SameReading pieces.flatten
      (Framer.textOf (pieces.map fun line => String.ofList (dropBreak line))) := by
  induction pieces with
  | nil => exact .refl []
  | cons piece pieces ih =>
    obtain ⟨⟨body, rfl⟩, others⟩ := List.forall_mem_cons.mp broken
    have first := SameReading.dropBreak body
    simpa [Framer.textOf] using first.append (ih others)

theorem dropBreak_of_unbroken {line : List Char} (unbroken : '\n' ∉ line) : dropBreak line = line := by
  rcases List.eq_nil_or_concat' line with rfl | ⟨body, c, rfl⟩
  · rfl
  · have other : c ≠ '\n' := fun same => unbroken (by simp [same])
    simp [dropBreak, other]

/-- A text is read as its lines are, if each has its line break again. The last may not
have had one. -/
theorem sameReading_linesOf (text : String) : ∃ tail, (tail = [] ∨ tail = ['\n']) ∧
    SameReading (text.toList ++ tail) (Framer.textOf (linesOf text)) := by
  have each := exists_of_mem_cutAfter (· == '\n') text.toList
  have last := not_of_mem_cutAfter_rest (· == '\n') text.toList
  have whole := flatten_cutAfter (· == '\n') text.toList
  unfold linesOf piecesAfter
  generalize cutAfter (· == '\n') text.toList = cuts at each last whole ⊢
  obtain ⟨pieces, rest⟩ := cuts
  have ended : ∀ piece ∈ pieces, ∃ body, piece = body ++ ['\n'] := by
    intro piece member
    obtain ⟨body, c, same, feed, -⟩ := each piece member
    exact ⟨body, by rw [same, beq_iff_eq.mp feed]⟩
  have broken := sameReading_broken ended
  have unbroken : dropBreak rest = rest := dropBreak_of_unbroken fun feed => by
    simpa using last '\n' feed
  rw [← whole]
  cases rest with
  | nil =>
    refine ⟨[], .inl rfl, ?_⟩
    simpa using broken
  | cons c rest =>
    refine ⟨['\n'], .inr rfl, ?_⟩
    have both := broken.append (.refl (c :: rest ++ ['\n']))
    simpa [Framer.textOf, unbroken] using both

theorem isPrefix_dropBreak (line : List Char) : List.IsPrefix (dropBreak line) line := by
  rcases List.eq_nil_or_concat' line with rfl | ⟨line, c, rfl⟩
  · exact List.prefix_rfl
  by_cases broken : c = '\n'
  · subst broken
    rcases List.eq_nil_or_concat' line with rfl | ⟨line, d, rfl⟩
    · exact List.nil_prefix
    · by_cases returned : d = '\r' <;> simp [dropBreak, returned]
  · simp [dropBreak, broken]

/-- The lines hold nothing but what the text holds. -/
theorem mem_of_mem_linesOf {text line : String} (member : line ∈ linesOf text) {c : Char}
    (inLine : c ∈ line.toList) : c ∈ text.toList := by
  obtain ⟨piece, found, rfl⟩ := List.mem_map.mp member
  rw [String.toList_ofList] at inLine
  rw [← flatten_piecesAfter (· == '\n') text.toList]
  exact List.mem_flatten.mpr ⟨piece, found, (isPrefix_dropBreak piece).subset inLine⟩

end Text

end OpenExpr
