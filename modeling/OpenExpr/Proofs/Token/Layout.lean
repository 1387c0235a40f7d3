import Mathlib.Data.List.Basic
import OpenExpr.Text.Blank

namespace OpenExpr

namespace Text

/-- The number of bytes that encode the characters. -/
def byteCount : List Char → Nat
  | [] => 0
  | c :: cs => c.utf8Size + byteCount cs

theorem byteCount_append (a b : List Char) : byteCount (a ++ b) = byteCount a + byteCount b := by
  induction a with
  | nil => exact (Nat.zero_add _).symm
  | cons c a ih =>
    simp only [List.cons_append, byteCount, ih]
    omega

theorem byteCount_singleton (c : Char) : byteCount [c] = c.utf8Size := rfl

theorem utf8ByteSize_ofList (cs : List Char) : (String.ofList cs).utf8ByteSize = byteCount cs := by
  induction cs with
  | nil => rfl
  | cons c cs ih =>
    have split : String.ofList (c :: cs) = String.singleton c ++ String.ofList cs :=
      String.toList_inj.mp (by simp)
    rw [byteCount, ← ih, split, String.utf8ByteSize_append, String.utf8ByteSize_singleton]

theorem byteCount_toList (s : String) : byteCount s.toList = s.utf8ByteSize := by
  rw [← utf8ByteSize_ofList, String.ofList_toList]

/-- The characters outside comments, each with the byte at which it stands. A comment lasts
from a number sign up to, and not including, the next line break. -/
def outsideComments (inComment : Bool) (offset : Nat) : List Char → List (Nat × Char)
  | [] => []
  | c :: cs =>
    match inComment with
    | true =>
      if c = '\n' then (offset, c) :: outsideComments false (offset + c.utf8Size) cs
      else outsideComments true (offset + c.utf8Size) cs
    | false =>
      if c = '#' then outsideComments true (offset + c.utf8Size) cs
      else (offset, c) :: outsideComments false (offset + c.utf8Size) cs

/-- A text is laid out in white space, in comments, each with the line break that ends it,
and in words, each with the byte at which it starts. -/
inductive Tiles : List Char → List (Nat × String) → Prop
  | nil : Tiles [] []
  | blank {a words c} : Tiles a words → isBlank c = true → Tiles (a ++ [c]) words
  | comment {a words text} : Tiles a words → '\n' ∉ text → Tiles (a ++ '#' :: (text ++ ['\n'])) words
  | word {a words text} : Tiles a words → text ≠ "" →
      Tiles (a ++ text.toList) (words ++ [(byteCount a, text)])

/-- A text is laid out in this way, but for a comment that may last up to its end. -/
def IsTiled (text : List Char) (words : List (Nat × String)) : Prop :=
  Tiles text words ∨ ∃ a comment, text = a ++ '#' :: comment ∧ '\n' ∉ comment ∧ Tiles a words

/-- The word stands in the text at the byte at which it starts. -/
def IsSlice (text : List Char) (word : Nat × String) : Prop :=
  ∃ before after, text = before ++ word.2.toList ++ after ∧ byteCount before = word.1

theorem IsSlice.append {text : List Char} {word : Nat × String} (slice : IsSlice text word)
    (more : List Char) : IsSlice (text ++ more) word := by
  obtain ⟨before, after, rfl, starts⟩ := slice
  exact ⟨before, after ++ more, by simp, starts⟩

theorem IsSlice.bound {text : List Char} {word : Nat × String} (slice : IsSlice text word) :
    word.1 + word.2.utf8ByteSize ≤ byteCount text := by
  obtain ⟨before, after, rfl, starts⟩ := slice
  have size := byteCount_toList word.2
  simp only [byteCount_append]
  omega

variable {text : List Char} {words : List (Nat × String)}

theorem Tiles.slice (tiles : Tiles text words) : ∀ word ∈ words, IsSlice text word := by
  induction tiles with
  | nil => simp
  | blank _ _ ih => exact fun word member => (ih word member).append _
  | comment _ _ ih => exact fun word member => (ih word member).append _
  | @word a words text _ _ ih =>
    intro word member
    rcases List.mem_append.mp member with old | last
    · exact (ih word old).append _
    · rw [List.mem_singleton.mp last]
      exact ⟨a, [], by simp, rfl⟩

theorem Tiles.ne_empty (tiles : Tiles text words) : ∀ word ∈ words, word.2 ≠ "" := by
  induction tiles with
  | nil => simp
  | blank _ _ ih => exact ih
  | comment _ _ ih => exact ih
  | word _ some ih =>
    intro word member
    rcases List.mem_append.mp member with old | last
    · exact ih word old
    · rw [List.mem_singleton.mp last]
      exact some

/-- Each word is over before the next one starts. -/
theorem Tiles.ordered (tiles : Tiles text words) :
    words.Pairwise fun v w => v.1 + v.2.utf8ByteSize ≤ w.1 := by
  induction tiles with
  | nil => exact .nil
  | blank _ _ ih => exact ih
  | comment _ _ ih => exact ih
  | word before _ ih =>
    refine List.pairwise_append.mpr ⟨ih, List.pairwise_singleton _ _, fun v member w last => ?_⟩
    rw [List.mem_singleton.mp last]
    exact (before.slice v member).bound

theorem IsTiled.slice (tiled : IsTiled text words) : ∀ word ∈ words, IsSlice text word := by
  rcases tiled with tiles | ⟨a, comment, rfl, _, tiles⟩
  · exact tiles.slice
  · exact fun word member => (tiles.slice word member).append _

theorem IsTiled.ne_empty (tiled : IsTiled text words) : ∀ word ∈ words, word.2 ≠ "" := by
  rcases tiled with tiles | ⟨_, _, _, _, tiles⟩ <;> exact tiles.ne_empty

theorem IsTiled.ordered (tiled : IsTiled text words) :
    words.Pairwise fun v w => v.1 + v.2.utf8ByteSize ≤ w.1 := by
  rcases tiled with tiles | ⟨_, _, _, _, tiles⟩ <;> exact tiles.ordered

theorem outsideComments_comment {c : Char} (inLine : c ≠ '\n') (offset : Nat) (cs : List Char) :
    outsideComments true offset (c :: cs) = outsideComments true (offset + c.utf8Size) cs :=
  if_neg inLine

theorem outsideComments_code {c : Char} {inComment : Bool} (code : inComment = true → c = '\n')
    (offset : Nat) (cs : List Char) : outsideComments inComment offset (c :: cs) =
      if c = '#' then outsideComments true (offset + c.utf8Size) cs
      else (offset, c) :: outsideComments false (offset + c.utf8Size) cs := by
  cases inComment with
  | false => rfl
  | true =>
    obtain rfl := code rfl
    rfl

theorem le_of_mem_outsideComments {inComment : Bool} {offset : Nat} {p : Nat × Char}
    (member : p ∈ outsideComments inComment offset text) : p.1 ≤ offset + byteCount text := by
  induction text generalizing inComment offset with
  | nil => cases member
  | cons c cs ih =>
    have first : byteCount (c :: cs) = c.utf8Size + byteCount cs := rfl
    have here : offset ≤ offset + byteCount (c :: cs) := Nat.le_add_right _ _
    have later {inside : Bool} (found : p ∈ outsideComments inside (offset + c.utf8Size) cs) :
        p.1 ≤ offset + byteCount (c :: cs) := by
      have bound := ih found
      omega
    unfold outsideComments at member
    cases inComment with
    | true =>
      dsimp only at member
      split at member
      · rcases List.mem_cons.mp member with rfl | found
        · exact here
        · exact later found
      · exact later member
    | false =>
      dsimp only at member
      split at member
      · exact later member
      · rcases List.mem_cons.mp member with rfl | found
        · exact here
        · exact later found

end Text

end OpenExpr
