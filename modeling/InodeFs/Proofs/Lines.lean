import InodeFs.Http.Request
import InodeFs.Proofs.Utf8

/-!
Reading lines of text: a line without carriage return or line feed, ended either way, reads back
wherever it stands in the stream, when it fits `maxLine` bytes (`readLine_text`).
-/

namespace InodeFs

namespace Http

open Utf8

/-- How a client ends a line: with a line feed, or with a carriage return and a line feed. -/
inductive LineEnd where
  | lf
  | crlf
  deriving DecidableEq, Repr

namespace LineEnd

/-- The characters that end a line. -/
def text : LineEnd → String
  | .lf => "\n"
  | .crlf => "\r\n"

theorem pos_utf8ByteSize_text (e : LineEnd) : 0 < e.text.utf8ByteSize := by
  cases e <;> decide

theorem byteAt_text (e : LineEnd) :
    ∀ j < e.text.utf8ByteSize,
      byteAt e.text.toUTF8 j = if j + 1 = e.text.utf8ByteSize then 10 else 13 := by
  cases e <;> decide

end LineEnd

/-- Text that can stand on one line: it holds neither a carriage return nor a line feed. -/
structure IsLine (s : String) : Prop where
  noReturn : '\r' ∉ s.toList
  noFeed : '\n' ∉ s.toList

instance (s : String) : Decidable (IsLine s) :=
  decidable_of_iff ('\r' ∉ s.toList ∧ '\n' ∉ s.toList)
    ⟨fun both => ⟨both.1, both.2⟩, fun line => ⟨line.noReturn, line.noFeed⟩⟩

theorem byteAt_ne_of_isLine {s : String} (line : IsLine s) {j : Nat}
    (inside : j < s.utf8ByteSize) : byteAt s.toUTF8 j ≠ 10 ∧ byteAt s.toUTF8 j ≠ 13 :=
  ⟨fun feed => line.noFeed (mem_of_byteAt_toUTF8 inside (by decide) (by rw [feed]; rfl)),
    fun ret => line.noReturn (mem_of_byteAt_toUTF8 inside (by decide) (by rw [ret]; rfl))⟩

/-- Each byte of a line with its terminator is a byte of the text, neither CR nor LF, or of the
terminator. -/
theorem byteAt_line {s : String} (line : IsLine s) (e : LineEnd) {j : Nat}
    (inside : j < s.utf8ByteSize + e.text.utf8ByteSize) :
    (j < s.utf8ByteSize ∧ byteAt (s.toUTF8 ++ e.text.toUTF8) j ≠ 10 ∧
        byteAt (s.toUTF8 ++ e.text.toUTF8) j ≠ 13) ∨
      (s.utf8ByteSize ≤ j ∧ byteAt (s.toUTF8 ++ e.text.toUTF8) j =
        if j + 1 = s.utf8ByteSize + e.text.utf8ByteSize then 10 else 13) := by
  rw [byteAt_append, size_toUTF8]
  by_cases text : j < s.utf8ByteSize
  · rw [if_pos text]
    exact .inl ⟨text, byteAt_ne_of_isLine line text⟩
  · rw [if_neg text, e.byteAt_text (j - s.utf8ByteSize) (by omega)]
    refine .inr ⟨by omega, ?_⟩
    by_cases last : j + 1 = s.utf8ByteSize + e.text.utf8ByteSize
    · rw [if_pos last, if_pos (by omega)]
    · rw [if_neg last, if_neg (by omega)]

/-! ## The bytes between a prefix and a suffix -/

theorem byteAt_middle (p b r : ByteArray) {j : Nat} (inside : j < b.size) :
    byteAt (p ++ b ++ r) (p.size + j) = byteAt b j := by
  rw [byteAt_append, if_pos (by simp; omega), byteAt_append, if_neg (by omega),
    Nat.add_sub_cancel_left]

theorem extract_middle (p b r : ByteArray) :
    (p ++ b ++ r).extract p.size (p.size + b.size) = b := by
  rw [ByteArray.append_assoc, ByteArray.extract_append,
    ByteArray.extract_eq_empty_iff.2 (by omega), ByteArray.empty_append, Nat.sub_self,
    Nat.add_sub_cancel_left, ByteArray.extract_append_eq_left rfl]

/-! ## Finding the end of a line -/

/-- The scan for a line feed, from `k` past `pos`, stops just after the first one. -/
theorem lineSpan_go_of_feed {input : ByteArray} {pos : Nat} (len : Nat) :
    ∀ k fuel, len < fuel → pos + k + len < input.size →
      (∀ j < len, byteAt input (pos + k + j) ≠ 10) → byteAt input (pos + k + len) = 10 →
      lineSpan.go input pos k fuel = k + len + 1 := by
  induction len with
  | zero =>
    intro k fuel enough inside _ feed
    obtain ⟨f, rfl⟩ : ∃ f, fuel = f + 1 := ⟨fuel - 1, by omega⟩
    rw [lineSpan.go, if_pos (by omega), if_pos (by simpa using feed)]
  | succ len ih =>
    intro k fuel enough inside before feed
    obtain ⟨f, rfl⟩ : ∃ f, fuel = f + 1 := ⟨fuel - 1, by omega⟩
    have first : byteAt input (pos + k) ≠ 10 := before 0 (by omega)
    have rest := ih (k + 1) f (by omega) (by omega)
      (fun j below => by simpa [Nat.add_assoc, Nat.add_comm 1 j] using before (j + 1) (by omega))
      (by simpa [Nat.add_assoc, Nat.add_comm 1 len] using feed)
    rw [lineSpan.go, if_pos (by omega), if_neg (by simpa using first), rest]
    omega

theorem lineSpan_line (p r : ByteArray) {s : String} (line : IsLine s) (e : LineEnd)
    (fits : (s ++ e.text).utf8ByteSize ≤ maxLine) :
    lineSpan (p ++ (s ++ e.text).toUTF8 ++ r) p.size (maxLine + 1) =
      (s ++ e.text).utf8ByteSize := by
  have pos := e.pos_utf8ByteSize_text
  have size : ((s ++ e.text).toUTF8).size = s.utf8ByteSize + e.text.utf8ByteSize := by
    rw [size_toUTF8, String.utf8ByteSize_append]
  rw [String.utf8ByteSize_append] at fits ⊢
  have byte : ∀ j < s.utf8ByteSize + e.text.utf8ByteSize,
      byteAt (p ++ (s ++ e.text).toUTF8 ++ r) (p.size + 0 + j) =
        byteAt (s.toUTF8 ++ e.text.toUTF8) j := by
    intro j inside
    rw [Nat.add_zero, byteAt_middle p _ r (by omega), toUTF8_append]
  unfold lineSpan
  rw [lineSpan_go_of_feed (s.utf8ByteSize + e.text.utf8ByteSize - 1) 0 (maxLine + 1)
    (by omega) (by simp only [ByteArray.size_append, size]; omega)]
  · omega
  · -- no byte before the terminator's last is a line feed
    intro j below
    rw [byte j (by omega)]
    rcases byteAt_line line e (j := j) (by omega) with ⟨-, feed, -⟩ | ⟨-, bytes⟩
    · exact feed
    · rw [bytes, if_neg (by omega)]
      decide
  · rw [byte _ (by omega)]
    rcases byteAt_line line e (j := s.utf8ByteSize + e.text.utf8ByteSize - 1) (by omega) with
      ⟨text, -, -⟩ | ⟨-, bytes⟩
    · omega
    · rw [bytes, if_pos (by omega)]

/-! ## Stripping the terminator -/

/-- Stripping from the end over CR and LF bytes stops at the first byte that is neither. -/
theorem stripEol_go_of_eol {b : ByteArray} {m : Nat}
    (kept : ∀ j, j + 1 = m → byteAt b j ≠ 10 ∧ byteAt b j ≠ 13) (k : Nat)
    (ends : ∀ j < k, byteAt b (m + j) = 10 ∨ byteAt b (m + j) = 13) :
    stripEol.go b (m + k) = m := by
  induction k with
  | zero =>
    cases m with
    | zero => rfl
    | succ i =>
      obtain ⟨feed, ret⟩ := kept i rfl
      rw [Nat.add_zero, stripEol.go, if_neg (by simpa using And.intro feed ret)]
  | succ k ih =>
    have last : byteAt b (m + k) = 10 ∨ byteAt b (m + k) = 13 := ends k (by omega)
    rw [← Nat.add_assoc, stripEol.go, if_pos (by simpa using last)]
    exact ih fun j below => ends j (by omega)

theorem stripEol_line {s : String} (line : IsLine s) (e : LineEnd) :
    stripEol (s ++ e.text).toUTF8 = s.toUTF8 := by
  unfold stripEol
  rw [toUTF8_append, ByteArray.size_append, size_toUTF8, size_toUTF8,
    stripEol_go_of_eol (m := s.utf8ByteSize) _ e.text.utf8ByteSize,
    ByteArray.extract_append_eq_left (size_toUTF8 s).symm]
  · intro j below
    rcases byteAt_line line e (j := s.utf8ByteSize + j) (by omega) with
      ⟨text, -, -⟩ | ⟨-, bytes⟩
    · omega
    · rw [bytes]
      split
      · exact .inl rfl
      · exact .inr rfl
  · -- the text's own last byte is neither
    intro j last
    rcases byteAt_line line e (j := j) (by have := e.pos_utf8ByteSize_text; omega) with
      ⟨-, feed, ret⟩ | ⟨beyond, -⟩
    · exact ⟨feed, ret⟩
    · omega

/-! ## Reading a line -/

/-- A line with neither CR nor LF, followed by a terminator, reads back as itself when it fits
`maxLine` bytes; the next line starts after the terminator. -/
theorem readLine_text (p r : ByteArray) {s : String} (line : IsLine s) (e : LineEnd)
    (fits : (s ++ e.text).utf8ByteSize ≤ maxLine) :
    readLine (p ++ (s ++ e.text).toUTF8 ++ r) p.size =
      .ok (some (s, p.size + (s ++ e.text).utf8ByteSize)) := by
  have pos : 0 < (s ++ e.text).utf8ByteSize := by
    rw [String.utf8ByteSize_append]
    have := e.pos_utf8ByteSize_text
    omega
  simp only [readLine]
  rw [lineSpan_line p r line e fits, if_neg (by omega), if_neg (by omega),
    ← size_toUTF8 (s ++ e.text), extract_middle, stripEol_line line e, decode?_toUTF8]

end Http

end InodeFs
