import InodeFs.Bytes.Utf8
import InodeFs.Proofs.Bytes

/-!
Reading a string's own bytes back, strictly or lossily, as the string. A byte below `0x80` in a
string's bytes is one of its characters, so a name without NUL has no zero byte and a line
without a line feed no byte 10.
-/

namespace InodeFs.Utf8

/-! ## Lead bytes and continuation bytes -/

theorem seqLength_two {lead : UInt8} (low : 194 ≤ lead.toNat) (high : lead.toNat ≤ 223) :
    seqLength lead = 2 := by
  unfold seqLength
  simp only [UInt8.lt_iff_toNat_lt, UInt8.le_iff_toNat_le, UInt8.reduceToNat, Bool.and_eq_true,
    decide_eq_true_eq]
  rw [if_neg (by omega), if_pos ⟨low, high⟩]

theorem seqLength_three {lead : UInt8} (low : 224 ≤ lead.toNat) (high : lead.toNat ≤ 239) :
    seqLength lead = 3 := by
  unfold seqLength
  simp only [UInt8.lt_iff_toNat_lt, UInt8.le_iff_toNat_le, UInt8.reduceToNat, Bool.and_eq_true,
    decide_eq_true_eq]
  rw [if_neg (by omega), if_neg (by omega), if_pos ⟨low, high⟩]

theorem seqLength_four {lead : UInt8} (low : 240 ≤ lead.toNat) (high : lead.toNat ≤ 244) :
    seqLength lead = 4 := by
  unfold seqLength
  simp only [UInt8.lt_iff_toNat_lt, UInt8.le_iff_toNat_le, UInt8.reduceToNat, Bool.and_eq_true,
    decide_eq_true_eq]
  rw [if_neg (by omega), if_neg (by omega), if_neg (by omega), if_pos ⟨low, high⟩]

theorem secondRange_eq (lead : UInt8) : secondRange lead =
    if lead.toNat = 0xE0 then (0xA0, 0xBF) else if lead.toNat = 0xED then (0x80, 0x9F)
    else if lead.toNat = 0xF0 then (0x90, 0xBF) else if lead.toNat = 0xF4 then (0x80, 0x8F)
    else (0x80, 0xBF) := by
  unfold secondRange
  simp only [beq_iff_eq, ← UInt8.toNat_inj, UInt8.reduceToNat]

theorem isCont_of_toNat {x : UInt8} (low : 0x80 ≤ x.toNat) (high : x.toNat ≤ 0xBF) :
    isCont x = true := by
  unfold isCont
  simp only [UInt8.le_iff_toNat_le, UInt8.reduceToNat, Bool.and_eq_true, decide_eq_true_eq]
  exact ⟨low, high⟩

/-- The second byte lies in the range its lead byte allows. -/
def SecondOk (b : ByteArray) (i : Nat) : Prop :=
  (decide (i + 1 < b.size) && decide ((secondRange (byteAt b i)).1 ≤ byteAt b (i + 1)) &&
    decide (byteAt b (i + 1) ≤ (secondRange (byteAt b i)).2)) = true

theorem validTail_two {b : ByteArray} {i : Nat} (second : SecondOk b i) :
    validTail b i (byteAt b i) 2 = 1 := by
  unfold validTail
  dsimp only
  unfold SecondOk at second
  rw [second]
  simp

theorem validTail_three {b : ByteArray} {i : Nat} (second : SecondOk b i) (fits : i + 2 < b.size)
    (third : isCont (byteAt b (i + 2)) = true) : validTail b i (byteAt b i) 3 = 2 := by
  unfold validTail
  dsimp only
  unfold SecondOk at second
  rw [second]
  simp [fits, third]

theorem validTail_four {b : ByteArray} {i : Nat} (second : SecondOk b i) (fits : i + 3 < b.size)
    (third : isCont (byteAt b (i + 2)) = true) (fourth : isCont (byteAt b (i + 3)) = true) :
    validTail b i (byteAt b i) 4 = 3 := by
  unfold validTail
  dsimp only
  unfold SecondOk at second
  rw [second]
  simp [fits, third, fourth]
  omega

/-! ## One sequence per length -/

theorem pieceAt_one {b : ByteArray} {i v : Nat} (small : v ≤ 0x7f) (b0 : (byteAt b i).toNat = v) :
    pieceAt b i = (.scalar (Char.ofNat v), 1) := by
  have len : seqLength (byteAt b i) = 1 := by
    unfold seqLength
    simp only [UInt8.lt_iff_toNat_lt, UInt8.reduceToNat, b0]
    rw [if_pos (by omega)]
  unfold pieceAt
  simp only [len, Nat.reduceEqDiff, if_false, if_true, b0]

theorem pieceAt_two {b : ByteArray} {i v : Nat} (low : 0x7f < v) (high : v ≤ 0x7ff)
    (b0 : (byteAt b i).toNat = v / 64 % 32 + 0xC0) (b1 : (byteAt b (i + 1)).toNat = v % 64 + 0x80)
    (fits : i + 2 ≤ b.size) : pieceAt b i = (.scalar (Char.ofNat v), 2) := by
  have len : seqLength (byteAt b i) = 2 := seqLength_two (by omega) (by omega)
  have second : SecondOk b i := by
    unfold SecondOk
    rw [secondRange_eq, if_neg (by omega), if_neg (by omega), if_neg (by omega), if_neg (by omega)]
    simp only [UInt8.le_iff_toNat_le, UInt8.reduceToNat, b1, Bool.and_eq_true, decide_eq_true_eq]
    omega
  unfold pieceAt scalarAt
  simp only [len, validTail_two second, Nat.reduceEqDiff, if_false, if_true, b0, b1]
  congr 3
  omega

theorem pieceAt_three {b : ByteArray} {i v : Nat} (low : 0x7ff < v) (high : v ≤ 0xffff)
    (scalar : v < 0xD800 ∨ 0xDFFF < v) (b0 : (byteAt b i).toNat = v / 4096 % 16 + 0xE0)
    (b1 : (byteAt b (i + 1)).toNat = v / 64 % 64 + 0x80) (b2 : (byteAt b (i + 2)).toNat = v % 64 + 0x80)
    (fits : i + 3 ≤ b.size) :
    pieceAt b i = (.scalar (Char.ofNat v), 3) := by
  have len : seqLength (byteAt b i) = 3 := seqLength_three (by omega) (by omega)
  -- the lead byte of U+0800..U+0FFF and of U+D000..U+DFFF narrows the second byte
  have second : SecondOk b i := by
    unfold SecondOk
    rw [secondRange_eq]
    simp only [UInt8.le_iff_toNat_le, b0, b1, Bool.and_eq_true, decide_eq_true_eq]
    split
    · simp only [UInt8.reduceToNat]; omega
    · split
      · simp only [UInt8.reduceToNat]; omega
      · rw [if_neg (by omega), if_neg (by omega)]
        simp only [UInt8.reduceToNat]; omega
  have third := isCont_of_toNat (x := byteAt b (i + 2)) (by omega) (by omega)
  unfold pieceAt scalarAt
  simp only [len, validTail_three second (by omega) third, Nat.reduceEqDiff, if_false, if_true,
    b0, b1, b2]
  congr 3
  omega

theorem pieceAt_four {b : ByteArray} {i v : Nat} (low : 0xffff < v) (high : v ≤ 0x10ffff)
    (b0 : (byteAt b i).toNat = v / 262144 % 8 + 0xF0)
    (b1 : (byteAt b (i + 1)).toNat = v / 4096 % 64 + 0x80)
    (b2 : (byteAt b (i + 2)).toNat = v / 64 % 64 + 0x80) (b3 : (byteAt b (i + 3)).toNat = v % 64 + 0x80)
    (fits : i + 4 ≤ b.size) :
    pieceAt b i = (.scalar (Char.ofNat v), 4) := by
  have len : seqLength (byteAt b i) = 4 := seqLength_four (by omega) (by omega)
  -- the lead byte of U+10000..U+3FFFF and of U+100000..U+10FFFF narrows the second byte
  have second : SecondOk b i := by
    unfold SecondOk
    rw [secondRange_eq, if_neg (by omega), if_neg (by omega)]
    simp only [UInt8.le_iff_toNat_le, b0, b1, Bool.and_eq_true, decide_eq_true_eq]
    split
    · simp only [UInt8.reduceToNat]; omega
    · split
      · simp only [UInt8.reduceToNat]; omega
      · simp only [UInt8.reduceToNat]; omega
  have third := isCont_of_toNat (x := byteAt b (i + 2)) (by omega) (by omega)
  have fourth := isCont_of_toNat (x := byteAt b (i + 3)) (by omega) (by omega)
  unfold pieceAt scalarAt
  simp only [len, validTail_four second (by omega) third fourth, Nat.reduceEqDiff, if_false,
    if_true, b0, b1, b2, b3]
  congr 3
  omega

/-! ## The encoding of a character -/

/-- The UTF-8 encoding of a scalar value, byte by byte, as numbers. -/
def encodeNat (v : Nat) : List Nat :=
  if v ≤ 0x7f then [v]
  else if v ≤ 0x7ff then [v / 64 % 32 + 0xC0, v % 64 + 0x80]
  else if v ≤ 0xffff then [v / 4096 % 16 + 0xE0, v / 64 % 64 + 0x80, v % 64 + 0x80]
  else [v / 262144 % 8 + 0xF0, v / 4096 % 64 + 0x80, v / 64 % 64 + 0x80, v % 64 + 0x80]

theorem toNat_lt (c : Char) : c.val.toNat < 0x110000 := by
  have valid := c.valid
  simp only [UInt32.isValidChar, Nat.isValidChar] at valid
  omega

theorem encodeChar_toNat (c : Char) :
    (String.utf8EncodeChar c).map UInt8.toNat = encodeNat c.val.toNat := by
  have bound := toNat_lt c
  have same : c.toNat = c.val.toNat := rfl
  unfold String.utf8EncodeChar encodeNat
  dsimp only
  by_cases one : c.val.toNat ≤ 0x7f
  · rw [if_pos one, if_pos one]
    simp
    omega
  rw [if_neg one, if_neg one]
  by_cases two : c.val.toNat ≤ 0x7ff
  · rw [if_pos two, if_pos two]
    simp
    omega
  rw [if_neg two, if_neg two]
  by_cases three : c.val.toNat ≤ 0xffff
  · rw [if_pos three, if_pos three]
    simp
    omega
  rw [if_neg three, if_neg three]
  simp
  omega

theorem utf8Size_eq (c : Char) : c.utf8Size =
    if c.val.toNat ≤ 0x7f then 1 else if c.val.toNat ≤ 0x7ff then 2
    else if c.val.toNat ≤ 0xffff then 3 else 4 := by
  unfold Char.utf8Size
  simp only [UInt32.le_iff_toNat_le, UInt32.toNat_ofNatLT]

theorem toNat_getD_utf8EncodeChar (c : Char) (j : Nat) :
    ((String.utf8EncodeChar c).getD j 0).toNat = (encodeNat c.val.toNat).getD j 0 := by
  rw [← encodeChar_toNat, List.getD_eq_getElem?_getD, List.getD_eq_getElem?_getD,
    List.getElem?_map]
  cases (String.utf8EncodeChar c)[j]? <;> rfl

/-- Bytes that spell a character decode, from their first byte, to that character. -/
theorem pieceAt_of_spelled {b : ByteArray} {i : Nat} {c : Char} (fits : i + c.utf8Size ≤ b.size)
    (bytes : ∀ j < c.utf8Size, (byteAt b (i + j)).toNat = (encodeNat c.val.toNat).getD j 0) :
    pieceAt b i = (.scalar c, c.utf8Size) := by
  have valid := c.valid
  simp only [UInt32.isValidChar, Nat.isValidChar] at valid
  have back : Char.ofNat c.val.toNat = c := Char.ofNat_toNat c
  rw [utf8Size_eq] at fits bytes ⊢
  unfold encodeNat at bytes
  by_cases one : c.val.toNat ≤ 0x7f
  · simp only [if_pos one] at fits bytes ⊢
    rw [pieceAt_one one (by simpa using bytes 0 (by omega)), back]
  by_cases two : c.val.toNat ≤ 0x7ff
  · simp only [if_neg one, if_pos two] at fits bytes ⊢
    rw [pieceAt_two (by omega : 0x7f < c.val.toNat) two (by simpa using bytes 0 (by omega))
      (by simpa using bytes 1 (by omega)) fits, back]
  by_cases three : c.val.toNat ≤ 0xffff
  · simp only [if_neg one, if_neg two, if_pos three] at fits bytes ⊢
    rw [pieceAt_three (by omega : 0x7ff < c.val.toNat) three (by omega)
      (by simpa using bytes 0 (by omega)) (by simpa using bytes 1 (by omega))
      (by simpa using bytes 2 (by omega)) fits, back]
  · simp only [if_neg one, if_neg two, if_neg three] at fits bytes ⊢
    rw [pieceAt_four (by omega : 0xffff < c.val.toNat) (by omega)
      (by simpa using bytes 0 (by omega)) (by simpa using bytes 1 (by omega))
      (by simpa using bytes 2 (by omega)) (by simpa using bytes 3 (by omega)) fits, back]

/-! ## Whole strings -/

theorem piecesFrom_utf8Encode (cs : List Char) (p : ByteArray) :
    piecesFrom (p ++ cs.utf8Encode) p.size = cs.map .scalar := by
  induction cs generalizing p with
  | nil =>
    rw [piecesFrom]
    simp [List.utf8Encode_nil, ByteArray.append_empty]
  | cons c rest ih =>
    have split : p ++ (c :: rest).utf8Encode =
        (p ++ (String.utf8EncodeChar c).toByteArray) ++ rest.utf8Encode := by
      rw [List.utf8Encode_cons, List.utf8Encode_singleton, ByteArray.append_assoc]
    have width : (String.utf8EncodeChar c).toByteArray.size = c.utf8Size := by
      simp
    have positive := c.utf8Size_pos
    have piece : pieceAt (p ++ (c :: rest).utf8Encode) p.size = (.scalar c, c.utf8Size) := by
      apply pieceAt_of_spelled
      · rw [split]
        simp only [ByteArray.size_append, width]
        omega
      · intro j below
        rw [split, byteAt_append, byteAt_append, if_pos (by simp [width]; omega), if_neg (by omega),
          Nat.add_sub_cancel_left, byteAt_toByteArray, toNat_getD_utf8EncodeChar]
    have next : p.size + max c.utf8Size 1 = (p ++ (String.utf8EncodeChar c).toByteArray).size := by
      simp only [ByteArray.size_append, width]
      omega
    rw [piecesFrom, dif_pos (by rw [split]; simp [width]; omega)]
    dsimp only
    rw [piece, List.map_cons, next, split, ih]

theorem toList_foldl_push (cs : List Char) (s : String) :
    (cs.foldl String.push s).toList = s.toList ++ cs := by
  induction cs generalizing s with
  | nil => simp
  | cons c rest ih => simp [ih]

theorem toUTF8_eq_utf8Encode (s : String) : s.toUTF8 = s.toList.utf8Encode := by
  rw [String.toUTF8_eq_toByteArray, ← String.toByteArray_ofList, String.ofList_toList]

theorem size_toUTF8 (s : String) : s.toUTF8.size = s.utf8ByteSize := by
  rw [String.toUTF8_eq_toByteArray, String.size_toByteArray]

theorem toUTF8_append (s t : String) : (s ++ t).toUTF8 = s.toUTF8 ++ t.toUTF8 := by
  simp only [String.toUTF8_eq_toByteArray, String.toByteArray_append]

theorem foldl_push_toList (s : String) : s.toList.foldl String.push "" = s := by
  apply String.toList_inj.1
  rw [toList_foldl_push]
  simp

theorem pieces_toUTF8 (s : String) : pieces s.toUTF8 = s.toList.map .scalar := by
  have whole := piecesFrom_utf8Encode s.toList ByteArray.empty
  rw [ByteArray.empty_append, ByteArray.size_empty] at whole
  rw [pieces, toUTF8_eq_utf8Encode, whole]

/-- A string's bytes read back, losslessly, as the string. -/
theorem decodeLossy_toUTF8 (s : String) : decodeLossy s.toUTF8 = s := by
  unfold decodeLossy
  rw [pieces_toUTF8, List.foldl_map]
  exact foldl_push_toList s

/-- A string's bytes are well-formed and read back as the string. -/
theorem decode?_toUTF8 (s : String) : decode? s.toUTF8 = some s := by
  unfold decode?
  rw [pieces_toUTF8]
  conv => rhs; rw [← foldl_push_toList s]
  -- every piece is a scalar value, so the fold never stops
  generalize s.toList = cs
  generalize "" = t
  induction cs generalizing t with
  | nil => rfl
  | cons c rest ih => exact ih (t.push c)

/-! ## ASCII bytes -/

/-- A byte below `0x80` in a character's encoding is the whole character. -/
theorem getD_encodeNat_of_lt {c : Char} {j : Nat} (below : j < c.utf8Size)
    (ascii : (encodeNat c.val.toNat).getD j 0 < 0x80) :
    (encodeNat c.val.toNat).getD j 0 = c.val.toNat := by
  rw [utf8Size_eq] at below
  unfold encodeNat at ascii ⊢
  by_cases one : c.val.toNat ≤ 0x7f
  · rw [if_pos one] at below ⊢
    obtain rfl : j = 0 := by omega
    rfl
  exfalso
  rw [if_neg one] at below ascii
  by_cases two : c.val.toNat ≤ 0x7ff
  · rw [if_pos two] at below ascii
    obtain rfl | rfl : j = 0 ∨ j = 1 := by omega
    all_goals simp only [List.getD_cons_zero, List.getD_cons_succ] at ascii; omega
  rw [if_neg two] at below ascii
  by_cases three : c.val.toNat ≤ 0xffff
  · rw [if_pos three] at below ascii
    obtain rfl | rfl | rfl : j = 0 ∨ j = 1 ∨ j = 2 := by omega
    all_goals simp only [List.getD_cons_zero, List.getD_cons_succ] at ascii; omega
  rw [if_neg three] at below ascii
  obtain rfl | rfl | rfl | rfl : j = 0 ∨ j = 1 ∨ j = 2 ∨ j = 3 := by omega
  all_goals simp only [List.getD_cons_zero, List.getD_cons_succ] at ascii; omega

/-- A byte below `0x80` in the encoding of a list of characters is one of the characters. -/
theorem byteAt_utf8Encode_of_lt (cs : List Char) {j : Nat} (inside : j < cs.utf8Encode.size)
    (ascii : (byteAt cs.utf8Encode j).toNat < 0x80) :
    ∃ c ∈ cs, c.val.toNat = (byteAt cs.utf8Encode j).toNat := by
  induction cs generalizing j with
  | nil => simp [List.utf8Encode_nil, ByteArray.size_empty] at inside
  | cons c rest ih =>
    have width : (String.utf8EncodeChar c).toByteArray.size = c.utf8Size := by
      simp
    rw [List.utf8Encode_cons, List.utf8Encode_singleton] at inside ascii ⊢
    rw [byteAt_append, width] at ascii ⊢
    split
    · next first =>
      rw [if_pos first, byteAt_toByteArray, toNat_getD_utf8EncodeChar] at ascii
      rw [byteAt_toByteArray, toNat_getD_utf8EncodeChar]
      exact ⟨c, List.mem_cons_self, (getD_encodeNat_of_lt first ascii).symm⟩
    · next later =>
      rw [if_neg later] at ascii
      rw [ByteArray.size_append, width] at inside
      obtain ⟨d, member, same⟩ := ih (by omega) ascii
      exact ⟨d, List.mem_cons_of_mem c member, same⟩

theorem mem_of_byteAt_toUTF8 {s : String} {j : Nat} (inside : j < s.utf8ByteSize) {c : Char}
    (ascii : c.toNat < 0x80) (code : (byteAt s.toUTF8 j).toNat = c.toNat) : c ∈ s.toList := by
  rw [← size_toUTF8, toUTF8_eq_utf8Encode] at inside
  rw [toUTF8_eq_utf8Encode] at code
  obtain ⟨d, member, same⟩ := byteAt_utf8Encode_of_lt s.toList inside (code ▸ ascii)
  obtain rfl : d = c := Char.toNat_inj.1 (same.trans code)
  exact member

/-- A string without NUL has no zero byte. -/
theorem byteAt_toUTF8_ne_zero {s : String} (noNul : s.contains (Char.ofNat 0) = false) {j : Nat}
    (below : j < s.utf8ByteSize) : byteAt s.toUTF8 j ≠ 0 := by
  rw [String.contains_char_eq, decide_eq_false_iff_not] at noNul
  intro zero
  exact noNul (mem_of_byteAt_toUTF8 below (by decide) (by rw [zero]; decide))

end InodeFs.Utf8
