import InodeFs.Bytes.Fields

/-!
Sizes and bytes of the buffers the records and blocks are built from: a fitted buffer has the
width asked for, a patch keeps the size of what it patches, and a patch or a slice exists
exactly when it stays inside its buffer.

The second half reads buffers byte by byte through `byteAt`, which is total: every buffer
operation the engine uses has a law saying which byte of which argument each byte of its
result is, and two buffers of one size with the same bytes are equal.
-/

namespace InodeFs

@[simp] theorem size_zeros (n : Nat) : (zeros n).size = n := by
  simp [zeros, ByteArray.size]

@[simp] theorem size_fitTo (n : Nat) (b : ByteArray) : (fitTo n b).size = n := by
  unfold fitTo
  split
  · simp only [ByteArray.size_append, size_zeros]
    omega
  · simp only [ByteArray.size_extract]
    omega

theorem fitTo_eq_self {n : Nat} {b : ByteArray} (fits : b.size = n) : fitTo n b = b := by
  unfold fitTo
  rw [if_neg (by omega), ← fits, ByteArray.extract_zero_size]

@[simp] theorem size_encodeU32 (x : UInt32) : (encodeU32 x).size = 4 := rfl

@[simp] theorem size_encodeI32 (x : Int32) : (encodeI32 x).size = 4 := rfl

@[simp] theorem concatBytes_nil : concatBytes [] = ByteArray.empty := rfl

theorem foldl_append_eq (acc : ByteArray) (parts : List ByteArray) :
    parts.foldl (· ++ ·) acc = acc ++ concatBytes parts := by
  induction parts generalizing acc with
  | nil => simp [ByteArray.append_empty]
  | cons part rest ih =>
    have unfolded : concatBytes (part :: rest) = part ++ concatBytes rest := by
      rw [concatBytes, List.foldl_cons, ByteArray.empty_append, ih part]
    rw [List.foldl_cons, ih (acc ++ part), unfolded, ByteArray.append_assoc]

theorem concatBytes_cons (part : ByteArray) (rest : List ByteArray) :
    concatBytes (part :: rest) = part ++ concatBytes rest := by
  rw [concatBytes, List.foldl_cons, ByteArray.empty_append, foldl_append_eq]

theorem concatBytes_append (xs ys : List ByteArray) :
    concatBytes (xs ++ ys) = concatBytes xs ++ concatBytes ys := by
  simp only [concatBytes, List.foldl_append]
  exact foldl_append_eq _ ys

/-- Parts of one width concatenate to that width for each part. -/
theorem size_concatBytes (parts : List ByteArray) (width : Nat)
    (uniform : ∀ part ∈ parts, part.size = width) :
    (concatBytes parts).size = parts.length * width := by
  induction parts with
  | nil => simp [ByteArray.size_empty]
  | cons part rest ih =>
    have head := uniform part List.mem_cons_self
    have tail := ih fun p member => uniform p (List.mem_cons_of_mem part member)
    rw [concatBytes_cons, ByteArray.size_append, head, tail, List.length_cons, Nat.succ_mul]
    omega

theorem patchAt_isSome (dst : ByteArray) (off : Nat) (src : ByteArray) :
    (patchAt dst off src).isSome ↔ off + src.size ≤ dst.size := by
  unfold patchAt
  split <;> simp_all

theorem size_of_patchAt {dst src r : ByteArray} {off : Nat} (h : patchAt dst off src = some r) :
    r.size = dst.size := by
  unfold patchAt at h
  split at h
  · cases h
    simp only [ByteArray.size_append, ByteArray.size_extract]
    omega
  · cases h

theorem slice?_isSome (b : ByteArray) (off n : Nat) : (slice? b off n).isSome ↔ off + n ≤ b.size := by
  unfold slice?
  split <;> simp_all

/-! ## Byte by byte -/

theorem byteAt_of_lt {b : ByteArray} {i : Nat} (h : i < b.size) : byteAt b i = b[i] := by
  simp [byteAt, h]

theorem byteAt_of_le {b : ByteArray} {i : Nat} (h : b.size ≤ i) : byteAt b i = 0 := by
  simp [byteAt, Nat.not_lt.2 h]

theorem byteAt_empty (i : Nat) : byteAt ByteArray.empty i = 0 :=
  byteAt_of_le (by simp [ByteArray.size_empty])

theorem byteAt_zeros (n i : Nat) : byteAt (zeros n) i = 0 := by
  unfold byteAt
  split
  · simp [zeros, ByteArray.getElem_eq_getElem_data]
  · rfl

/-- Buffers of one size with the same bytes are equal. -/
theorem ext_byteAt {a b : ByteArray} (size : a.size = b.size)
    (bytes : ∀ i < a.size, byteAt a i = byteAt b i) : a = b := by
  apply ByteArray.ext_getElem size
  intro i below below'
  have same := bytes i below
  rwa [byteAt_of_lt below, byteAt_of_lt below'] at same

theorem eq_zeros_of_allZero {b : ByteArray} (zero : allZero b = true) : b = zeros b.size := by
  apply ext_byteAt (by rw [size_zeros])
  intro i below
  rw [byteAt_zeros, byteAt_of_lt below]
  have every := Array.all_eq_true.1 zero i below
  simpa [ByteArray.getElem_eq_getElem_data] using every

theorem byteAt_set (b : ByteArray) {i : Nat} (v : UInt8) (h : i < b.size) (j : Nat) :
    byteAt (b.set i v h) j = if j = i then v else byteAt b j := by
  obtain ⟨data⟩ := b
  unfold byteAt
  simp only [ByteArray.set, ByteArray.size, ByteArray.getElem_eq_getElem_data, Array.size_set, Array.getElem_set]
  by_cases same : j = i
  · simp [same, show i < data.size from h]
  · simp [same, Ne.symm same]

theorem byteAt_append (a b : ByteArray) (i : Nat) :
    byteAt (a ++ b) i = if i < a.size then byteAt a i else byteAt b (i - a.size) := by
  by_cases left : i < a.size
  · rw [if_pos left, byteAt_of_lt left, byteAt_of_lt (by simp; omega),
      ByteArray.getElem_append_left left]
  · rw [if_neg left]
    by_cases inside : i < (a ++ b).size
    · rw [byteAt_of_lt inside, byteAt_of_lt (by simp at inside; omega),
        ByteArray.getElem_append_right (by omega)]
    · rw [byteAt_of_le (by omega), byteAt_of_le (by simp at inside; omega)]

theorem byteAt_extract (b : ByteArray) (start stop i : Nat) :
    byteAt (b.extract start stop) i = if start + i < stop then byteAt b (start + i) else 0 := by
  by_cases inside : i < (b.extract start stop).size
  · have within : start + i < stop ∧ start + i < b.size := by simp at inside; omega
    rw [byteAt_of_lt inside, ByteArray.getElem_extract, if_pos within.1, byteAt_of_lt within.2]
  · rw [byteAt_of_le (by omega)]
    simp only [ByteArray.size_extract] at inside
    split
    · rw [byteAt_of_le (by omega)]
    · rfl

theorem extract_zeros (n start stop : Nat) :
    (zeros n).extract start stop = zeros (min stop n - start) := by
  apply ext_byteAt (by simp)
  intro i _
  rw [byteAt_extract, byteAt_zeros, byteAt_zeros]
  split <;> rfl

theorem byteAt_fitTo (n : Nat) (b : ByteArray) (i : Nat) :
    byteAt (fitTo n b) i = if i < n then byteAt b i else 0 := by
  unfold fitTo
  split
  · rw [byteAt_append, byteAt_zeros]
    by_cases inside : i < b.size
    · rw [if_pos inside, if_pos (by omega)]
    · rw [if_neg inside, byteAt_of_le (by omega)]
      split <;> rfl
  · rw [byteAt_extract, Nat.zero_add]

theorem byteAt_toByteArray (l : List UInt8) (j : Nat) : byteAt l.toByteArray j = l.getD j 0 := by
  unfold byteAt
  split
  · next inside =>
    rw [List.getElem_toByteArray, List.getD_eq_getElem?_getD, List.getElem?_eq_getElem]
    · rfl
  · next outside =>
    rw [List.getD_eq_getElem?_getD, List.getElem?_eq_none (by simpa using outside)]
    rfl

/-- A patched buffer holds the patch over its range and the original elsewhere. -/
theorem byteAt_of_patchAt {dst src r : ByteArray} {off : Nat} (h : patchAt dst off src = some r)
    (i : Nat) :
    byteAt r i = if off ≤ i ∧ i < off + src.size then byteAt src (i - off) else byteAt dst i := by
  unfold patchAt at h
  split at h
  · next fits =>
    cases h
    have prefixSize : (dst.extract 0 off).size = off := by simp; omega
    have middleSize : (dst.extract 0 off ++ src).size = off + src.size := by
      rw [ByteArray.size_append, prefixSize]
    rw [byteAt_append, byteAt_append, byteAt_extract, byteAt_extract, prefixSize, middleSize]
    by_cases before : i < off
    · rw [if_pos (by omega), if_pos before, if_pos (by omega), if_neg (by omega), Nat.zero_add]
    · by_cases inside : i < off + src.size
      · rw [if_pos inside, if_neg before, if_pos ⟨by omega, inside⟩]
      · have shifted : off + src.size + (i - (off + src.size)) = i := by omega
        have outside : ¬(off ≤ i ∧ i < off + src.size) := fun within => inside within.2
        rw [if_neg inside, shifted, if_neg outside]
        split
        · rfl
        · rw [byteAt_of_le (by omega)]
  · cases h

/-- A byte of parts of one width lies in the part its position falls in. -/
theorem byteAt_concatBytes (parts : List ByteArray) (width : Nat) (positive : 0 < width)
    (uniform : ∀ part ∈ parts, part.size = width) (i : Nat) :
    byteAt (concatBytes parts) i = byteAt (parts.getD (i / width) ByteArray.empty) (i % width) := by
  induction parts generalizing i with
  | nil => simp [concatBytes, byteAt_empty]
  | cons part rest ih =>
    have head := uniform part List.mem_cons_self
    rw [concatBytes_cons, byteAt_append, head]
    by_cases first : i < width
    · rw [if_pos first, Nat.div_eq_of_lt first, Nat.mod_eq_of_lt first]
      rfl
    · rw [if_neg first, ih (fun p member => uniform p (List.mem_cons_of_mem part member))]
      obtain ⟨j, rfl⟩ : ∃ j, i = width + j := ⟨i - width, by omega⟩
      rw [Nat.add_sub_cancel_left, Nat.add_div_left _ positive, Nat.add_mod_left]
      rfl

end InodeFs
