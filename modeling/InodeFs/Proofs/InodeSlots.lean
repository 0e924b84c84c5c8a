import InodeFs.Proofs.EntrySlots

/-!
Inodes and their 128-byte slots: an inode reads back from its encoding exactly when its size is
at most `maxFileSize`, and a slot reads as an inode exactly when its type code and size word pass
the decoder's checks, which then writes it back as the same bytes (`inode_encoding_round_trips`).
-/

namespace InodeFs

theorem toInt_toInt32_neg_of_le {x : UInt32} (large : 2147483648 ≤ x.toNat) :
    x.toInt32.toInt < 0 := by
  rw [Int32.toInt, BitVec.toInt_eq_toNat_cond]
  have word := UInt32.toNat_lt x
  simp only [UInt32.toBitVec_toInt32, UInt32.toNat_toBitVec]
  split <;> omega

theorem byteAt_encodeU32_decodeU32 (b : ByteArray) (off : Nat) {i : Nat} (below : i < 4) :
    byteAt (encodeU32 (decodeU32 b off)) i = byteAt b (off + i) := by
  have signed : encodeU32 (decodeU32 b off) = encodeI32 (decodeI32 b off) := by
    rw [encodeI32, decodeI32, UInt32.toUInt32_toInt32]
  rw [signed, byteAt_encodeI32_decodeI32 b off below]

theorem concatBytes_encodeU32_decodeU32 (b : ByteArray) {n : Nat} (long : 4 * n ≤ b.size) :
    concatBytes ((List.range n).map fun k => encodeU32 (decodeU32 b (4 * k))) =
      b.extract 0 (4 * n) := by
  have uniform : ∀ part ∈ (List.range n).map fun k => encodeU32 (decodeU32 b (4 * k)),
      part.size = 4 := by
    simp
  apply ext_byteAt (by rw [size_concatBytes _ 4 uniform]; simp; omega)
  intro i below
  rw [size_concatBytes _ 4 uniform, List.length_map, List.length_range] at below
  rw [byteAt_concatBytes _ 4 (by decide) uniform, byteAt_extract, if_pos (by omega),
    Nat.zero_add, List.getD_eq_getElem?_getD, List.getElem?_map, List.getElem?_range (by omega),
    Option.map_some, Option.getD_some, byteAt_encodeU32_decodeU32 _ _ (Nat.mod_lt _ (by decide)),
    Nat.div_add_mod]

namespace FileKind

theorem code_of_ofCode? {c : Int32} {k : FileKind} (h : ofCode? c = some k) : k.code = c := by
  unfold ofCode? at h
  split at h
  · next zero =>
    cases h
    exact (eq_of_beq zero).symm
  · split at h
    · next one =>
      cases h
      exact (eq_of_beq one).symm
    · cases h

theorem ofCode?_isSome_iff (c : Int32) : (ofCode? c).isSome ↔ c = 0 ∨ c = 1 := by
  unfold ofCode?
  by_cases zero : c = 0
  · simp [zero]
  · by_cases one : c = 1
    · simp [one]
    · simp [zero, one]

end FileKind

namespace Inode

theorem decodeU32_encode (i : Inode) {k : Nat} (below : k < 32) :
    decodeU32 i.encode (4 * k) = (i.kind.code.toUInt32 :: i.size :: i.direct.toList).getD k 0 := by
  rw [encode_eq, decodeU32_concatBytes]
  simpa using below

theorem decodeI32_encode_size (i : Inode) : decodeI32 i.encode 4 = i.size.toInt32 := by
  rw [decodeI32, show 4 = 4 * 1 from rfl, decodeU32_encode i (by decide)]
  rfl

/-- The decoder's check of the size word passes exactly for sizes from 0 to `maxFileSize`. -/
theorem sizeWord_passes_iff (x : Int32) :
    (x.toInt < 0 || blocksFor x.toInt.toNat > directPointers) = false ↔
      0 ≤ x.toInt ∧ x.toInt ≤ maxFileSize := by
  have pointers : directPointers = 30 := rfl
  have most : maxFileSize = 122880 := rfl
  simp only [Bool.or_eq_false_iff, decide_eq_false_iff_not, Int.not_lt, gt_iff_lt, Nat.not_lt]
  unfold blocksFor blockSize
  omega

theorem blockCount_le_of_fileSize {i : Inode} (fits : i.fileSize ≤ maxFileSize) :
    i.blockCount ≤ directPointers := by
  unfold blockCount blocksFor
  unfold maxFileSize directPointers blockSize at *
  omega

/-- A slot of 128 bytes or more reads as an inode exactly when its type code is 0 or 1 and its
size word lies between 0 and `maxFileSize`. -/
theorem decode?_isSome_iff {b : ByteArray} (long : inodeSize ≤ b.size) :
    (decode? b).isSome ↔ (decodeI32 b 0 = 0 ∨ decodeI32 b 0 = 1) ∧
      0 ≤ (decodeI32 b 4).toInt ∧ (decodeI32 b 4).toInt ≤ maxFileSize := by
  unfold decode?
  rw [if_neg (Nat.not_lt.2 long), ← sizeWord_passes_iff, ← FileKind.ofCode?_isSome_iff]
  cases FileKind.ofCode? (decodeI32 b 0) with
  | none => simp
  | some kind =>
    dsimp only
    cases (decodeI32 b 4).toInt < 0 || blocksFor (decodeI32 b 4).toInt.toNat > directPointers <;>
      simp

/-- An inode read from a slot is written back as the slot's first 128 bytes. -/
theorem encode_of_decode? {b : ByteArray} {i : Inode} (h : decode? b = some i) :
    i.encode = b.extract 0 inodeSize := by
  unfold decode? at h
  split at h
  · cases h
  · next short =>
    cases kind : FileKind.ofCode? (decodeI32 b 0) with
    | none =>
      rw [kind] at h
      cases h
    | some k =>
      rw [kind] at h
      dsimp only at h
      split at h
      · cases h
      · cases h
        have words : k.code.toUInt32 :: (decodeI32 b 4).toUInt32 ::
            (Vector.ofFn fun j : Fin 30 => decodeU32 b (8 + 4 * j.val)).toList =
            (List.range 32).map fun j => decodeU32 b (4 * j) := by
          apply List.ext_getElem (by simp)
          intro j inWritten inRead
          rw [List.getElem_map, List.getElem_range]
          rcases j with _ | _ | j
          · rw [FileKind.code_of_ofCode? kind]
            exact UInt32.toUInt32_toInt32 _
          · exact UInt32.toUInt32_toInt32 _
          · simp only [List.getElem_cons_succ, Vector.getElem_toList, Vector.getElem_ofFn]
            congr 1
            omega
        rw [encode_eq, words, List.map_map]
        exact concatBytes_encodeU32_decodeU32 b (by unfold inodeSize at short; omega)

/-- An inode reads back from its encoding exactly when its size is at most `maxFileSize`. -/
theorem decode?_encode_eq (i : Inode) :
    decode? i.encode = if i.fileSize ≤ maxFileSize then some i else none := by
  split
  · next fits => exact decode?_encode i (blockCount_le_of_fileSize fits)
  · next large =>
    rw [← Option.not_isSome_iff_eq_none, decode?_isSome_iff (Nat.le_of_eq (size_encode i).symm),
      decodeI32_encode_size]
    rintro ⟨-, nonneg, small⟩
    unfold fileSize at large
    by_cases signed : i.size.toNat < 2147483648
    · rw [toInt_toInt32_of_lt signed] at small
      omega
    · exact absurd nonneg (Int.not_le.2 (toInt_toInt32_neg_of_le (by omega)))

/-- An inode reads back from its encoding exactly when its size is at most `maxFileSize`; a slot
of 128 bytes reads as an inode exactly when its type code is 0 or 1 and its size word lies in
`[0, maxFileSize]`, and is then written back as those bytes. -/
theorem inode_encoding_round_trips :
    (∀ i : Inode, decode? i.encode = if i.fileSize ≤ maxFileSize then some i else none) ∧
    ∀ b : ByteArray, inodeSize ≤ b.size →
      ((decode? b).isSome ↔ (decodeI32 b 0 = 0 ∨ decodeI32 b 0 = 1) ∧
        0 ≤ (decodeI32 b 4).toInt ∧ (decodeI32 b 4).toInt ≤ maxFileSize) ∧
      ∀ i, decode? b = some i → i.encode = b.extract 0 inodeSize :=
  ⟨decode?_encode_eq, fun _ long =>
    ⟨decode?_isSome_iff long, fun _ decoded => encode_of_decode? decoded⟩⟩

/-- A zeroed slot reads as an inode: an empty directory. -/
theorem zeroed_slot_reads :
    inodeSize ≤ (zeros 128).size ∧ (decode? (zeros 128)).isSome = true := by
  have long : inodeSize ≤ (zeros 128).size := by simp [inodeSize]
  have word : ∀ off, decodeI32 (zeros 128) off = 0 := fun off => by
    simp only [decodeI32, decodeU32, byteAt_zeros]
    rfl
  refine ⟨long, ((inode_encoding_round_trips.2 (zeros 128) long).1).2 ⟨.inl (word 0), ?_, ?_⟩⟩ <;>
    rw [word] <;> decide

end Inode

end InodeFs
