import InodeFs.Proofs.Bytes
import InodeFs.Layout.Inode
import InodeFs.Layout.DirEntry
import InodeFs.Layout.SuperBlock

/-!
The on-disk records as the engine relies on them: a consistent super block has no negative
field and bitmaps wide enough for what it counts, an encoded inode fills its 128-byte slot
and an encoded entry its 32-byte slot, and a decoded inode never spans more blocks than it
has direct pointers.
-/

namespace InodeFs

theorem Int32.toNat_toUInt32_of_nonneg {x : Int32} (h : 0 ≤ x.toInt) :
    x.toUInt32.toNat = x.toInt.toNat :=
  Int32.toNat_toUInt32_of_le (Int32.le_iff_toInt_le.2 (by simpa using h))

namespace SuperBlock

/-- What a consistent super block promises about the counts the engine indexes bitmaps by. -/
theorem counts_of_isConsistent {sb : SuperBlock} (h : sb.isConsistent = true) :
    0 ≤ sb.numInodes.toInt ∧ 0 ≤ sb.numData.toInt ∧
    sb.numInodes.toInt.toNat ≤ sb.inodeBitmapLen.toInt.toNat * bitsPerBlock ∧
    sb.numData.toInt.toNat ≤ sb.dataBitmapLen.toInt.toNat * bitsPerBlock := by
  simp only [isConsistent, fields, List.all_cons, List.all_nil, Bool.and_true, Bool.and_eq_true,
    decide_eq_true_eq, bne_iff_ne, ne_eq, ge_iff_le] at h
  unfold bitsPerBlock blockSize at h ⊢
  omega

end SuperBlock

namespace Inode

theorem size_encode (i : Inode) : i.encode.size = inodeSize := by
  have words : ∀ word ∈ encodeI32 i.kind.code :: encodeU32 i.size :: i.direct.toList.map encodeU32,
      word.size = 4 := by
    simp
  rw [encode, size_concatBytes _ 4 words]
  simp [inodeSize]

theorem pointer?_isSome (i : Inode) (k : Nat) : (i.pointer? k).isSome ↔ k < directPointers := by
  unfold pointer?
  split <;> simp_all

theorem setPointer?_isSome (i : Inode) (k : Nat) (b : UInt32) :
    (i.setPointer? k b).isSome ↔ k < directPointers := by
  unfold setPointer?
  split <;> simp_all

/-- Pointer `k` of an inode is its direct slot `k`, for the thirty slots there are. -/
theorem pointer?_eq (i : Inode) (k : Nat) :
    i.pointer? k = if k < directPointers then some (i.direct.toList.getD k unusedBlock) else none := by
  unfold pointer?
  split
  · next below =>
    have inside : k < 30 := below
    simp [inside, List.getD_eq_getElem?_getD]
    rfl
  · rfl

/-- Replacing pointer `k` changes pointer `k` alone. -/
theorem pointer?_of_setPointer? {i i' : Inode} {k : Nat} {b : UInt32}
    (h : i.setPointer? k b = some i') (m : Nat) :
    i'.pointer? m = if m = k then some b else i.pointer? m := by
  unfold setPointer? at h
  split at h
  · next below =>
    cases h
    rw [pointer?_eq, pointer?_eq]
    simp only [List.getD_eq_getElem?_getD, Vector.getElem?_toList]
    have inside : k < 30 := below
    by_cases here : m = k
    · subst here
      rw [if_pos rfl, if_pos below, Vector.getElem?_set_self inside, Option.getD_some]
    · rw [if_neg here, Vector.getElem?_set_ne inside (Ne.symm here)]
  · cases h

theorem kind_of_setPointer? {i i' : Inode} {k : Nat} {b : UInt32}
    (h : i.setPointer? k b = some i') : i'.kind = i.kind := by
  unfold setPointer? at h
  split at h
  · cases h
    rfl
  · cases h

theorem size_of_setPointer? {i i' : Inode} {k : Nat} {b : UInt32}
    (h : i.setPointer? k b = some i') : i'.size = i.size := by
  unfold setPointer? at h
  split at h
  · cases h
    rfl
  · cases h

theorem pointer?_setSize (i : Inode) (n k : Nat) : (i.setSize n).pointer? k = i.pointer? k := rfl

theorem kind_setSize (i : Inode) (n : Nat) : (i.setSize n).kind = i.kind := rfl

theorem fileSize_setSize (i : Inode) {n : Nat} (fits : n < 4294967296) :
    (i.setSize n).fileSize = n := by
  unfold setSize fileSize
  exact UInt32.toNat_ofNat_of_lt' fits

/-- The blocks of an inode are its first pointers, as many as its size spans. -/
theorem getElem?_blocks (i : Inode) (k : Nat) :
    i.blocks[k]? = if k < min i.blockCount directPointers then i.pointer? k else none := by
  unfold blocks
  rw [List.getElem?_take, pointer?_eq]
  split
  · next below =>
    have inside : k < i.direct.toList.length := by simp [directPointers] at below ⊢; omega
    rw [if_pos (by omega), List.getD_eq_getElem?_getD, List.getElem?_eq_getElem inside,
      Option.getD_some]
  · rfl

theorem mem_blocks {i : Inode} {b : UInt32} :
    b ∈ i.blocks ↔ ∃ k < min i.blockCount directPointers, i.pointer? k = some b := by
  rw [List.mem_iff_getElem?]
  constructor
  · rintro ⟨k, found⟩
    rw [getElem?_blocks] at found
    split at found
    · exact ⟨k, by assumption, found⟩
    · cases found
  · rintro ⟨k, below, found⟩
    exact ⟨k, by rw [getElem?_blocks, if_pos below, found]⟩

/-- A slot that decodes holds a size its thirty direct pointers can address. -/
theorem blockCount_le_of_decode? {b : ByteArray} {i : Inode} (h : decode? b = some i) :
    i.blockCount ≤ directPointers := by
  unfold decode? at h
  split at h
  · cases h
  · split at h
    · cases h
    · dsimp only at h
      split at h
      · cases h
      · rename_i bad
        simp only [Option.some.injEq] at h
        subst h
        simp only [Bool.or_eq_true, decide_eq_true_eq, not_or, Int.not_lt] at bad
        simp only [blockCount, fileSize, Int32.toNat_toUInt32_of_nonneg bad.1]
        omega

end Inode

namespace DirEntry

theorem size_encode (e : DirEntry) : e.encode.size = entrySize := by
  simp [encode, entrySize, nameField]

end DirEntry

end InodeFs
