import InodeFs.Proofs.Codec

/-!
Directory entries and their 32-byte slots: the slots holding a well-formed name of 1 to 27
bytes without NUL, then NUL bytes, are exactly the encodings of entries with valid names, and
reading and writing are inverse on them (`entry_encoding_round_trips`).
-/

namespace InodeFs

theorem toUInt8_shiftRight_decodeU32 (b : ByteArray) (off : Nat) :
    (decodeU32 b off).toUInt8 = byteAt b off ∧
    ((decodeU32 b off) >>> 8).toUInt8 = byteAt b (off + 1) ∧
    ((decodeU32 b off) >>> 16).toUInt8 = byteAt b (off + 2) ∧
    ((decodeU32 b off) >>> 24).toUInt8 = byteAt b (off + 3) := by
  refine ⟨?_, ?_, ?_, ?_⟩ <;>
  · apply UInt8.toBitVec_inj.1
    apply BitVec.eq_of_getLsbD_eq
    intro j below
    -- bit `j` of byte `k` is bit `8 * k + j` of the word, which only byte `k` sets
    have : j < 16 ∧ j < 24 ∧ j < 32 ∧ 8 + j < 16 ∧ 8 + j < 24 ∧ 8 + j < 32 ∧ 16 + j < 24 ∧
        16 + j < 32 ∧ 24 + j < 32 ∧ ¬8 + j < 8 ∧ ¬16 + j < 8 ∧ ¬16 + j < 16 ∧ ¬24 + j < 8 ∧
        ¬24 + j < 16 ∧ ¬24 + j < 24 := by omega
    simp (disch := omega) [decodeU32, UInt32.toBitVec_or, UInt32.toBitVec_shiftLeft,
      UInt32.toBitVec_shiftRight, BitVec.getLsbD_of_ge, this]

theorem byteAt_encodeI32_decodeI32 (b : ByteArray) (off : Nat) {i : Nat} (below : i < 4) :
    byteAt (encodeI32 (decodeI32 b off)) i = byteAt b (off + i) := by
  obtain ⟨b0, b1, b2, b3⟩ := toUInt8_shiftRight_decodeU32 b off
  rw [encodeI32, decodeI32, UInt32.toUInt32_toInt32]
  obtain rfl | rfl | rfl | rfl : i = 0 ∨ i = 1 ∨ i = 2 ∨ i = 3 := by omega
  · exact b0
  · exact b1
  · exact b2
  · exact b3

namespace Utf8

/-- A text none of whose bytes is zero holds no NUL: NUL is written as a zero byte. -/
theorem contains_nul_eq_false {s : String} (nonzero : ∀ j < s.utf8ByteSize, byteAt s.toUTF8 j ≠ 0) :
    s.contains (Char.ofNat 0) = false := by
  rw [String.contains_char_eq, decide_eq_false_iff_not]
  intro member
  obtain ⟨before, after, split⟩ := List.append_of_mem member
  have size : s.toList.utf8Encode.size = s.utf8ByteSize := by
    rw [← toUTF8_eq_utf8Encode, String.toUTF8_eq_toByteArray, String.size_toByteArray]
  have nul : (String.utf8EncodeChar (Char.ofNat 0)).toByteArray = ⟨#[0]⟩ := rfl
  have encoded : s.toList.utf8Encode = before.utf8Encode ++ ⟨#[0]⟩ ++ after.utf8Encode := by
    rw [split, List.utf8Encode_append, List.utf8Encode_cons, List.utf8Encode_singleton, nul,
      ByteArray.append_assoc]
  apply nonzero before.utf8Encode.size
  · rw [← size, encoded]
    simp only [ByteArray.size_append]
    exact Nat.lt_of_lt_of_le (Nat.lt_add_one _) (Nat.le_add_right _ _)
  · rw [toUTF8_eq_utf8Encode, encoded, byteAt_append,
      if_pos (by simp only [ByteArray.size_append]; exact Nat.lt_add_of_pos_right (by decide)), byteAt_append,
      if_neg (Nat.lt_irrefl _), Nat.sub_self]
    rfl

end Utf8

namespace DirEntry

/-- A slot in the form the encoding writes: a well-formed name of 1 to 27 bytes without a zero
byte, zero bytes to the end of the name field, then any inode number. -/
def Canonical (b : ByteArray) : Prop :=
  b.size = entrySize ∧ ∃ k, 0 < k ∧ k < nameField ∧ (b.extract 0 k).IsValidUTF8 ∧
    (∀ j < k, byteAt b j ≠ 0) ∧ ∀ j, k ≤ j → j < nameField → byteAt b j = 0

theorem validName_iff {name : String} :
    validName name = true ↔
      0 < name.utf8ByteSize ∧ name.utf8ByteSize < nameField ∧ name.contains (Char.ofNat 0) = false := by
  unfold validName
  simp only [Bool.not_eq_true', Bool.or_eq_false_iff, String.isEmpty, beq_eq_false_iff_ne,
    decide_eq_false_iff_not, Nat.not_le, Nat.pos_iff_ne_zero, and_assoc]

theorem byteAt_encode_name (e : DirEntry) (short : e.name.utf8ByteSize < nameField) {j : Nat}
    (inField : j < nameField) : byteAt e.encode j = byteAt e.name.toUTF8 j := by
  have bytes : e.name.toUTF8.size = e.name.utf8ByteSize := by
    rw [String.toUTF8_eq_toByteArray, String.size_toByteArray]
  rw [encode, byteAt_append, size_fitTo, if_pos inField, byteAt_fitTo, if_pos inField,
    byteAt_extract, Nat.zero_add]
  split
  · rfl
  · -- the last byte of the field is past every name short enough
    rw [byteAt_of_le (by unfold nameField at *; omega)]

theorem byteAt_encode_inum (e : DirEntry) {j : Nat} (late : nameField ≤ j) :
    byteAt e.encode j = byteAt (encodeI32 e.inum) (j - nameField) := by
  rw [encode, byteAt_append, size_fitTo, if_neg (Nat.not_lt.2 late)]

theorem canonical_encode {e : DirEntry} (valid : validName e.name = true) : Canonical e.encode := by
  obtain ⟨nonempty, short, noNul⟩ := validName_iff.1 valid
  have bytes : e.name.toUTF8.size = e.name.utf8ByteSize := by
    rw [String.toUTF8_eq_toByteArray, String.size_toByteArray]
  have name : e.encode.extract 0 e.name.utf8ByteSize = e.name.toUTF8 := by
    apply ext_byteAt (by rw [ByteArray.size_extract, size_encode, bytes]; unfold entrySize nameField at *; omega)
    intro j below
    rw [ByteArray.size_extract] at below
    rw [byteAt_extract, if_pos (by omega), Nat.zero_add, byteAt_encode_name _ short (by omega)]
  refine ⟨size_encode e, e.name.utf8ByteSize, nonempty, short, ?_, fun j below => ?_,
    fun j late inField => ?_⟩
  · rw [name, String.toUTF8_eq_toByteArray]
    exact e.name.isValidUTF8
  · rw [byteAt_encode_name _ short (by omega)]
    exact Utf8.byteAt_toUTF8_ne_zero noNul below
  · rw [byteAt_encode_name _ short inField, byteAt_of_le (by omega)]

/-- A slot in canonical form reads as an entry with a valid name, which is written back as the
same bytes. -/
theorem decode?_of_canonical {b : ByteArray} (canonical : Canonical b) :
    ∃ e, decode? b = some e ∧ validName e.name = true ∧ e.encode = b := by
  obtain ⟨size, k, nonempty, short, valid, nonzero, padded⟩ := canonical
  let name := String.ofByteArray (b.extract 0 k) valid
  have bytes : name.toUTF8 = b.extract 0 k := rfl
  have nameSize : name.utf8ByteSize = k := by
    rw [← String.size_toByteArray, ← String.toUTF8_eq_toByteArray, bytes, ByteArray.size_extract]
    unfold entrySize nameField at *
    omega
  have byteAt_name : ∀ j, byteAt name.toUTF8 j = if j < k then byteAt b j else 0 := by
    intro j
    rw [bytes, byteAt_extract, Nat.zero_add]
  have stop : (List.range nameField).find? (fun j => byteAt (b.extract 0 nameField) j == 0) =
      some k := by
    rw [List.find?_range_eq_some]
    refine ⟨?_, List.mem_range.2 short, fun j below => ?_⟩
    · rw [byteAt_extract, if_pos (by omega), Nat.zero_add, padded k (Nat.le_refl k) short]
      rfl
    · rw [byteAt_extract, if_pos (by omega), Nat.zero_add]
      simpa using nonzero j below
  have field : (b.extract 0 nameField).extract 0 k = name.toUTF8 := by
    rw [bytes, ByteArray.extract_extract, Nat.zero_add, Nat.zero_add, Nat.min_eq_left (by omega)]
  have decoded : decode? b = some ⟨name, decodeI32 b nameField⟩ := by
    unfold decode?
    rw [if_neg (by omega)]
    dsimp only
    rw [stop, Option.getD_some, field, Utf8.decodeLossy_toUTF8]
  have named : validName name = true := by
    refine validName_iff.2 ⟨by omega, by omega, Utf8.contains_nul_eq_false fun j below => ?_⟩
    rw [byteAt_name, if_pos (by omega)]
    exact nonzero j (by omega)
  refine ⟨_, decoded, named, ext_byteAt (by rw [size_encode, size]) fun j below => ?_⟩
  rw [size_encode] at below
  by_cases inField : j < nameField
  · rw [byteAt_encode_name _ (by dsimp only; omega) inField, byteAt_name]
    split
    · rfl
    · exact (padded j (by omega) inField).symm
  · rw [byteAt_encode_inum _ (by omega),
      byteAt_encodeI32_decodeI32 _ _ (by unfold entrySize nameField at *; omega),
      Nat.add_sub_cancel' (by omega)]

/-- The slots in canonical form are exactly the encodings of entries with valid names. -/
theorem canonical_iff_encode {b : ByteArray} :
    Canonical b ↔ ∃ e : DirEntry, validName e.name = true ∧ e.encode = b := by
  constructor
  · intro canonical
    obtain ⟨e, -, valid, written⟩ := decode?_of_canonical canonical
    exact ⟨e, valid, written⟩
  · rintro ⟨e, valid, rfl⟩
    exact canonical_encode valid

/-- An entry with a valid name reads back from its encoding; a slot in canonical form reads as
an entry written back as the same 32 bytes; and the canonical slots are exactly those encodings. -/
theorem entry_encoding_round_trips :
    (∀ (name : String) (inum : InodeNumber), validName name = true →
      decode? (encode ⟨name, inum⟩) = some ⟨name, inum⟩) ∧
    (∀ b, Canonical b → ∃ e, decode? b = some e ∧ e.encode = b) ∧
    (∀ b, Canonical b ↔ ∃ e : DirEntry, validName e.name = true ∧ e.encode = b) := by
  refine ⟨fun name inum valid => decode?_encode_of_validName ⟨name, inum⟩ valid, fun b canonical => ?_,
    fun b => canonical_iff_encode⟩
  obtain ⟨e, decoded, -, written⟩ := decode?_of_canonical canonical
  exact ⟨e, decoded, written⟩

end DirEntry

end InodeFs
