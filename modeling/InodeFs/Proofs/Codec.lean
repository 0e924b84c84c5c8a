import InodeFs.Proofs.Records
import InodeFs.Proofs.Utf8

/-!
Every record the engine writes reads back as itself, and each decoder reads only its own
record's bytes, so a patched block still holds every record the patch did not touch.
-/

namespace InodeFs

/-! ## Words -/

theorem recombine_bytes (x : UInt32) :
    x.toUInt8.toUInt32 ||| ((x >>> 8).toUInt8.toUInt32 <<< 8) |||
      ((x >>> 16).toUInt8.toUInt32 <<< 16) ||| ((x >>> 24).toUInt8.toUInt32 <<< 24) = x := by
  apply UInt32.toBitVec_inj.1
  apply BitVec.eq_of_getLsbD_eq
  intro i below
  have s8 : ((8 : UInt32).toBitVec % 32).toNat = 8 := by decide
  have s16 : ((16 : UInt32).toBitVec % 32).toNat = 16 := by decide
  have s24 : ((24 : UInt32).toBitVec % 32).toNat = 24 := by decide
  simp only [UInt32.toBitVec_or, UInt32.toBitVec_shiftLeft, UInt32.toBitVec_shiftRight,
    UInt8.toBitVec_toUInt32, UInt32.toBitVec_toUInt8, BitVec.getLsbD_or, BitVec.shiftLeft_eq',
    BitVec.ushiftRight_eq', BitVec.getLsbD_shiftLeft, BitVec.getLsbD_ushiftRight,
    BitVec.getLsbD_setWidth, s8, s16, s24]
  by_cases b0 : i < 8
  · simp [b0, show i < 16 by omega, show i < 24 by omega, below]
  by_cases b1 : i < 16
  · simp [b0, b1, show i < 24 by omega, below, show i - 8 < 8 by omega, show i - 8 < 32 by omega,
      show 8 + (i - 8) = i by omega]
  by_cases b2 : i < 24
  · simp [b0, b1, b2, below, show i - 16 < 8 by omega, show ¬i - 8 < 8 by omega,
      show i - 16 < 32 by omega, show i - 8 < 32 by omega, show 16 + (i - 16) = i by omega]
  · simp [b0, b1, b2, below, show i - 24 < 8 by omega, show ¬i - 8 < 8 by omega,
      show ¬i - 16 < 8 by omega, show i - 24 < 32 by omega, show i - 16 < 32 by omega,
      show i - 8 < 32 by omega, show 24 + (i - 24) = i by omega]

/-- A word is read from its own four bytes only. -/
theorem decodeU32_congr {a b : ByteArray} {i j : Nat}
    (same : ∀ k < 4, byteAt a (i + k) = byteAt b (j + k)) : decodeU32 a i = decodeU32 b j := by
  have first : byteAt a i = byteAt b j := same 0 (by omega)
  unfold decodeU32
  rw [first, same 1 (by omega), same 2 (by omega), same 3 (by omega)]

theorem decodeU32_encodeU32 (x : UInt32) : decodeU32 (encodeU32 x) 0 = x := by
  have bytes : byteAt (encodeU32 x) 0 = x.toUInt8 ∧ byteAt (encodeU32 x) 1 = (x >>> 8).toUInt8 ∧
      byteAt (encodeU32 x) 2 = (x >>> 16).toUInt8 ∧ byteAt (encodeU32 x) 3 = (x >>> 24).toUInt8 := by
    refine ⟨?_, ?_, ?_, ?_⟩ <;> rfl
  unfold decodeU32
  rw [bytes.1, bytes.2.1, bytes.2.2.1, bytes.2.2.2]
  exact recombine_bytes x

theorem decodeI32_encodeI32 (x : Int32) : decodeI32 (encodeI32 x) 0 = x := by
  rw [decodeI32, encodeI32, decodeU32_encodeU32, Int32.toInt32_toUInt32]

theorem decodeU32_concatBytes (words : List UInt32) {k : Nat} (below : k < words.length) :
    decodeU32 (concatBytes (words.map encodeU32)) (4 * k) = words.getD k 0 := by
  have uniform : ∀ part ∈ words.map encodeU32, part.size = 4 := by simp
  have part : (words.map encodeU32).getD k ByteArray.empty = encodeU32 (words.getD k 0) := by
    rw [List.getD_eq_getElem?_getD, List.getElem?_map, List.getD_eq_getElem?_getD,
      List.getElem?_eq_getElem below]
    rfl
  rw [← decodeU32_encodeU32 (words.getD k 0), ← Nat.zero_add (4 * k)]
  apply decodeU32_congr
  intro j short
  rw [byteAt_concatBytes _ 4 (by decide) uniform, Nat.zero_add, Nat.zero_add,
    show (4 * k + j) / 4 = k by omega, show (4 * k + j) % 4 = j by omega, part]

theorem toInt_toInt32_of_lt {x : UInt32} (small : x.toNat < 2147483648) :
    x.toInt32.toInt = x.toNat := by
  rw [Int32.toInt, BitVec.toInt_eq_toNat_cond]
  simp
  omega

/-! ## The super block -/

namespace SuperBlock

theorem ofFields_fields (sb : SuperBlock) : ofFields sb.fields = sb := by
  cases sb
  rfl

theorem encode_eq (sb : SuperBlock) :
    sb.encode = concatBytes ((sb.fields.map Int32.toUInt32).map encodeU32) := by
  rw [encode, List.map_map]
  rfl

theorem size_encode (sb : SuperBlock) : sb.encode.size = size := by
  have words : ∀ word ∈ sb.fields.map encodeI32, word.size = 4 := by simp
  rw [encode, size_concatBytes _ 4 words]
  rfl

/-- A super block reads back from its encoding. -/
theorem decode?_encode (sb : SuperBlock) : decode? sb.encode = some sb := by
  have fields : (List.range 10).map (fun k => decodeI32 sb.encode (4 * k)) = sb.fields := by
    apply List.ext_getElem (by simp [fields])
    intro k below below'
    simp only [List.getElem_map, List.getElem_range]
    rw [decodeI32, encode_eq, decodeU32_concatBytes _ (by simpa using below')]
    simp [List.getElem?_eq_getElem below']
  unfold decode?
  rw [if_neg (by rw [size_encode]; decide), fields, ofFields_fields]

/-- A super block is read from its first forty bytes only. -/
theorem decode?_congr {a b : ByteArray} (longA : size ≤ a.size) (longB : size ≤ b.size)
    (same : ∀ j < size, byteAt a j = byteAt b j) : decode? a = decode? b := by
  have fields : (List.range 10).map (fun k => decodeI32 a (4 * k)) =
      (List.range 10).map (fun k => decodeI32 b (4 * k)) := by
    apply List.map_congr_left
    intro k member
    have inside := List.mem_range.1 member
    unfold decodeI32
    rw [decodeU32_congr fun j short => same (4 * k + j) (by unfold size; omega)]
  unfold decode?
  rw [if_neg (by omega), if_neg (by omega), fields]

end SuperBlock

/-! ## Inodes -/

theorem FileKind.ofCode?_code (k : FileKind) : FileKind.ofCode? k.code = some k := by
  cases k <;> rfl

namespace Inode

theorem encode_eq (i : Inode) :
    i.encode = concatBytes ((i.kind.code.toUInt32 :: i.size :: i.direct.toList).map encodeU32) := by
  rw [encode, List.map_cons, List.map_cons]
  rfl

/-- An inode whose size its pointers can address reads back from its encoding. -/
theorem decode?_encode (i : Inode) (fits : i.blockCount ≤ directPointers) :
    decode? i.encode = some i := by
  have small : i.size.toNat < 2147483648 := by
    unfold blockCount blocksFor fileSize directPointers blockSize at fits
    omega
  have word : ∀ k, k < 32 →
      decodeU32 i.encode (4 * k) = (i.kind.code.toUInt32 :: i.size :: i.direct.toList).getD k 0 :=
    fun k below => by
      rw [encode_eq, decodeU32_concatBytes]
      simpa using below
  have kind : decodeI32 i.encode 0 = i.kind.code := by
    rw [decodeI32, word 0 (by decide)]
    simp
  have size : decodeI32 i.encode 4 = i.size.toInt32 := by
    rw [decodeI32, word 1 (by decide)]
    rfl
  have direct : (Vector.ofFn fun k : Fin 30 => decodeU32 i.encode (8 + 4 * k.val)) = i.direct := by
    apply Vector.ext
    intro k below
    rw [Vector.getElem_ofFn, show 8 + 4 * k = 4 * (k + 2) by omega, word (k + 2) (by omega)]
    simp [below]
  have nonneg := toInt_toInt32_of_lt small
  unfold decode?
  rw [if_neg (by rw [size_encode]; decide), kind, FileKind.ofCode?_code]
  dsimp only
  have inRange : (i.size.toInt32.toInt < 0 || blocksFor i.size.toInt32.toInt.toNat > directPointers) =
      false := by
    rw [nonneg, Int.toNat_natCast]
    unfold blockCount fileSize at fits
    simp only [Bool.or_eq_false_iff, decide_eq_false_iff_not]
    omega
  rw [size, inRange, if_neg Bool.false_ne_true, direct, UInt32.toUInt32_toInt32]

/-- An inode is read from its own 128 bytes only. -/
theorem decode?_congr {a b : ByteArray} (longA : inodeSize ≤ a.size) (longB : inodeSize ≤ b.size)
    (same : ∀ j < inodeSize, byteAt a j = byteAt b j) : decode? a = decode? b := by
  have word : ∀ off, off + 4 ≤ inodeSize → decodeU32 a off = decodeU32 b off := fun off inside =>
    decodeU32_congr fun k short => same (off + k) (by omega)
  have direct : (Vector.ofFn fun k : Fin 30 => decodeU32 a (8 + 4 * k.val)) =
      Vector.ofFn fun k : Fin 30 => decodeU32 b (8 + 4 * k.val) := by
    apply Vector.ext
    intro k below
    rw [Vector.getElem_ofFn, Vector.getElem_ofFn, word _ (by unfold inodeSize; omega)]
  unfold decode? decodeI32
  rw [if_neg (by omega), if_neg (by omega), word 0 (by decide), word 4 (by decide), direct]

end Inode

/-! ## Directory entries -/

namespace DirEntry

/-- An entry whose name fits its field and holds no NUL reads back from its encoding. -/
theorem decode?_encode (e : DirEntry) (short : e.name.utf8ByteSize < nameField)
    (noNul : e.name.contains (Char.ofNat 0) = false) : decode? e.encode = some e := by
  have bytesSize : e.name.toUTF8.size = e.name.utf8ByteSize := by
    rw [String.toUTF8_eq_toByteArray, String.size_toByteArray]
  have cut : e.name.toUTF8.extract 0 (nameField - 1) = e.name.toUTF8 := by
    rw [show nameField - 1 = max (nameField - 1) e.name.toUTF8.size by unfold nameField at *; omega,
      ByteArray.extract_zero_max_size]
  have field : e.encode.extract 0 nameField = fitTo nameField e.name.toUTF8 := by
    rw [encode, ByteArray.extract_append_eq_left (by rw [size_fitTo]), cut]
  -- the name field holds the name's bytes and then zeros, so it ends where the name does
  have stop : (List.range nameField).find? (fun k => byteAt (fitTo nameField e.name.toUTF8) k == 0) =
      some e.name.utf8ByteSize := by
    rw [List.find?_range_eq_some]
    refine ⟨?_, List.mem_range.2 short, ?_⟩
    · rw [byteAt_fitTo, if_pos short, byteAt_of_le (by omega)]
      rfl
    · intro j below
      rw [byteAt_fitTo, if_pos (by omega)]
      simpa using Utf8.byteAt_toUTF8_ne_zero noNul below
  have name : (fitTo nameField e.name.toUTF8).extract 0 e.name.utf8ByteSize = e.name.toUTF8 := by
    apply ext_byteAt (by simp [size_fitTo]; omega)
    intro j below
    simp only [ByteArray.size_extract, size_fitTo] at below
    rw [byteAt_extract, if_pos (by omega), Nat.zero_add, byteAt_fitTo, if_pos (by omega)]
  have word : decodeU32 e.encode nameField = decodeU32 (encodeI32 e.inum) 0 := by
    apply decodeU32_congr
    intro k below
    rw [encode, byteAt_append, size_fitTo, if_neg (by omega), Nat.add_sub_cancel_left, Nat.zero_add]
  have inum : decodeI32 e.encode nameField = e.inum := by
    rw [decodeI32, word]
    exact decodeI32_encodeI32 e.inum
  unfold decode?
  rw [if_neg (by rw [size_encode]; decide)]
  dsimp only
  rw [field, stop, Option.getD_some, name, Utf8.decodeLossy_toUTF8, inum]

/-- A valid name fits its field and holds no NUL. -/
theorem short_of_validName {name : String} (valid : validName name = true) :
    name.utf8ByteSize < nameField ∧ name.contains (Char.ofNat 0) = false := by
  unfold validName at valid
  simp only [Bool.not_eq_true', Bool.or_eq_false_iff, decide_eq_false_iff_not, Nat.not_le] at valid
  exact ⟨valid.1.2, valid.2⟩

theorem decode?_encode_of_validName (e : DirEntry) (valid : validName e.name = true) :
    decode? e.encode = some e :=
  decode?_encode e (short_of_validName valid).1 (short_of_validName valid).2

theorem decode?_encode_unused : decode? unused.encode = some unused :=
  decode?_encode unused (by decide) (by simp [unused, String.contains_char_eq])

/-- The names of a directory's own two entries are valid. -/
theorem validName_dot : validName "." = true := by
  simp [validName, String.contains_char_eq, nameField]
  decide

theorem validName_dotDot : validName ".." = true := by
  simp [validName, String.contains_char_eq, nameField]
  decide

/-- An entry is read from its own 32 bytes only. -/
theorem decode?_congr {a b : ByteArray} (longA : entrySize ≤ a.size) (longB : entrySize ≤ b.size)
    (same : ∀ j < entrySize, byteAt a j = byteAt b j) : decode? a = decode? b := by
  have field : a.extract 0 nameField = b.extract 0 nameField := by
    apply ext_byteAt (by simp; unfold nameField entrySize at *; omega)
    intro j below
    simp only [ByteArray.size_extract] at below
    rw [byteAt_extract, byteAt_extract, if_pos (by omega), if_pos (by omega), Nat.zero_add,
      same j (by unfold nameField entrySize at *; omega)]
  have inum : decodeI32 a nameField = decodeI32 b nameField := by
    unfold decodeI32
    rw [decodeU32_congr fun k short => same (nameField + k) (by unfold nameField entrySize; omega)]
  unfold decode?
  rw [if_neg (by omega), if_neg (by omega), field, inum]

end DirEntry

end InodeFs
