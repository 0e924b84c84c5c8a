import InodeFs.Layout.Bitmap
import InodeFs.Proofs.Bytes

/-!
Allocation bitmaps as the engine relies on them, read back through `test`: setting or clearing
bit `i` changes bit `i` alone, and the search answers the least clear bit below its bound.
-/

namespace InodeFs.Bitmap

theorem size_set (bm : ByteArray) (i : Nat) (v : UInt8) (h : i < bm.size) :
    (bm.set i v h).size = bm.size := by
  cases bm
  simp [ByteArray.set, ByteArray.size]

theorem set?_isSome (bm : ByteArray) (i : Nat) : (set? bm i).isSome ↔ i < width bm := by
  unfold set? width
  split <;> simp <;> omega

theorem clear?_isSome (bm : ByteArray) (i : Nat) : (clear? bm i).isSome ↔ i < width bm := by
  unfold clear? width
  split <;> simp <;> omega

theorem size_of_set? {bm bm' : ByteArray} {i : Nat} (h : set? bm i = some bm') :
    bm'.size = bm.size := by
  unfold set? at h
  split at h
  · cases h
    exact size_set _ _ _ _
  · cases h

theorem size_of_clear? {bm bm' : ByteArray} {i : Nat} (h : clear? bm i = some bm') :
    bm'.size = bm.size := by
  unfold clear? at h
  split at h
  · cases h
    exact size_set _ _ _ _
  · cases h

theorem width_of_set? {bm bm' : ByteArray} {i : Nat} (h : set? bm i = some bm') :
    width bm' = width bm := by
  simp only [width, size_of_set? h]

theorem width_of_clear? {bm bm' : ByteArray} {i : Nat} (h : clear? bm i = some bm') :
    width bm' = width bm := by
  simp only [width, size_of_clear? h]

theorem limit_le_width (bm : ByteArray) (n : Nat) : limit bm n ≤ width bm :=
  Nat.min_le_right n (width bm)

theorem firstFreeFrom_lt {bm : ByteArray} {total i b : Nat}
    (found : firstFreeFrom bm total i = some b) : b < total := by
  fun_induction firstFreeFrom bm total i with
  | case1 i inside full ih => exact ih found
  | case2 => cases found
  | case3 i inside notFull index below =>
    simp only [Option.some.injEq] at found
    omega
  | case4 => cases found

theorem firstFree_lt {bm : ByteArray} {n b : Nat} (found : firstFree bm n = some b) :
    b < n ∧ b < width bm := by
  have below := firstFreeFrom_lt found
  have bounded := limit_le_width bm n
  unfold limit at below bounded
  omega

/-! ## Bits of a byte -/

theorem bitOf_eq_getLsbD (x : UInt8) {j : Nat} (below : j < 8) :
    bitOf x j = x.toBitVec.getLsbD j := by
  unfold bitOf
  rw [← BitVec.testBit_toNat, Nat.testBit, Bool.eq_iff_iff, beq_iff_eq, ← UInt8.toNat_inj]
  simp [UInt8.toNat_and, UInt8.toNat_shiftRight, Nat.and_one_is_mod, Nat.mod_eq_of_lt below]

theorem getLsbD_bit {j k : Nat} (hj : j < 8) (hk : k < 8) :
    ((1 : UInt8) <<< k.toUInt8).toBitVec.getLsbD j = (j == k) := by
  simp [UInt8.toBitVec_shiftLeft, hj, Nat.mod_eq_of_lt hk]
  rw [Bool.eq_iff_iff]
  simp
  omega

theorem bitOf_or_bit (x : UInt8) {j k : Nat} (hj : j < 8) (hk : k < 8) :
    bitOf (x ||| (1 : UInt8) <<< k.toUInt8) j = (j == k || bitOf x j) := by
  rw [bitOf_eq_getLsbD _ hj, bitOf_eq_getLsbD _ hj, UInt8.toBitVec_or, BitVec.getLsbD_or,
    getLsbD_bit hj hk, Bool.or_comm]

theorem bitOf_and_not_bit (x : UInt8) {j k : Nat} (hj : j < 8) (hk : k < 8) :
    bitOf (x &&& ~~~((1 : UInt8) <<< k.toUInt8)) j = (j != k && bitOf x j) := by
  rw [bitOf_eq_getLsbD _ hj, bitOf_eq_getLsbD _ hj, UInt8.toBitVec_and, BitVec.getLsbD_and,
    UInt8.toBitVec_not, BitVec.getLsbD_not, getLsbD_bit hj hk, Bool.and_comm]
  simp only [hj, decide_true, Bool.true_and]
  rfl

theorem bitOf_zero (j : Nat) : bitOf 0 j = false := by
  unfold bitOf
  simp

theorem eq_full_of_bits {x : UInt8} (all : ∀ j < 8, bitOf x j = true) : x = 0xFF := by
  apply UInt8.toBitVec_inj.1
  apply BitVec.eq_of_getLsbD_eq
  intro j below
  have full : ∀ j < 8, (0xFF : UInt8).toBitVec.getLsbD j = true := by decide
  rw [← bitOf_eq_getLsbD _ below, all j below, full j below]

theorem trailingOnes_go (x : UInt8) (k : Nat) (short : k ≤ 8) :
    (trailingOnes.go x k = 8 ∧ ∀ j, 8 - k ≤ j → j < 8 → bitOf x j = true) ∨
    (trailingOnes.go x k < 8 ∧ bitOf x (trailingOnes.go x k) = false) := by
  induction k with
  | zero =>
    left
    refine ⟨rfl, fun j low high => ?_⟩
    omega
  | succ k ih =>
    rw [trailingOnes.go]
    by_cases bit : bitOf x (8 - (k + 1)) = true
    · rw [if_pos bit]
      rcases ih (by omega) with ⟨stop, rest⟩ | clear
      · refine .inl ⟨stop, fun j low high => ?_⟩
        by_cases edge : j = 8 - (k + 1)
        · rw [edge]
          exact bit
        · exact rest j (by omega) high
      · exact .inr clear
    · rw [if_neg bit]
      exact .inr ⟨by omega, by simpa using bit⟩

theorem trailingOnes_clear {x : UInt8} (notFull : x ≠ 0xFF) :
    trailingOnes x < 8 ∧ bitOf x (trailingOnes x) = false := by
  rcases trailingOnes_go x 8 (Nat.le_refl 8) with ⟨-, all⟩ | clear
  · exact absurd (eq_full_of_bits fun j below => all j (by omega) below) notFull
  · exact clear

/-! ## Reading bits back -/

theorem test_eq (bm : ByteArray) (j : Nat) :
    test bm j = (decide (j < width bm) && bitOf (byteAt bm (j / 8)) (j % 8)) := by
  unfold test get? width
  by_cases inside : j / 8 < bm.size
  · rw [dif_pos inside, byteAt_of_lt inside, decide_eq_true (by omega)]
    rfl
  · rw [dif_neg inside, decide_eq_false (by omega)]
    rfl

theorem lt_width_of_test {bm : ByteArray} {j : Nat} (set : test bm j = true) : j < width bm := by
  rw [test_eq, Bool.and_eq_true, decide_eq_true_iff] at set
  exact set.1

theorem test_zeros (n j : Nat) : test (zeros n) j = false := by
  rw [test_eq, byteAt_zeros, bitOf_zero, Bool.and_false]

/-- Setting bit `i` sets it and leaves every other bit as it was. -/
theorem test_of_set? {bm bm' : ByteArray} {i : Nat} (h : set? bm i = some bm') (j : Nat) :
    test bm' j = (j == i || test bm j) := by
  unfold set? at h
  split at h
  · next inside =>
    cases h
    rw [test_eq, test_eq, width, size_set, ← width, byteAt_set]
    by_cases sameByte : j / 8 = i / 8
    · have bits := bitOf_or_bit (bm[i / 8]) (Nat.mod_lt j (by decide)) (Nat.mod_lt i (by decide))
      have sameBit : (j % 8 == i % 8) = (j == i) := by
        rw [Bool.eq_iff_iff, beq_iff_eq, beq_iff_eq]
        omega
      rw [if_pos sameByte, bits, sameBit, decide_eq_true (by unfold width; omega), sameByte,
        byteAt_of_lt inside, Bool.true_and, Bool.true_and]
    · have apart : (j == i) = false := by
        simp only [beq_eq_false_iff_ne]
        omega
      rw [if_neg sameByte, apart, Bool.false_or]
  · cases h

/-- Clearing bit `i` clears it and leaves every other bit as it was. -/
theorem test_of_clear? {bm bm' : ByteArray} {i : Nat} (h : clear? bm i = some bm') (j : Nat) :
    test bm' j = (j != i && test bm j) := by
  unfold clear? at h
  split at h
  · next inside =>
    cases h
    rw [test_eq, test_eq, width, size_set, ← width, byteAt_set]
    by_cases sameByte : j / 8 = i / 8
    · have bits :=
        bitOf_and_not_bit (bm[i / 8]) (Nat.mod_lt j (by decide)) (Nat.mod_lt i (by decide))
      have sameBit : (j % 8 != i % 8) = (j != i) := by
        rw [Bool.eq_iff_iff, bne_iff_ne, bne_iff_ne]
        omega
      rw [if_pos sameByte, bits, sameBit, sameByte, byteAt_of_lt inside, Bool.and_left_comm]
    · have apart : (j != i) = true := by
        simp only [bne_iff_ne, ne_eq]
        omega
      rw [if_neg sameByte, apart, Bool.true_and]
  · cases h

/-! ## The free-bit search -/

theorem test_of_firstFreeFrom {bm : ByteArray} {total i b : Nat}
    (found : firstFreeFrom bm total i = some b) : test bm b = false := by
  fun_induction firstFreeFrom bm total i with
  | case1 i inside full ih => exact ih found
  | case2 => cases found
  | case3 i inside notFull index below =>
    simp only [Option.some.injEq] at found
    subst found
    obtain ⟨short, clear⟩ := trailingOnes_clear (x := bm[i]) (by simpa using notFull)
    have byte : (i * 8 + trailingOnes bm[i]) / 8 = i := by omega
    have bit : (i * 8 + trailingOnes bm[i]) % 8 = trailingOnes bm[i] := by omega
    rw [test_eq, byte, bit, byteAt_of_lt inside, clear, Bool.and_false]
  | case4 => cases found

/-! ## The least free bit and the count of free bits -/

theorem bitOf_of_lt_trailingOnes_go (x : UInt8) (k : Nat) {j : Nat} (low : 8 - k ≤ j)
    (high : j < trailingOnes.go x k) : bitOf x j = true := by
  induction k with
  | zero =>
    rw [trailingOnes.go] at high
    omega
  | succ k ih =>
    rw [trailingOnes.go] at high
    by_cases bit : bitOf x (8 - (k + 1)) = true
    · rw [if_pos bit] at high
      by_cases edge : j = 8 - (k + 1)
      · rw [edge]
        exact bit
      · exact ih (by omega) high
    · rw [if_neg bit] at high
      omega

theorem bitOf_of_lt_trailingOnes (x : UInt8) {j : Nat} (below : j < trailingOnes x) :
    bitOf x j = true :=
  bitOf_of_lt_trailingOnes_go x 8 (by omega) below

theorem test_of_lt_size {bm : ByteArray} {j : Nat} (inside : j / 8 < bm.size) :
    test bm j = bitOf (byteAt bm (j / 8)) (j % 8) := by
  rw [test_eq, decide_eq_true (by unfold width; omega), Bool.true_and]

/-- The scan from byte `i`, when every bit below `8 * i` is set, answers the least clear bit
below `total`, if any. -/
theorem firstFreeFrom_spec {bm : ByteArray} {total : Nat} (fits : total ≤ width bm) (i : Nat) :
    (∀ b, firstFreeFrom bm total i = some b →
      8 * i ≤ b ∧ b < total ∧ test bm b = false ∧ ∀ j, 8 * i ≤ j → j < b → test bm j = true) ∧
    (firstFreeFrom bm total i = none → ∀ j, 8 * i ≤ j → j < total → test bm j = true) := by
  fun_induction firstFreeFrom bm total i with
  | case1 i inside full ih =>
    -- a full byte: its eight bits are set, and the scan goes on from the next byte
    have byte : ∀ j, 8 * i ≤ j → j < 8 * (i + 1) → test bm j = true := by
      intro j low high
      rw [test_of_lt_size (by omega), show j / 8 = i by omega, byteAt_of_lt inside, beq_iff_eq.1 full]
      have all : ∀ k < 8, bitOf (0xFF : UInt8) k = true := by decide
      exact all _ (Nat.mod_lt _ (by decide))
    refine ⟨fun b found => ?_, fun missing j low high => ?_⟩
    · obtain ⟨low, below, clear, least⟩ := ih.1 b found
      refine ⟨by omega, below, clear, fun j early late => ?_⟩
      by_cases same : j < 8 * (i + 1)
      · exact byte j early same
      · exact least j (by omega) late
    · by_cases same : j < 8 * (i + 1)
      · exact byte j low same
      · exact ih.2 missing j (by omega) high
  | case2 i inside notFull index past =>
    -- the first clear bit lies at or past `total`: every bit before it is set
    refine ⟨fun b found => ?_, fun _ j low high => ?_⟩
    · simp at found
    have short := (trailingOnes_clear (x := bm[i]) (by simpa using notFull)).1
    rw [test_of_lt_size (by omega), show j / 8 = i by omega, byteAt_of_lt inside]
    exact bitOf_of_lt_trailingOnes _ (by omega)
  | case3 i inside notFull index below =>
    obtain ⟨short, clear⟩ := trailingOnes_clear (x := bm[i]) (by simpa using notFull)
    refine ⟨fun b found => ?_, fun missing => (Option.some_ne_none _ missing).elim⟩
    simp only [Option.some.injEq] at found
    subst found
    refine ⟨by omega, by omega, ?_, fun j low high => ?_⟩
    · rw [test_of_lt_size (by omega), show (i * 8 + trailingOnes bm[i]) / 8 = i by omega,
        show (i * 8 + trailingOnes bm[i]) % 8 = trailingOnes bm[i] by omega, byteAt_of_lt inside, clear]
    · rw [test_of_lt_size (by omega), show j / 8 = i by omega, byteAt_of_lt inside]
      exact bitOf_of_lt_trailingOnes _ (by omega)
  | case4 i outside =>
    refine ⟨fun b found => ?_, fun _ j low high => ?_⟩
    · simp at found
    unfold width at fits
    omega

/-- The search answers the least clear bit below the limit. -/
theorem firstFree_eq_some_iff {bm : ByteArray} {n b : Nat} :
    firstFree bm n = some b ↔ b < limit bm n ∧ test bm b = false ∧ ∀ j < b, test bm j = true := by
  have spec := firstFreeFrom_spec (limit_le_width bm n) 0
  constructor
  · intro found
    obtain ⟨-, below, clear, least⟩ := spec.1 b found
    exact ⟨below, clear, fun j early => least j (Nat.zero_le j) early⟩
  · rintro ⟨below, clear, least⟩
    cases found : firstFree bm n with
    | none =>
      have set := spec.2 found b (Nat.zero_le b) below
      rw [clear] at set
      cases set
    | some b' =>
      obtain ⟨-, below', clear', least'⟩ := spec.1 b' found
      rcases Nat.lt_trichotomy b b' with early | same | late
      · rw [least' b (Nat.zero_le b) early] at clear
        cases clear
      · rw [same]
      · rw [least b' late] at clear'
        cases clear'

/-- The search finds nothing exactly when every bit below the limit is set. -/
theorem firstFree_eq_none_iff {bm : ByteArray} {n : Nat} :
    firstFree bm n = none ↔ ∀ j < limit bm n, test bm j = true := by
  have spec := firstFreeFrom_spec (limit_le_width bm n) 0
  constructor
  · intro missing j below
    exact spec.2 missing j (Nat.zero_le j) below
  · intro all
    cases found : firstFree bm n with
    | none => rfl
    | some b =>
      obtain ⟨-, below, clear, -⟩ := spec.1 b found
      rw [all b below] at clear
      cases clear

/-- The clear bits below `n`, in increasing order. -/
def clearBits (bm : ByteArray) (n : Nat) : List Nat :=
  (List.range n).filter fun j => !test bm j

theorem countClearFrom_eq (bm : ByteArray) (i acc k : Nat) :
    countClearFrom bm i acc k = acc + ((List.range' i k).filter fun j => !test bm j).length := by
  induction k generalizing i acc with
  | zero => simp [countClearFrom]
  | succ k ih =>
    rw [countClearFrom, ih, List.range'_succ, List.filter_cons]
    cases test bm i with
    | true => simp
    | false =>
      simp
      omega

/-! Counting a byte at a time: the clear bits of the bytes wholly below the limit are counted
from each byte's population count, and those of a last partial byte one at a time. -/

theorem cpopNatRec_eq_length (x : BitVec 8) (k acc : Nat) :
    x.cpopNatRec k acc = acc + ((List.range k).filter fun j => x.getLsbD j).length := by
  induction k generalizing acc with
  | zero => rfl
  | succ k ih =>
    rw [BitVec.cpopNatRec_succ, ih, List.range_succ, List.filter_append, List.length_append]
    cases bit : x.getLsbD k with
    | false => simp [bit]
    | true =>
      simp [bit]
      omega

theorem zeroCount_eq (x : UInt8) : zeroCount x = ((List.range 8).filter fun j => !bitOf x j).length := by
  have flipped : zeroCount x = (~~~x.toBitVec).cpop.toNat := by
    rw [zeroCount, BitVec.toNat_cpop_not]
  rw [flipped, BitVec.toNat_cpop, cpopNatRec_eq_length, Nat.zero_add]
  congr 1
  apply List.filter_congr
  intro j member
  have below := List.mem_range.1 member
  rw [BitVec.getLsbD_not, bitOf_eq_getLsbD _ below, decide_eq_true below, Bool.true_and]

theorem countClearFrom_add (bm : ByteArray) (i acc k m : Nat) :
    countClearFrom bm i acc (k + m) = countClearFrom bm (i + k) (countClearFrom bm i acc k) m := by
  induction k generalizing i acc with
  | zero => rw [Nat.zero_add, Nat.add_zero, countClearFrom]
  | succ k ih =>
    rw [Nat.add_right_comm, countClearFrom, ih, countClearFrom, Nat.add_right_comm i 1 k,
      Nat.add_assoc]

theorem countClearFrom_byte (bm : ByteArray) {k : Nat} (inside : k < bm.size) (acc : Nat) :
    countClearFrom bm (k * 8) acc 8 = acc + zeroCount (byteAt bm k) := by
  rw [countClearFrom_eq, zeroCount_eq, List.range'_eq_map_range, List.filter_map,
    List.length_map]
  congr 2
  apply List.filter_congr
  intro j member
  have below := List.mem_range.1 member
  rw [Function.comp_apply, test_of_lt_size (by omega), show (k * 8 + j) / 8 = k by omega,
    show (k * 8 + j) % 8 = j by omega]

theorem countClearFrom_bytes (bm : ByteArray) {f : Nat} (inside : f ≤ bm.size) :
    countClearFrom bm 0 0 (f * 8) =
      (List.range f).foldl (fun acc k => acc + zeroCount (byteAt bm k)) 0 := by
  induction f with
  | zero => rfl
  | succ f ih =>
    rw [Nat.succ_mul, countClearFrom_add, ih (by omega), Nat.zero_add, countClearFrom_byte _ (by omega),
      List.range_succ, List.foldl_append, List.foldl_cons, List.foldl_nil]

/-- Counting whole bytes, then the partial byte's bits, counts every bit below the limit. -/
theorem countFree_eq_countClearFrom (bm : ByteArray) (n : Nat) :
    countFree bm n = countClearFrom bm 0 0 (limit bm n) := by
  have bounded := limit_le_width bm n
  unfold width at bounded
  have split : limit bm n = limit bm n / 8 * 8 + (limit bm n - limit bm n / 8 * 8) := by omega
  rw [countFree, split, countClearFrom_add, Nat.zero_add, countClearFrom_bytes _ (by omega),
    ← split]

theorem countFree_eq (bm : ByteArray) (n : Nat) :
    countFree bm n = (clearBits bm (limit bm n)).length := by
  rw [countFree_eq_countClearFrom, countClearFrom_eq, Nat.zero_add, clearBits,
    List.range_eq_range']

theorem mem_clearBits {bm : ByteArray} {n j : Nat} : j ∈ clearBits bm n ↔ j < n ∧ test bm j = false := by
  simp [clearBits]

theorem nodup_clearBits (bm : ByteArray) (n : Nat) : (clearBits bm n).Nodup :=
  List.nodup_range.filter _

theorem firstFree_eq_head? (bm : ByteArray) (n : Nat) :
    firstFree bm n = (clearBits bm (limit bm n)).head? := by
  cases found : firstFree bm n with
  | none =>
    have all := firstFree_eq_none_iff.1 found
    symm
    rw [List.head?_eq_none_iff, clearBits, List.filter_eq_nil_iff]
    intro j member
    simp [all j (List.mem_range.1 member)]
  | some b =>
    obtain ⟨below, clear, least⟩ := firstFree_eq_some_iff.1 found
    -- the bits below `b` are all set, so `b` heads the clear bits
    obtain ⟨k, rest⟩ := Nat.exists_eq_add_of_lt below
    rw [clearBits, rest, Nat.add_assoc, List.range_add, List.filter_append,
      List.filter_eq_nil_iff.2 fun j member => by simp [least j (List.mem_range.1 member)],
      List.nil_append, List.range_succ_eq_map, List.map_cons, List.filter_cons, Nat.add_zero,
      if_pos (by simp [clear])]
    rfl

theorem clearBits_of_set? {bm bm' : ByteArray} {i : Nat} (h : set? bm i = some bm') (n : Nat) :
    clearBits bm' n = (clearBits bm n).filter fun j => j != i := by
  rw [clearBits, clearBits, List.filter_filter]
  congr 1
  funext j
  rw [test_of_set? h]
  cases test bm j <;> simp [bne]

/-- Allocations from `bm` took `taken`, the lowest clear bits below `n` in order, and `bm'` sets
exactly those more. -/
structure Taken (bm : ByteArray) (n : Nat) (taken : List Nat) (bm' : ByteArray) : Prop where
  lowest : taken = (clearBits bm (limit bm n)).take taken.length
  rest : clearBits bm' (limit bm n) = (clearBits bm (limit bm n)).drop taken.length
  bits : ∀ j, test bm' j = (decide (j ∈ taken) || test bm j)
  width : width bm' = width bm

theorem Taken.refl (bm : ByteArray) (n : Nat) : Taken bm n [] bm :=
  { lowest := List.take_zero.symm, rest := List.drop_zero.symm, bits := fun j => by simp,
    width := rfl }

/-- After the bits taken, the search answers the next clear bit of the starting bitmap. -/
theorem Taken.firstFree_eq {bm bm' : ByteArray} {n : Nat} {taken : List Nat}
    (soFar : Taken bm n taken bm') :
    firstFree bm' n = (clearBits bm (limit bm n))[taken.length]? := by
  have limits : limit bm' n = limit bm n := by rw [limit, limit, soFar.width]
  rw [firstFree_eq_head?, limits, soFar.rest, List.head?_drop]

theorem Taken.step {bm bm' marked : ByteArray} {n : Nat} {taken : List Nat}
    (soFar : Taken bm n taken bm') {bit : Nat} (first : firstFree bm' n = some bit)
    (set : set? bm' bit = some marked) : Taken bm n (taken ++ [bit]) marked := by
  have next : (clearBits bm (limit bm n))[taken.length]? = some bit := by
    rw [← soFar.firstFree_eq, first]
  obtain ⟨inside, at_⟩ := List.getElem?_eq_some_iff.1 next
  have nodup := (nodup_clearBits bm (limit bm n)).sublist (List.drop_sublist taken.length _)
  rw [List.drop_eq_getElem_cons inside, at_, List.nodup_cons] at nodup
  refine { lowest := ?_, rest := ?_, bits := fun j => ?_, width := (width_of_set? set).trans soFar.width }
  · rw [List.length_append, List.length_singleton, List.take_add_one, next, ← soFar.lowest]
    rfl
  · rw [clearBits_of_set? set, soFar.rest, List.drop_eq_getElem_cons inside, at_,
      List.filter_cons_of_neg (by simp), List.filter_eq_self.2 fun x member =>
        bne_iff_ne.2 (by rintro rfl; exact nodup.1 member), List.length_append,
      List.length_singleton]
  · rw [test_of_set? set, soFar.bits]
    by_cases here : j = bit
    · subst here
      simp
    · simp [here]

theorem Taken.nodup {bm bm' : ByteArray} {n : Nat} {taken : List Nat} (t : Taken bm n taken bm') :
    taken.Nodup := by
  rw [t.lowest]
  exact (nodup_clearBits _ _).sublist (List.take_sublist _ _)

theorem Taken.free {bm bm' : ByteArray} {n : Nat} {taken : List Nat} (t : Taken bm n taken bm')
    {j : Nat} (member : j ∈ taken) : test bm j = false ∧ j < n := by
  rw [t.lowest] at member
  obtain ⟨below, clear⟩ := mem_clearBits.1 (List.mem_of_mem_take member)
  exact ⟨clear, Nat.lt_of_lt_of_le below (Nat.min_le_left _ _)⟩

end InodeFs.Bitmap
