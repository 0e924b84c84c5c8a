import InodeFs.Proofs.Codec
import InodeFs.Proofs.Locate

/-!
The layout a super block describes, as block numbers: a consistent one puts the four regions one
after another from block 1, within reach of 32-bit block numbers that never wrap.
-/

namespace InodeFs

namespace SuperBlock

open Engine

/-! ## Rounding up in 32 bits -/

theorem add_pred_div (n d : Nat) (positive : 0 < d) :
    (n + d - 1) / d = n / d + (if n % d = 0 then 0 else 1) := by
  have split := Nat.div_add_mod n d
  have below := Nat.mod_lt n positive
  rw [show n + d - 1 = (n % d + d - 1) + d * (n / d) by omega, Nat.add_mul_div_left _ _ positive]
  by_cases zero : n % d = 0
  · rw [if_pos zero, zero, Nat.zero_add, Nat.div_eq_of_lt (by omega)]
    omega
  · rw [if_neg zero, show n % d + d - 1 = (n % d - 1) + d * 1 by omega,
      Nat.add_mul_div_left _ _ positive, Nat.div_eq_of_lt (by omega)]
    omega

theorem toNat_ceilDiv (n : UInt32) {d : Nat} (positive : 0 < d) (small : d < 65536)
    (fits : n.toNat < 2147483648) :
    (ceilDiv n (UInt32.ofNat d)).toNat = (n.toNat + d - 1) / d := by
  have dval : (UInt32.ofNat d).toNat = d := UInt32.toNat_ofNat_of_lt' (by unfold UInt32.size; omega)
  have quotient : (n / UInt32.ofNat d).toNat = n.toNat / d := by
    rw [UInt32.toNat_div, dval]
  have bound : n.toNat / d ≤ n.toNat := Nat.div_le_self _ _
  rw [add_pred_div _ _ positive]
  unfold ceilDiv
  by_cases exact : n.toNat % d = 0
  · have zero : (n % UInt32.ofNat d != 0) = false := by
      simp only [bne_eq_false_iff_eq, ← UInt32.toNat_inj, UInt32.toNat_mod, dval, exact]
      rfl
    rw [zero, if_pos exact]
    simp only [Bool.false_eq_true, if_false, UInt32.toNat_add, quotient, UInt32.toNat_zero]
    omega
  · have rest : (n % UInt32.ofNat d != 0) = true := by
      simp only [bne_iff_ne, ne_eq, ← UInt32.toNat_inj, UInt32.toNat_mod, dval]
      exact exact
    rw [rest, if_neg exact]
    simp only [if_true, UInt32.toNat_add, quotient, UInt32.toNat_one]
    omega

/-! ## The formatter's layout -/

/-- The layout for counts a signed 32-bit field holds, as numbers, from block 1 on. -/
theorem withCapacity_fields_of_fit (ni nd : UInt32) (inodesFit : ni.toNat ≤ 2147483647)
    (dataFit : nd.toNat ≤ 2147483647) :
    let sb := withCapacity ni nd
    sb.inodeBitmapAddr.toInt = 1 ∧
    sb.inodeBitmapLen.toInt = ((ni.toNat + 32767) / 32768 : Nat) ∧
    sb.dataBitmapAddr.toInt = (1 + (ni.toNat + 32767) / 32768 : Nat) ∧
    sb.dataBitmapLen.toInt = ((nd.toNat + 32767) / 32768 : Nat) ∧
    sb.inodeRegionAddr.toInt = (1 + (ni.toNat + 32767) / 32768 + (nd.toNat + 32767) / 32768 : Nat) ∧
    sb.inodeRegionLen.toInt = ((ni.toNat + 31) / 32 : Nat) ∧
    sb.dataRegionAddr.toInt =
      (1 + (ni.toNat + 32767) / 32768 + (nd.toNat + 32767) / 32768 + (ni.toNat + 31) / 32 : Nat) ∧
    sb.dataRegionLen.toInt = nd.toNat ∧ sb.numInodes.toInt = ni.toNat ∧ sb.numData.toInt = nd.toNat := by
  intro sb
  have bits : bitsPerBlock = 32768 := rfl
  have slots : inodesPerBlock = 32 := rfl
  have ibm : (ceilDiv ni (UInt32.ofNat bitsPerBlock)).toNat = (ni.toNat + 32767) / 32768 := by
    rw [toNat_ceilDiv _ (by decide) (by decide) (by omega), bits]
    omega
  have dbm : (ceilDiv nd (UInt32.ofNat bitsPerBlock)).toNat = (nd.toNat + 32767) / 32768 := by
    rw [toNat_ceilDiv _ (by decide) (by decide) (by omega), bits]
    omega
  have ir : (ceilDiv ni (UInt32.ofNat inodesPerBlock)).toNat = (ni.toNat + 31) / 32 := by
    rw [toNat_ceilDiv _ (by decide) (by decide) (by omega), slots]
    omega
  have word : ∀ {x : UInt32} {n : Nat}, x.toNat = n → n < 2147483648 → x.toInt32.toInt = n :=
    fun value small => by rw [toInt_toInt32_of_lt (by omega), value]
  simp only [sb, withCapacity]
  refine ⟨word (by decide) (by decide), word ibm (by omega), word ?_ (by omega), word dbm (by omega),
    word ?_ (by omega), word ir (by omega), word ?_ (by omega), word rfl (by omega),
    word rfl (by omega), word rfl (by omega)⟩
  · simp only [UInt32.toNat_add, ibm, UInt32.toNat_one]
    omega
  · simp only [UInt32.toNat_add, ibm, dbm, UInt32.toNat_one]
    omega
  · simp only [UInt32.toNat_add, ibm, dbm, ir, UInt32.toNat_one]
    omega

/-- The layout for between one and 2147483647 inodes and data blocks, as numbers. -/
theorem withCapacity_fields {a b : Nat} (inodes : 1 ≤ a) (inodesFit : a ≤ 2147483647)
    (data : 1 ≤ b) (dataFit : b ≤ 2147483647) :
    let sb := withCapacity (UInt32.ofNat a) (UInt32.ofNat b)
    sb.inodeBitmapAddr.toInt = 1 ∧
    sb.inodeBitmapLen.toInt = ((a + 32767) / 32768 : Nat) ∧
    sb.dataBitmapAddr.toInt = (1 + (a + 32767) / 32768 : Nat) ∧
    sb.dataBitmapLen.toInt = ((b + 32767) / 32768 : Nat) ∧
    sb.inodeRegionAddr.toInt = (1 + (a + 32767) / 32768 + (b + 32767) / 32768 : Nat) ∧
    sb.inodeRegionLen.toInt = ((a + 31) / 32 : Nat) ∧
    sb.dataRegionAddr.toInt = (1 + (a + 32767) / 32768 + (b + 32767) / 32768 + (a + 31) / 32 : Nat) ∧
    sb.dataRegionLen.toInt = b ∧ sb.numInodes.toInt = a ∧ sb.numData.toInt = b := by
  have av : (UInt32.ofNat a).toNat = a := UInt32.toNat_ofNat_of_lt' (by unfold UInt32.size; omega)
  have bv : (UInt32.ofNat b).toNat = b := UInt32.toNat_ofNat_of_lt' (by unfold UInt32.size; omega)
  have fields := withCapacity_fields_of_fit (UInt32.ofNat a) (UInt32.ofNat b) (by omega) (by omega)
  rw [av, bv] at fields
  exact fields

/-- The formatter's layout is consistent for an inode and counts a signed field holds. -/
theorem isConsistent_withCapacity_of_fit (ni nd : UInt32) (inodes : 1 ≤ ni.toNat)
    (inodesFit : ni.toNat ≤ 2147483647) (dataFit : nd.toNat ≤ 2147483647) :
    (withCapacity ni nd).isConsistent = true := by
  obtain ⟨f0, f1, f2, f3, f4, f5, f6, f7, f8, f9⟩ := withCapacity_fields_of_fit ni nd inodesFit dataFit
  have bits : bitsPerBlock = 32768 := rfl
  have slots : inodesPerBlock = 32 := rfl
  simp only [isConsistent, fields, regions, regionsOrdered, List.all_cons, List.all_nil,
    Bool.and_true, Bool.and_eq_true, decide_eq_true_eq, bne_iff_ne, ne_eq, ge_iff_le, f0, f1, f2, f3,
    f4, f5, f6, f7, f8, f9, bits, slots]
  omega

theorem isConsistent_withCapacity {a b : Nat} (inodes : 1 ≤ a) (inodesFit : a ≤ 2147483647)
    (data : 1 ≤ b) (dataFit : b ≤ 2147483647) :
    (withCapacity (UInt32.ofNat a) (UInt32.ofNat b)).isConsistent = true := by
  have av : (UInt32.ofNat a).toNat = a := UInt32.toNat_ofNat_of_lt' (by unfold UInt32.size; omega)
  have bv : (UInt32.ofNat b).toNat = b := UInt32.toNat_ofNat_of_lt' (by unfold UInt32.size; omega)
  exact isConsistent_withCapacity_of_fit _ _ (by omega) (by omega) (by omega)

/-! ## Consistent layouts -/

/-- The regions of a consistent super block as block numbers: in order after block 0, without
overlap, each large enough, with the counts fitting a signed word. -/
structure Layout (sb : SuperBlock) : Prop where
  afterSuper : 1 ≤ sb.inodeBitmapAddr.toInt.toNat
  inodeBitmapEnd :
    sb.inodeBitmapAddr.toInt.toNat + sb.inodeBitmapLen.toInt.toNat ≤ sb.dataBitmapAddr.toInt.toNat
  dataBitmapEnd :
    sb.dataBitmapAddr.toInt.toNat + sb.dataBitmapLen.toInt.toNat ≤ sb.inodeRegionAddr.toInt.toNat
  inodeRegionEnd :
    sb.inodeRegionAddr.toInt.toNat + sb.inodeRegionLen.toInt.toNat ≤ sb.dataRegionAddr.toInt.toNat
  someInode : 1 ≤ sb.numInodes.toInt.toNat
  inodeBits : sb.numInodes.toInt.toNat ≤ sb.inodeBitmapLen.toInt.toNat * bitsPerBlock
  dataBits : sb.numData.toInt.toNat ≤ sb.dataBitmapLen.toInt.toNat * bitsPerBlock
  inodeSlots : sb.numInodes.toInt.toNat ≤ sb.inodeRegionLen.toInt.toNat * inodesPerBlock
  dataBlocks : sb.numData.toInt.toNat ≤ sb.dataRegionLen.toInt.toNat
  inodesFit : sb.numInodes.toInt.toNat < 2147483648
  dataStartFits : sb.dataRegionAddr.toInt.toNat < 2147483648
  dataLengthFits : sb.dataRegionLen.toInt.toNat < 2147483648
  dataStartNonneg : 0 ≤ sb.dataRegionAddr.toInt
  dataLengthNonneg : 0 ≤ sb.dataRegionLen.toInt
  dataStart : sb.dataRegionAddr.toUInt32.toNat = sb.dataRegionAddr.toInt.toNat
  dataCount : sb.numData.toUInt32.toNat = sb.numData.toInt.toNat

theorem layout_of_isConsistent {sb : SuperBlock} (h : sb.isConsistent = true) : Layout sb := by
  simp only [isConsistent, fields, regions, regionsOrdered, List.all_cons, List.all_nil,
    Bool.and_true, Bool.and_eq_true, decide_eq_true_eq, bne_iff_ne, ne_eq, ge_iff_le] at h
  obtain ⟨⟨⟨⟨⟨⟨⟨nonneg, someInode⟩, after⟩, o1, o2, o3⟩, bi⟩, bd⟩, ri⟩, rd⟩ := h
  obtain ⟨n0, n1, n2, n3, n4, n5, n6, n7, n8, n9⟩ := nonneg
  have fits : ∀ x : Int32, x.toInt < 2147483648 := fun x => by simpa using x.toInt_lt
  have start := fits sb.dataRegionAddr
  have length := fits sb.dataRegionLen
  have inodes := fits sb.numInodes
  have bits : bitsPerBlock = 32768 := rfl
  have slots : inodesPerBlock = 32 := rfl
  rw [bits] at bi bd
  rw [slots] at ri
  exact {
    afterSuper := by omega
    inodeBitmapEnd := by omega
    dataBitmapEnd := by omega
    inodeRegionEnd := by omega
    someInode := by omega
    inodeBits := by rw [bits]; omega
    dataBits := by rw [bits]; omega
    inodeSlots := by rw [slots]; omega
    dataBlocks := by omega
    inodesFit := by omega
    dataStartFits := by omega
    dataLengthFits := by omega
    dataStartNonneg := n6
    dataLengthNonneg := n7
    dataStart := Int32.toNat_toUInt32_of_nonneg n6
    dataCount := Int32.toNat_toUInt32_of_nonneg n9 }

theorem lt_of_toInt_toInt32_nonneg {x : UInt32} (nonneg : 0 ≤ x.toInt32.toInt) :
    x.toNat < 2147483648 := by
  have word := x.toNat_lt
  have bits : x.toInt32.toBitVec.toNat = x.toNat := rfl
  rw [Int32.toInt, BitVec.toInt_eq_toNat_cond, bits] at nonneg
  split at nonneg <;> omega

/-- The formatter's layout is consistent exactly for an inode and counts a signed field holds: a
larger count wraps to a negative field. -/
theorem isConsistent_withCapacity_iff (ni nd : UInt32) :
    (withCapacity ni nd).isConsistent = true ↔
      1 ≤ ni.toNat ∧ ni.toNat ≤ 2147483647 ∧ nd.toNat ≤ 2147483647 := by
  constructor
  · intro consistent
    have layout := layout_of_isConsistent consistent
    have some := layout.someInode
    have inodes : 0 ≤ ni.toInt32.toInt := by
      change 1 ≤ ni.toInt32.toInt.toNat at some
      omega
    have data : 0 ≤ nd.toInt32.toInt := layout.dataLengthNonneg
    have inodesFit := lt_of_toInt_toInt32_nonneg inodes
    change 1 ≤ ni.toInt32.toInt.toNat at some
    rw [toInt_toInt32_of_lt inodesFit] at some
    exact ⟨by omega, by omega, by have := lt_of_toInt_toInt32_nonneg data; omega⟩
  · rintro ⟨inodes, inodesFit, dataFit⟩
    exact isConsistent_withCapacity_of_fit ni nd inodes inodesFit dataFit

theorem Layout.totalBlocks_eq {sb : SuperBlock} (layout : Layout sb) :
    sb.totalBlocks = sb.dataRegionAddr.toInt.toNat + sb.dataRegionLen.toInt.toNat := by
  have start := layout.dataStartFits
  have length := layout.dataLengthFits
  have nonneg := layout.dataStartNonneg
  have nonneg' := layout.dataLengthNonneg
  unfold totalBlocks
  dsimp only
  omega

/-- The formatter's regions follow each other from block 1, and its layout spans exactly them. -/
theorem withCapacity_contiguous (ni nd : UInt32) (inodesFit : ni.toNat ≤ 2147483647)
    (dataFit : nd.toNat ≤ 2147483647) :
    let sb := withCapacity ni nd
    sb.inodeBitmapAddr.toInt = 1 ∧
    sb.dataBitmapAddr.toInt = sb.inodeBitmapAddr.toInt + sb.inodeBitmapLen.toInt ∧
    sb.inodeRegionAddr.toInt = sb.dataBitmapAddr.toInt + sb.dataBitmapLen.toInt ∧
    sb.dataRegionAddr.toInt = sb.inodeRegionAddr.toInt + sb.inodeRegionLen.toInt ∧
    sb.totalBlocks = 1 + (ni.toNat + 32767) / 32768 + (nd.toNat + 32767) / 32768 +
      (ni.toNat + 31) / 32 + nd.toNat := by
  dsimp only
  obtain ⟨f0, f1, f2, f3, f4, f5, f6, f7, -, -⟩ := withCapacity_fields_of_fit ni nd inodesFit dataFit
  refine ⟨f0, by omega, by omega, by omega, ?_⟩
  unfold totalBlocks
  dsimp only
  rw [f6, f7]
  omega

variable {sb : SuperBlock}

theorem Layout.inData_iff (layout : Layout sb) (b : UInt32) :
    InData sb b ↔ sb.dataRegionAddr.toInt.toNat ≤ b.toNat ∧
      b.toNat < sb.dataRegionAddr.toInt.toNat + sb.numData.toInt.toNat := by
  unfold InData
  rw [UInt32.le_iff_toNat_le, UInt32.lt_iff_toNat_lt, layout.dataStart, layout.dataCount]
  constructor
  · rintro ⟨low, high⟩
    rw [UInt32.toNat_sub_of_le _ _ (UInt32.le_iff_toNat_le.2 (by rw [layout.dataStart]; exact low)),
      layout.dataStart] at high
    omega
  · rintro ⟨low, high⟩
    refine ⟨low, ?_⟩
    rw [UInt32.toNat_sub_of_le _ _ (UInt32.le_iff_toNat_le.2 (by rw [layout.dataStart]; exact low)),
      layout.dataStart]
    omega

/-- Data bit `bit` names block `dataRegionAddr + bit`, with no 32-bit wrap. -/
theorem Layout.toNat_dataBlock (layout : Layout sb) {bit : Nat} (below : bit < sb.numData.toInt.toNat) :
    (sb.dataRegionAddr.toUInt32 + UInt32.ofNat bit).toNat = sb.dataRegionAddr.toInt.toNat + bit := by
  have start := layout.dataStartFits
  have length := layout.dataLengthFits
  have count := layout.dataBlocks
  rw [UInt32.toNat_add, layout.dataStart, UInt32.toNat_ofNat_of_lt' (by unfold UInt32.size; omega)]
  omega

/-- The data bit of a block in the data region is its distance from the region's start. -/
theorem Layout.toNat_dataBit (layout : Layout sb) {b : UInt32} (inside : InData sb b) :
    (b - sb.dataRegionAddr.toUInt32).toNat = b.toNat - sb.dataRegionAddr.toInt.toNat := by
  rw [UInt32.toNat_sub_of_le _ _ inside.1, layout.dataStart]

theorem Layout.inData_dataBlock (layout : Layout sb) {bit : Nat} (below : bit < sb.numData.toInt.toNat) :
    InData sb (sb.dataRegionAddr.toUInt32 + UInt32.ofNat bit) := by
  rw [layout.inData_iff, layout.toNat_dataBlock below]
  omega

theorem Layout.slotBlock_bounds (layout : Layout sb) {i : InodeNumber} (slot : HasSlot sb i) :
    sb.inodeRegionAddr.toInt.toNat ≤ slotBlock sb i ∧ slotBlock sb i < sb.dataRegionAddr.toInt.toNat := by
  have slots := layout.inodeSlots
  have ordered := layout.inodeRegionEnd
  have perBlock : inodesPerBlock = 32 := rfl
  rw [perBlock] at slots
  unfold HasSlot at slot
  unfold slotBlock inodeSize blockSize
  omega

end SuperBlock

end InodeFs
