import Mathlib.Order.Interval.Finset.Nat
import InodeFs.Proofs.Disk

/-!
Where the engine looks, on the layout of a consistent super block: every block number it
computes lands in its region and no 32-bit sum or difference wraps (`consistent_layout_sound`).
-/

namespace InodeFs

namespace SuperBlock

open Engine FsM

/-- The blocks of a run of `r.2` blocks from block `r.1`. -/
def run (r : Nat × Nat) : Finset Nat :=
  Finset.Ico r.1 (r.1 + r.2)

/-- The layout's five areas in disk order, as runs of blocks. -/
def areas (sb : SuperBlock) : List (Nat × Nat) :=
  (0, 1) :: sb.regions.map fun r => (r.1.toNat, r.2.toNat)

/-- One run ends at or before the next one starts. -/
def Precedes (a b : Nat × Nat) : Prop :=
  a.1 + a.2 ≤ b.1

instance : Trans Precedes Precedes Precedes :=
  ⟨fun first second => by unfold Precedes at *; omega⟩

theorem disjoint_run_of_precedes {a b : Nat × Nat} (before : Precedes a b) :
    Disjoint (run a) (run b) := by
  rw [Finset.disjoint_left]
  intro x inA inB
  simp only [run, Finset.mem_Ico] at inA inB
  unfold Precedes at before
  omega

/-- Runs each of which ends before the next one starts are pairwise disjoint. -/
theorem pairwise_disjoint_of_isChain {rs : List (Nat × Nat)} (ordered : rs.IsChain Precedes) :
    (rs.map run).Pairwise Disjoint := by
  rw [List.pairwise_map]
  exact (List.isChain_iff_pairwise.1 ordered).imp disjoint_run_of_precedes

variable {sb : SuperBlock}

theorem Layout.isChain_areas (layout : Layout sb) : sb.areas.IsChain Precedes := by
  have after := layout.afterSuper
  have ibm := layout.inodeBitmapEnd
  have dbm := layout.dataBitmapEnd
  have ir := layout.inodeRegionEnd
  simp only [areas, regions, List.map_cons, List.map_nil, List.isChain_cons_cons,
    List.isChain_singleton, and_true, Precedes]
  omega

theorem Layout.areas_disjoint (layout : Layout sb) : (sb.areas.map run).Pairwise Disjoint :=
  pairwise_disjoint_of_isChain layout.isChain_areas

theorem Layout.areas_below (layout : Layout sb) {N : Nat} (fits : sb.totalBlocks ≤ N) :
    ∀ a ∈ sb.areas, run a ⊆ Finset.range N := by
  have total := layout.totalBlocks_eq
  have after := layout.afterSuper
  have ibm := layout.inodeBitmapEnd
  have dbm := layout.dataBitmapEnd
  have ir := layout.inodeRegionEnd
  intro a member x inside
  simp only [areas, regions, List.map_cons, List.map_nil, List.mem_cons, List.not_mem_nil,
    or_false] at member
  rw [Finset.mem_range]
  simp only [run, Finset.mem_Ico] at inside
  rcases member with rfl | rfl | rfl | rfl | rfl <;> dsimp only at inside <;> omega

/-! ## Inodes -/

variable {δ : Type} [BlockDevice δ]

omit [BlockDevice δ] in
/-- An inode with a slot lies in the inode region, with room for its whole record in its block. -/
theorem Layout.inodeLocation_inside (layout : Layout sb) {i : InodeNumber} (slot : HasSlot sb i)
    (s : Session δ) :
    Ends (inodeLocation sb i : FsM δ (Nat × Nat)) s
      (fun loc t => t = s ∧ loc.1 ∈ run (sb.inodeRegionAddr.toInt.toNat, sb.inodeRegionLen.toInt.toNat) ∧
        loc.2 ≤ blockSize - inodeSize)
      fun _ _ => False := by
  refine (inodeLocation_ends s sb i).mono ?_ fun _ _ refused => absurd slot refused.2.2
  rintro loc t ⟨rfl, -, rfl⟩
  have slots := layout.inodeSlots
  have room := slotOffset_add_le i
  have perBlock : inodesPerBlock = 32 := rfl
  rw [perBlock] at slots
  unfold HasSlot at slot
  refine ⟨rfl, ?_, by omega⟩
  simp only [run, Finset.mem_Ico, slotBlock, inodeSize, blockSize]
  omega

theorem Layout.allocationBlock_inside (layout : Layout sb) {i : InodeNumber} (slot : HasSlot sb i) :
    allocationBlock sb i ∈ run (sb.inodeBitmapAddr.toInt.toNat, sb.inodeBitmapLen.toInt.toNat) := by
  have bits := layout.inodeBits
  have perBlock : bitsPerBlock = 32768 := rfl
  rw [perBlock] at bits
  unfold HasSlot at slot
  simp only [run, Finset.mem_Ico, allocationBlock, perBlock]
  omega

/-- Bit `j` of fitted blocks laid end to end is bit `j % bitsPerBlock` of block `j / bitsPerBlock`. -/
theorem get?_fitted_blocks (blocks : Nat → ByteArray) {count j : Nat} (below : j < count * bitsPerBlock) :
    Bitmap.get? (concatBytes ((List.range count).map fun k => fitTo blockSize (blocks k))) j =
      some (decide (j % bitsPerBlock < (blocks (j / bitsPerBlock)).size * 8) &&
        Bitmap.test (blocks (j / bitsPerBlock)) (j % bitsPerBlock)) := by
  have region : concatBytes ((List.range count).map fun k => fitTo blockSize (blocks k)) =
      Disk.region blocks 0 count := by
    simp only [Disk.region, Nat.zero_add]
  have bits : bitsPerBlock = 32768 := rfl
  have bs : blockSize = 4096 := rfl
  rw [bits] at below ⊢
  have inside : j / 8 < (Disk.region blocks 0 count).size := by
    rw [Disk.size_region, bs]
    omega
  rw [region]
  unfold Bitmap.get?
  rw [dif_pos inside, ← byteAt_of_lt inside, Disk.byteAt_region, if_pos (by rw [bs]; omega),
    Nat.zero_add, Bitmap.test_eq, Bitmap.width, bs, show j / 8 / 4096 = j / 32768 by omega,
    show j / 8 % 4096 = j % 32768 / 8 by omega, show j % 32768 % 8 = j % 8 by omega]
  by_cases present : j % 32768 < (blocks (j / 32768)).size * 8
  · simp [present]
  · -- past the end of a short block the fitted block holds a zero byte
    rw [byteAt_of_le (by omega), Bitmap.bitOf_zero]
    simp [present]

/-- Whether inode `i` is allocated reads its bit's block only, and answers the whole bitmap's bit. -/
theorem Layout.isAllocated_eq_get? (layout : Layout sb) {i : InodeNumber} (slot : HasSlot sb i)
    (s : Session δ) {bytes : ByteArray}
    (region : RegionOf s.device sb.inodeBitmapAddr.toInt.toNat sb.inodeBitmapLen.toInt.toNat bytes) :
    Ends (isAllocated sb i : FsM δ Bool) s
      (fun r t => t = s ∧ Bitmap.get? bytes i.toInt.toNat = some r) fun _ _ => False := by
  obtain ⟨blocks, reads, rfl⟩ := region
  have inside := layout.allocationBlock_inside slot
  have bits := layout.inodeBits
  simp only [run, Finset.mem_Ico, allocationBlock] at inside
  have read := reads (i.toInt.toNat / bitsPerBlock) (by omega)
  unfold HasSlot at slot
  refine (isAllocated_ends s sb i).mono ?_ ?_
  · rintro r t ⟨rfl, bm, readBitmap, rfl⟩
    rw [allocationBlock, read, Except.ok.injEq] at readBitmap
    subst readBitmap
    exact ⟨rfl, get?_fitted_blocks blocks (by omega)⟩
  · rintro e t ⟨-, io, -, failed⟩
    rw [allocationBlock, read] at failed
    cases failed

/-! ## Data blocks -/

omit [BlockDevice δ] in
/-- Data block `j`, numbered in 32 bits, lies in the data region, passes the check and maps back
to bit `j`. -/
theorem Layout.dataBlock_sound (layout : Layout sb) {j : Nat} (below : j < sb.numData.toInt.toNat)
    (s : Session δ) :
    (sb.dataRegionAddr.toUInt32 + UInt32.ofNat j).toNat = sb.dataRegionAddr.toInt.toNat + j ∧
    sb.dataRegionAddr.toInt.toNat + j ∈ run (sb.dataRegionAddr.toInt.toNat, sb.dataRegionLen.toInt.toNat) ∧
    Ends (checkDataBlock sb (sb.dataRegionAddr.toUInt32 + UInt32.ofNat j) : FsM δ Unit) s
      (fun _ t => t = s) (fun _ _ => False) ∧
    Ends (dataBit sb (sb.dataRegionAddr.toUInt32 + UInt32.ofNat j) : FsM δ Nat) s
      (fun bit t => t = s ∧ bit = j) (fun _ _ => False) := by
  have block := layout.toNat_dataBlock below
  have inData := layout.inData_dataBlock below
  have count := layout.dataBlocks
  refine ⟨block, by simp only [run, Finset.mem_Ico]; omega, ?_, ?_⟩
  · exact (checkDataBlock_ends s sb _).mono (fun _ _ passed => passed.1)
      fun _ _ refused => refused.2.2 inData
  · refine (dataBit_ends s sb _).mono ?_ fun _ _ refused => refused.2.2 inData
    rintro bit t ⟨rfl, -, rfl⟩
    rw [layout.toNat_dataBit inData, block]
    exact ⟨rfl, by omega⟩

/-- Every consistent layout on a device holding it: disjoint areas below the device's size, no
wrapping 32-bit arithmetic, and inode slots, inode bits and data blocks where the engine looks. -/
theorem consistent_layout_sound {N : Nat} (consistent : sb.isConsistent = true)
    (fits : sb.totalBlocks ≤ N) :
    (sb.areas.map run).Pairwise Disjoint ∧ (∀ a ∈ sb.areas, run a ⊆ Finset.range N) ∧
    sb.totalBlocks = sb.dataRegionAddr.toInt.toNat + sb.dataRegionLen.toInt.toNat ∧
    sb.totalBlocks < 4294967296 ∧ sb.dataRegionAddr.toInt.toNat < 2147483648 ∧
    (∀ i, HasSlot sb i → ∀ s : Session δ,
      Ends (inodeLocation sb i : FsM δ (Nat × Nat)) s
        (fun loc t => t = s ∧
          loc.1 ∈ run (sb.inodeRegionAddr.toInt.toNat, sb.inodeRegionLen.toInt.toNat) ∧
          loc.2 ≤ blockSize - inodeSize)
        fun _ _ => False) ∧
    (∀ i, HasSlot sb i →
      allocationBlock sb i ∈ run (sb.inodeBitmapAddr.toInt.toNat, sb.inodeBitmapLen.toInt.toNat) ∧
      ∀ (s : Session δ) (bytes : ByteArray),
        RegionOf s.device sb.inodeBitmapAddr.toInt.toNat sb.inodeBitmapLen.toInt.toNat bytes →
        Ends (isAllocated sb i : FsM δ Bool) s
          (fun r t => t = s ∧ Bitmap.get? bytes i.toInt.toNat = some r) fun _ _ => False) ∧
    (∀ j < sb.numData.toInt.toNat, ∀ s : Session δ,
      (sb.dataRegionAddr.toUInt32 + UInt32.ofNat j).toNat = sb.dataRegionAddr.toInt.toNat + j ∧
      sb.dataRegionAddr.toInt.toNat + j ∈
        run (sb.dataRegionAddr.toInt.toNat, sb.dataRegionLen.toInt.toNat) ∧
      Ends (checkDataBlock sb (sb.dataRegionAddr.toUInt32 + UInt32.ofNat j) : FsM δ Unit) s
        (fun _ t => t = s) (fun _ _ => False) ∧
      Ends (dataBit sb (sb.dataRegionAddr.toUInt32 + UInt32.ofNat j) : FsM δ Nat) s
        (fun bit t => t = s ∧ bit = j) (fun _ _ => False)) := by
  have layout := layout_of_isConsistent consistent
  have total := layout.totalBlocks_eq
  have start := layout.dataStartFits
  have length := layout.dataLengthFits
  exact ⟨layout.areas_disjoint, layout.areas_below fits, total, by omega, start,
    fun _ slot s => layout.inodeLocation_inside slot s,
    fun _ slot => ⟨layout.allocationBlock_inside slot, fun s _ region =>
      layout.isAllocated_eq_get? slot s region⟩,
    fun _ below s => layout.dataBlock_sound below s⟩

/-- The layout for 32 inodes and 32 data blocks is consistent and fits 36 blocks. -/
theorem withCapacity_layout_sound :
    (withCapacity 32 32).isConsistent = true ∧ (withCapacity 32 32).totalBlocks ≤ 36 ∧
      ((withCapacity 32 32).areas.map run).Pairwise Disjoint ∧
      (withCapacity 32 32).totalBlocks = (withCapacity 32 32).dataRegionAddr.toInt.toNat +
        (withCapacity 32 32).dataRegionLen.toInt.toNat :=
  have sound := consistent_layout_sound (δ := MemoryDevice) (N := 36)
    (by decide : (withCapacity 32 32).isConsistent = true) (by decide)
  ⟨by decide, by decide, sound.1, sound.2.2.1⟩

end SuperBlock

end InodeFs
