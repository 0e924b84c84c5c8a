import InodeFs.Proofs.Reads
import Mathlib.Data.List.Nodup

/-!
What a well-formed disk promises and what survives a change to a few of its blocks: the facts
the three mutating calls share when they restore the invariant.
-/

namespace InodeFs

open Engine

/-! ## Blocks and their data bits -/

namespace SuperBlock

variable {sb : SuperBlock}

theorem Layout.dataBlock_dataBit (layout : sb.Layout) {b : UInt32} (inside : InData sb b) :
    sb.dataRegionAddr.toUInt32 + UInt32.ofNat (b - sb.dataRegionAddr.toUInt32).toNat = b := by
  have bounds := (layout.inData_iff b).1 inside
  apply UInt32.toNat_inj.1
  rw [layout.toNat_dataBlock (by rw [layout.toNat_dataBit inside]; omega),
    layout.toNat_dataBit inside]
  omega

theorem Layout.eq_of_dataBit_eq (layout : sb.Layout) {b b' : UInt32} (inside : InData sb b)
    (inside' : InData sb b')
    (same : (b - sb.dataRegionAddr.toUInt32).toNat = (b' - sb.dataRegionAddr.toUInt32).toNat) :
    b = b' := by
  rw [← layout.dataBlock_dataBit inside, ← layout.dataBlock_dataBit inside', same]

theorem Layout.dataBit_dataBlock (layout : sb.Layout) {bit : Nat}
    (below : bit < sb.numData.toInt.toNat) :
    (sb.dataRegionAddr.toUInt32 + UInt32.ofNat bit - sb.dataRegionAddr.toUInt32).toNat = bit := by
  rw [layout.toNat_dataBit (layout.inData_dataBlock below), layout.toNat_dataBlock below]
  omega

/-- A block of the data region has data bit `j` exactly when it lies `j` blocks into it. -/
theorem Layout.dataBit_eq_iff (layout : sb.Layout) {b : UInt32} (inside : InData sb b) (j : Nat) :
    (b - sb.dataRegionAddr.toUInt32).toNat = j ↔ b.toNat = sb.dataRegionAddr.toInt.toNat + j := by
  have bounds := (layout.inData_iff b).1 inside
  rw [layout.toNat_dataBit inside]
  omega

theorem Layout.eq_dataBlock_iff (layout : sb.Layout) {j : Nat} (below : j < sb.numData.toInt.toNat)
    (b : UInt32) :
    b = sb.dataRegionAddr.toUInt32 + UInt32.ofNat j ↔ b.toNat = sb.dataRegionAddr.toInt.toNat + j := by
  rw [← layout.toNat_dataBlock below, UInt32.toNat_inj]

end SuperBlock

/-! ## Pointers -/

namespace Inode

theorem nodup_blocks_iff (inode : Inode) :
    inode.blocks.Nodup ↔ ∀ k k', k < k' → k' < min inode.blockCount directPointers →
      inode.pointer? k ≠ inode.pointer? k' := by
  have length : inode.blocks.length = min inode.blockCount directPointers := by
    simp [blocks, directPointers]
  rw [List.nodup_iff_getElem?_ne_getElem?, length]
  constructor
  · intro distinct k k' early late
    have differ := distinct k k' early late
    rwa [getElem?_blocks, getElem?_blocks, if_pos late, if_pos (by omega)] at differ
  · intro distinct k k' early late
    rw [getElem?_blocks, getElem?_blocks, if_pos late, if_pos (by omega)]
    exact distinct k k' early late

theorem kept_or_dropped {inode : Inode} (n : Nat) {b : UInt32} (listed : b ∈ inode.blocks) :
    b ∈ inode.blocks.take n ∨ ∃ m, n ≤ m ∧ m < inode.blockCount ∧ inode.pointer? m = some b := by
  obtain ⟨k, below, pointer⟩ := mem_blocks.1 listed
  by_cases early : k < n
  · refine .inl (List.mem_iff_getElem?.2 ⟨k, ?_⟩)
    rw [List.getElem?_take, if_pos early, getElem?_blocks, if_pos below, pointer]
  · exact .inr ⟨k, by omega, by omega, pointer⟩

end Inode

/-! ## What a well-formed disk promises -/

namespace Disk

variable {disk : Disk} {sb : SuperBlock}

namespace WellFormed

variable (wf : disk.WellFormed sb)
include wf

theorem layout : sb.Layout :=
  SuperBlock.layout_of_isConsistent wf.consistent

theorem rootSlot : HasSlot sb rootInode := by
  have some := wf.layout.someInode
  unfold HasSlot
  rw [show rootInode.toInt = 0 from rfl]
  omega

theorem rootAllocated : disk.Allocated sb rootInode :=
  (wf.allocatedNamed rootInode wf.rootSlot).2 (.inl rfl)

/-- A block an allocated inode lists has its data bit set. -/
theorem test_of_listed {i : InodeNumber} {inode : Inode} (allocated : disk.Allocated sb i)
    (found : disk.inode? sb i = some inode) {b : UInt32} (listed : b ∈ inode.blocks) :
    Bitmap.test (disk.dataBitmap sb) (b - sb.dataRegionAddr.toUInt32).toNat = true := by
  have inside := wf.inData i inode allocated found b listed
  have bounds := (wf.layout.inData_iff b).1 inside
  rw [wf.layout.toNat_dataBit inside]
  exact (wf.dataUsed _ (by omega)).2 ⟨i, inode, b, allocated, found, listed, by omega⟩

/-- A block whose data bit is clear belongs to no allocated inode. -/
theorem not_listed_of_clear {bit : Nat} (below : bit < sb.numData.toInt.toNat)
    (clear : Bitmap.test (disk.dataBitmap sb) bit = false) {i : InodeNumber} {inode : Inode}
    (allocated : disk.Allocated sb i) (found : disk.inode? sb i = some inode) :
    sb.dataRegionAddr.toUInt32 + UInt32.ofNat bit ∉ inode.blocks := by
  intro listed
  have set := wf.test_of_listed allocated found listed
  rw [wf.layout.dataBit_dataBlock below, clear] at set
  cases set

/-- A directory names only through slots past `.` and `..`, and only allocated inodes. -/
theorem allocated_of_namesAt {d i : InodeNumber} {k : Nat} (names : disk.NamesAt sb d k i) :
    2 ≤ k ∧ disk.Allocated sb i := by
  obtain ⟨allocated, dir, e, found, kind, within, slot, notDot, rfl⟩ := names
  have shape := wf.directories d dir allocated found kind
  have late : 2 ≤ k := by
    by_contra early
    obtain rfl | rfl : k = 0 ∨ k = 1 := by omega
    · rw [shape.dot, Option.some.injEq] at slot
      subst slot
      cases notDot
    · obtain ⟨p, dotDot, -⟩ := shape.dotDot
      rw [dotDot, Option.some.injEq] at slot
      subst slot
      cases notDot
  obtain ⟨e', slot', -, -, alive⟩ := shape.named k late within
  rw [slot, Option.some.injEq] at slot'
  exact ⟨late, slot' ▸ alive⟩

theorem allocated_of_names {d i : InodeNumber} (names : disk.Names sb d i) : disk.Allocated sb i :=
  (wf.allocated_of_namesAt names.choose_spec).2

end WellFormed

theorem limit_dataBitmap (disk : Disk) (layout : sb.Layout) :
    Bitmap.limit (disk.dataBitmap sb) sb.numData.toInt.toNat = sb.numData.toInt.toNat := by
  have bits := layout.dataBits
  have perBlock : bitsPerBlock = 32768 := rfl
  have bs : blockSize = 4096 := rfl
  rw [Bitmap.limit, Bitmap.width, dataBitmap, size_region, bs,
    Nat.min_eq_left (by rw [perBlock] at bits; omega)]

theorem limit_inodeBitmap (disk : Disk) (layout : sb.Layout) :
    Bitmap.limit (disk.inodeBitmap sb) sb.numInodes.toInt.toNat = sb.numInodes.toInt.toNat := by
  have bits := layout.inodeBits
  have perBlock : bitsPerBlock = 32768 := rfl
  have bs : blockSize = 4096 := rfl
  rw [Bitmap.limit, Bitmap.width, inodeBitmap, size_region, bs,
    Nat.min_eq_left (by rw [perBlock] at bits; omega)]

/-! ## Naming and directory shape under a change -/

variable {disk' : Disk}

/-- Slots read only the blocks a directory lists, so keeping those keeps its slots. -/
theorem slot?_of_blocks_kept {dir : Inode} (fits : dir.blockCount ≤ directPointers)
    (kept : ∀ b ∈ dir.blocks, disk' b.toNat = disk b.toNat) {k : Nat}
    (within : k < dir.blockCount * slotsPerBlock) : disk'.slot? dir k = disk.slot? dir k := by
  obtain ⟨b, listed, at_⟩ := entryBlock_mem fits within
  apply slot?_congr
  rw [at_]
  exact kept b listed

/-- Naming through a directory depends on its bit, record and slots only. -/
theorem namesAt_congr {d : InodeNumber}
    (allocated : disk'.Allocated sb d ↔ disk.Allocated sb d)
    (record : disk.Allocated sb d → ∀ dir, disk'.inode? sb d = some dir ∧ dir.kind = .directory ↔
      disk.inode? sb d = some dir ∧ dir.kind = .directory)
    (slots : disk.Allocated sb d → ∀ dir, disk.inode? sb d = some dir → dir.kind = .directory →
      ∀ k < dir.fileSize / entrySize, disk'.slot? dir k = disk.slot? dir k)
    (k : Nat) (i : InodeNumber) : disk'.NamesAt sb d k i ↔ disk.NamesAt sb d k i := by
  constructor
  · rintro ⟨isAllocated, dir, e, found, kind, within, slot, notDot, named⟩
    have wasAllocated := allocated.1 isAllocated
    obtain ⟨found, -⟩ := (record wasAllocated dir).1 ⟨found, kind⟩
    exact ⟨wasAllocated, dir, e, found, kind, within,
      (slots wasAllocated dir found kind k within) ▸ slot, notDot, named⟩
  · rintro ⟨isAllocated, dir, e, found, kind, within, slot, notDot, named⟩
    obtain ⟨found', -⟩ := (record isAllocated dir).2 ⟨found, kind⟩
    exact ⟨allocated.2 isAllocated, dir, e, found', kind, within,
      (slots isAllocated dir found kind k within).symm ▸ slot, notDot, named⟩

/-- A directory keeps its shape through a change that keeps its slots, namer and entries. -/
theorem DirectoryShape.transfer {d : InodeNumber} {dir : Inode}
    (shape : disk.DirectoryShape sb d dir)
    (slots : ∀ k < dir.blockCount * slotsPerBlock, disk'.slot? dir k = disk.slot? dir k)
    (parent : ∀ p, disk.Names sb p d → disk'.Names sb p d)
    (alive : ∀ k, 2 ≤ k → k < dir.fileSize / entrySize → ∀ e, disk.slot? dir k = some e →
      disk.Allocated sb e.inum → disk'.Allocated sb e.inum) :
    disk'.DirectoryShape sb d dir := by
  have spans := fileSize_div_le dir
  have withinBlocks : ∀ k, k < dir.fileSize / entrySize → k < dir.blockCount * slotsPerBlock :=
    fun k within => Nat.lt_of_lt_of_le within spans
  have dots : 2 ≤ dir.fileSize / entrySize := by
    have := shape.holdsDots
    unfold entrySize at *
    omega
  refine
    { aligned := shape.aligned, holdsDots := shape.holdsDots, bounded := shape.bounded,
      dot := by rw [slots 0 (withinBlocks 0 (by omega))]; exact shape.dot,
      dotDot := ?_, named := ?_, distinct := ?_, trailing := ?_ }
  · obtain ⟨p, dotDot, up⟩ := shape.dotDot
    refine ⟨p, by rw [slots 1 (withinBlocks 1 (by omega))]; exact dotDot, ?_⟩
    exact up.imp id (parent p)
  · intro k late within
    obtain ⟨e, slot, valid, notDot, isAllocated⟩ := shape.named k late within
    exact ⟨e, by rw [slots k (withinBlocks k within)]; exact slot, valid, notDot,
      alive k late within e slot isAllocated⟩
  · intro k k' e e' within within' apart slot slot'
    rw [slots k (withinBlocks k within)] at slot
    rw [slots k' (withinBlocks k' within')] at slot'
    exact shape.distinct k k' e e' within within' apart slot slot'
  · intro k past below
    rw [slots k below]
    exact shape.trailing k past below

/-! ## Blocks set one after another -/

section Sets

variable {γ : Type} (place : γ → Nat) (contents : γ → ByteArray)

theorem foldl_set_of_forall_ne (xs : List γ) (disk : Disk) {m : Nat}
    (avoided : ∀ x ∈ xs, place x ≠ m) :
    xs.foldl (fun dk x => dk.set (place x) (contents x)) disk m = disk m := by
  induction xs generalizing disk with
  | nil => rfl
  | cons x rest ih =>
    rw [List.foldl_cons, ih _ fun y member => avoided y (List.mem_cons_of_mem x member),
      set_of_ne _ _ (avoided x List.mem_cons_self).symm]

theorem foldl_set_of_unique (xs : List γ) (disk : Disk) {x : γ} (member : x ∈ xs)
    (unique : ∀ y ∈ xs, place y = place x → y = x) :
    xs.foldl (fun dk x => dk.set (place x) (contents x)) disk (place x) = contents x := by
  induction xs generalizing disk with
  | nil => cases member
  | cons y rest ih =>
    rw [List.foldl_cons]
    by_cases later : x ∈ rest
    · exact ih _ later fun z inRest => unique z (List.mem_cons_of_mem y inRest)
    · -- then `y` is the one set naming the block, and none after it does
      have first : y = x := (List.mem_cons.1 member).elim Eq.symm fun there => absurd there later
      subst first
      rw [foldl_set_of_forall_ne _ _ rest _ fun z inRest same =>
        later (unique z (List.mem_cons_of_mem _ inRest) same ▸ inRest), set_self]

end Sets

end Disk

end InodeFs
