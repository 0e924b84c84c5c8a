import InodeFs.Proofs.Reachable
import InodeFs.Proofs.Regions

/-!
Reading a file on any image whose block 0 holds a consistent super block, whatever its bitmaps,
inodes and pointers hold (`read_answers_prefix`).
-/

namespace InodeFs

open Engine FsM

/-- Block `n` is among the first `numData` blocks of the data region. -/
def SuperBlock.InDataRegion (sb : SuperBlock) (n : Nat) : Prop :=
  sb.dataRegionAddr.toInt.toNat ≤ n ∧ n < sb.dataRegionAddr.toInt.toNat + sb.numData.toInt.toNat

instance (sb : SuperBlock) (n : Nat) : Decidable (sb.InDataRegion n) :=
  inferInstanceAs (Decidable (_ ∧ _))

/-- The device reads as the image `blocks`: each block it holds reads, as a whole block. -/
def BlockDevice.ReadsAs {δ : Type} [BlockDevice δ] (d : δ) (blocks : Nat → ByteArray) : Prop :=
  ∀ n < BlockDevice.blockCount d,
    BlockDevice.readBlock d n = .ok (blocks n) ∧ (blocks n).size = blockSize

/-- A device holding a file system, with no read failing, reads as its committed blocks. -/
theorem MemoryDevice.Holds.readsAs {d : MemoryDevice} {sb : SuperBlock} (holds : d.Holds sb)
    (reads : d.failReads = none) : BlockDevice.ReadsAs d d.disk :=
  fun _ below => ⟨MemoryDevice.read_of_healthy holds.closed reads below, holds.wellFormed.whole _⟩

theorem MemoryDevice.Holds.superOf {d : MemoryDevice} {sb : SuperBlock} (holds : d.Holds sb)
    (reads : d.failReads = none) : SuperOf d sb := by
  have layout := SuperBlock.layout_of_isConsistent holds.wellFormed.consistent
  have start := layout.afterSuper
  have ordered := layout.inodeBitmapEnd
  have ordered' := layout.dataBitmapEnd
  have ordered'' := layout.inodeRegionEnd
  exact ⟨d.disk 0, MemoryDevice.read_of_healthy holds.closed reads
    (lt_size_of_lt_total holds (by omega)), holds.wellFormed.super, holds.wellFormed.consistent,
    holds.fits⟩

theorem Engine.SuperOf.layout {δ : Type} [BlockDevice δ] {d : δ} {sb : SuperBlock} (super : SuperOf d sb) :
    sb.Layout ∧ sb.totalBlocks ≤ BlockDevice.blockCount d := by
  obtain ⟨-, -, -, consistent, fits⟩ := super
  exact ⟨SuperBlock.layout_of_isConsistent consistent, fits⟩

theorem Inode.take_blocks {inode : Inode} (fits : inode.blockCount ≤ directPointers) {m : Nat}
    (within : m ≤ inode.fileSize) :
    inode.blocks.take (blocksFor m) = inode.direct.toList.take (blocksFor m) := by
  have fewer : blocksFor m ≤ inode.blockCount := Nat.div_le_div_right (by omega)
  rw [Inode.blocks, List.take_take, Nat.min_eq_left (by omega)]

theorem Inode.length_take_direct {inode : Inode} {m : Nat} (small : m ≤ maxFileSize) :
    (inode.direct.toList.take (blocksFor m)).length = blocksFor m := by
  have fewer := blocksFor_le_directPointers small
  simp only [List.length_take, Vector.length_toList]
  unfold directPointers at fewer
  omega

/-- Whole blocks, enough for `length` bytes, gather into the first `length` bytes of their
concatenation. -/
theorem gather_eq_extract (length : Nat) (bs : List ByteArray) (whole : ∀ b ∈ bs, b.size = blockSize)
    (enough : length ≤ bs.length * blockSize) :
    gather length bs = (concatBytes bs).extract 0 length := by
  obtain ⟨size, bytes⟩ := Disk.gather_of_whole length bs whole
  apply ext_byteAt (by rw [size, ByteArray.size_extract, size_concatBytes _ _ whole]; omega)
  intro i below
  rw [size] at below
  rw [bytes i (by omega), byteAt_extract, if_pos (by omega), Nat.zero_add,
    byteAt_concatBytes _ _ (by decide) whole]

section Image

variable {δ : Type} [BlockDevice δ] {d : δ} {sb : SuperBlock} {blocks : Nat → ByteArray}
  (image : BlockDevice.ReadsAs d blocks) {s : Session δ}

include image

theorem readBlock_readsAs (same : s.device = d) {n : Nat} (below : n < BlockDevice.blockCount d) :
    Ends (readBlock n : FsM δ ByteArray) s (fun b t => t = s ∧ b = blocks n) fun _ _ => False := by
  have read := (image n below).1
  refine (readBlock_ends n).mono ?_ ?_
  · rintro b t ⟨rfl, readAgain⟩
    rw [same, read, Except.ok.injEq] at readAgain
    exact ⟨rfl, readAgain.symm⟩
  · rintro e t ⟨-, io, -, failed⟩
    rw [same, read] at failed
    cases failed

variable (layout : sb.Layout) (fits : sb.totalBlocks ≤ BlockDevice.blockCount d)

include layout fits

/-- Loading an inode from a device that reads as an image answers the image's inode. -/
theorem loadInode_readsAs (same : s.device = d) (i : InodeNumber) :
    Ends (loadInode sb i : FsM δ Inode) s (fun inode t => t = s ∧ InodeOf d sb i inode)
      (fun e t => t.device = s.device ∧ e = .fs .invalidInode ∧ ∀ inode, ¬InodeOf d sb i inode) := by
  have total := layout.totalBlocks_eq
  have count := layout.dataBlocks
  simp only [loadInode, ends_bind]
  refine (inodeLocation_ends s sb i).mono ?_ ?_
  · rintro ⟨blockNumber, offset⟩ t ⟨rfl, slot, location⟩
    obtain ⟨rfl, rfl⟩ := Prod.mk.inj location
    have bitmapBlock : allocationBlock sb i < BlockDevice.blockCount d := by
      have inside := layout.allocationBlock_inside slot
      have before := layout.dataBitmapEnd
      have before' := layout.inodeRegionEnd
      have before'' := layout.inodeBitmapEnd
      simp only [SuperBlock.run, Finset.mem_Ico] at inside
      omega
    have slotBlockBelow : slotBlock sb i < BlockDevice.blockCount d := by
      have := layout.slotBlock_bounds slot
      omega
    refine (isAllocated_ends t sb i).mono ?_ ?_
    · rintro allocated t ⟨rfl, bm, readBitmap, rfl⟩
      have onlyBitmap : ∀ bm', BlockDevice.readBlock d (allocationBlock sb i) = .ok bm' → bm' = bm :=
        fun bm' read' => Except.ok.inj (read'.symm.trans (same ▸ readBitmap))
      by_cases set : allocationBit i < bm.size * 8 ∧ Bitmap.test bm (allocationBit i) = true
      · simp only [set, decide_true, Bool.true_and, Bool.not_true, if_false, Bool.false_eq_true,
          ends_bind]
        refine (readBlock_readsAs image same slotBlockBelow).mono ?_ fun _ _ never => never.elim
        rintro blk t ⟨rfl, rfl⟩
        have readSlot := (image _ slotBlockBelow).1
        have onlySlot : ∀ blk', BlockDevice.readBlock d (slotBlock sb i) = .ok blk' →
            blk' = blocks (slotBlock sb i) :=
          fun blk' read' => Except.ok.inj (read'.symm.trans readSlot)
        have inBlock : slotOffset i ≤ (blocks (slotBlock sb i)).size := by
          rw [(image _ slotBlockBelow).2]
          have := slotOffset_add_le i
          omega
        cases decoded : Inode.decode? ((blocks (slotBlock sb i)).extract (slotOffset i)
            (blocks (slotBlock sb i)).size) with
        | none =>
          simp only [inBlock, if_true, ends_bind, ends_log, ends_fail]
          refine ⟨trivial, trivial, fun inode found => ?_⟩
          obtain ⟨-, -, blk', read', -, decoded'⟩ := found
          rw [onlySlot blk' read', decoded] at decoded'
          cases decoded'
        | some inode =>
          simp only [inBlock, if_true, ends_pure, true_and]
          exact ⟨slot, ⟨bm, same ▸ readBitmap, set⟩, _, readSlot, inBlock, decoded⟩
      · have clear : (decide (allocationBit i < bm.size * 8) && Bitmap.test bm (allocationBit i)) =
            false := by
          simpa [Bool.and_eq_true] using set
        simp only [clear, Bool.not_false, if_true, ends_bind, ends_log, ends_fail]
        refine ⟨trivial, trivial, fun inode found => ?_⟩
        obtain ⟨-, ⟨bm', read', setThere⟩, -⟩ := found
        exact set (onlyBitmap bm' read' ▸ setThere)
    · rintro e t ⟨-, io, -, failed⟩
      rw [same, (image _ bitmapBlock).1] at failed
      cases failed
  · rintro e t ⟨rfl, rfl, noSlot⟩
    exact ⟨rfl, rfl, fun inode found => noSlot found.1⟩

/-- Reading content from such a device gathers the image's blocks while the pointers lie in the
data region, and refuses at the first that does not. -/
theorem readContent_readsAs (same : s.device = d) (inode : Inode) (length : Nat) :
    Ends (readContent sb inode length : FsM δ ByteArray) s
      (fun content t => t = s ∧ (∀ b ∈ inode.blocks.take (blocksFor length), InData sb b) ∧
        content = gather length ((inode.blocks.take (blocksFor length)).map fun b => blocks b.toNat))
      (fun e t => t.device = s.device ∧ e = .fs .invalidInode ∧
        ¬∀ b ∈ inode.blocks.take (blocksFor length), InData sb b) := by
  have total := layout.totalBlocks_eq
  have count := layout.dataBlocks
  simp only [readContent, ends_bind]
  -- the pointers visited so far lie in the data region, and the buffer gathers their blocks
  refine ends_forIn _ _ _ s
    (fun rest acc t => t = s ∧ ∃ done, inode.blocks.take (blocksFor length) = done ++ rest ∧
      (∀ b ∈ done, InData sb b) ∧ acc = gather length (done.map fun b => blocks b.toNat))
    ?_ ?_ ⟨rfl, [], rfl, fun _ absent => absurd absent List.not_mem_nil, rfl⟩
  · rintro x rest acc t ⟨rfl, done, split, inside, rfl⟩
    simp only [ends_bind]
    refine (checkDataBlock_ends t sb x).mono ?_ ?_
    · rintro - t ⟨rfl, insideX⟩
      have onDevice : x.toNat < BlockDevice.blockCount d := by
        have := (layout.inData_iff x).1 insideX
        omega
      refine (readBlock_readsAs image same onDevice).mono ?_ fun _ _ never => never.elim
      rintro bx t ⟨rfl, rfl⟩
      refine (ends_pure _).2 ⟨rfl, done ++ [x], by rw [split, List.append_assoc]; rfl, ?_, ?_⟩
      · intro b member
        rcases List.mem_append.1 member with old | new
        · exact inside b old
        · rw [List.mem_singleton.1 new]
          exact insideX
      · rw [List.map_append, List.map_singleton, gather_append_singleton]
        rfl
    · rintro e u ⟨⟨-, unchanged⟩, rfl, outside⟩
      refine ⟨unchanged, rfl, fun all => outside (all x ?_)⟩
      rw [split]
      exact List.mem_append_right _ List.mem_cons_self
  · rintro acc t ⟨rfl, done, split, inside, rfl⟩
    rw [List.append_nil] at split
    subst split
    exact (ends_pure _).2 ⟨rfl, inside, rfl⟩

end Image

/-- `read` on any image: `invalidSize` past `maxFileSize`, `invalidInode` exactly for a pointer
outside the data region or a number naming no allocated inode, else the first `min k size` bytes
of the blocks the pointers name. -/
theorem read_answers_prefix {δ : Type} [BlockDevice δ] {d : δ} {sb : SuperBlock}
    {blocks : Nat → ByteArray} (super : SuperOf d sb) (image : BlockDevice.ReadsAs d blocks)
    (i : InodeNumber) (k : Nat) :
    (∀ inode, InodeOf d sb i inode →
      answer (read i k : FsM δ ByteArray) d =
        if maxFileSize < k then .error (.fs .invalidSize)
        else if ∃ b ∈ inode.direct.toList.take (blocksFor (min k inode.fileSize)),
            ¬sb.InDataRegion b.toNat then .error (.fs .invalidInode)
        else .ok ((concatBytes ((inode.direct.toList.take (blocksFor (min k inode.fileSize))).map
            fun b => blocks b.toNat)).extract 0 (min k inode.fileSize))) ∧
    ((∀ inode, ¬InodeOf d sb i inode) →
      answer (read i k : FsM δ ByteArray) d = .error (.fs .invalidInode)) := by
  obtain ⟨layout, fits⟩ := super.layout
  constructor
  · intro inode found
    apply answer_after_of_ends fun r _ => r = _
    simp only [Engine.read, ends_bind]
    rw [ends_run_ok (readSuperBlock_run super), ends_run_ok (loadInode_run found)]
    simp only [ends_ite, gt_iff_lt]
    split
    · simp only [ends_bind, ends_fail]
    · next small =>
      have within : min k inode.fileSize ≤ inode.fileSize := Nat.min_le_right _ _
      have pointers := Inode.take_blocks found.blockCount_le within
      have inRegion : ∀ b : UInt32, InData sb b ↔ sb.InDataRegion b.toNat := layout.inData_iff
      refine (readContent_readsAs image layout fits rfl inode _).mono ?_ ?_
      · rintro content t ⟨-, inside, rfl⟩
        rw [pointers] at inside
        have whole : ∀ b ∈ (inode.direct.toList.take (blocksFor (min k inode.fileSize))).map
            (fun b => blocks b.toNat), b.size = blockSize := by
          simp only [List.mem_map]
          rintro _ ⟨b, member, rfl⟩
          exact (image _ (by
            have := (layout.inData_iff b).1 (inside b member)
            have := layout.totalBlocks_eq
            have := layout.dataBlocks
            omega)).2
        have enough : min k inode.fileSize ≤
            ((inode.direct.toList.take (blocksFor (min k inode.fileSize))).map
              (fun b => blocks b.toNat)).length * blockSize := by
          rw [List.length_map, Inode.length_take_direct (by omega)]
          unfold blocksFor blockSize
          omega
        have allInside : ¬∃ b ∈ inode.direct.toList.take (blocksFor (min k inode.fileSize)),
            ¬sb.InDataRegion b.toNat := by
          rintro ⟨b, member, outside⟩
          exact outside ((inRegion b).1 (inside b member))
        rw [if_neg allInside, pointers, gather_eq_extract _ _ whole enough]
      · rintro e t ⟨-, rfl, outside⟩
        rw [pointers] at outside
        rw [if_pos]
        simp only [not_forall] at outside
        obtain ⟨b, member, notIn⟩ := outside
        exact ⟨b, member, fun inRegion' => notIn ((inRegion b).2 inRegion')⟩
  · intro missing
    apply answer_after_of_ends fun r _ => r = _
    simp only [Engine.read, ends_bind]
    rw [ends_run_ok (readSuperBlock_run super)]
    refine (loadInode_readsAs image layout fits rfl i).mono ?_ ?_
    · rintro inode t ⟨-, found⟩
      exact absurd found (missing inode)
    · rintro e t ⟨-, rfl, -⟩
      rfl

/-- Reading the root of a freshly formatted image is specified by `read_answers_prefix`. -/
theorem formatted_read_answers_prefix :
    let d := after (formatDevice 1 1 : FsM MemoryDevice Unit) (MemoryDevice.zeroed 5)
    let sb := SuperBlock.withCapacity (UInt32.ofNat 1) (UInt32.ofNat 1)
    SuperOf d sb ∧ BlockDevice.ReadsAs d d.disk ∧
    (∀ inode, InodeOf d sb rootInode inode →
      answer (read rootInode 64 : FsM MemoryDevice ByteArray) d =
        if maxFileSize < 64 then .error (.fs .invalidSize)
        else if ∃ b ∈ inode.direct.toList.take (blocksFor (min 64 inode.fileSize)),
            ¬sb.InDataRegion b.toNat then .error (.fs .invalidInode)
        else .ok ((concatBytes ((inode.direct.toList.take (blocksFor (min 64 inode.fileSize))).map
            fun b => d.disk b.toNat)).extract 0 (min 64 inode.fileSize))) ∧
    ((∀ inode, ¬InodeOf d sb rootInode inode) →
      answer (read rootInode 64 : FsM MemoryDevice ByteArray) d = .error (.fs .invalidInode)) := by
  intro d sb
  obtain ⟨holds, healthy⟩ := formatted_reachable.holds
  have super := holds.superOf healthy.reads
  have image := holds.readsAs healthy.reads
  exact ⟨super, image, read_answers_prefix super image rootInode 64⟩

end InodeFs
