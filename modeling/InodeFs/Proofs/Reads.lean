import InodeFs.Proofs.Invariant
import InodeFs.Engine.Query

/-!
The read-only calls on a device that holds a well-formed file system: what `stat`, `read`,
`readDir` and `lookup` answer is a function of three views of the disk, `stat?`, `content` and
`entries`.
-/

namespace InodeFs

open Engine FsM

/-! ## Devices at rest -/

namespace MemoryDevice

/-- No failure is injected into the device. -/
structure Healthy (d : MemoryDevice) : Prop where
  reads : d.failReads = none
  writes : d.failWrites = none
  commits : d.failCommit = false

/-- The device holds a well-formed file system laid out by `sb`, with no transaction open. -/
structure Holds (d : MemoryDevice) (sb : SuperBlock) : Prop where
  closed : d.pending = none
  wellFormed : d.disk.WellFormed sb
  fits : sb.totalBlocks ≤ d.size

theorem read_of_healthy {d : MemoryDevice} (closed : d.pending = none)
    (reads : d.failReads = none) {n : Nat} (inside : n < d.size) :
    BlockDevice.readBlock d n = .ok (d.disk n) := by
  change d.read n = _
  unfold MemoryDevice.read
  rw [if_neg (by omega), if_neg (by simp [reads]), closed]
  rfl

end MemoryDevice

/-! ## What a call answers and what it leaves -/

namespace FsM

variable {δ α : Type}

/-- What a call answers when it runs on a device from an empty log. -/
def answer (x : FsM δ α) (d : δ) : Except Fault α :=
  match x.runOn d with
  | .ok a _ => .ok a
  | .error e _ => .error e

/-- The device a call leaves, whether it succeeds or not. -/
def after (x : FsM δ α) (d : δ) : δ :=
  match x.runOn d with
  | .ok _ s => s.device
  | .error _ s => s.device

theorem answer_after_of_ends {x : FsM δ α} {d : δ} (P : Except Fault α → δ → Prop)
    (h : Ends x { device := d } (fun a t => P (.ok a) t.device) fun e t => P (.error e) t.device) :
    P (answer x d) (after x d) := by
  unfold Ends at h
  unfold answer after runOn
  generalize x.run { device := d } = r at h ⊢
  cases r <;> exact h

end FsM

/-! ## Three views of a disk -/

namespace Engine

instance (sb : SuperBlock) (i : InodeNumber) : Decidable (HasSlot sb i) :=
  inferInstanceAs (Decidable (_ ∧ _))

end Engine

namespace Disk

theorem region_succ (disk : Disk) (start count : Nat) :
    disk.region start (count + 1) = disk.region start count ++ fitTo blockSize (disk (start + count)) := by
  rw [region, region, List.range_succ, List.map_append, concatBytes_append, List.map_singleton,
    concatBytes_cons, concatBytes_nil, ByteArray.append_empty]

instance (disk : Disk) (sb : SuperBlock) (i : InodeNumber) : Decidable (disk.Allocated sb i) :=
  inferInstanceAs (Decidable (_ ∧ _))

/-- The inode the engine finds for `i`: its bit is set and its slot decodes. -/
def stat? (disk : Disk) (sb : SuperBlock) (i : InodeNumber) : Option Inode :=
  if disk.Allocated sb i then disk.inode? sb i else none

/-- The first `length` bytes of an inode's content, gathered from the blocks it points to. -/
def content (disk : Disk) (inode : Inode) (length : Nat) : ByteArray :=
  gather length ((inode.blocks.take (blocksFor length)).map fun b => disk b.toNat)

/-- The slots within a directory's size, as they decode. -/
def entries (disk : Disk) (dir : Inode) : List DirEntry :=
  (List.range (dir.fileSize / entrySize)).filterMap (disk.slot? dir)

variable {disk : Disk} {sb : SuperBlock}

theorem stat?_eq_some {i : InodeNumber} {inode : Inode} :
    disk.stat? sb i = some inode ↔ disk.Allocated sb i ∧ disk.inode? sb i = some inode := by
  unfold stat?
  split
  · next allocated => exact ⟨fun found => ⟨allocated, found⟩, fun found => found.2⟩
  · next free => exact ⟨fun found => (by cases found), fun found => absurd found.1 free⟩

theorem stat?_isSome (wf : disk.WellFormed sb) {i : InodeNumber} :
    (disk.stat? sb i).isSome ↔ disk.Allocated sb i := by
  constructor
  · intro found
    obtain ⟨inode, found⟩ := Option.isSome_iff_exists.1 found
    exact (stat?_eq_some.1 found).1
  · intro allocated
    obtain ⟨inode, decoded⟩ := wf.decodes i allocated
    exact Option.isSome_iff_exists.2 ⟨inode, stat?_eq_some.2 ⟨allocated, decoded⟩⟩

end Disk

/-! ## The helpers on a device that holds a file system -/

section Helpers

variable {d : MemoryDevice} {sb : SuperBlock} (holds : d.Holds sb) (reads : d.failReads = none)
  {s : Session MemoryDevice}

include holds

theorem lt_size_of_lt_total {n : Nat} (below : n < sb.dataRegionAddr.toInt.toNat + sb.numData.toInt.toNat) :
    n < d.size := by
  have layout := SuperBlock.layout_of_isConsistent holds.wellFormed.consistent
  have total := layout.totalBlocks_eq
  have count := layout.dataBlocks
  have fits := holds.fits
  omega

include reads

theorem readBlock_ends_holds {n : Nat} (same : s.device = d)
    (below : n < sb.dataRegionAddr.toInt.toNat + sb.numData.toInt.toNat) :
    Ends (readBlock n : FsM MemoryDevice ByteArray) s (fun b t => t = s ∧ b = d.disk n)
      fun _ _ => False := by
  refine (readBlock_ends n).mono ?_ ?_
  · rintro b t ⟨rfl, read⟩
    rw [same, MemoryDevice.read_of_healthy holds.closed reads (lt_size_of_lt_total holds below)] at read
    exact ⟨rfl, (Except.ok.inj read).symm⟩
  · rintro e t ⟨-, io, -, read⟩
    rw [same, MemoryDevice.read_of_healthy holds.closed reads (lt_size_of_lt_total holds below)] at read
    cases read

theorem readSuperBlock_holds (same : s.device = d) :
    (readSuperBlock : FsM MemoryDevice SuperBlock).run s = .ok sb s := by
  have layout := SuperBlock.layout_of_isConsistent holds.wellFormed.consistent
  have start := layout.afterSuper
  have ordered := layout.inodeBitmapEnd
  have ordered' := layout.dataBitmapEnd
  have ordered'' := layout.inodeRegionEnd
  apply readSuperBlock_run
  rw [same]
  refine ⟨d.disk 0, MemoryDevice.read_of_healthy holds.closed reads
    (lt_size_of_lt_total holds (by omega)), holds.wellFormed.super, holds.wellFormed.consistent,
    holds.fits⟩

theorem readRegion_holds (same : s.device = d) (addr len : Int32)
    (below : addr.toInt.toNat + len.toInt.toNat ≤ sb.dataRegionAddr.toInt.toNat) :
    Ends (readRegion addr len : FsM MemoryDevice ByteArray) s
      (fun bytes t => t = s ∧ bytes = d.disk.region addr.toInt.toNat len.toInt.toNat)
      fun _ _ => False := by
  simp only [readRegion, ends_bind, List.range_eq_range']
  -- after `j` turns the buffer holds the region's first `j` blocks
  refine ends_forIn_range' 0 _ _ _ s
    (fun j acc t => t = s ∧ acc = d.disk.region addr.toInt.toNat j) ?_ ?_ ⟨rfl, rfl⟩
  · rintro j acc t - high ⟨rfl, rfl⟩
    simp only [ends_bind]
    refine (readBlock_ends_holds holds reads same (by omega)).mono ?_ fun _ _ never => never
    rintro b t ⟨rfl, rfl⟩
    exact (ends_pure _).2 ⟨rfl, (Disk.region_succ _ _ _).symm⟩
  · rintro acc t ⟨rfl, rfl⟩
    exact ⟨rfl, by rw [Nat.zero_add]⟩

theorem inodeBitmapOf_holds (same : s.device = d) :
    (inodeBitmapOf sb : FsM MemoryDevice ByteArray).run s = .ok (d.disk.inodeBitmap sb) s := by
  have layout := SuperBlock.layout_of_isConsistent holds.wellFormed.consistent
  have ordered := layout.dataBitmapEnd
  have ordered' := layout.inodeRegionEnd
  have ordered'' := layout.inodeBitmapEnd
  obtain ⟨bytes, t, run, rfl, rfl⟩ :=
    exists_run_ok (readRegion_holds holds reads same sb.inodeBitmapAddr sb.inodeBitmapLen (by omega))
  exact run

theorem dataBitmapOf_holds (same : s.device = d) :
    (dataBitmapOf sb : FsM MemoryDevice ByteArray).run s = .ok (d.disk.dataBitmap sb) s := by
  have layout := SuperBlock.layout_of_isConsistent holds.wellFormed.consistent
  have ordered := layout.dataBitmapEnd
  have ordered' := layout.inodeRegionEnd
  obtain ⟨bytes, t, run, rfl, rfl⟩ :=
    exists_run_ok (readRegion_holds holds reads same sb.dataBitmapAddr sb.dataBitmapLen (by omega))
  exact run

theorem loadInode_holds (same : s.device = d) (i : InodeNumber) :
    Ends (loadInode sb i : FsM MemoryDevice Inode) s
      (fun inode t => t = s ∧ d.disk.stat? sb i = some inode)
      (fun e t => t.device = s.device ∧ e = .fs .invalidInode ∧ d.disk.stat? sb i = none) := by
  have layout := SuperBlock.layout_of_isConsistent holds.wellFormed.consistent
  have whole := holds.wellFormed.whole
  simp only [loadInode, ends_bind]
  refine (inodeLocation_ends s sb i).mono ?_ ?_
  · rintro ⟨blockNumber, offset⟩ t ⟨rfl, slot, location⟩
    simp only [Prod.mk.injEq] at location
    obtain ⟨rfl, rfl⟩ := location
    have bits := layout.inodeBits
    have ordered := layout.inodeBitmapEnd
    have ordered' := layout.dataBitmapEnd
    have ordered'' := layout.inodeRegionEnd
    have bitsPer : bitsPerBlock = 32768 := rfl
    have inBitmap : i.toInt.toNat < sb.inodeBitmapLen.toInt.toNat * bitsPerBlock := by
      unfold HasSlot at slot
      omega
    simp only [isAllocated, ends_bind]
    refine (readBlock_ends_holds holds reads same (by rw [bitsPer] at inBitmap ⊢; omega)).mono ?_
      fun _ _ never => never.elim
    rintro bm u ⟨rfl, rfl⟩
    have bit : (decide (i.toInt.toNat % bitsPerBlock <
        (d.disk (sb.inodeBitmapAddr.toInt.toNat + i.toInt.toNat / bitsPerBlock)).size * 8) &&
        Bitmap.test (d.disk (sb.inodeBitmapAddr.toInt.toNat + i.toInt.toNat / bitsPerBlock))
          (i.toInt.toNat % bitsPerBlock)) =
        Bitmap.test (d.disk.inodeBitmap sb) i.toInt.toNat := by
      rw [Disk.inodeBitmap, Disk.test_region whole inBitmap, whole, decide_eq_true (by
        rw [bitsPer, show blockSize = 4096 from rfl]; omega), Bool.true_and]
    simp only [ends_pure, bit]
    by_cases set : Bitmap.test (d.disk.inodeBitmap sb) i.toInt.toNat = true
    · have allocated : d.disk.Allocated sb i := ⟨slot, set⟩
      simp only [set, Bool.not_true, Bool.false_eq_true, if_false, ends_bind]
      refine (readBlock_ends_holds holds reads same (by
        have := layout.slotBlock_bounds slot; omega)).mono ?_ fun _ _ never => never.elim
      rintro blk v ⟨rfl, rfl⟩
      have fits : slotOffset i ≤ (d.disk (slotBlock sb i)).size := by
        rw [whole]
        have := slotOffset_add_le i
        omega
      rw [if_pos fits]
      unfold Disk.stat?
      rw [if_pos allocated]
      rw [show Inode.decode? ((d.disk (slotBlock sb i)).extract (slotOffset i)
        (d.disk (slotBlock sb i)).size) = d.disk.inode? sb i from rfl]
      cases decoded : d.disk.inode? sb i with
      | some inode => exact (ends_pure _).2 ⟨rfl, rfl⟩
      | none =>
        simp only [ends_bind, ends_log, ends_fail, and_self]
    · have free : ¬d.disk.Allocated sb i := fun allocated => set allocated.2
      simp only [Bool.not_eq_true] at set
      simp only [set, Bool.not_false, if_true, ends_bind, ends_log, ends_fail]
      unfold Disk.stat?
      rw [if_neg free]
      exact ⟨trivial, trivial, rfl⟩
  · rintro e t ⟨rfl, rfl, noSlot⟩
    unfold Disk.stat?
    rw [if_neg fun allocated => noSlot allocated.1]
    exact ⟨rfl, rfl, rfl⟩

theorem readContent_holds (same : s.device = d) (inode : Inode) (length : Nat) :
    Ends (readContent sb inode length : FsM MemoryDevice ByteArray) s
      (fun content t => t = s ∧ (∀ b ∈ inode.blocks.take (blocksFor length), InData sb b) ∧
        content = d.disk.content inode length)
      (fun e t => t.device = s.device ∧ e = .fs .invalidInode ∧
        ¬∀ b ∈ inode.blocks.take (blocksFor length), InData sb b) := by
  have layout := SuperBlock.layout_of_isConsistent holds.wellFormed.consistent
  simp only [readContent, ends_bind]
  -- the blocks visited so far lie in the data region, and the buffer gathers them
  refine ends_forIn _ _ _ s
    (fun rest acc t => t = s ∧ ∃ done, inode.blocks.take (blocksFor length) = done ++ rest ∧
      (∀ b ∈ done, InData sb b) ∧ acc = gather length (done.map fun b => d.disk b.toNat))
    ?_ ?_ ⟨rfl, [], rfl, fun _ absent => absurd absent List.not_mem_nil, rfl⟩
  · rintro x rest acc t ⟨rfl, done, split, inside, rfl⟩
    simp only [ends_bind]
    refine (checkDataBlock_ends t sb x).mono ?_ ?_
    · rintro - t ⟨rfl, insideX⟩
      refine (readBlock_ends_holds holds reads same
        ((layout.inData_iff x).1 insideX).2).mono ?_ fun _ _ never => never.elim
      rintro bx t ⟨rfl, rfl⟩
      refine (ends_pure _).2 ⟨rfl, done ++ [x], by rw [split, List.append_assoc]; rfl, ?_, ?_⟩
      · intro b member
        rcases List.mem_append.1 member with old | new
        · exact inside b old
        · rw [List.mem_singleton.1 new]
          exact insideX
      · rw [List.map_append, List.map_singleton, gather_append_singleton]
        rfl
    · rintro e u ⟨⟨-, unchanged⟩, rfl, outside⟩
      refine ⟨unchanged, rfl, fun all => outside (all x ?_)⟩
      rw [split]
      exact List.mem_append_right _ List.mem_cons_self
  · rintro acc t ⟨rfl, done, split, inside, rfl⟩
    rw [List.append_nil] at split
    subst split
    exact (ends_pure _).2 ⟨rfl, inside, rfl⟩

theorem readContent_allocated (same : s.device = d) {i : InodeNumber} {inode : Inode}
    (found : d.disk.stat? sb i = some inode) (length : Nat) :
    (readContent sb inode length : FsM MemoryDevice ByteArray).run s =
      .ok (d.disk.content inode length) s := by
  obtain ⟨allocated, decoded⟩ := Disk.stat?_eq_some.1 found
  have inside : ∀ b ∈ inode.blocks.take (blocksFor length), InData sb b := fun b member =>
    holds.wellFormed.inData i inode allocated decoded b (List.mem_of_mem_take member)
  have spec : Ends (readContent sb inode length : FsM MemoryDevice ByteArray) s
      (fun content t => content = d.disk.content inode length ∧ t = s) fun _ _ => False :=
    (readContent_holds holds reads same inode length).mono
      (fun _ _ read => ⟨read.2.2, read.1⟩) fun _ _ refused => refused.2.2 inside
  obtain ⟨content, t, run, rfl, rfl⟩ := exists_run_ok spec
  exact run

theorem loadDirectory_holds (same : s.device = d) (i : InodeNumber) :
    Ends (loadDirectory sb i : FsM MemoryDevice (Inode × List DirEntry)) s
      (fun r t => t = s ∧ d.disk.stat? sb i = some r.1 ∧ r.1.kind = .directory ∧
        r.2 = slotsOf (d.disk.content r.1 r.1.fileSize))
      (fun e t => t.device = s.device ∧ e = .fs .invalidInode ∧
        ∀ dir, d.disk.stat? sb i = some dir → dir.kind ≠ .directory) := by
  simp only [loadDirectory, ends_bind]
  refine (loadInode_holds holds reads same i).mono ?_ ?_
  · rintro dir t ⟨rfl, found⟩
    by_cases directory : dir.isDirectory = true
    · have kind : dir.kind = .directory := by simpa [Inode.isDirectory] using directory
      simp only [directory, Bool.not_true, Bool.false_eq_true, if_false, ends_bind]
      rw [ends_run_ok (readContent_allocated holds reads same found dir.fileSize)]
      exact (ends_pure _).2 ⟨rfl, found, kind, rfl⟩
    · simp only [directory, Bool.not_false, if_true, ends_bind, ends_fail]
      refine ⟨trivial, trivial, fun dir' found' => ?_⟩
      rw [found, Option.some.injEq] at found'
      subst found'
      simpa [Inode.isDirectory] using directory
  · rintro e t ⟨unchanged, rfl, missing⟩
    exact ⟨unchanged, rfl, fun dir found => by rw [missing] at found; cases found⟩

/-- `stat` answers the inode the disk holds for a number and refuses any other number. -/
theorem stat_holds (same : s.device = d) (i : InodeNumber) :
    Ends (stat i : FsM MemoryDevice Inode) s
      (fun inode t => t = s ∧ d.disk.stat? sb i = some inode)
      (fun e t => t.device = s.device ∧ e = .fs .invalidInode ∧ d.disk.stat? sb i = none) := by
  simp only [stat, ends_bind]
  rw [ends_run_ok (readSuperBlock_holds holds reads same)]
  exact loadInode_holds holds reads same i

end Helpers

/-! ## The read-only calls -/

section Calls

variable {d : MemoryDevice} {sb : SuperBlock} (holds : d.Holds sb) (reads : d.failReads = none)

include holds reads

/-- `stat` answers the inode the disk holds for a number, refuses any other, and writes nothing. -/
theorem stat_answer (i : InodeNumber) :
    answer (stat i : FsM MemoryDevice Inode) d =
      (d.disk.stat? sb i).elim (.error (.fs .invalidInode)) .ok ∧
    after (stat i : FsM MemoryDevice Inode) d = d := by
  apply answer_after_of_ends fun r d' => r = _ ∧ d' = d
  refine (stat_holds holds reads rfl i).mono ?_ ?_
  · rintro inode t ⟨rfl, found⟩
    rw [found]
    exact ⟨rfl, rfl⟩
  · rintro e t ⟨same, rfl, missing⟩
    rw [missing]
    exact ⟨rfl, same⟩

/-- `read` answers the first bytes of an allocated inode's content, refusing an unallocated
number and then an oversized read; it writes nothing. -/
theorem read_answer (i : InodeNumber) (size : Nat) :
    answer (read i size : FsM MemoryDevice ByteArray) d =
      (d.disk.stat? sb i).elim (.error (.fs .invalidInode)) (fun inode =>
        if maxFileSize < size then .error (.fs .invalidSize)
        else .ok (d.disk.content inode (min size inode.fileSize))) ∧
    after (read i size : FsM MemoryDevice ByteArray) d = d := by
  apply answer_after_of_ends fun r d' => r = _ ∧ d' = d
  simp only [Engine.read, ends_bind]
  rw [ends_run_ok (readSuperBlock_holds holds reads rfl)]
  refine (loadInode_holds holds reads rfl i).mono ?_ ?_
  · rintro inode t ⟨rfl, found⟩
    rw [found]
    simp only [Option.elim_some, ends_ite, gt_iff_lt]
    split
    · simp only [ends_bind, ends_fail, and_self]
    · rw [ends_run_ok (readContent_allocated holds reads rfl found _)]
      exact ⟨rfl, rfl⟩
  · rintro e t ⟨same, rfl, missing⟩
    rw [missing]
    exact ⟨rfl, same⟩

omit reads in
theorem slotsOf_content {dir : Inode} {i : InodeNumber} (found : d.disk.stat? sb i = some dir) :
    slotsOf (d.disk.content dir dir.fileSize) = d.disk.entries dir :=
  Disk.slotsOf_gather holds.wellFormed.whole
    (Disk.blockCount_le_of_inode? (Disk.stat?_eq_some.1 found).2)

/-- `readDir` answers the used slots of an allocated directory in order; it writes nothing. -/
theorem readDir_answer (i : InodeNumber) :
    answer (readDir i : FsM MemoryDevice (List DirEntry)) d =
      (d.disk.stat? sb i).elim (.error (.fs .invalidInode)) (fun dir =>
        if dir.kind = .directory then .ok ((d.disk.entries dir).filter (·.isUsed))
        else .error (.fs .invalidInode)) ∧
    after (readDir i : FsM MemoryDevice (List DirEntry)) d = d := by
  apply answer_after_of_ends fun r d' => r = _ ∧ d' = d
  simp only [readDir, ends_bind]
  rw [ends_run_ok (readSuperBlock_holds holds reads rfl)]
  refine (loadDirectory_holds holds reads rfl i).mono ?_ ?_
  · rintro ⟨dir, slots⟩ t ⟨rfl, found, kind, listed⟩
    dsimp only at found kind listed
    subst listed
    rw [found, Option.elim_some, if_pos kind, slotsOf_content holds found]
    exact ⟨rfl, rfl⟩
  · rintro e t ⟨same, rfl, notDirectory⟩
    refine ⟨?_, same⟩
    cases found : d.disk.stat? sb i with
    | none => rfl
    | some dir => rw [Option.elim_some, if_neg (notDirectory dir found)]

/-- `lookup` answers what the first used slot of the name binds, `notFound` for a missing name,
`invalidInode` for a non-directory; it writes nothing. -/
theorem lookup_answer (parent : InodeNumber) (name : String) :
    answer (lookup parent name : FsM MemoryDevice InodeNumber) d =
      (d.disk.stat? sb parent).elim (.error (.fs .invalidInode)) (fun dir =>
        if dir.kind = .directory then
          ((d.disk.entries dir).find? (fun e => e.isUsed && e.name == name)).elim
            (.error (.fs .notFound)) (fun e => .ok e.inum)
        else .error (.fs .invalidInode)) ∧
    after (lookup parent name : FsM MemoryDevice InodeNumber) d = d := by
  apply answer_after_of_ends fun r d' => r = _ ∧ d' = d
  simp only [lookup, ends_bind]
  rw [ends_run_ok (readSuperBlock_holds holds reads rfl)]
  refine (loadDirectory_holds holds reads rfl parent).mono ?_ ?_
  · rintro ⟨dir, slots⟩ t ⟨rfl, found, kind, listed⟩
    dsimp only at found kind listed
    subst listed
    rw [found, Option.elim_some, if_pos kind, slotsOf_content holds found]
    cases (d.disk.entries dir).find? (fun e => e.isUsed && e.name == name) with
    | none => exact ⟨rfl, rfl⟩
    | some e => exact ⟨rfl, rfl⟩
  · rintro e t ⟨same, rfl, notDirectory⟩
    refine ⟨?_, same⟩
    cases found : d.disk.stat? sb parent with
    | none => rfl
    | some dir => rw [Option.elim_some, if_neg (notDirectory dir found)]

end Calls

end InodeFs
