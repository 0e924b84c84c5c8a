import InodeFs.Proofs.Write

/-!
A write on a device that holds a file system: refused for the first of four causes
(`writeRefusal`), and otherwise a whole-file replace (`write_replaces_file`).
-/

namespace InodeFs

open Engine FsM

namespace Disk

/-- Why a write of `bytes` to `inum` is refused, in the order the engine checks. -/
def writeRefusal (disk : Disk) (sb : SuperBlock) (inum : InodeNumber) (bytes : ByteArray) :
    Option FsError :=
  match disk.stat? sb inum with
  | none => some .invalidInode
  | some inode =>
    if maxFileSize < bytes.size then some .invalidSize
    else if inode.kind = .directory then some .invalidType
    else if (Bitmap.clearBits (disk.dataBitmap sb) sb.numData.toInt.toNat).length <
        blocksFor bytes.size - inode.blockCount then some .notEnoughSpace
    else none

theorem gather_chunks (bytes : ByteArray) {length : Nat} (within : length ≤ bytes.size) :
    gather length ((List.range (blocksFor length)).map fun k =>
      fitTo blockSize (bytes.extract (k * blockSize) ((k + 1) * blockSize))) =
      bytes.extract 0 length := by
  have bs : blockSize = 4096 := rfl
  obtain ⟨size, read⟩ := gather_of_whole length ((List.range (blocksFor length)).map fun k =>
    fitTo blockSize (bytes.extract (k * blockSize) ((k + 1) * blockSize)))
    (by simp [size_fitTo])
  apply ext_byteAt
  · rw [size, List.length_map, List.length_range, ByteArray.size_extract]
    unfold blocksFor
    rw [bs]
    omega
  · intro i below
    rw [size] at below
    have early : i < length := by omega
    have inChunk : i / blockSize < blocksFor length := by
      unfold blocksFor
      rw [bs]
      omega
    rw [read i early, List.getD_eq_getElem?_getD, List.getElem?_map, List.getElem?_range inChunk,
      Option.map_some, Option.getD_some, byteAt_fitTo, if_pos (Nat.mod_lt _ (by rw [bs]; omega)),
      byteAt_extract, if_pos (by rw [bs]; omega), byteAt_extract, Nat.zero_add, if_pos early,
      Nat.div_add_mod']

end Disk

namespace Engine

/-! ## What a write leaves on the disk -/

namespace Rewrite

variable {disk disk' : Disk} {sb : SuperBlock} {inum : InodeNumber} {bytes : ByteArray}
  {inode inode' : Inode} {fresh : List Nat} (r : Rewrite disk disk' sb inum bytes inode inode' fresh)
  (wf : disk.WellFormed sb)

include r wf

theorem pointer_unique {k k' : Nat} (below : k < blocksFor bytes.size)
    (below' : k' < blocksFor bytes.size) {b : UInt32} (pointer : inode'.pointer? k = some b)
    (pointer' : inode'.pointer? k' = some b) : k' = k := by
  have needed := blocksFor_le_directPointers r.small
  have distinct := (Inode.nodup_blocks_iff inode').1 (r.nodup' wf)
  rw [r.blockCount'] at distinct
  by_contra apart
  rcases Nat.lt_or_gt_of_ne apart with early | late
  · exact distinct k' k early (by omega) (by rw [pointer, pointer'])
  · exact distinct k k' late (by omega) (by rw [pointer, pointer'])

theorem written_of_pointer {k : Nat} (below : k < blocksFor bytes.size) {b : UInt32}
    (pointer : inode'.pointer? k = some b) :
    disk' b.toNat = fitTo blockSize (bytes.extract (k * blockSize) ((k + 1) * blockSize)) :=
  r.written k below b pointer fun _ below' pointer' => r.pointer_unique wf below below' pointer pointer'

theorem content_self {length : Nat} (within : length ≤ bytes.size) :
    disk'.content inode' length = bytes.extract 0 length := by
  have needed := blocksFor_le_directPointers r.small
  have shorter : blocksFor length ≤ blocksFor bytes.size := by
    unfold blocksFor
    exact Nat.div_le_div_right (by omega)
  rw [Disk.content, ← Disk.gather_chunks bytes within]
  congr 1
  apply List.ext_getElem?
  intro k
  rw [List.getElem?_map, List.getElem?_take, List.getElem?_map]
  by_cases early : k < blocksFor length
  · rw [if_pos early, List.getElem?_range early, Inode.getElem?_blocks, r.blockCount',
      if_pos (by omega)]
    obtain ⟨b, pointer⟩ := Option.isSome_iff_exists.1 ((inode'.pointer?_isSome k).2 (by omega))
    rw [pointer, Option.map_some, Option.map_some, r.written_of_pointer wf (by omega) pointer]
  · rw [if_neg early, List.getElem?_eq_none (by simp; omega)]
    rfl

omit wf in
theorem stat?_of_ne {i : InodeNumber} (other : i ≠ inum) : disk'.stat? sb i = disk.stat? sb i := by
  unfold Disk.stat?
  by_cases allocated : disk.Allocated sb i
  · rw [if_pos ((r.allocated_iff i).2 allocated), if_pos allocated, r.inode?_of_ne allocated.1 other]
  · rw [if_neg (fun allocated' => allocated ((r.allocated_iff i).1 allocated')), if_neg allocated]

theorem content_of_ne {i : InodeNumber} (other : i ≠ inum) {inode₀ : Inode}
    (found : disk.stat? sb i = some inode₀) (length : Nat) :
    disk'.content inode₀ length = disk.content inode₀ length := by
  obtain ⟨allocated, decoded⟩ := Disk.stat?_eq_some.1 found
  unfold Disk.content
  congr 1
  apply List.map_congr_left
  intro b member
  exact r.kept_of_listed wf other allocated decoded (List.mem_of_mem_take member)

theorem entries_of_ne {i : InodeNumber} (other : i ≠ inum) {dir : Inode}
    (found : disk.stat? sb i = some dir) : disk'.entries dir = disk.entries dir := by
  obtain ⟨allocated, decoded⟩ := Disk.stat?_eq_some.1 found
  unfold Disk.entries
  apply List.filterMap_congr
  intro k member
  exact Disk.slot?_of_blocks_kept (Disk.blockCount_le_of_inode? decoded)
    (fun b listed => r.kept_of_listed wf other allocated decoded listed)
    (Nat.lt_of_lt_of_le (List.mem_range.1 member) (Disk.fileSize_div_le dir))

end Rewrite

section Holds

variable {d : MemoryDevice} {sb : SuperBlock} (holds : d.Holds sb) (reads : d.failReads = none)
  {s : Session MemoryDevice} (same : s.device = d)

include holds reads same

/-- The commit closing a call on a device holding a file system stops only on an injected
failure, changing nothing. -/
theorem commit_holds (c : Changeset) (only : c.Only (· < d.size)) :
    Ends (c.commit : FsM MemoryDevice Unit) s (fun _ _ => True)
      (fun _ t => t.device = d ∧ (d.failWrites = none → d.failCommit = false → False)) := by
  by_cases healthy : d.failWrites = none ∧ d.failCommit = false
  · subst same
    exact (Changeset.commit_ends_healthy s c healthy.1 healthy.2 only).mono
      (fun _ _ _ => trivial) fun _ _ never => never.elim
  · refine (Changeset.commit_ends_memory s c (same ▸ holds.closed)).mono (fun _ _ _ => trivial) ?_
    intro e t failed
    exact ⟨failed.2.trans same, fun writes commits => healthy ⟨writes, commits⟩⟩

/-- A write on a device holding a file system, whose reads do not fail, succeeds exactly when no
cause refuses it, and otherwise stops on the first, changing nothing. -/
theorem write_ends_holds (inum : InodeNumber) (bytes : ByteArray) :
    Ends (write inum bytes : FsM MemoryDevice Nat) s
      (fun r _ => d.disk.writeRefusal sb inum bytes = none ∧ r = bytes.size)
      (fun e t => t.device = d ∧ (d.failWrites = none → d.failCommit = false →
        ∃ cause, d.disk.writeRefusal sb inum bytes = some cause ∧ e = .fs cause)) := by
  have wf := holds.wellFormed
  have layout := wf.layout
  have counts := SuperBlock.counts_of_isConsistent wf.consistent
  simp only [write, ends_bind]
  rw [ends_run_ok (readSuperBlock_holds holds reads same)]
  refine (loadInode_holds holds reads same inum).mono ?_ ?_
  swap
  · rintro e t ⟨unchanged, rfl, missing⟩
    exact ⟨unchanged.trans same, fun _ _ => ⟨.invalidInode, by rw [Disk.writeRefusal, missing], rfl⟩⟩
  rintro inode t ⟨loaded, found⟩
  rw [loaded]
  obtain ⟨allocated, decoded⟩ := Disk.stat?_eq_some.1 found
  have fits := Disk.blockCount_le_of_inode? decoded
  have inData := wf.inData inum inode allocated decoded
  have refusal : d.disk.writeRefusal sb inum bytes =
      if maxFileSize < bytes.size then some .invalidSize
      else if inode.kind = .directory then some .invalidType
      else if (Bitmap.clearBits (d.disk.dataBitmap sb) sb.numData.toInt.toNat).length <
        blocksFor bytes.size - inode.blockCount then some .notEnoughSpace
      else none := by
    rw [Disk.writeRefusal, found]
  simp only [ends_ite]
  by_cases tooBig : bytes.size > maxFileSize
  · rw [if_pos tooBig, ends_bind, ends_fail]
    exact ⟨same, fun _ _ => ⟨.invalidSize, by rw [refusal, if_pos tooBig], rfl⟩⟩
  rw [if_neg tooBig]
  have needed := blocksFor_le_directPointers (Nat.le_of_not_lt tooBig)
  simp only [ends_bind, ends_ite]
  by_cases notRegular : (inode.kind != .regularFile) = true
  · have directory : inode.kind = .directory := by
      cases kind : inode.kind
      · rfl
      · rw [kind] at notRegular
        cases notRegular
    rw [if_pos notRegular, ends_fail]
    exact ⟨same, fun _ _ => ⟨.invalidType, by rw [refusal, if_neg tooBig, if_pos directory], rfl⟩⟩
  rw [if_neg notRegular]
  have regular : inode.kind = .regularFile := by simpa using notRegular
  -- the file's blocks all lie in the data region, so checking them stops nothing
  refine ends_forIn _ _ _ _ (fun rest _ u => u = s ∧ ∃ done, inode.blocks = done ++ rest) ?_ ?_
    ⟨rfl, [], rfl⟩
  · rintro block rest _ u ⟨rfl, done, split⟩
    simp only [ends_bind]
    refine (checkDataBlock_ends _ sb block).mono ?_ fun _ _ refused =>
      (refused.2.2 (inData block (by rw [split]; exact List.mem_append_right _ List.mem_cons_self))).elim
    rintro _ v ⟨rfl, -⟩
    exact (ends_pure _).2 ⟨rfl, done ++ [block], by rw [split, List.append_assoc]; rfl⟩
  rintro _ u ⟨checked, -⟩
  rw [checked, ends_run_ok (dataBitmapOf_holds holds reads same)]
  have free : Bitmap.countFree (d.disk.dataBitmap sb) sb.numData.toInt.toNat =
      (Bitmap.clearBits (d.disk.dataBitmap sb) sb.numData.toInt.toNat).length := by
    rw [Bitmap.countFree_eq, Disk.limit_dataBitmap _ layout]
  by_cases short : (decide (blocksFor bytes.size > inode.blockCount) &&
      decide (Bitmap.countFree (d.disk.dataBitmap sb) sb.numData.toInt.toNat <
        blocksFor bytes.size - inode.blockCount)) = true
  · rw [if_pos short, ends_fail]
    have lacking : (Bitmap.clearBits (d.disk.dataBitmap sb) sb.numData.toInt.toNat).length <
        blocksFor bytes.size - inode.blockCount := by
      simp only [Bool.and_eq_true, decide_eq_true_eq] at short
      rw [← free]
      exact short.2
    exact ⟨same, fun _ _ => ⟨.notEnoughSpace, by
      rw [refusal, if_neg tooBig, if_neg (by rw [regular]; exact FileKind.noConfusion), if_pos lacking],
      rfl⟩⟩
  rw [if_neg short]
  have enough : ¬(Bitmap.clearBits (d.disk.dataBitmap sb) sb.numData.toInt.toNat).length <
      blocksFor bytes.size - inode.blockCount := by
    simp only [Bool.and_eq_true, decide_eq_true_eq, not_and] at short
    rw [← free]
    by_cases grows : blocksFor bytes.size > inode.blockCount
    · exact short grows
    · omega
  have accepted : d.disk.writeRefusal sb inum bytes = none := by
    rw [refusal, if_neg tooBig, if_neg (by rw [regular]; exact FileKind.noConfusion), if_neg enough]
  refine (grow_ends _ sb inode (d.disk.dataBitmap sb) inode.blockCount
    (blocksFor bytes.size - inode.blockCount) (by omega) ?_).mono (fun _ _ grown => grown) ?_
  swap
  · rintro e t ⟨-, -, lacking⟩
    rw [Disk.limit_dataBitmap _ layout] at lacking
    exact (enough lacking).elim
  intro fresh inode₁ data₁ length grown
  have wide : sb.numData.toInt.toNat ≤ Bitmap.width data₁ := by
    rw [grown.width]
    have limit := Disk.limit_dataBitmap d.disk layout
    unfold Bitmap.limit at limit
    omega
  refine (shrink_ends _ sb inode₁ data₁ (blocksFor bytes.size)
    (inode.blockCount - blocksFor bytes.size) (by omega) wide counts.2.1 ?_).mono
    (fun _ _ shrunk => shrunk) ?_
  swap
  · rintro e t ⟨m, late, early, b, pointer, outside⟩
    rw [grown.pointers, if_neg (by omega)] at pointer
    exact (outside (inData b (Inode.mem_blocks.2 ⟨m, by omega, pointer⟩))).elim
  intro inode₂ data₂ shrunk
  refine (stageChunks_ends _ d.disk inode₂ (chunksOf bytes) (by rw [length_chunksOf]; exact needed)
    ?_).mono (fun _ _ staged => staged) fun _ _ never => never.elim
  intro c₁ whole₁ only₁ _
  have slot : HasSlot sb inum := allocated.1
  refine (Changeset.stageInode_holds holds reads same whole₁ slot
    (inode₂.setSize bytes.size)).mono ?_ fun _ _ never => never.elim
  rintro c₂ t ⟨rfl, base, patched, -, -, rfl⟩
  have layoutSize := layout.totalBlocks_eq
  have slotBounds := layout.slotBlock_bounds slot
  have regions := layout.dataBitmapEnd
  have regions' := layout.inodeRegionEnd
  have contentOnDevice : c₁.Only (· < d.size) := by
    refine only₁.mono fun m listed => ?_
    obtain ⟨k, below, b, pointer, at_⟩ := listed
    rw [length_chunksOf] at below
    have inside := resized_inData layout fits rfl inData grown length shrunk below pointer
    rw [← at_]
    exact lt_size_of_lt_total holds ((layout.inData_iff b).1 inside).2
  have slotOnDevice : slotBlock sb inum < d.size := lt_size_of_lt_total holds (by omega)
  have onDevice : Changeset.Only (Changeset.stageRegionChanges
      (c₁.insert (slotBlock sb inum) patched) sb.dataBitmapAddr.toInt.toNat
        (d.disk.dataBitmap sb) data₂) (· < d.size) := by
    refine (contentOnDevice.insert slotOnDevice patched).stageRegionChanges fun k below => ?_
    apply lt_size_of_lt_total holds
    have width : (d.disk.dataBitmap sb).size = sb.dataBitmapLen.toInt.toNat * blockSize := by
      rw [Disk.dataBitmap, Disk.size_region]
    have bs : blockSize = 4096 := rfl
    unfold blocksFor at below
    rw [width, bs] at below
    omega
  refine (commit_holds holds reads same _ onDevice).mono ?_ ?_
  · intro _ _ _
    simp only [ends_log, ends_pure, and_true]
    exact accepted
  · intro e t stopped
    exact ⟨stopped.1, fun writes commits => (stopped.2 writes commits).elim⟩

end Holds

/-! ## The call -/

section Call

variable {d : MemoryDevice} {sb : SuperBlock} (holds : d.Holds sb) (healthy : d.Healthy)
  (inum : InodeNumber) (bytes : ByteArray)

include holds healthy

/-- With no failure injected, a write answers the content's size unless a cause refuses it. -/
theorem write_answer :
    answer (write inum bytes : FsM MemoryDevice Nat) d =
      (d.disk.writeRefusal sb inum bytes).elim (.ok bytes.size) (fun cause => .error (.fs cause)) ∧
    (d.disk.writeRefusal sb inum bytes ≠ none → after (write inum bytes : FsM MemoryDevice Nat) d = d) := by
  apply answer_after_of_ends fun r d' => r = _ ∧ (_ → d' = d)
  refine (write_ends_holds holds healthy.reads rfl inum bytes).mono ?_ ?_
  · rintro r t ⟨accepted, rfl⟩
    rw [accepted]
    exact ⟨rfl, fun refused => (refused rfl).elim⟩
  · rintro e t ⟨unchanged, stopped⟩
    obtain ⟨cause, refused, rfl⟩ := stopped healthy.writes healthy.commits
    rw [refused]
    exact ⟨rfl, fun _ => unchanged⟩

/-- A write no cause refuses commits a `Rewrite` and changes only the committed blocks. -/
theorem write_rewrites (accepted : d.disk.writeRefusal sb inum bytes = none) :
    after (write inum bytes : FsM MemoryDevice Nat) d =
      { d with committed := (after (write inum bytes : FsM MemoryDevice Nat) d).committed } ∧
    ∃ inode inode' fresh, Rewrite d.disk (after (write inum bytes : FsM MemoryDevice Nat) d).disk
      sb inum bytes inode inode' fresh := by
  refine answer_after_of_ends (x := (write inum bytes : FsM MemoryDevice Nat)) (d := d)
    (fun _ d' => d' = { d with committed := d'.committed } ∧
      ∃ inode inode' fresh, Rewrite d.disk d'.disk sb inum bytes inode inode' fresh) ?_
  refine ((write_ends_holds holds healthy.reads rfl inum bytes).and
    (write_commits { device := d } inum bytes holds.closed holds.wellFormed.whole)).mono ?_ ?_
  · rintro r t ⟨-, kept, sb', inode, inode', fresh, r'⟩
    have same : sb' = sb := by
      have decoded := r'.super
      rw [holds.wellFormed.super, Option.some.injEq] at decoded
      exact decoded.symm
    subst same
    exact ⟨kept, inode, inode', fresh, r'⟩
  · rintro e t ⟨⟨-, stopped⟩, -⟩
    obtain ⟨cause, refused, -⟩ := stopped healthy.writes healthy.commits
    rw [accepted] at refused
    cases refused

end Call

theorem Rewrite.holds {d d' : MemoryDevice} {sb : SuperBlock} (holds : d.Holds sb)
    (kept : d' = { d with committed := d'.committed }) {inum : InodeNumber} {bytes : ByteArray}
    {inode inode' : Inode} {fresh : List Nat} (r : Rewrite d.disk d'.disk sb inum bytes inode inode' fresh) :
    d'.Holds sb :=
  { closed := by rw [kept]; exact holds.closed,
    wellFormed := r.wellFormed holds.wellFormed,
    fits := by rw [kept]; exact holds.fits }

/-! ## What the calls see after a write -/

/-- What a write leaves: the file reads back as `bytes`, keeps its first blocks, takes the lowest
clear data bits, drops the rest with their bits, and every other inode reads as before. -/
structure Replaced (d d' : MemoryDevice) (sb : SuperBlock) (inum : InodeNumber) (bytes : ByteArray)
    (inode inode' : Inode) : Prop where
  found : d.disk.stat? sb inum = some inode
  found' : d'.disk.stat? sb inum = some inode'
  kind' : inode'.kind = .regularFile
  size' : inode'.fileSize = bytes.size
  readBack : ∀ k ≤ maxFileSize,
    answer (read inum k : FsM MemoryDevice ByteArray) d' = .ok (bytes.extract 0 (min k bytes.size))
  blocks' : inode'.blocks = inode.blocks.take (blocksFor bytes.size) ++
    ((Bitmap.clearBits (d.disk.dataBitmap sb) sb.numData.toInt.toNat).take
      (blocksFor bytes.size - inode.blockCount)).map fun j => sb.dataRegionAddr.toUInt32 + UInt32.ofNat j
  chunks : ∀ k < blocksFor bytes.size, ∀ b, inode'.pointer? k = some b →
    d'.disk b.toNat = fitTo blockSize (bytes.extract (k * blockSize) ((k + 1) * blockSize))
  dropped : ∀ k, blocksFor bytes.size ≤ k → k < inode.blockCount →
    inode'.pointer? k = some unusedBlock ∧ ∀ b, inode.pointer? k = some b →
      Bitmap.test (d'.disk.dataBitmap sb) (b - sb.dataRegionAddr.toUInt32).toNat = false
  others : ∀ i, i ≠ inum →
    answer (stat i : FsM MemoryDevice Inode) d' = answer (stat i : FsM MemoryDevice Inode) d ∧
    (∀ n, answer (read i n : FsM MemoryDevice ByteArray) d' =
      answer (read i n : FsM MemoryDevice ByteArray) d) ∧
    answer (readDir i : FsM MemoryDevice (List DirEntry)) d' =
      answer (readDir i : FsM MemoryDevice (List DirEntry)) d

/-- A `Rewrite` is seen by the calls as a replacement of the file's content. -/
theorem Rewrite.replaced {d d' : MemoryDevice} {sb : SuperBlock} (holds : d.Holds sb)
    (reads : d.failReads = none) (holds' : d'.Holds sb) (reads' : d'.failReads = none)
    {inum : InodeNumber} {bytes : ByteArray} {inode inode' : Inode} {fresh : List Nat}
    (r : Rewrite d.disk d'.disk sb inum bytes inode inode' fresh) :
    Replaced d d' sb inum bytes inode inode' := by
  have wf := holds.wellFormed
  have found' : d'.disk.stat? sb inum = some inode' :=
    Disk.stat?_eq_some.2 ⟨(r.allocated_iff inum).2 r.allocated, r.inode?_self⟩
  refine
    { found := Disk.stat?_eq_some.2 ⟨r.allocated, r.found⟩, found' := found', kind' := r.kind',
      size' := r.size', readBack := ?_, blocks' := ?_,
      chunks := fun k below b pointer => r.written_of_pointer wf below pointer, dropped := ?_,
      others := ?_ }
  · intro k small
    rw [(read_answer holds' reads' inum k).1, found', Option.elim_some, if_neg (by omega),
      r.size', r.content_self wf (Nat.min_le_right _ _)]
  · rw [r.blocks', r.lowest, r.length]
  · intro k late early
    refine ⟨by rw [r.pointers', if_neg (by omega), if_pos early], fun b pointer => ?_⟩
    -- a file that drops blocks takes none, so a dropped block's bit is set only if it was kept
    have none : fresh = [] := List.eq_nil_of_length_eq_zero (by rw [r.length]; omega)
    cases bit : Bitmap.test (d'.disk.dataBitmap sb) (b - sb.dataRegionAddr.toUInt32).toNat with
    | false => rfl
    | true =>
      rcases (r.bits' _).1 bit with taken | ⟨-, notDropped⟩
      · rw [none] at taken
        cases taken
      · exact (notDropped ⟨k, late, early, b, pointer, rfl⟩).elim
  · intro i other
    refine ⟨?_, fun n => ?_, ?_⟩
    · rw [(stat_answer holds' reads' i).1, (stat_answer holds reads i).1, r.stat?_of_ne other]
    · rw [(read_answer holds' reads' i n).1, (read_answer holds reads i n).1, r.stat?_of_ne other]
      cases found : d.disk.stat? sb i with
      | none => rfl
      | some inode₀ =>
        simp only [Option.elim_some]
        rw [r.content_of_ne wf other found]
    · rw [(readDir_answer holds' reads' i).1, (readDir_answer holds reads i).1, r.stat?_of_ne other]
      cases found : d.disk.stat? sb i with
      | none => rfl
      | some dir =>
        simp only [Option.elim_some]
        rw [r.entries_of_ne wf other found]

/-- A write on a device holding a file system, with no failure injected, is a whole-file
replace. -/
theorem write_replaces_file {d : MemoryDevice} {sb : SuperBlock} (holds : d.Holds sb)
    (healthy : d.Healthy) (inum : InodeNumber) (bytes : ByteArray) :
    answer (write inum bytes : FsM MemoryDevice Nat) d =
      (d.disk.writeRefusal sb inum bytes).elim (.ok bytes.size) (fun cause => .error (.fs cause)) ∧
    (d.disk.writeRefusal sb inum bytes ≠ none → after (write inum bytes : FsM MemoryDevice Nat) d = d) ∧
    (d.disk.writeRefusal sb inum bytes = none → ∃ inode inode',
      Replaced d (after (write inum bytes : FsM MemoryDevice Nat) d) sb inum bytes inode inode') := by
  obtain ⟨answered, unchanged⟩ := write_answer holds healthy inum bytes
  refine ⟨answered, unchanged, fun accepted => ?_⟩
  obtain ⟨kept, inode, inode', fresh, r⟩ := write_rewrites holds healthy inum bytes accepted
  have reads' : (after (write inum bytes : FsM MemoryDevice Nat) d).failReads = none := by
    rw [kept]
    exact healthy.reads
  exact ⟨inode, inode', r.replaced holds healthy.reads (r.holds holds kept) reads'⟩

end Engine

end InodeFs
