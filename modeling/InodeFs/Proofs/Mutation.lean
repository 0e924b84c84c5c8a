import InodeFs.Proofs.Commit
import InodeFs.Engine.Create
import InodeFs.Engine.Write
import InodeFs.Engine.Unlink

/-!
How the mutating calls stop. `create`, `write` and `unlink` only read the device until they
commit, so a call that stops before the commit leaves the device as it was; the one broken bound
any of them can reach is `create`'s entry running past its parent's last block.
-/

namespace InodeFs

namespace Engine

open FsM Changeset

variable {δ : Type}

/-- How a mutating call from `s` may stop, for a commit from `s` that stops only in `E`: a
broken bound leaves the device as it was and happens only under `cause`, and any other failure
leaves the device as it was or is one of the commit's. -/
def Stops (s : Session δ) (cause : Prop) (E : Fault → Session δ → Prop) (e : Fault)
    (t : Session δ) : Prop :=
  (e = .trap → t.device = s.device ∧ cause) ∧ (t.device = s.device ∨ E e t)

theorem stops_of_refused {s t : Session δ} {cause : Prop} {E : Fault → Session δ → Prop}
    {e : Fault} (refused : Refused s e t) : Stops s cause E e t :=
  ⟨fun trap => absurd trap refused.1, .inl refused.2⟩

theorem stops_of_fail {s : Session δ} {cause : Prop} {E : Fault → Session δ → Prop}
    (e : FsError) : Stops s cause E (.fs e) s :=
  stops_of_refused (refused_of_same rfl)

variable [BlockDevice δ]

/-- The commit closing a mutating call stops only as the commit does, never on a broken bound. -/
theorem commit_stops {s : Session δ} {cause : Prop} {E : Fault → Session δ → Prop}
    {ok : Unit → Session δ → Prop} (c : Changeset)
    (commitStops : Ends (c.commit : FsM δ Unit) s (fun _ _ => True) E) (after : ∀ t, ok () t) :
    Ends (c.commit : FsM δ Unit) s ok (Stops s cause E) := by
  refine ((commit_ends s c).and commitStops).mono ?_ ?_
  · intro _ t _
    exact after t
  · intro e t stopped
    exact ⟨fun trap => absurd trap stopped.1, .inr stopped.2⟩

/-! ## The staging steps -/

omit [BlockDevice δ] in
theorem newInode_ends (s : Session δ) (sb : SuperBlock) (kind : FileKind) (inum parent : InodeNumber)
    (data : ByteArray) :
    Ends (newInode sb kind inum parent data : FsM δ (Inode × Changeset × ByteArray)) s
      (fun r t => t = s ∧ Whole r.2.1) (fun e t => t = s ∧ e = .fs .notEnoughSpace) := by
  unfold newInode
  split
  · simp only [ends_bind]
    refine (allocateDataBlock_ends s sb data).mono ?_ ?_
    · intro r t allocated
      obtain ⟨data', block⟩ := r
      obtain ⟨rfl, -⟩ := allocated
      exact (ends_pure _).2 ⟨rfl, whole_stage whole_empty _ _⟩
    · intro e t failed
      exact ⟨failed.1, failed.2.1⟩
  · exact (ends_pure _).2 ⟨rfl, whole_empty⟩

/-- Appending an entry stages whole blocks, and breaks a bound only when the entry would run
past the end of the directory's last block. -/
theorem appendEntry_ends (s : Session δ) (sb : SuperBlock) (dir : Inode) (entry : DirEntry)
    (changes : Changeset) (data : ByteArray) (whole : Whole changes)
    (fits : dir.blockCount ≤ directPointers)
    (room : dir.fileSize % blockSize = 0 → dir.blockCount < directPointers) :
    Ends (appendEntry sb dir entry changes data : FsM δ (Inode × Changeset × ByteArray)) s
      (fun r t => t = s ∧ Whole r.2.1)
      (fun e t => t.device = s.device ∧
        (e = .trap → blockSize < dir.fileSize % blockSize + entrySize)) := by
  unfold appendEntry
  simp only [ends_ite, beq_iff_eq]
  split
  · next full =>
    simp only [ends_bind]
    refine (allocateDataBlock_ends s sb data).mono ?_ ?_
    · intro r t allocated
      obtain ⟨data', block⟩ := r
      obtain ⟨rfl, -⟩ := allocated
      have slot := (dir.setPointer?_isSome dir.blockCount block).2 (room full)
      obtain ⟨grown, set⟩ := Option.isSome_iff_exists.1 slot
      simp only [set, ends_expect_some]
      exact (ends_pure _).2 ⟨rfl, whole_stage whole _ _⟩
    · intro e t failed
      obtain ⟨rfl, rfl, -⟩ := failed
      exact ⟨rfl, Fault.noConfusion⟩
  · next notFull =>
    have spans : 1 ≤ dir.blockCount := by
      unfold Inode.blockCount blocksFor
      unfold blockSize at notFull ⊢
      omega
    have pointer := (dir.pointer?_isSome (dir.blockCount - 1)).2 (by omega)
    obtain ⟨last, lastBlock⟩ := Option.isSome_iff_exists.1 pointer
    simp only [ends_bind, ends_sub, if_pos spans, lastBlock, ends_expect_some]
    refine (checkDataBlock_ends s sb last).mono ?_ ?_
    · intro _ t checked
      obtain ⟨rfl, -⟩ := checked
      refine (writeRecord_ends t changes _ _ _).mono ?_ ?_
      · intro c' t written
        obtain ⟨rfl, base, patched, base_of, patch, rfl⟩ := written
        have full : patched.size = blockSize := by
          rw [size_of_patchAt patch, size_of_base whole base_of]
        exact (ends_pure _).2 ⟨rfl, whole_insert whole full⟩
      · intro e u stopped
        refine ⟨stopped.1, fun trap => ?_⟩
        have past := stopped.2 trap whole
        rwa [DirEntry.size_encode] at past
    · intro e t refused
      exact ⟨refused.1.2, fun trap => absurd trap refused.1.1⟩

theorem checkRemovable_ends (s : Session δ) (sb : SuperBlock) (target : Inode)
    (inum : InodeNumber) :
    Ends (checkRemovable sb target inum : FsM δ Unit) s (fun _ t => t = s) (Refused s) := by
  unfold checkRemovable
  split
  · simp only [ends_bind]
    refine (loadDirectory_ends s sb inum).mono ?_ fun _ _ refused => refused
    intro r t loaded
    obtain ⟨rfl, -⟩ := loaded
    split
    · simp only [ends_fail]
      exact refused_of_same rfl
    · rfl
  · rfl

/-- On whole blocks, staging an inode never breaks a bound and keeps the blocks whole. -/
theorem stageInode_ends_whole (s : Session δ) (sb : SuperBlock) (c : Changeset) (i : InodeNumber)
    (inode : Inode) (whole : Whole c) :
    Ends (stageInode sb c i inode : FsM δ Changeset) s (fun c' t => t = s ∧ Whole c')
      (Refused s) := by
  refine (stageInode_ends s sb c i inode).mono ?_ ?_
  · intro c' t staged
    obtain ⟨rfl, -, base, patched, base_of, patch, rfl⟩ := staged
    have full : patched.size = blockSize := by
      rw [size_of_patchAt patch, size_of_base whole base_of]
    exact ⟨rfl, whole_insert whole full⟩
  · intro e t stopped
    exact ⟨fun trap => stopped.2 trap whole, stopped.1⟩

theorem width_of_regionOf {d : δ} {start count : Nat} {bytes : ByteArray}
    (region : RegionOf d start count bytes) : Bitmap.width bytes = count * bitsPerBlock := by
  rw [Bitmap.width, region.size, bitsPerBlock, Nat.mul_assoc]

/-! ## `create` -/

/-- The parent is a directory whose last block has no room for one more entry after the ones
its size covers. -/
def LastBlockFull (d : δ) (parent : InodeNumber) : Prop :=
  ∃ sb dir, SuperOf d sb ∧ InodeOf d sb parent dir ∧ dir.kind = .directory ∧
    blockSize < dir.fileSize % blockSize + entrySize

/-- A size that is a whole number of entries leaves room for one more in its last block. -/
theorem entry_fits_of_aligned {n : Nat} (aligned : n % entrySize = 0) :
    n % blockSize + entrySize ≤ blockSize := by
  unfold entrySize blockSize at *
  omega

theorem create_ends (s : Session δ) (parent : InodeNumber) (kind : FileKind) (name : String)
    (E : Fault → Session δ → Prop)
    (commitStops : ∀ c : Changeset, Ends (c.commit : FsM δ Unit) s (fun _ _ => True) E) :
    Ends (create parent kind name : FsM δ InodeNumber) s (fun _ _ => True)
      (Stops s (LastBlockFull s.device parent) E) := by
  simp only [create, ends_bind]
  refine (readSuperBlock_ends s).mono ?_ fun _ _ refused => stops_of_refused refused
  intro sb t read
  obtain ⟨rfl, super⟩ := read
  refine (loadDirectory_ends t sb parent).mono ?_ fun _ _ refused => stops_of_refused refused
  intro r t loaded
  obtain ⟨dir, entries⟩ := r
  obtain ⟨rfl, found, isDir, content, read, rfl⟩ := loaded
  split
  · simp only [ends_bind, ends_fail]
    exact stops_of_fail _
  · split
    · -- the name is taken: the call answers from what it read
      refine (loadInode_ends t sb _).seq ?_ fun _ _ refused => stops_of_refused refused
      intro inode u loaded
      obtain ⟨rfl, -⟩ := loaded
      split
      · simp only [ends_bind, ends_fail]
        exact stops_of_fail _
      · simp only [ends_bind, ends_log, ends_pure]
    · refine (inodeBitmapOf_ends t sb).seq ?_ fun _ _ refused => stops_of_refused refused
      intro inodesBefore u inodeRegion
      obtain ⟨rfl, inodeRegion⟩ := inodeRegion
      refine (dataBitmapOf_ends u sb).seq ?_ fun _ _ refused => stops_of_refused refused
      intro dataBefore t dataRegion
      obtain ⟨rfl, -⟩ := dataRegion
      split
      · next bit free =>
        simp only [ends_bind, ends_pure, ends_ite]
        by_cases space : (dir.fileSize % blockSize == 0 && decide (dir.blockCount ≥ directPointers)) = true
        · rw [if_pos space, ends_fail]
          exact stops_of_fail _
        · rw [if_neg space]
          by_cases short : Bitmap.countFree dataBefore sb.numData.toInt.toNat <
              (if (dir.fileSize % blockSize == 0) = true then 1 else 0) +
                (if (kind == .directory) = true then 1 else 0)
          · rw [if_pos short, ends_fail]
            exact stops_of_fail _
          · rw [if_neg short]
            have room := (Bitmap.set?_isSome inodesBefore bit).2 (Bitmap.firstFree_lt free).2
            obtain ⟨inodes, set⟩ := Option.isSome_iff_exists.1 room
            simp only [set, ends_expect_some]
            refine (newInode_ends t sb kind _ parent dataBefore).mono ?_
              fun _ _ failed => ?_
            · intro r u made
              obtain ⟨rfl, whole⟩ := made
              have fits := found.blockCount_le
              have roomy : dir.fileSize % blockSize = 0 → dir.blockCount < directPointers := by
                simp only [Bool.and_eq_true, beq_iff_eq, decide_eq_true_eq, not_and] at space
                intro full
                exact Nat.lt_of_not_le (space full)
              refine (appendEntry_ends u sb dir _ _ _ whole fits roomy).mono ?_ ?_
              · intro r' t appended
                obtain ⟨rfl, whole⟩ := appended
                refine (stageInode_ends_whole t sb _ _ _ whole).mono ?_
                  fun _ _ refused => stops_of_refused refused
                intro c u staged
                obtain ⟨rfl, whole⟩ := staged
                refine (stageInode_ends_whole u sb c parent _ whole).mono ?_
                  fun _ _ refused => stops_of_refused refused
                intro c' t staged
                obtain ⟨rfl, -⟩ := staged
                exact commit_stops _ (commitStops _) fun _ => by simp only [ends_log]
              · intro e t stopped
                obtain ⟨same, overflow⟩ := stopped
                have kind : dir.kind = .directory := by simpa [Inode.isDirectory] using isDir
                exact ⟨fun trap => ⟨same, sb, dir, super, found, kind, overflow trap⟩, .inl same⟩
            · obtain ⟨rfl, rfl⟩ := failed
              exact stops_of_fail _
      · simp only [ends_bind, ends_fail]
        exact stops_of_fail _

/-! ## `write` -/

theorem length_chunksOf (b : ByteArray) : (chunksOf b).length = blocksFor b.size := by
  simp [chunksOf]

theorem blocksFor_le_directPointers {n : Nat} (small : n ≤ maxFileSize) :
    blocksFor n ≤ directPointers := by
  unfold blocksFor maxFileSize directPointers blockSize at *
  omega

theorem dataBit_lt {sb : SuperBlock} {b : UInt32} (inside : InData sb b)
    (nonneg : 0 ≤ sb.numData.toInt) : (b - sb.dataRegionAddr.toUInt32).toNat < sb.numData.toInt.toNat := by
  have below := UInt32.lt_iff_toNat_lt.1 inside.2
  rwa [Int32.toNat_toUInt32_of_nonneg nonneg] at below

theorem write_ends (s : Session δ) (inum : InodeNumber) (bytes : ByteArray)
    (E : Fault → Session δ → Prop)
    (commitStops : ∀ c : Changeset, Ends (c.commit : FsM δ Unit) s (fun _ _ => True) E) :
    Ends (write inum bytes : FsM δ Nat) s (fun _ _ => True) (Stops s False E) := by
  simp only [write, ends_bind]
  refine (readSuperBlock_ends s).mono ?_ fun _ _ refused => stops_of_refused refused
  intro sb t read
  obtain ⟨rfl, super⟩ := read
  refine (loadInode_ends t sb inum).mono ?_ fun _ _ refused => stops_of_refused refused
  intro inode t loaded
  obtain ⟨rfl, found⟩ := loaded
  obtain ⟨-, -, -, consistent, -⟩ := super
  have counts := SuperBlock.counts_of_isConsistent consistent
  have fits := found.blockCount_le
  simp only [ends_ite]
  by_cases tooBig : bytes.size > maxFileSize
  · rw [if_pos tooBig]
    simp only [ends_bind, ends_fail]
    exact stops_of_fail _
  rw [if_neg tooBig]
  have needed := blocksFor_le_directPointers (Nat.le_of_not_lt tooBig)
  simp only [ends_bind, ends_ite]
  by_cases notRegular : (inode.kind != .regularFile) = true
  · rw [if_pos notRegular, ends_fail]
    exact stops_of_fail _
  rw [if_neg notRegular]
  -- every block the file has lies in the data region, or the call stops before staging
  refine ends_forIn _ _ _ _ (fun _ _ u => u = t) ?_ ?_ rfl
  · intro block rest _ u same
    obtain rfl := same
    simp only [ends_bind]
    refine (checkDataBlock_ends _ sb block).mono ?_ fun _ _ refused => stops_of_refused refused.1
    intro _ v checked
    obtain ⟨rfl, -⟩ := checked
    rfl
  intro _ u same
  obtain rfl := same
  refine (dataBitmapOf_ends _ sb).mono ?_ fun _ _ refused => stops_of_refused refused
  intro dataBefore t region
  obtain ⟨rfl, region⟩ := region
  have wide : sb.numData.toInt.toNat ≤ Bitmap.width dataBefore := by
    rw [width_of_regionOf region]
    exact counts.2.2.2
  by_cases short : (decide (blocksFor bytes.size > inode.blockCount) &&
      decide (Bitmap.countFree dataBefore sb.numData.toInt.toNat <
        blocksFor bytes.size - inode.blockCount)) = true
  · rw [if_pos short, ends_fail]
    exact stops_of_fail _
  rw [if_neg short]
  -- growing: each new slot takes the lowest free data block; the bitmap keeps its width
  refine ends_forIn_range' _ _ _ _ _
    (fun _ acc u => u = t ∧ sb.numData.toInt.toNat ≤ Bitmap.width acc.2) ?_ ?_ ⟨rfl, wide⟩
  · intro j acc u _ high invariant
    obtain ⟨rfl, wide⟩ := invariant
    simp only [ends_bind]
    refine (allocateDataBlock_ends _ sb acc.2).mono ?_ ?_
    · intro r v allocated
      obtain ⟨rfl, bit, -, set, -⟩ := allocated
      have slot := (acc.1.setPointer?_isSome j r.2).2 (by omega)
      obtain ⟨grown, setPointer⟩ := Option.isSome_iff_exists.1 slot
      simp only [setPointer, ends_expect_some]
      exact (ends_pure _).2 ⟨rfl, Bitmap.width_of_set? set ▸ wide⟩
    · intro e v failed
      obtain ⟨rfl, rfl, -⟩ := failed
      exact stops_of_fail _
  intro grown u invariant
  obtain ⟨same, wide⟩ := invariant
  subst u
  -- shrinking: each freed slot's bit is cleared, from the last slot down
  refine ends_forIn_range'_reverse _ _ _ _ _
    (fun _ acc u => u = t ∧ sb.numData.toInt.toNat ≤ Bitmap.width acc.2) ?_ ?_ ⟨rfl, wide⟩
  · intro j acc u _ high invariant
    obtain ⟨rfl, wide⟩ := invariant
    have slot := (acc.1.pointer?_isSome j).2 (by omega)
    obtain ⟨block, pointer⟩ := Option.isSome_iff_exists.1 slot
    simp only [ends_bind, pointer, ends_expect_some]
    refine (dataBit_ends _ sb block).mono ?_ fun _ _ refused => stops_of_refused refused.1
    intro bit v found
    obtain ⟨rfl, inside, rfl⟩ := found
    have clear := (Bitmap.clear?_isSome acc.2 _).2
      (Nat.lt_of_lt_of_le (dataBit_lt inside counts.2.1) wide)
    obtain ⟨cleared, clear⟩ := Option.isSome_iff_exists.1 clear
    have unset := (acc.1.setPointer?_isSome j unusedBlock).2 (by omega)
    obtain ⟨shrunk, setPointer⟩ := Option.isSome_iff_exists.1 unset
    simp only [clear, setPointer, ends_expect_some]
    exact (ends_pure _).2 ⟨rfl, Bitmap.width_of_clear? clear ▸ wide⟩
  intro resized u invariant
  obtain ⟨same, -⟩ := invariant
  subst u
  -- staging the content: one whole block per chunk, in slots the inode has
  refine ends_forIn _ _ _ _ (fun rest acc u => u = t ∧ Whole acc ∧ ∀ x ∈ rest, x.2 < directPointers)
    ?_ ?_ ⟨rfl, whole_empty, fun x member => ?_⟩
  · intro x rest acc u invariant
    obtain ⟨rfl, whole, inSlots⟩ := invariant
    have slot := (resized.1.pointer?_isSome x.2).2 (inSlots x List.mem_cons_self)
    obtain ⟨block, pointer⟩ := Option.isSome_iff_exists.1 slot
    simp only [ends_bind, pointer, ends_expect_some]
    exact (ends_pure _).2
      ⟨rfl, whole_stage whole _ _, fun y member => inSlots y (List.mem_cons_of_mem _ member)⟩
  · intro changes u invariant
    obtain ⟨rfl, whole, -⟩ := invariant
    refine (stageInode_ends_whole _ sb changes inum _ whole).mono ?_
      fun _ _ refused => stops_of_refused refused
    intro c v staged
    obtain ⟨rfl, -⟩ := staged
    exact commit_stops _ (commitStops _) fun _ => by simp only [ends_log, ends_pure]
  · have below := List.snd_lt_add_of_mem_zipIdx member
    rw [length_chunksOf] at below
    omega

/-! ## `unlink` -/

theorem unlink_ends (s : Session δ) (parent : InodeNumber) (name : String)
    (E : Fault → Session δ → Prop)
    (commitStops : ∀ c : Changeset, Ends (c.commit : FsM δ Unit) s (fun _ _ => True) E) :
    Ends (unlink parent name : FsM δ Unit) s (fun _ _ => True) (Stops s False E) := by
  simp only [unlink, ends_bind]
  refine (readSuperBlock_ends s).mono ?_ fun _ _ refused => stops_of_refused refused
  intro sb t read
  obtain ⟨rfl, super⟩ := read
  obtain ⟨-, -, -, consistent, -⟩ := super
  have counts := SuperBlock.counts_of_isConsistent consistent
  refine (loadDirectory_ends t sb parent).mono ?_ fun _ _ refused => stops_of_refused refused
  intro r u loaded
  obtain ⟨dir, entries⟩ := r
  obtain ⟨same, found, -, content, read, rfl⟩ := loaded
  subst u
  have fits : dir.blockCount ≤ directPointers := found.blockCount_le
  simp only [ends_ite]
  by_cases invalid : (!DirEntry.validName name) = true
  · rw [if_pos invalid]
    simp only [ends_bind, ends_fail]
    exact stops_of_fail _
  rw [if_neg invalid]
  by_cases dots : (name == "." || name == "..") = true
  · rw [if_pos dots]
    simp only [ends_bind, ends_fail]
    exact stops_of_fail _
  rw [if_neg dots]
  split
  · next position located =>
    have holds : entrySize ≤ dir.fileSize := by
      have inside := (List.findIdx?_eq_some_iff_findIdx_eq.1 located).1
      have slots := length_slotsOf_le content
      have within := read.size_le
      calc entrySize ≤ (slotsOf content).length * entrySize := Nat.le_mul_of_pos_left _ (by omega)
        _ ≤ content.size := slots
        _ ≤ dir.fileSize := within
    simp only [ends_bind]
    refine (loadInode_ends t sb _).mono ?_ fun _ _ refused => stops_of_refused refused
    intro target u loaded
    obtain ⟨same, targetFound⟩ := loaded
    subst u
    refine (checkRemovable_ends t sb target _).mono ?_ fun _ _ refused => stops_of_refused refused
    intro _ u checked
    subst u
    refine (inodeBitmapOf_ends t sb).mono ?_ fun _ _ refused => stops_of_refused refused
    intro inodesBefore u inodeRegion
    obtain ⟨same, inodeRegion⟩ := inodeRegion
    subst u
    refine (dataBitmapOf_ends t sb).mono ?_ fun _ _ refused => stops_of_refused refused
    intro dataBefore u dataRegion
    obtain ⟨same, dataRegion⟩ := dataRegion
    subst u
    have slotBit : (Int32.toInt ((slotsOf content).getD position DirEntry.unused).inum).toNat <
        Bitmap.width inodesBefore := by
      have slot := targetFound.1
      rw [width_of_regionOf inodeRegion]
      unfold HasSlot at slot
      omega
    have wide : sb.numData.toInt.toNat ≤ Bitmap.width dataBefore := by
      rw [width_of_regionOf dataRegion]
      exact counts.2.2.2
    obtain ⟨inodes, clear⟩ := Option.isSome_iff_exists.1 ((Bitmap.clear?_isSome _ _).2 slotBit)
    simp only [clear, ends_expect_some]
    refine ends_forIn _ _ _ _
      (fun _ acc u => u = t ∧ sb.numData.toInt.toNat ≤ Bitmap.width acc) ?_ ?_ ⟨rfl, wide⟩
    · intro block rest acc u invariant
      obtain ⟨same, wide⟩ := invariant
      subst u
      simp only [ends_bind]
      refine (dataBit_ends t sb block).mono ?_ fun _ _ refused => stops_of_refused refused.1
      intro bit u found
      obtain ⟨same, inside, rfl⟩ := found
      subst u
      have clear := (Bitmap.clear?_isSome acc _).2
        (Nat.lt_of_lt_of_le (dataBit_lt inside counts.2.1) wide)
      obtain ⟨cleared, clear⟩ := Option.isSome_iff_exists.1 clear
      simp only [clear, ends_expect_some]
      exact (ends_pure _).2 ⟨rfl, Bitmap.width_of_clear? clear ▸ wide⟩
    intro freed u invariant
    obtain ⟨same, wide⟩ := invariant
    subst u
    rw [ends_sub, if_pos holds]
    have shrinks : blocksFor (dir.fileSize - entrySize) ≤ dir.blockCount := by
      unfold Inode.blockCount blocksFor blockSize
      omega
    -- rewriting the blocks from the one that held the entry on, whole blocks of the packed entries
    refine ends_forIn_range' _ _ _ _ _ (fun _ acc u => u = t ∧ Whole acc) ?_ ?_ ⟨rfl, whole_empty⟩
    · intro j acc u low high invariant
      obtain ⟨same, whole⟩ := invariant
      subst u
      obtain ⟨block, pointer⟩ := Option.isSome_iff_exists.1 ((dir.pointer?_isSome j).2 (by omega))
      simp only [ends_bind, pointer, ends_expect_some]
      refine (checkDataBlock_ends t sb block).mono ?_ fun _ _ refused => stops_of_refused refused.1
      intro _ u checked
      obtain ⟨same, -⟩ := checked
      subst u
      have inContent : j * blockSize + blockSize ≤
          (encodeEntries (dropAt (slotsOf content) position) (blocksFor (dir.fileSize - entrySize))).size := by
        rw [size_encodeEntries]
        unfold blockSize at *
        omega
      obtain ⟨bytes, slice⟩ := Option.isSome_iff_exists.1 ((slice?_isSome _ _ _).2 inContent)
      simp only [slice, ends_expect_some]
      exact (ends_pure _).2 ⟨rfl, whole_stage whole _ _⟩
    intro changes u invariant
    obtain ⟨same, whole⟩ := invariant
    subst u
    -- releasing the directory's trailing blocks, from the last one down
    refine ends_forIn_range'_reverse _ _ _ _ _
      (fun _ acc u => u = t ∧ sb.numData.toInt.toNat ≤ Bitmap.width acc.1) ?_ ?_ ⟨rfl, wide⟩
    · intro j acc u low high invariant
      obtain ⟨same, wide⟩ := invariant
      subst u
      obtain ⟨block, pointer⟩ := Option.isSome_iff_exists.1 ((acc.2.pointer?_isSome j).2 (by omega))
      simp only [ends_bind, pointer, ends_expect_some]
      refine (dataBit_ends t sb block).mono ?_ fun _ _ refused => stops_of_refused refused.1
      intro bit u found
      obtain ⟨same, inside, rfl⟩ := found
      subst u
      have clear := (Bitmap.clear?_isSome acc.1 _).2
        (Nat.lt_of_lt_of_le (dataBit_lt inside counts.2.1) wide)
      obtain ⟨cleared, clear⟩ := Option.isSome_iff_exists.1 clear
      obtain ⟨shrunk, setPointer⟩ :=
        Option.isSome_iff_exists.1 ((acc.2.setPointer?_isSome j unusedBlock).2 (by omega))
      simp only [clear, setPointer, ends_expect_some]
      exact (ends_pure _).2 ⟨rfl, Bitmap.width_of_clear? clear ▸ wide⟩
    intro released u invariant
    obtain ⟨same, -⟩ := invariant
    subst u
    refine (stageInode_ends_whole t sb changes parent _ whole).mono ?_
      fun _ _ refused => stops_of_refused refused
    intro c u staged
    obtain ⟨same, -⟩ := staged
    subst u
    exact commit_stops _ (commitStops _) fun _ => by simp only [ends_log]
  · simp only [ends_log]

end Engine

end InodeFs
