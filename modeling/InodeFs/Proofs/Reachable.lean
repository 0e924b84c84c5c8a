import InodeFs.Proofs.Removed
import InodeFs.Proofs.Format

/-!
The images a file system reaches: a format's, then whatever a create, a write or an unlink
leaves, with write and commit failures injected. Each holds the file system its format laid out
(`Reachable.holds`).
-/

namespace InodeFs

namespace Engine

open FsM Disk

/-! ## A format that succeeds -/

section Format

variable {δ : Type}

theorem zeroing_only (s : Session δ) {acc : Changeset} {P : Nat → Prop} (only : acc.Only P)
    (start count : Nat) (inside : ∀ k < count, P (start + k))
    {ok : Changeset → Session δ → Prop} {err : Fault → Session δ → Prop}
    (done : ∀ acc', acc'.Only P → ok acc' s) :
    Ends (forIn (List.range count) acc fun k c =>
      (pure (ForInStep.yield (c.stage (start + k) (zeros blockSize))) : FsM δ _)) s ok err := by
  rw [List.range_eq_range']
  apply ends_forIn_range' 0 count acc _ s (fun _ c t => t = s ∧ c.Only P)
  · rintro j c t _ below ⟨same, staged⟩
    rw [ends_pure]
    exact ⟨same, staged.stage (inside j (by omega)) _⟩
  · rintro c t ⟨same, staged⟩
    rw [same]
    exact done c staged
  · exact ⟨rfl, only⟩

end Format

/-- A format succeeds on a healthy in-memory device that holds the layout, for counts between
1 and `countLimit`. -/
theorem formatDevice_succeeds (s : Session MemoryDevice) {ni nd : Nat}
    (writes : s.device.failWrites = none)
    (commits : s.device.failCommit = false) (inodes : 1 ≤ ni ∧ ni ≤ countLimit)
    (data : 1 ≤ nd ∧ nd ≤ countLimit)
    (fits : (SuperBlock.withCapacity (UInt32.ofNat ni) (UInt32.ofNat nd)).totalBlocks ≤
      s.device.size) :
    Ends (formatDevice ni nd : FsM MemoryDevice Unit) s (fun _ _ => True) fun _ _ => False := by
  obtain ⟨consistent, -, count⟩ := withCapacity_of_accepted inodes.1 inodes.2 data.1 data.2
  have layout := SuperBlock.layout_of_isConsistent consistent
  have total := layout.totalBlocks_eq
  have length := layout.dataBlocks
  have after := layout.afterSuper
  have ordered := layout.inodeBitmapEnd
  have ordered' := layout.dataBitmapEnd
  have ordered'' := layout.inodeRegionEnd
  have start := layout.dataStart
  simp only [formatDevice, ends_bind, ends_ite, ends_fail, ends_pure, ends_blockCount, ends_log,
    List.forIn_cons, List.forIn_nil]
  split
  · next refused =>
    simp only [Bool.or_eq_true, beq_iff_eq, decide_eq_true_eq] at refused
    omega
  split
  · next short =>
    exact absurd fits (Nat.not_le.2 short)
  apply zeroing_only s ((Changeset.only_empty _).stage (P := (· < s.device.size)) (by omega) _) _ _
    fun k below => by omega
  intro acc₁ only₁
  apply zeroing_only s only₁ _ _ fun k below => by omega
  intro acc₂ only₂
  apply zeroing_only s only₂ _ _ fun k below => by omega
  intro acc₃ only₃
  rw [ends_expect]
  refine ⟨fun bitmap marked => ?_, fun missing => ?_⟩
  · rw [ends_expect]
    refine ⟨fun inodeBlock patched => ?_, fun missing => ?_⟩
    · refine (Changeset.commit_ends_healthy s _ writes commits ?_).mono (fun _ _ _ => trivial)
        fun _ _ never => never
      exact (((only₃.stage (by omega) _).stage (by omega) _).stage (by omega) _).stage
        (by omega) _
    · exact (Option.isSome_iff_ne_none.1 (rootRecord_isSome _) missing).elim
  · exact (Option.isSome_iff_ne_none.1 firstBitmapBlock_isSome missing).elim

theorem format_answer {ni nd n : Nat} (inodes : 1 ≤ ni ∧ ni ≤ countLimit)
    (data : 1 ≤ nd ∧ nd ≤ countLimit)
    (fits : (SuperBlock.withCapacity (UInt32.ofNat ni) (UInt32.ofNat nd)).totalBlocks ≤ n) :
    answer (formatDevice ni nd : FsM MemoryDevice Unit) (MemoryDevice.zeroed n) = .ok () := by
  apply answer_after_of_ends fun r _ => r = .ok ()
  exact (formatDevice_succeeds { device := MemoryDevice.zeroed n } rfl rfl inodes data fits).mono
    (fun _ _ _ => rfl) fun _ _ never => never.elim

/-- A format that answers on a device at rest with whole blocks leaves it holding the file
system it laid out, with only its committed blocks changed. -/
theorem formatted_holds {d : MemoryDevice} (closed : d.pending = none) (whole : d.disk.Whole)
    {ni nd : Nat} (formatted : answer (formatDevice ni nd : FsM MemoryDevice Unit) d = .ok ()) :
    (after (formatDevice ni nd : FsM MemoryDevice Unit) d).Holds
      (SuperBlock.withCapacity (UInt32.ofNat ni) (UInt32.ofNat nd)) ∧
    ∃ p : Pages, after (formatDevice ni nd : FsM MemoryDevice Unit) d = { d with committed := p } := by
  refine answer_after_of_ends (x := (formatDevice ni nd : FsM MemoryDevice Unit)) (d := d)
    (fun r d' => r = .ok () →
      d'.Holds (SuperBlock.withCapacity (UInt32.ofNat ni) (UInt32.ofNat nd)) ∧
      ∃ p : Pages, d' = { d with committed := p })
    ?_ formatted
  refine (formatDevice_ends { device := d } ni nd closed whole).mono ?_ ?_
  · rintro _ t ⟨inodes, inodesFit, data, dataFit, fits, c, staged, committed, image⟩ -
    obtain ⟨consistent, -, count⟩ := withCapacity_of_accepted inodes inodesFit data dataFit
    refine ⟨⟨by rw [committed]; exact closed, ?_, by rw [committed]; exact fits⟩, _, committed⟩
    rw [committed, MemoryDevice.disk_commit _ staged]
    exact image.wellFormed consistent (by omega)
  · rintro e t - refused
    cases refused

/-! ## Reachable images -/

/-- A call that changes the disk, with its arguments. -/
inductive Call where
  | create (parent : InodeNumber) (kind : FileKind) (name : String)
  | write (inum : InodeNumber) (bytes : ByteArray)
  | unlink (parent : InodeNumber) (name : String)

def Call.run : Call → MemoryDevice → MemoryDevice
  | .create parent kind name, d =>
    after (Engine.create parent kind name : FsM MemoryDevice InodeNumber) d
  | .write inum bytes, d => after (Engine.write inum bytes : FsM MemoryDevice Nat) d
  | .unlink parent name, d => after (Engine.unlink parent name : FsM MemoryDevice Unit) d

end Engine

/-- The device with writes to block `failing` failing, and its commit failing when `commitFails`. -/
def MemoryDevice.inject (d : MemoryDevice) (failing : Option Nat) (commitFails : Bool) :
    MemoryDevice :=
  { d with failWrites := failing, failCommit := commitFails }

theorem MemoryDevice.Holds.inject {d : MemoryDevice} {sb : SuperBlock} (holds : d.Holds sb)
    (failing : Option Nat) (commitFails : Bool) : (d.inject failing commitFails).Holds sb :=
  ⟨holds.closed, holds.wellFormed, holds.fits⟩

namespace Engine

open FsM

/-- The images reachable from a format of `ni` inodes and `nd` data blocks on a device at rest
with whole blocks and no failure injected, by calls run with write and commit failures injected
and lifted once they return. -/
inductive Reachable (ni nd : Nat) : MemoryDevice → Prop where
  | format {d : MemoryDevice} (closed : d.pending = none) (whole : d.disk.Whole)
    (healthy : d.Healthy) :
    answer (formatDevice ni nd : FsM MemoryDevice Unit) d = .ok () →
    Reachable ni nd (after (formatDevice ni nd : FsM MemoryDevice Unit) d)
  | call {d : MemoryDevice} (c : Call) (failing : Option Nat) (commitFails : Bool) :
    Reachable ni nd d → Reachable ni nd ((c.run (d.inject failing commitFails)).inject none false)

/-- A call changed only the committed blocks, and the file system is still held. -/
def Keeps (d d' : MemoryDevice) (sb : SuperBlock) : Prop :=
  d' = { d with committed := d'.committed } ∧ d'.Holds sb

theorem keeps_self {d : MemoryDevice} {sb : SuperBlock} (holds : d.Holds sb) : Keeps d d sb :=
  ⟨rfl, holds⟩

theorem keeps_after {α : Type} {x : FsM MemoryDevice α} {d : MemoryDevice} {sb : SuperBlock}
    (kept : Ends x { device := d } (fun _ t => Keeps d t.device sb) fun _ t => Keeps d t.device sb) :
    Keeps d (after x d) sb :=
  answer_after_of_ends (fun _ d' => Keeps d d' sb) kept

/-- A call on a device holding a file system keeps it: a failed call changes nothing, and one
that answers commits a `Creation`, a `Rewrite` or a `Removal`. -/
theorem Call.run_holds {d : MemoryDevice} {sb : SuperBlock} (holds : d.Holds sb)
    (reads : d.failReads = none) (c : Call) : Keeps d (c.run d) sb := by
  cases c with
  | create parent kind name =>
    refine keeps_after ((create_ends_holds holds reads rfl parent kind name).mono ?_ ?_)
    · rintro r t (⟨-, unchanged⟩ | ⟨-, kept, dir, inode, dir', fresh, cr⟩)
      · rw [unchanged]
        exact keeps_self holds
      · exact ⟨kept, cr.holds holds kept⟩
    · rintro e t ⟨unchanged, -⟩
      rw [unchanged]
      exact keeps_self holds
  | write inum bytes =>
    refine keeps_after (((write_ends_holds holds reads rfl inum bytes).and
      (write_commits { device := d } inum bytes holds.closed holds.wellFormed.whole)).mono ?_ ?_)
    · rintro r t ⟨-, kept, sb', inode, inode', fresh, r'⟩
      have same : sb' = sb := by
        have decoded := r'.super
        rw [holds.wellFormed.super, Option.some.injEq] at decoded
        exact decoded.symm
      subst same
      exact ⟨kept, r'.holds holds kept⟩
    · rintro e t ⟨⟨unchanged, -⟩, -⟩
      rw [unchanged]
      exact keeps_self holds
  | unlink parent name =>
    refine keeps_after ((unlink_ends_holds holds reads rfl parent name).mono ?_ ?_)
    · rintro r t (⟨-, unchanged⟩ | ⟨-, kept, dir, position, target, victim, dir', removal⟩)
      · rw [unchanged]
        exact keeps_self holds
      · exact ⟨kept, removal.holds holds kept⟩
    · rintro e t ⟨unchanged, -⟩
      rw [unchanged]
      exact keeps_self holds

/-- Every reachable image is healthy and holds the file system its format laid out. -/
theorem Reachable.holds {ni nd : Nat} {d : MemoryDevice} (reach : Reachable ni nd d) :
    d.Holds (SuperBlock.withCapacity (UInt32.ofNat ni) (UInt32.ofNat nd)) ∧ d.Healthy := by
  induction reach with
  | format closed whole healthy formatted =>
    obtain ⟨holds, p, committed⟩ := formatted_holds closed whole formatted
    refine ⟨holds, ?_⟩
    rw [committed]
    exact ⟨healthy.reads, healthy.writes, healthy.commits⟩
  | call c failing commitFails _ ih =>
    obtain ⟨holds, healthy⟩ := ih
    obtain ⟨kept, holds'⟩ := c.run_holds (holds.inject failing commitFails) healthy.reads
    refine ⟨holds'.inject none false, ⟨?_, rfl, rfl⟩⟩
    show (c.run _).failReads = none
    rw [kept]
    exact healthy.reads

/-- A format of one inode and one data block on a zeroed device of five blocks is reachable. -/
theorem formatted_reachable :
    Reachable 1 1 (after (formatDevice 1 1 : FsM MemoryDevice Unit) (MemoryDevice.zeroed 5)) :=
  .format rfl Pages.full_empty ⟨rfl, rfl, rfl⟩ (format_answer (by decide) (by decide) (by decide))

/-! ## The invariants of reachable images -/

/-- Every reachable image is a well-formed file system laid out by its format's super block. -/
theorem reachable_wellFormed {ni nd : Nat} {d : MemoryDevice} (reach : Reachable ni nd d) :
    d.disk.WellFormed (SuperBlock.withCapacity (UInt32.ofNat ni) (UInt32.ofNat nd)) :=
  reach.holds.1.wellFormed

theorem formatted_wellFormed :
    Reachable 1 1 (after (formatDevice 1 1 : FsM MemoryDevice Unit) (MemoryDevice.zeroed 5)) ∧
    (after (formatDevice 1 1 : FsM MemoryDevice Unit) (MemoryDevice.zeroed 5)).disk.WellFormed
      (SuperBlock.withCapacity (UInt32.ofNat 1) (UInt32.ofNat 1)) :=
  ⟨formatted_reachable, reachable_wellFormed formatted_reachable⟩

/-- In every reachable image the directories form a tree rooted at the root: shaped directories,
an unnamed root, one naming slot for every other allocated inode, all reached from the root. -/
theorem reachable_directory_tree {ni nd : Nat} {d : MemoryDevice} (reach : Reachable ni nd d) :
    let sb := SuperBlock.withCapacity (UInt32.ofNat ni) (UInt32.ofNat nd)
    (∀ p dir, d.disk.Allocated sb p → d.disk.inode? sb p = some dir → dir.kind = .directory →
      d.disk.DirectoryShape sb p dir ∧
      ∀ k < dir.fileSize / entrySize, ∃ e, d.disk.slot? dir k = some e ∧ e.isUsed = true) ∧
    (∀ p, ¬d.disk.Names sb p rootInode) ∧
    (∀ i, d.disk.Allocated sb i → i ≠ rootInode →
      ∃ p k, d.disk.NamesAt sb p k i ∧ ∀ p' k', d.disk.NamesAt sb p' k' i → p' = p ∧ k' = k) ∧
    (∀ i, d.disk.Allocated sb i → Relation.ReflTransGen (d.disk.Names sb) rootInode i) := by
  intro sb
  have wf := reach.holds.1.wellFormed
  refine ⟨fun p dir allocated found kind => ⟨wf.directories p dir allocated found kind, ?_⟩,
    wf.rootUnnamed, fun i allocated notRoot => ?_, wf.reachable⟩
  · intro k within
    obtain ⟨e, slot⟩ := Option.isSome_iff_exists.1 (wf.slot?_isSome allocated found kind within)
    exact ⟨e, slot, Disk.isUsed_of_hasSlot (wf.allocated_of_slot allocated found kind within slot).1⟩
  · -- an allocated inode other than the root is named, and only once
    rcases (wf.allocatedNamed i allocated.1).1 allocated with root | ⟨p, k, named⟩
    · exact absurd root notRoot
    · exact ⟨p, k, named, fun p' k' named' => wf.namedOnce p' k' p k i named' named⟩

theorem formatted_directory_tree :
    Reachable 1 1 (after (formatDevice 1 1 : FsM MemoryDevice Unit) (MemoryDevice.zeroed 5)) ∧
    ∀ p, ¬(after (formatDevice 1 1 : FsM MemoryDevice Unit) (MemoryDevice.zeroed 5)).disk.Names
      (SuperBlock.withCapacity (UInt32.ofNat 1) (UInt32.ofNat 1)) p rootInode :=
  ⟨formatted_reachable, (reachable_directory_tree formatted_reachable).2.1⟩

end Engine

/-! ## The calls on reachable images -/

theorem Disk.WellFormed.writeRefusal_eq_invalidInode {disk : Disk} {sb : SuperBlock}
    (wf : disk.WellFormed sb) (inum : InodeNumber) (bytes : ByteArray) :
    disk.writeRefusal sb inum bytes = some .invalidInode ↔ ¬disk.Allocated sb inum := by
  rw [← Disk.stat?_isSome wf]
  unfold Disk.writeRefusal
  cases found : disk.stat? sb inum with
  | none => simp
  | some inode =>
    simp only [Option.isSome_some, not_true_eq_false, iff_false]
    split
    · simp
    · split
      · simp
      · split <;> simp

namespace Engine

open FsM

/-- On every reachable image a write is a whole-file replace, refused in a fixed order with the
device unchanged, and otherwise `Replaced`. -/
theorem reachable_write_replaces_file {ni nd : Nat} {d : MemoryDevice} (reach : Reachable ni nd d)
    (inum : InodeNumber) (bytes : ByteArray) :
    let sb := SuperBlock.withCapacity (UInt32.ofNat ni) (UInt32.ofNat nd)
    (d.disk.writeRefusal sb inum bytes = some .invalidInode ↔ ¬d.disk.Allocated sb inum) ∧
    answer (write inum bytes : FsM MemoryDevice Nat) d =
      (d.disk.writeRefusal sb inum bytes).elim (.ok bytes.size) (fun cause => .error (.fs cause)) ∧
    (d.disk.writeRefusal sb inum bytes ≠ none →
      after (write inum bytes : FsM MemoryDevice Nat) d = d) ∧
    (d.disk.writeRefusal sb inum bytes = none → ∃ inode inode',
      Replaced d (after (write inum bytes : FsM MemoryDevice Nat) d) sb inum bytes inode inode') := by
  intro sb
  obtain ⟨holds, healthy⟩ := reach.holds
  exact ⟨holds.wellFormed.writeRefusal_eq_invalidInode inum bytes,
    write_replaces_file holds healthy inum bytes⟩

theorem formatted_write_replaces_file :
    Reachable 1 1 (after (formatDevice 1 1 : FsM MemoryDevice Unit) (MemoryDevice.zeroed 5)) ∧
    answer (write rootInode ByteArray.empty : FsM MemoryDevice Nat)
        (after (formatDevice 1 1 : FsM MemoryDevice Unit) (MemoryDevice.zeroed 5)) =
      ((after (formatDevice 1 1 : FsM MemoryDevice Unit) (MemoryDevice.zeroed 5)).disk.writeRefusal
        (SuperBlock.withCapacity (UInt32.ofNat 1) (UInt32.ofNat 1)) rootInode ByteArray.empty).elim
        (.ok 0) (fun cause => .error (.fs cause)) :=
  ⟨formatted_reachable, (reachable_write_replaces_file formatted_reachable rootInode ByteArray.empty).2.1⟩

/-- On every reachable image an unlink behaves as `UnlinkBehaves` says. -/
theorem reachable_unlink_behaves {ni nd : Nat} {d : MemoryDevice} (reach : Reachable ni nd d)
    (parent : InodeNumber) (name : String) :
    UnlinkBehaves d (SuperBlock.withCapacity (UInt32.ofNat ni) (UInt32.ofNat nd)) parent name :=
  unlink_behaves reach.holds.1 reach.holds.2 parent name

theorem formatted_unlink_behaves :
    Reachable 1 1 (after (formatDevice 1 1 : FsM MemoryDevice Unit) (MemoryDevice.zeroed 5)) ∧
    UnlinkBehaves (after (formatDevice 1 1 : FsM MemoryDevice Unit) (MemoryDevice.zeroed 5))
      (SuperBlock.withCapacity (UInt32.ofNat 1) (UInt32.ofNat 1)) rootInode "a" :=
  ⟨formatted_reachable, reachable_unlink_behaves formatted_reachable rootInode "a"⟩

/-- On every reachable image a create behaves as `CreateBehaves` says. -/
theorem reachable_create_behaves {ni nd : Nat} {d : MemoryDevice} (reach : Reachable ni nd d)
    (parent : InodeNumber) (kind : FileKind) (name : String) :
    CreateBehaves d (SuperBlock.withCapacity (UInt32.ofNat ni) (UInt32.ofNat nd)) parent kind name :=
  create_behaves reach.holds.1 reach.holds.2 parent kind name

theorem formatted_create_behaves :
    Reachable 1 1 (after (formatDevice 1 1 : FsM MemoryDevice Unit) (MemoryDevice.zeroed 5)) ∧
    CreateBehaves (after (formatDevice 1 1 : FsM MemoryDevice Unit) (MemoryDevice.zeroed 5))
      (SuperBlock.withCapacity (UInt32.ofNat 1) (UInt32.ofNat 1)) rootInode .regularFile "a" :=
  ⟨formatted_reachable, reachable_create_behaves formatted_reachable rootInode .regularFile "a"⟩

end Engine

end InodeFs
