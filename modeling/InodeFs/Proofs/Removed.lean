import InodeFs.Proofs.Removal

/-!
What an unlink answers and what the calls see after it: refusals and absent names leave the
device as it was, and any other unlink is `Removed` (`unlink_behaves`).
-/

namespace InodeFs

open Engine FsM

/-! ## What an unlink answers without writing -/

namespace Disk

variable {disk : Disk} {sb : SuperBlock}

theorem find?_of_absent {entries : List DirEntry} {name : String}
    (absent : ∀ e ∈ entries.filter (·.isUsed), e.name ≠ name) :
    entries.find? (fun e => e.isUsed && e.name == name) = none := by
  apply List.find?_eq_none.2
  intro e member
  cases used : e.isUsed
  · simp
  · simpa using absent e (List.mem_filter.2 ⟨member, used⟩)

theorem unlinkShortcut_of_not_directory {parent : InodeNumber}
    (refused : ∀ dir, disk.stat? sb parent = some dir → dir.kind ≠ .directory) (name : String) :
    disk.unlinkShortcut sb parent name = some (.error .invalidInode) := by
  unfold unlinkShortcut
  cases found : disk.stat? sb parent with
  | none => rfl
  | some dir => simp only [if_pos (refused dir found)]

section Directory

variable {parent : InodeNumber} {dir : Inode} (found : disk.stat? sb parent = some dir)
  (directory : dir.kind = .directory) {name : String}
include found directory

theorem unlinkShortcut_of_invalid (invalid : DirEntry.validName name = false) :
    disk.unlinkShortcut sb parent name = some (.error .invalidName) := by
  unfold unlinkShortcut
  rw [found]
  simp only [directory, ne_eq, not_true_eq_false, if_false, invalid, if_true]

theorem unlinkShortcut_of_dots (dots : name = "." ∨ name = "..") :
    disk.unlinkShortcut sb parent name = some (.error .unlinkNotAllowed) := by
  have valid : DirEntry.validName name = true := by
    rcases dots with rfl | rfl
    · exact DirEntry.validName_dot
    · exact DirEntry.validName_dotDot
  unfold unlinkShortcut
  rw [found]
  simp only [directory, ne_eq, not_true_eq_false, if_false, valid, Bool.true_eq_false, dots,
    if_true]

theorem unlinkShortcut_of_absent (valid : DirEntry.validName name = true)
    (notDots : ¬(name = "." ∨ name = ".."))
    (absent : ∀ e ∈ (disk.entries dir).filter (·.isUsed), e.name ≠ name) :
    disk.unlinkShortcut sb parent name = some (.ok ()) := by
  unfold unlinkShortcut
  rw [found]
  simp only [directory, ne_eq, not_true_eq_false, if_false, valid, Bool.true_eq_false, notDots,
    find?_of_absent absent]

end Directory

theorem any_iff_exists_listed (dir : Inode) :
    (disk.entries dir).any (fun c => c.isUsed && !c.isDot) = true ↔
      ∃ c ∈ (disk.entries dir).filter (·.isUsed), c.isDot = false := by
  simp only [List.any_eq_true, List.mem_filter, Bool.and_eq_true, Bool.not_eq_true']
  constructor
  · rintro ⟨c, member, used, notDot⟩
    exact ⟨c, ⟨member, used⟩, notDot⟩
  · rintro ⟨c, ⟨member, used⟩, notDot⟩
    exact ⟨c, member, used, notDot⟩

/-- An unlink of a listed name refuses a target holding more than `.` and `..`, and otherwise
removes the entry. -/
theorem WellFormed.unlinkShortcut_of_listed (wf : disk.WellFormed sb) {parent : InodeNumber}
    {dir : Inode} (allocated : disk.Allocated sb parent) (found : disk.inode? sb parent = some dir)
    (directory : dir.kind = .directory) {name : String} (notDots : ¬(name = "." ∨ name = ".."))
    {e : DirEntry} (listed : e ∈ (disk.entries dir).filter (·.isUsed)) (named : e.name = name) :
    ∃ victim, disk.stat? sb e.inum = some victim ∧ disk.unlinkShortcut sb parent name =
      if victim.kind = .directory ∧ (disk.entries victim).any (fun c => c.isUsed && !c.isDot)
      then some (.error .dirNotEmpty) else none := by
  obtain ⟨member, used⟩ := List.mem_filter.1 listed
  have valid := wf.validName_of_entry allocated found directory member
  rw [named] at valid
  have first := find?_of_pairwise (wf.entries_pairwise allocated found directory) member used
  rw [named] at first
  have alive := wf.allocated_of_entry allocated found directory member
  obtain ⟨victim, decoded⟩ := wf.decodes e.inum alive
  have statted : disk.stat? sb e.inum = some victim := stat?_eq_some.2 ⟨alive, decoded⟩
  refine ⟨victim, statted, ?_⟩
  unfold unlinkShortcut
  rw [stat?_eq_some.2 ⟨allocated, found⟩]
  simp only [directory, ne_eq, not_true_eq_false, if_false, valid, Bool.true_eq_false, notDots,
    first, statted]

end Disk

/-! ## The call -/

namespace Engine

theorem Removal.holds {d d' : MemoryDevice} {sb : SuperBlock} (holds : d.Holds sb)
    (kept : d' = { d with committed := d'.committed }) {parent : InodeNumber} {name : String}
    {dir : Inode} {position : Nat} {target : InodeNumber} {victim dir' : Inode}
    (r : Removal d.disk d'.disk sb parent name dir position target victim dir') : d'.Holds sb :=
  { closed := by rw [kept]; exact holds.closed,
    wellFormed := r.wellFormed holds.wellFormed,
    fits := by rw [kept]; exact holds.fits }

section Call

variable {d : MemoryDevice} {sb : SuperBlock} (holds : d.Holds sb) (healthy : d.Healthy)
  (parent : InodeNumber) (name : String)

include holds healthy

/-- With no failure injected, an unlink answers what the disk answers without writing, or
answers and commits a `Removal`. -/
theorem unlink_answer :
    (∀ r, d.disk.unlinkShortcut sb parent name = some r →
      answer (unlink parent name : FsM MemoryDevice Unit) d = r.mapError .fs ∧
      after (unlink parent name : FsM MemoryDevice Unit) d = d) ∧
    (d.disk.unlinkShortcut sb parent name = none →
      answer (unlink parent name : FsM MemoryDevice Unit) d = .ok () ∧
      after (unlink parent name : FsM MemoryDevice Unit) d =
        { d with committed := (after (unlink parent name : FsM MemoryDevice Unit) d).committed } ∧
      ∃ dir position target victim dir', Removal d.disk
        (after (unlink parent name : FsM MemoryDevice Unit) d).disk sb parent name dir position
        target victim dir') := by
  apply answer_after_of_ends fun r d' =>
    (∀ r', d.disk.unlinkShortcut sb parent name = some r' → r = r'.mapError .fs ∧ d' = d) ∧
    (d.disk.unlinkShortcut sb parent name = none → r = .ok () ∧
      d' = { d with committed := d'.committed } ∧
      ∃ dir position target victim dir', Removal d.disk d'.disk sb parent name dir position
        target victim dir')
  refine (unlink_ends_holds holds healthy.reads rfl parent name).mono ?_ ?_
  · rintro ⟨⟩ t (⟨shortcut, unchanged⟩ | ⟨shortcut, kept, removed⟩)
    · refine ⟨fun r' same => ?_, fun none => ?_⟩
      · rw [shortcut, Option.some.injEq] at same
        subst same
        exact ⟨rfl, unchanged⟩
      · rw [shortcut] at none
        cases none
    · refine ⟨fun r' same => ?_, fun _ => ⟨rfl, kept, removed⟩⟩
      rw [shortcut] at same
      cases same
  · rintro e t ⟨unchanged, stopped⟩
    obtain ⟨cause, shortcut, rfl⟩ := stopped healthy.writes healthy.commits
    refine ⟨fun r' same => ?_, fun none => ?_⟩
    · rw [shortcut, Option.some.injEq] at same
      subst same
      exact ⟨rfl, unchanged⟩
    · rw [shortcut] at none
      cases none

end Call

/-! ## What the calls see after an unlink -/

/-- What an unlink leaves: the parent lists its old entries less the removed one, in order, one
slot shorter; the target and the dropped blocks lose their bits; every other inode reads as
before. -/
structure Removed (d d' : MemoryDevice) (sb : SuperBlock) (parent : InodeNumber) (name : String)
    (target : InodeNumber) (dir dir' victim : Inode) : Prop where
  named : answer (lookup parent name : FsM MemoryDevice InodeNumber) d = .ok target
  gone : answer (lookup parent name : FsM MemoryDevice InodeNumber) d' = .error (.fs .notFound)
  listing : ∃ entries position,
    answer (readDir parent : FsM MemoryDevice (List DirEntry)) d = .ok entries ∧
    entries[position]? = some ⟨name, target⟩ ∧
    answer (readDir parent : FsM MemoryDevice (List DirEntry)) d' = .ok (entries.eraseIdx position)
  parentBefore : answer (stat parent : FsM MemoryDevice Inode) d = .ok dir
  parentAfter : answer (stat parent : FsM MemoryDevice Inode) d' = .ok dir'
  size' : dir'.fileSize = dir.fileSize - entrySize
  blocks' : dir'.blocks = dir.blocks.take dir'.blockCount
  dropped : ∀ m, dir'.blockCount ≤ m → m < dir.blockCount →
    dir'.pointer? m = some unusedBlock ∧ ∀ b, dir.pointer? m = some b →
      Bitmap.test (d'.disk.dataBitmap sb) (b - sb.dataRegionAddr.toUInt32).toNat = false
  targetBefore : answer (stat target : FsM MemoryDevice Inode) d = .ok victim
  targetGone : answer (stat target : FsM MemoryDevice Inode) d' = .error (.fs .invalidInode)
  inodeBits : ∀ j, Bitmap.test (d'.disk.inodeBitmap sb) j =
    (Bitmap.test (d.disk.inodeBitmap sb) j && j != target.toInt.toNat)
  dataBits : ∀ j, Bitmap.test (d'.disk.dataBitmap sb) j = true ↔
    Bitmap.test (d.disk.dataBitmap sb) j = true ∧
    (¬∃ b ∈ victim.blocks, (b - sb.dataRegionAddr.toUInt32).toNat = j) ∧
    ¬∃ m, dir'.blockCount ≤ m ∧ m < dir.blockCount ∧ ∃ b, dir.pointer? m = some b ∧
      (b - sb.dataRegionAddr.toUInt32).toNat = j
  records : ∀ i, HasSlot sb i → i ≠ parent → d'.disk.inode? sb i = d.disk.inode? sb i
  others : ∀ i, i ≠ parent → i ≠ target →
    answer (stat i : FsM MemoryDevice Inode) d' = answer (stat i : FsM MemoryDevice Inode) d ∧
    (∀ n, answer (read i n : FsM MemoryDevice ByteArray) d' =
      answer (read i n : FsM MemoryDevice ByteArray) d) ∧
    answer (readDir i : FsM MemoryDevice (List DirEntry)) d' =
      answer (readDir i : FsM MemoryDevice (List DirEntry)) d

/-- A `Removal` is seen by the calls as one entry removed. -/
theorem Removal.removed {d d' : MemoryDevice} {sb : SuperBlock} (holds : d.Holds sb)
    (reads : d.failReads = none) (holds' : d'.Holds sb) (reads' : d'.failReads = none)
    {parent : InodeNumber} {name : String} {dir : Inode} {position : Nat} {target : InodeNumber}
    {victim dir' : Inode} (r : Removal d.disk d'.disk sb parent name dir position target victim dir') :
    Removed d d' sb parent name target dir dir' victim := by
  have wf := holds.wellFormed
  have found : d.disk.stat? sb parent = some dir := Disk.stat?_eq_some.2 ⟨r.allocated, r.found⟩
  have count : blocksFor (dir.fileSize - entrySize) = dir'.blockCount := r.blockCount'.symm
  refine
    { named := ?_, gone := ?_, listing := ?_, parentBefore := ?_, parentAfter := ?_,
      size' := r.size', blocks' := by rw [r.blocks_parent, count], dropped := ?_,
      targetBefore := ?_, targetGone := ?_, inodeBits := r.inodeBits',
      dataBits := fun j => by rw [r.dataBits', count], records := ?_, others := ?_ }
  · rw [(lookup_answer holds reads parent name).1, found, Option.elim_some, if_pos r.directory,
      r.find?_name]
    rfl
  · rw [(lookup_answer holds' reads' parent name).1, r.stat?_parent wf, Option.elim_some,
      if_pos r.kind', r.find?_name_after wf]
    rfl
  · refine ⟨d.disk.entries dir, position, ?_, r.getElem?_position, ?_⟩
    · rw [(readDir_answer holds reads parent).1, found, Option.elim_some, if_pos r.directory,
        wf.filter_entries r.allocated r.found r.directory]
    · rw [(readDir_answer holds' reads' parent).1, r.stat?_parent wf, Option.elim_some,
        if_pos r.kind', holds'.wellFormed.filter_entries (r.allocated_parent wf) r.inode?_parent
          r.kind', r.entries_parent wf]
  · rw [(stat_answer holds reads parent).1, found]
    rfl
  · rw [(stat_answer holds' reads' parent).1, r.stat?_parent wf]
    rfl
  · intro m late early
    rw [← count] at late
    refine ⟨by rw [r.pointers', if_pos ⟨late, early⟩], fun b pointer => ?_⟩
    -- the block the pointer named lost its bit with the pointer
    cases bit : Bitmap.test (d'.disk.dataBitmap sb) (b - sb.dataRegionAddr.toUInt32).toNat with
    | false => rfl
    | true => exact ((r.dataBits' _).1 bit).2.2 ⟨m, late, early, b, pointer, rfl⟩ |>.elim
  · rw [(stat_answer holds reads target).1, r.targetFound]
    rfl
  · rw [(stat_answer holds' reads' target).1, r.stat?_target]
    rfl
  · intro i slot notParent
    exact r.inode?_of_ne slot notParent
  · intro i notParent notTarget
    refine ⟨?_, fun n => ?_, ?_⟩
    · rw [(stat_answer holds' reads' i).1, (stat_answer holds reads i).1,
        r.stat?_of_ne notParent notTarget]
    · rw [(read_answer holds' reads' i n).1, (read_answer holds reads i n).1,
        r.stat?_of_ne notParent notTarget]
      cases statted : d.disk.stat? sb i with
      | none => rfl
      | some inode₀ =>
        simp only [Option.elim_some]
        rw [r.content_of_ne wf notParent statted]
    · rw [(readDir_answer holds' reads' i).1, (readDir_answer holds reads i).1,
        r.stat?_of_ne notParent notTarget]
      cases statted : d.disk.stat? sb i with
      | none => rfl
      | some dir₀ =>
        simp only [Option.elim_some]
        rw [r.entries_of_ne wf notParent statted]

/-! ## What an unlink does -/

/-- What an unlink does on `d`: refusals in order, absent names answered without writing, a
non-empty target refused, else `Removed`; refusals leave the device as it was. -/
structure UnlinkBehaves (d : MemoryDevice) (sb : SuperBlock) (parent : InodeNumber)
    (name : String) : Prop where
  notDirectory : (∀ dir, d.disk.stat? sb parent = some dir → dir.kind ≠ .directory) →
    answer (unlink parent name) d = .error (.fs .invalidInode) ∧ after (unlink parent name) d = d
  invalidName : ∀ dir, d.disk.stat? sb parent = some dir → dir.kind = .directory →
    DirEntry.validName name = false →
    answer (unlink parent name) d = .error (.fs .invalidName) ∧ after (unlink parent name) d = d
  dots : ∀ dir, d.disk.stat? sb parent = some dir → dir.kind = .directory →
    (name = "." ∨ name = "..") →
    answer (unlink parent name) d = .error (.fs .unlinkNotAllowed) ∧
    after (unlink parent name) d = d
  absent : ∀ dir, d.disk.stat? sb parent = some dir → dir.kind = .directory →
    DirEntry.validName name = true → ¬(name = "." ∨ name = "..") →
    (∀ e ∈ (d.disk.entries dir).filter (·.isUsed), e.name ≠ name) →
    answer (unlink parent name) d = .ok () ∧ after (unlink parent name) d = d
  listed : ∀ dir e, d.disk.stat? sb parent = some dir → dir.kind = .directory →
    ¬(name = "." ∨ name = "..") → e ∈ (d.disk.entries dir).filter (·.isUsed) → e.name = name →
    ∃ victim, d.disk.stat? sb e.inum = some victim ∧
      ((victim.kind = .directory ∧
          ∃ c ∈ (d.disk.entries victim).filter (·.isUsed), c.isDot = false) →
        answer (unlink parent name) d = .error (.fs .dirNotEmpty) ∧
        after (unlink parent name) d = d) ∧
      (¬(victim.kind = .directory ∧
          ∃ c ∈ (d.disk.entries victim).filter (·.isUsed), c.isDot = false) →
        answer (unlink parent name) d = .ok () ∧
        ∃ dir', Removed d (after (unlink parent name) d) sb parent name e.inum dir dir' victim)

/-- On a device holding a file system, with no failure injected, an unlink behaves as
`UnlinkBehaves` says. -/
theorem unlink_behaves {d : MemoryDevice} {sb : SuperBlock} (holds : d.Holds sb)
    (healthy : d.Healthy) (parent : InodeNumber) (name : String) :
    UnlinkBehaves d sb parent name := by
  have wf := holds.wellFormed
  obtain ⟨shortcut, removed⟩ := unlink_answer holds healthy parent name
  refine
    { notDirectory := fun refused => shortcut _ (Disk.unlinkShortcut_of_not_directory refused name),
      invalidName := fun dir found directory invalid =>
        shortcut _ (Disk.unlinkShortcut_of_invalid found directory invalid),
      dots := fun dir found directory dots =>
        shortcut _ (Disk.unlinkShortcut_of_dots found directory dots),
      absent := fun dir found directory valid notDots absent =>
        shortcut _ (Disk.unlinkShortcut_of_absent found directory valid notDots absent),
      listed := ?_ }
  intro dir e found directory notDots listed named
  obtain ⟨allocated, decoded⟩ := Disk.stat?_eq_some.1 found
  obtain ⟨victim, statted, refusal⟩ :=
    wf.unlinkShortcut_of_listed allocated decoded directory notDots listed named
  refine ⟨victim, statted, fun crowded => ?_, fun empty => ?_⟩
  · rw [if_pos ⟨crowded.1, (Disk.any_iff_exists_listed victim).2 crowded.2⟩] at refusal
    exact shortcut _ refusal
  · rw [if_neg fun crowded => empty ⟨crowded.1, (Disk.any_iff_exists_listed victim).1 crowded.2⟩]
      at refusal
    obtain ⟨answered, kept, dir₀, position, target, victim₀, dir', r⟩ := removed refusal
    obtain rfl : dir₀ = dir := by
      rw [r.found, Option.some.injEq] at decoded
      exact decoded
    obtain ⟨member, used⟩ := List.mem_filter.1 listed
    have first := Disk.find?_of_pairwise (wf.entries_pairwise allocated decoded directory) member used
    rw [named, r.find?_name, Option.some.injEq] at first
    obtain rfl : target = e.inum := by rw [← first]
    obtain rfl : victim₀ = victim := by
      rw [r.targetFound, Option.some.injEq] at statted
      exact statted
    exact ⟨answered, dir', r.removed holds healthy.reads (r.holds holds kept)
      (healthy.of_committed kept).reads⟩

end Engine

end InodeFs
