import InodeFs.Proofs.Creation

/-!
What a create answers and what the calls see after it: a listed name is answered or refused
without writing, and an added entry is seen as the parent listing one entry more.
-/

namespace InodeFs

open Engine FsM

/-! ## Names in a well-formed directory -/

namespace Disk

variable {disk : Disk} {sb : SuperBlock}

theorem find?_of_pairwise {entries : List DirEntry}
    (distinct : entries.Pairwise fun e e' => e.name ≠ e'.name) {e : DirEntry} (listed : e ∈ entries)
    (used : e.isUsed = true) :
    entries.find? (fun e' => e'.isUsed && e'.name == e.name) = some e := by
  obtain ⟨before, after, rfl⟩ := List.append_of_mem listed
  rw [List.find?_eq_some_iff_append]
  refine ⟨by simp [used], before, after, rfl, fun a early => ?_⟩
  have apart := (List.pairwise_append.1 distinct).2.2 a early e List.mem_cons_self
  simp [apart]

theorem createShortcut_of_not_directory {parent : InodeNumber}
    (refused : ∀ dir, disk.stat? sb parent = some dir → dir.kind ≠ .directory) (kind : FileKind)
    (name : String) : disk.createShortcut sb parent kind name = some (.error .invalidInode) := by
  unfold createShortcut
  cases found : disk.stat? sb parent with
  | none => rfl
  | some dir => simp only [if_pos (refused dir found)]

theorem createShortcut_of_invalid {parent : InodeNumber} {dir : Inode}
    (found : disk.stat? sb parent = some dir) (directory : dir.kind = .directory) {name : String}
    (invalid : DirEntry.validName name = false) (kind : FileKind) :
    disk.createShortcut sb parent kind name = some (.error .invalidName) := by
  unfold createShortcut
  rw [found]
  simp only [directory, ne_eq, not_true_eq_false, if_false, invalid, if_true]

namespace WellFormed

variable (wf : disk.WellFormed sb) {d : InodeNumber} {dir : Inode} (allocated : disk.Allocated sb d)
  (found : disk.inode? sb d = some dir) (directory : dir.kind = .directory)
include wf allocated found directory

theorem entries_pairwise : (disk.entries dir).Pairwise fun e e' => e.name ≠ e'.name := by
  have shape := wf.directories d dir allocated found directory
  unfold entries
  rw [List.pairwise_filterMap]
  refine (List.pairwise_lt_range (n := dir.fileSize / entrySize)).imp_of_mem ?_
  intro k k' member member' early e slot e' slot'
  exact shape.distinct k k' e e' (List.mem_range.1 member) (List.mem_range.1 member')
    (Nat.ne_of_lt early) slot slot'

theorem allocated_of_entry {e : DirEntry} (listed : e ∈ disk.entries dir) :
    disk.Allocated sb e.inum := by
  obtain ⟨k, member, slot⟩ := List.mem_filterMap.1 listed
  exact wf.allocated_of_slot allocated found directory (List.mem_range.1 member) slot

theorem existingAnswer_eq {e : DirEntry} (listed : e ∈ disk.entries dir) (kind : FileKind) :
    ∃ inode, disk.stat? sb e.inum = some inode ∧
      disk.existingAnswer sb e kind = if inode.kind = kind then .ok e.inum else .error .invalidType := by
  have alive := wf.allocated_of_entry allocated found directory listed
  obtain ⟨inode, decoded⟩ := wf.decodes e.inum alive
  have statted : disk.stat? sb e.inum = some inode := stat?_eq_some.2 ⟨alive, decoded⟩
  exact ⟨inode, statted, by rw [existingAnswer, statted]⟩

/-- A create of a valid name that an allocated directory lists answers what that entry gives. -/
theorem createShortcut_of_listed {name : String} (valid : DirEntry.validName name = true)
    {e : DirEntry} (listed : e ∈ (disk.entries dir).filter (·.isUsed)) (named : e.name = name)
    (kind : FileKind) :
    disk.createShortcut sb d kind name = some (disk.existingAnswer sb e kind) := by
  obtain ⟨member, used⟩ := List.mem_filter.1 listed
  have first := find?_of_pairwise (wf.entries_pairwise allocated found directory) member used
  rw [named] at first
  unfold createShortcut
  rw [stat?_eq_some.2 ⟨allocated, found⟩]
  simp only [directory, ne_eq, not_true_eq_false, if_false, valid, Bool.true_eq_false, first]

omit wf in
/-- A create of an unlisted valid name answers without writing only when it finds no room. -/
theorem createShortcut_of_absent {name : String} (valid : DirEntry.validName name = true)
    (absent : ∀ e ∈ (disk.entries dir).filter (·.isUsed), e.name ≠ name) (kind : FileKind) :
    disk.createShortcut sb d kind name =
      if disk.LacksRoom sb dir kind then some (.error .notEnoughSpace) else none := by
  have missing : (disk.entries dir).find? (fun e => e.isUsed && e.name == name) = none := by
    apply List.find?_eq_none.2
    intro e member
    cases used : e.isUsed
    · simp
    · simpa using absent e (List.mem_filter.2 ⟨member, used⟩)
  unfold createShortcut
  rw [stat?_eq_some.2 ⟨allocated, found⟩]
  simp only [directory, ne_eq, not_true_eq_false, if_false, valid, Bool.true_eq_false, missing]

end WellFormed

end Disk

/-! ## A create repeated -/

namespace Engine.Creation

variable {disk disk' : Disk} {sb : SuperBlock} {parent : InodeNumber} {kind : FileKind}
  {name : String} {inum : InodeNumber} {dir inode dir' : Inode} {fresh : List Nat}
  (cr : Creation disk disk' sb parent kind name inum dir inode dir' fresh)
  (wf : disk.WellFormed sb)

include cr wf

/-- After a create, the same create finds the new entry and answers without writing. -/
theorem createShortcut_again : disk'.createShortcut sb parent kind name = some (.ok inum) := by
  have listed : (disk'.entries dir').find? (fun e => e.isUsed && e.name == name) =
      some ⟨name, inum⟩ := by
    rw [cr.entries_parent wf, List.find?_append, cr.absent, Option.none_or]
    simp [Disk.isUsed_of_hasSlot (e := ⟨name, inum⟩) cr.slot]
  have existing : disk'.existingAnswer sb ⟨name, inum⟩ kind = .ok inum := by
    rw [Disk.existingAnswer, cr.stat?_self]
    simp only [cr.kind_inode, if_true]
  unfold Disk.createShortcut
  rw [cr.stat?_parent]
  simp only [cr.kind_parent, ne_eq, not_true_eq_false, if_false, cr.valid, Bool.true_eq_false,
    listed, existing]

end Engine.Creation

/-! ## The call -/

namespace MemoryDevice

theorem Healthy.of_committed {d d' : MemoryDevice} (healthy : d.Healthy)
    (kept : d' = { d with committed := d'.committed }) : d'.Healthy := by
  rw [kept]
  exact ⟨healthy.reads, healthy.writes, healthy.commits⟩

end MemoryDevice

namespace Engine

theorem Creation.holds {d d' : MemoryDevice} {sb : SuperBlock} (holds : d.Holds sb)
    (kept : d' = { d with committed := d'.committed }) {parent : InodeNumber} {kind : FileKind}
    {name : String} {inum : InodeNumber} {dir inode dir' : Inode} {fresh : List Nat}
    (cr : Creation d.disk d'.disk sb parent kind name inum dir inode dir' fresh) : d'.Holds sb :=
  { closed := by rw [kept]; exact holds.closed,
    wellFormed := cr.wellFormed holds.wellFormed,
    fits := by rw [kept]; exact holds.fits }

section Call

variable {d : MemoryDevice} {sb : SuperBlock} (holds : d.Holds sb) (healthy : d.Healthy)
  (parent : InodeNumber) (kind : FileKind) (name : String)

include holds healthy

/-- With no failure injected, a create answers what the disk answers without writing, or
answers an inode and commits a `Creation`. -/
theorem create_answer :
    (∀ r, d.disk.createShortcut sb parent kind name = some r →
      answer (create parent kind name : FsM MemoryDevice InodeNumber) d = r.mapError .fs ∧
      after (create parent kind name : FsM MemoryDevice InodeNumber) d = d) ∧
    (d.disk.createShortcut sb parent kind name = none → ∃ i,
      answer (create parent kind name : FsM MemoryDevice InodeNumber) d = .ok i ∧
      after (create parent kind name : FsM MemoryDevice InodeNumber) d =
        { d with committed := (after (create parent kind name : FsM MemoryDevice InodeNumber) d).committed } ∧
      ∃ dir inode dir' fresh, Creation d.disk
        (after (create parent kind name : FsM MemoryDevice InodeNumber) d).disk sb parent kind name i
        dir inode dir' fresh) := by
  apply answer_after_of_ends fun r d' =>
    (∀ r', d.disk.createShortcut sb parent kind name = some r' → r = r'.mapError .fs ∧ d' = d) ∧
    (d.disk.createShortcut sb parent kind name = none → ∃ i, r = .ok i ∧
      d' = { d with committed := d'.committed } ∧
      ∃ dir inode dir' fresh, Creation d.disk d'.disk sb parent kind name i dir inode dir' fresh)
  refine (create_ends_holds holds healthy.reads rfl parent kind name).mono ?_ ?_
  · rintro r t (⟨shortcut, unchanged⟩ | ⟨shortcut, kept, made⟩)
    · refine ⟨fun r' same => ?_, fun none => ?_⟩
      · rw [shortcut, Option.some.injEq] at same
        subst same
        exact ⟨rfl, unchanged⟩
      · rw [shortcut] at none
        cases none
    · refine ⟨fun r' same => ?_, fun _ => ⟨r, rfl, kept, made⟩⟩
      rw [shortcut] at same
      cases same
  · rintro e t ⟨unchanged, stopped⟩
    obtain ⟨cause, shortcut, rfl⟩ := stopped healthy.writes healthy.commits
    refine ⟨fun r' same => ?_, fun none => ?_⟩
    · rw [shortcut, Option.some.injEq] at same
      subst same
      exact ⟨rfl, unchanged⟩
    · rw [shortcut] at none
      cases none

end Call

/-! ## What the calls see after a create -/

/-- What a create leaves: `inum` was the lowest clear inode, the parent lists the new entry
last, the new inode is found empty of the kind asked, and every other inode reads as before. -/
structure Created (d d' : MemoryDevice) (sb : SuperBlock) (parent : InodeNumber) (kind : FileKind)
    (name : String) (inum : InodeNumber) : Prop where
  lowest : d.disk.freeInode? sb = some inum.toInt.toNat
  listing : ∃ entries, answer (readDir parent : FsM MemoryDevice (List DirEntry)) d = .ok entries ∧
    answer (readDir parent : FsM MemoryDevice (List DirEntry)) d' = .ok (entries ++ [⟨name, inum⟩])
  grown : ∃ dir dir', answer (stat parent : FsM MemoryDevice Inode) d = .ok dir ∧
    answer (stat parent : FsM MemoryDevice Inode) d' = .ok dir' ∧
    dir'.fileSize = dir.fileSize + entrySize
  made : ∃ inode, answer (stat inum : FsM MemoryDevice Inode) d' = .ok inode ∧ inode.kind = kind ∧
    inode.fileSize = if kind = .directory then 2 * entrySize else 0
  dots : kind = .directory → answer (readDir inum : FsM MemoryDevice (List DirEntry)) d' =
    .ok [⟨".", inum⟩, ⟨"..", parent⟩]
  others : ∀ i, i ≠ parent → i ≠ inum →
    answer (stat i : FsM MemoryDevice Inode) d' = answer (stat i : FsM MemoryDevice Inode) d ∧
    (∀ n, answer (read i n : FsM MemoryDevice ByteArray) d' =
      answer (read i n : FsM MemoryDevice ByteArray) d) ∧
    answer (readDir i : FsM MemoryDevice (List DirEntry)) d' =
      answer (readDir i : FsM MemoryDevice (List DirEntry)) d

/-- A `Creation` is seen by the calls as one entry added. -/
theorem Creation.created {d d' : MemoryDevice} {sb : SuperBlock} (holds : d.Holds sb)
    (reads : d.failReads = none) (holds' : d'.Holds sb) (reads' : d'.failReads = none)
    {parent : InodeNumber} {kind : FileKind} {name : String} {inum : InodeNumber}
    {dir inode dir' : Inode} {fresh : List Nat}
    (cr : Creation d.disk d'.disk sb parent kind name inum dir inode dir' fresh) :
    Created d d' sb parent kind name inum := by
  have wf := holds.wellFormed
  have found : d.disk.stat? sb parent = some dir := Disk.stat?_eq_some.2 ⟨cr.allocated, cr.found⟩
  refine
    { lowest := cr.lowestInode, listing := ?_, grown := ?_, made := ?_, dots := ?_,
      others := ?_ }
  · refine ⟨(d.disk.entries dir).filter (·.isUsed), ?_, ?_⟩
    · rw [(readDir_answer holds reads parent).1, found, Option.elim_some, if_pos cr.directory]
    · rw [(readDir_answer holds' reads' parent).1, cr.stat?_parent, Option.elim_some,
        if_pos cr.kind_parent, cr.entries_parent wf, List.filter_append]
      simp [Disk.isUsed_of_hasSlot (e := ⟨name, inum⟩) cr.slot]
  · refine ⟨dir, dir', ?_, ?_, cr.fileSize_parent wf⟩
    · rw [(stat_answer holds reads parent).1, found]
      rfl
    · rw [(stat_answer holds' reads' parent).1, cr.stat?_parent]
      rfl
  · refine ⟨inode, ?_, cr.kind_inode, cr.fileSize_new⟩
    rw [(stat_answer holds' reads' inum).1, cr.stat?_self]
    rfl
  · intro isDirectory
    have kind' : inode.kind = .directory := by rw [cr.kind_inode, isDirectory]
    rw [(readDir_answer holds' reads' inum).1, cr.stat?_self, Option.elim_some, if_pos kind',
      cr.entries_new isDirectory]
    simp [Disk.isUsed_of_hasSlot (e := ⟨".", inum⟩) cr.slot,
      Disk.isUsed_of_hasSlot (e := ⟨"..", parent⟩) cr.allocated.1]
  · intro i notParent notNew
    refine ⟨?_, fun n => ?_, ?_⟩
    · rw [(stat_answer holds' reads' i).1, (stat_answer holds reads i).1,
        cr.stat?_of_ne notParent notNew]
    · rw [(read_answer holds' reads' i n).1, (read_answer holds reads i n).1,
        cr.stat?_of_ne notParent notNew]
      cases statted : d.disk.stat? sb i with
      | none => rfl
      | some inode₀ =>
        simp only [Option.elim_some]
        rw [cr.content_of_ne wf notParent statted]
    · rw [(readDir_answer holds' reads' i).1, (readDir_answer holds reads i).1,
        cr.stat?_of_ne notParent notNew]
      cases statted : d.disk.stat? sb i with
      | none => rfl
      | some dir₀ =>
        simp only [Option.elim_some]
        rw [cr.entries_of_ne wf notParent statted]

/-! ## What a create does -/

/-- What a create does on `d`: refusals in order, existing names answered, room refused exactly
under `LacksRoom`, else `Created`; refusals and repeats leave the device as it was. -/
structure CreateBehaves (d : MemoryDevice) (sb : SuperBlock) (parent : InodeNumber)
    (kind : FileKind) (name : String) : Prop where
  notDirectory : (∀ dir, d.disk.stat? sb parent = some dir → dir.kind ≠ .directory) →
    answer (create parent kind name) d = .error (.fs .invalidInode) ∧
    after (create parent kind name) d = d
  invalidName : ∀ dir, d.disk.stat? sb parent = some dir → dir.kind = .directory →
    DirEntry.validName name = false →
    answer (create parent kind name) d = .error (.fs .invalidName) ∧
    after (create parent kind name) d = d
  existing : ∀ dir e, d.disk.stat? sb parent = some dir → dir.kind = .directory →
    DirEntry.validName name = true → e ∈ (d.disk.entries dir).filter (·.isUsed) → e.name = name →
    ∃ inode, d.disk.stat? sb e.inum = some inode ∧
      answer (create parent kind name) d =
        (if inode.kind = kind then .ok e.inum else .error (.fs .invalidType)) ∧
      after (create parent kind name) d = d
  noRoom : ∀ dir, d.disk.stat? sb parent = some dir → dir.kind = .directory →
    DirEntry.validName name = true →
    (∀ e ∈ (d.disk.entries dir).filter (·.isUsed), e.name ≠ name) →
    (answer (create parent kind name) d = .error (.fs .notEnoughSpace) ↔
      d.disk.LacksRoom sb dir kind) ∧
    (d.disk.LacksRoom sb dir kind → after (create parent kind name) d = d)
  created : ∀ dir, d.disk.stat? sb parent = some dir → dir.kind = .directory →
    DirEntry.validName name = true →
    (∀ e ∈ (d.disk.entries dir).filter (·.isUsed), e.name ≠ name) →
    ¬d.disk.LacksRoom sb dir kind → ∃ i, answer (create parent kind name) d = .ok i ∧
      Created d (after (create parent kind name) d) sb parent kind name i
  again : ∀ i, answer (create parent kind name) d = .ok i →
    answer (create parent kind name) (after (create parent kind name) d) = .ok i ∧
    after (create parent kind name) (after (create parent kind name) d) =
      after (create parent kind name) d

theorem mapError_ite {c : Prop} [Decidable c] (i : InodeNumber) (cause : FsError) :
    (if c then Except.ok i else Except.error cause).mapError Fault.fs =
      if c then .ok i else .error (.fs cause) := by
  split <;> rfl

/-- On a device holding a file system, with no failure injected, a create behaves as
`CreateBehaves` says. -/
theorem create_behaves {d : MemoryDevice} {sb : SuperBlock} (holds : d.Holds sb)
    (healthy : d.Healthy) (parent : InodeNumber) (kind : FileKind) (name : String) :
    CreateBehaves d sb parent kind name := by
  have wf := holds.wellFormed
  obtain ⟨shortcut, added⟩ := create_answer holds healthy parent kind name
  refine
    { notDirectory := fun refused => shortcut _ (Disk.createShortcut_of_not_directory refused _ _),
      invalidName := fun dir found directory invalid =>
        shortcut _ (Disk.createShortcut_of_invalid found directory invalid _),
      existing := ?_, noRoom := ?_, created := ?_, again := ?_ }
  · intro dir e found directory valid listed named
    obtain ⟨allocated, decoded⟩ := Disk.stat?_eq_some.1 found
    obtain ⟨inode, statted, existing⟩ := wf.existingAnswer_eq allocated decoded directory
      (List.mem_filter.1 listed).1 kind
    obtain ⟨answered, unchanged⟩ :=
      shortcut _ (wf.createShortcut_of_listed allocated decoded directory valid listed named kind)
    exact ⟨inode, statted, by rw [answered, existing, mapError_ite], unchanged⟩
  · intro dir found directory valid absent
    obtain ⟨allocated, decoded⟩ := Disk.stat?_eq_some.1 found
    have refusal := Disk.WellFormed.createShortcut_of_absent allocated decoded directory valid
      absent kind
    by_cases lacks : d.disk.LacksRoom sb dir kind
    · rw [if_pos lacks] at refusal
      obtain ⟨answered, unchanged⟩ := shortcut _ refusal
      exact ⟨⟨fun _ => lacks, fun _ => answered⟩, fun _ => unchanged⟩
    · rw [if_neg lacks] at refusal
      obtain ⟨i, answered, -⟩ := added refusal
      refine ⟨⟨fun refused => ?_, fun lacking => absurd lacking lacks⟩,
        fun lacking => absurd lacking lacks⟩
      rw [answered] at refused
      cases refused
  · intro dir found directory valid absent roomy
    obtain ⟨allocated, decoded⟩ := Disk.stat?_eq_some.1 found
    have refusal := Disk.WellFormed.createShortcut_of_absent allocated decoded directory valid
      absent kind
    rw [if_neg roomy] at refusal
    obtain ⟨i, answered, kept, dir₀, inode, dir', fresh, cr⟩ := added refusal
    exact ⟨i, answered, cr.created holds healthy.reads (cr.holds holds kept)
      (healthy.of_committed kept).reads⟩
  · intro i answered
    cases found : d.disk.createShortcut sb parent kind name with
    | some r =>
      obtain ⟨-, unchanged⟩ := shortcut r found
      rw [unchanged]
      exact ⟨answered, unchanged⟩
    | none =>
      obtain ⟨i', answered', kept, dir, inode, dir', fresh, cr⟩ := added found
      rw [answered', Except.ok.injEq] at answered
      subst answered
      -- the device the create left lists the new entry, so the repeat finds it
      obtain ⟨again, unchanged⟩ := (create_answer (cr.holds holds kept) (healthy.of_committed kept)
        parent kind name).1 _ (cr.createShortcut_again wf)
      exact ⟨again, unchanged⟩

end Engine

end InodeFs
