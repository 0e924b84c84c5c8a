import InodeFs.Proofs.Paths

/-!
Storing and deleting at a path: a store makes the directories on the way, creates the file and
writes the body (`putAt_settles`); a delete unlinks the last segment (`deleteAt_removes`).
-/

namespace InodeFs

open Engine FsM Store

/-! ## Creates that find their name -/

section Shortcut

variable {d : MemoryDevice} {sb : SuperBlock} (holds : d.Holds sb) (reads : d.failReads = none)
include holds reads

theorem lookup_answer_of_createShortcut {parent r : InodeNumber} {kind : FileKind} {name : String}
    (shortcut : d.disk.createShortcut sb parent kind name = some (.ok r)) :
    answer (lookup parent name : FsM MemoryDevice InodeNumber) d = .ok r := by
  unfold Disk.createShortcut at shortcut
  rw [lookup_answer_eq_ok holds reads]
  cases found : d.disk.stat? sb parent with
  | none => rw [found] at shortcut; cases shortcut
  | some dir =>
    rw [found] at shortcut
    dsimp only at shortcut
    split at shortcut
    · cases shortcut
    · next directory =>
      split at shortcut
      · cases shortcut
      · split at shortcut
        · next e listed =>
          unfold Disk.existingAnswer at shortcut
          split at shortcut
          · cases shortcut
          · split at shortcut
            · exact ⟨dir, e, rfl, not_not.1 directory, listed,
                Except.ok.inj (Option.some.inj shortcut)⟩
            · cases shortcut
        · split at shortcut <;> cases shortcut

theorem lookup_answer_of_createShortcut_none {parent : InodeNumber} {kind : FileKind} {name : String}
    (adds : d.disk.createShortcut sb parent kind name = none) (y : InodeNumber) :
    answer (lookup parent name : FsM MemoryDevice InodeNumber) d ≠ .ok y := by
  rw [Ne, lookup_answer_eq_ok holds reads]
  rintro ⟨dir, e, found, directory, listed, -⟩
  unfold Disk.createShortcut at adds
  rw [found] at adds
  dsimp only at adds
  rw [if_neg (not_not.2 directory)] at adds
  split at adds
  · cases adds
  · rw [listed] at adds
    cases adds

end Shortcut

namespace Engine

/-- A create that adds an entry only appends to its parent's listing. -/
theorem Created.grows {d d' : MemoryDevice} {sb : SuperBlock} {parent : InodeNumber} {kind : FileKind}
    {name : String} {inum : InodeNumber} (created : Created d d' sb parent kind name inum)
    (fresh : d.disk.stat? sb inum = none) (holds : d.Holds sb) (reads : d.failReads = none) :
    Grows d d' := by
  intro x entries listed
  by_cases atParent : x = parent
  · subst atParent
    obtain ⟨entries', before, after⟩ := created.listing
    rw [before, Except.ok.injEq] at listed
    subst listed
    exact ⟨_, after⟩
  · by_cases atNew : x = inum
    · subst atNew
      rw [(readDir_answer holds reads x).1, fresh] at listed
      cases listed
    · exact ⟨[], by rw [(created.others x atParent atNew).2.2, List.append_nil, listed]⟩

end Engine

namespace Store

/-! ## Storing at a path -/

section Calls

variable {d : MemoryDevice} {sb : SuperBlock} (holds : d.Holds sb) (healthy : d.Healthy)
  {s : Session MemoryDevice}
include holds healthy

/-- A create that answers keeps the file system, only appends entries, and answers what a lookup
then answers. -/
theorem create_ends_kept (same : s.device = d) (parent : InodeNumber) (kind : FileKind)
    (name : String) :
    Ends (create parent kind name : FsM MemoryDevice InodeNumber) s
      (fun r t => t.device.Holds sb ∧ t.device.Healthy ∧ Grows d t.device ∧
        answer (lookup parent name : FsM MemoryDevice InodeNumber) t.device = .ok r ∧
        ((∃ y, answer (lookup parent name : FsM MemoryDevice InodeNumber) d = .ok y) → t.device = d))
      (fun _ _ => True) := by
  refine (create_ends_holds holds healthy.reads same parent kind name).mono ?_ fun _ _ _ => trivial
  rintro r t (⟨shortcut, unchanged⟩ | ⟨adds, kept, dir, inode, dir', fresh, cr⟩)
  · rw [unchanged]
    exact ⟨holds, healthy, Grows.refl d,
      lookup_answer_of_createShortcut holds healthy.reads shortcut, fun _ => rfl⟩
  · have holds' := cr.holds holds kept
    have healthy' := healthy.of_committed kept
    have created := cr.created holds healthy.reads holds' healthy'.reads
    have new : d.disk.stat? sb r = none := by
      unfold Disk.stat?
      rw [if_neg cr.not_allocated]
    refine ⟨holds', healthy', created.grows new holds healthy.reads,
      lookup_answer_of_createShortcut holds' healthy'.reads (cr.createShortcut_again holds.wellFormed),
      ?_⟩
    rintro ⟨y, found⟩
    exact absurd found (lookup_answer_of_createShortcut_none holds healthy.reads adds y)

/-- A write that answers keeps every listing and leaves a regular file that reads back. -/
theorem write_ends_kept (same : s.device = d) (inum : InodeNumber) (bytes : ByteArray) :
    Ends (write inum bytes : FsM MemoryDevice Nat) s
      (fun _ t => t.device.Holds sb ∧ t.device.Healthy ∧
        (∀ x, answer (readDir x : FsM MemoryDevice (List DirEntry)) t.device =
          answer (readDir x : FsM MemoryDevice (List DirEntry)) d) ∧
        ∃ inode, t.device.disk.stat? sb inum = some inode ∧ inode.kind = .regularFile ∧
          answer (read inum inode.fileSize : FsM MemoryDevice ByteArray) t.device = .ok bytes)
      (fun _ _ => True) := by
  refine ((write_ends_holds holds healthy.reads same inum bytes).and
    (write_commits s inum bytes (same ▸ holds.closed) (same ▸ holds.wellFormed.whole))).mono ?_
    fun _ _ _ => trivial
  rintro r t ⟨⟨accepted, -⟩, kept, sb', inode, inode', fresh, r'⟩
  rw [same] at kept r'
  have sameSb : sb' = sb := by
    have decoded := r'.super
    rw [holds.wellFormed.super, Option.some.injEq] at decoded
    exact decoded.symm
  subst sameSb
  have holds' := r'.holds holds kept
  have healthy' := healthy.of_committed kept
  have replaced := r'.replaced holds healthy.reads holds' healthy'.reads
  have fits : ¬maxFileSize < bytes.size ∧ inode.kind ≠ .directory := by
    rw [Disk.writeRefusal, replaced.found] at accepted
    dsimp only at accepted
    split at accepted
    · cases accepted
    · split at accepted
      · cases accepted
      · exact ⟨by assumption, by assumption⟩
  refine ⟨holds', healthy', fun x => ?_, inode', replaced.found', replaced.kind', ?_⟩
  · by_cases self : x = inum
    · subst self
      rw [(readDir_answer holds' healthy'.reads x).1, (readDir_answer holds healthy.reads x).1,
        replaced.found', replaced.found, Option.elim_some, Option.elim_some,
        if_neg (by rw [replaced.kind']; decide), if_neg fits.2]
    · exact (replaced.others x self).2.2
  · rw [replaced.size', replaced.readBack bytes.size (Nat.le_of_not_lt fits.1), Nat.min_self,
      ByteArray.extract_zero_size]

/-- A create its checks let through adds the entry. -/
theorem create_ends_adds (same : s.device = d) {parent : InodeNumber} {kind : FileKind}
    {name : String} (adds : d.disk.createShortcut sb parent kind name = none) :
    Ends (create parent kind name : FsM MemoryDevice InodeNumber) s
      (fun r t => t.device = { d with committed := t.device.committed } ∧
        ∃ dir inode dir' fresh, Creation d.disk t.device.disk sb parent kind name r dir inode dir' fresh)
      (fun _ _ => False) := by
  refine (create_ends_holds holds healthy.reads same parent kind name).mono ?_ ?_
  · rintro r t (⟨answered, -⟩ | ⟨-, kept, created⟩)
    · rw [adds] at answered
      cases answered
    · exact ⟨kept, created⟩
  · rintro e t ⟨-, refused⟩
    obtain ⟨cause, refusal, -⟩ := refused healthy.writes healthy.commits
    rw [adds] at refusal
    cases refusal

theorem write_ends_accepted (same : s.device = d) {inum : InodeNumber} {bytes : ByteArray}
    (accepted : d.disk.writeRefusal sb inum bytes = none) :
    Ends (write inum bytes : FsM MemoryDevice Nat) s (fun _ _ => True) (fun _ _ => False) := by
  refine (write_ends_holds holds healthy.reads same inum bytes).mono (fun _ _ _ => trivial) ?_
  rintro e t ⟨-, refused⟩
  obtain ⟨cause, refusal, -⟩ := refused healthy.writes healthy.commits
  rw [accepted] at refusal
  cases refusal

end Calls

/-- What a store of `body` at `segs` leaves: the file system held, the path leading to a file
that reads back, listings only grown, and nothing changed when the path existed. -/
structure Stored (d d' : MemoryDevice) (sb : SuperBlock) (segs : List String) (body : ByteArray) :
    Prop where
  holds : d'.Holds sb
  healthy : d'.Healthy
  grows : Grows d d'
  file : ∃ f inode, follow d' rootInode segs = .ok f ∧ d'.disk.stat? sb f = some inode ∧
    inode.kind = .regularFile ∧ answer (read f inode.fileSize : FsM MemoryDevice ByteArray) d' = .ok body
  unchanged : (∃ f, follow d rootInode segs = .ok f) →
    ∀ x, answer (readDir x : FsM MemoryDevice (List DirEntry)) d' =
      answer (readDir x : FsM MemoryDevice (List DirEntry)) d

theorem follow_append_singleton_of_unchanged {d d' : MemoryDevice} {done : List String}
    {seg : String} {x y : InodeNumber}
    (unchanged : ∀ z, follow d rootInode done = .ok z → d' = d)
    (reached : follow d' rootInode done = .ok x) (reached' : follow d rootInode (done ++ [seg]) = .ok y) :
    d' = d ∧ answer (lookup x seg : FsM MemoryDevice InodeNumber) d' = .ok y := by
  obtain ⟨z, reachedD, foundD⟩ := follow_append_eq_ok reached'
  have same := unchanged z reachedD
  subst same
  rw [reached, Except.ok.injEq] at reachedD
  subst reachedD
  exact ⟨rfl, by rwa [follow_singleton] at foundD⟩

/-- Where a store's walk stands, with `rest` still to make: listings only grew and the segments
done lead to `x`. -/
structure Making (d : MemoryDevice) (sb : SuperBlock) (segs rest : List String) (x : InodeNumber)
    (d' : MemoryDevice) : Prop where
  holds : d'.Holds sb
  healthy : d'.Healthy
  grows : Grows d d'
  walked : ∃ done, segs = done ++ rest ∧ follow d' rootInode done = .ok x ∧
    ∀ y, follow d rootInode done = .ok y → d' = d

/-- One turn of a store's walk keeps `Making`, or stops with a status that is no success. -/
theorem Making.step {d : MemoryDevice} {sb : SuperBlock} {segs rest : List String} {seg : String}
    {x : InodeNumber} {t : Session MemoryDevice} (making : Making d sb segs (seg :: rest) x t.device) :
    Settles (orStatus .create (create x .directory seg : FsM MemoryDevice InodeNumber)) t
      (fun y u => Making d sb segs rest y u.device) (fun st _ => st ≠ .ok) (fun _ _ => True) := by
  obtain ⟨holdsT, healthyT, grows, done, split, reached, unchanged⟩ := making
  refine (settles_orStatus (create_ends_kept holdsT healthyT rfl x .directory seg) .create).mono
    ?_ ?_ fun _ _ _ => trivial
  · rintro y u ⟨holdsU, healthyU, growsU, found, kept⟩
    refine ⟨holdsU, healthyU, grows.trans growsU, done ++ [seg],
      by rw [split, List.append_assoc, List.singleton_append], ?_, ?_⟩
    · rw [follow_append_singleton (growsU.follow holdsT healthyT.reads holdsU healthyU.reads reached),
        found]
    · intro y' reached'
      obtain ⟨same', foundD⟩ := follow_append_singleton_of_unchanged unchanged reached reached'
      rw [kept ⟨y', foundD⟩, same']
  · rintro st u ⟨e, rfl, -⟩
    exact statusFor_ne_ok e .create

section Put

variable {d : MemoryDevice} {sb : SuperBlock} (holds : d.Holds sb) (healthy : d.Healthy)
  {s : Session MemoryDevice}
include holds healthy

/-- A store that answers leaves `Stored`; every other outcome is a status that is no success. -/
theorem putAt_settles (same : s.device = d) (segs : List String) (body : ByteArray) :
    Settles (putAt segs body : StoreM MemoryDevice Response) s
      (fun r t => r = success ByteArray.empty "text/plain" ∧ Stored d t.device sb segs body)
      (fun st _ => st ≠ .ok) (fun _ _ => True) := by
  unfold putAt
  cases last : segs.getLast? with
  | none => simp
  | some name =>
    have split : segs = segs.dropLast ++ [name] := (List.dropLast_append_getLast? name last).symm
    dsimp only
    split
    · simp
    rw [settles_bind]
    -- the walk makes the directories one by one, each turn keeping `Making`
    refine settles_forIn _ _ _ s (fun rest x t => Making d sb segs.dropLast rest x t.device) ?_ ?_
        ⟨same ▸ holds, same ▸ healthy, same ▸ Grows.refl d, [], rfl, rfl, fun _ _ => same⟩
    · rintro seg rest x t making
      rw [settles_bind]
      exact (making.step).mono (fun _ _ making' => making') (fun _ _ h => h) fun _ _ h => h
    · rintro p t ⟨holdsT, healthyT, grows, done, split', reached, unchanged⟩
      rw [List.append_nil] at split'
      rw [← split'] at reached unchanged
      rw [settles_bind]
      refine (settles_orStatus (create_ends_kept holdsT healthyT rfl p .regularFile name) .create).mono
        ?_ ?_ fun _ _ _ => trivial
      · rintro f u ⟨holdsU, healthyU, growsU, found, kept⟩
        rw [settles_bind]
        refine (settles_orStatus (write_ends_kept holdsU healthyU rfl f body) .write).mono ?_ ?_
          fun _ _ _ => trivial
        · rintro - v ⟨holdsV, healthyV, lists, inode, statted, regular, contents⟩
          have growsV := Grows.of_eq lists
          refine ⟨rfl, holdsV, healthyV, grows.trans (growsU.trans growsV), ⟨f, inode, ?_, statted,
            regular, contents⟩, ?_⟩
          · refine growsV.follow holdsU healthyU.reads holdsV healthyV.reads ?_
            rw [split, follow_append_singleton
              (growsU.follow holdsT healthyT.reads holdsU healthyU.reads reached), found]
          · -- a path that led somewhere before needed no new entry, so nothing changed
            rintro ⟨f', reached'⟩
            rw [split] at reached'
            obtain ⟨same', foundF⟩ := follow_append_singleton_of_unchanged unchanged reached reached'
            intro x
            rw [lists x, kept ⟨f', foundF⟩, same']
        · rintro st v ⟨e, rfl, -⟩
          exact statusFor_ne_ok e .write
      · rintro st u ⟨e, rfl, -⟩
        exact statusFor_ne_ok e .create

end Put

/-! ## Deleting at a path -/

section Delete

variable {d : MemoryDevice} {sb : SuperBlock} (holds : d.Holds sb) (healthy : d.Healthy)
  {s : Session MemoryDevice}
include holds healthy

/-- An unlink that neither refuses nor finds nothing to do answers and removes the entry. -/
theorem unlink_ends_removes (same : s.device = d) {parent : InodeNumber} {name : String}
    (removes : d.disk.unlinkShortcut sb parent name = none) :
    Ends (unlink parent name : FsM MemoryDevice Unit) s
      (fun _ t => t.device.Holds sb ∧ t.device.Healthy ∧
        ∃ target dir dir' victim, Removed d t.device sb parent name target dir dir' victim)
      (fun _ _ => False) := by
  refine (unlink_ends_holds holds healthy.reads same parent name).mono ?_ ?_
  · rintro - t (⟨answered, -⟩ | ⟨-, kept, dir, position, target, victim, dir', removal⟩)
    · rw [removes] at answered
      cases answered
    · have holds' := removal.holds holds kept
      have healthy' := healthy.of_committed kept
      exact ⟨holds', healthy', target, dir, dir', victim,
        removal.removed holds healthy.reads holds' healthy'.reads⟩
  · rintro e t ⟨-, refused⟩
    obtain ⟨cause, answered, -⟩ := refused healthy.writes healthy.commits
    rw [removes] at answered
    cases answered

omit healthy in
theorem unlinkShortcut_of_file {parent f : InodeNumber} {name : String} {inode : Inode}
    (found : answer (lookup parent name : FsM MemoryDevice InodeNumber) d = .ok f)
    (file : d.disk.stat? sb f = some inode) (notDir : inode.kind ≠ .directory)
    (reads : d.failReads = none) :
    d.disk.unlinkShortcut sb parent name = none := by
  have wf := holds.wellFormed
  obtain ⟨e, listed, named, rfl⟩ := exists_entry_of_lookup holds reads found
  obtain ⟨dir, statted, kind⟩ := isDirectory_of_lookup holds reads found
  obtain ⟨allocated, decoded⟩ := Disk.stat?_eq_some.1 statted
  have notDot := wf.isDot_eq_false_of_file ⟨dir, statted, kind⟩ listed file notDir
  have notDots : ¬(name = "." ∨ name = "..") := by
    rintro (rfl | rfl) <;> simp [DirEntry.isDot, named] at notDot
  rw [Disk.usedEntries_of_stat? statted] at listed
  obtain ⟨victim, statted', removes⟩ :=
    wf.unlinkShortcut_of_listed allocated decoded kind notDots listed named
  rw [file, Option.some.injEq] at statted'
  subst statted'
  rw [removes, if_neg fun crowded => notDir crowded.1]

/-- A delete of a path to a file answers, keeps the file system, and leaves the path leading
nowhere. -/
theorem deleteAt_removes (same : s.device = d) {segs : List String} {name : String}
    {p f : InodeNumber} {inode : Inode} (last : segs.getLast? = some name)
    (reached : follow d rootInode segs.dropLast = .ok p)
    (found : answer (lookup p name : FsM MemoryDevice InodeNumber) d = .ok f)
    (file : d.disk.stat? sb f = some inode) (notDir : inode.kind ≠ .directory) :
    Settles (deleteAt segs : StoreM MemoryDevice Response) s
      (fun r t => r = success ByteArray.empty "text/plain" ∧ t.device.Holds sb ∧ t.device.Healthy ∧
        follow t.device rootInode segs = .error (.fs .notFound))
      (fun _ _ => False) (fun _ _ => False) := by
  have split : segs = segs.dropLast ++ [name] := (List.dropLast_append_getLast? name last).symm
  have notDirectory : ¬d.disk.IsDirectory sb f := by
    rintro ⟨inode', found', kind'⟩
    rw [file, Option.some.injEq] at found'
    subst found'
    exact notDir kind'
  unfold deleteAt
  rw [last]
  dsimp only
  rw [settles_bind]
  refine (resolve_settles_of_follow holds healthy.reads same reached).mono ?_ (fun _ _ never => never)
    fun _ _ never => never
  rintro p' t ⟨rfl, device⟩
  rw [settles_bind, settles_lift]
  refine (ends_attempt (unlink_ends_removes holds healthy device
    (unlinkShortcut_of_file holds found file notDir healthy.reads))).mono ?_ ?_
  · rintro r u (⟨-, rfl, holdsU, healthyU, target, dir, dir', victim, removed⟩ | ⟨e, -, never⟩)
    · refine ⟨rfl, holdsU, healthyU, ?_⟩
      have sameTarget : target = f := by
        rw [removed.named, Except.ok.injEq] at found
        exact found
      subst sameTarget
      -- the walk to the parent passes only through directories, which the removal keeps
      have reachedU : follow u.device rootInode segs.dropLast = .ok p' :=
        follow_of_directory_lookups holds healthy.reads
          (fun x n y found' dirY => removed.lookup_kept holds healthy.reads holdsU
            healthyU.reads notDirectory found' dirY) reached
          (isDirectory_of_lookup holds healthy.reads found)
      rw [split, follow_append_singleton reachedU, removed.gone]
    · exact never.elim
  · rintro f' u ⟨-, never⟩
    exact never.elim

end Delete

end Store

end InodeFs
