import InodeFs.Proofs.Storing
import InodeFs.Proofs.Mount

/-!
The object store's requests agree with each other: after a `PUT` that succeeds on a reachable
image the object reads back, its directory lists it, and a `DELETE` leaves `404 Not Found`
(`put_get_delete_agree`).
-/

namespace InodeFs

open Engine FsM

namespace Store

/-- A directory listing: one line per entry, its name followed by `/` for a directory. -/
def listingText (isDir : DirEntry → Bool) (entries : List DirEntry) : String :=
  String.join (entries.map fun e => e.name ++ (if isDir e then "/" else "") ++ "\n")

theorem listingText_append_singleton (isDir : DirEntry → Bool) (entries : List DirEntry)
    (e : DirEntry) :
    listingText isDir (entries ++ [e]) =
      listingText isDir entries ++ e.name ++ (if isDir e then "/" else "") ++ "\n" := by
  simp [listingText, String.join_append, String.append_assoc]

section Get

variable {d : MemoryDevice} {sb : SuperBlock} (holds : d.Holds sb) (reads : d.failReads = none)
  {s : Session MemoryDevice}
include holds reads

theorem stat_settles_found (same : s.device = d) {i : InodeNumber} {inode : Inode}
    (found : d.disk.stat? sb i = some inode) (phase : Phase) :
    Settles (orStatus phase (stat i : FsM MemoryDevice Inode)) s
      (fun inode' t => inode' = inode ∧ t = s) (fun _ _ => False) (fun _ _ => False) := by
  refine (settles_orStatus (stat_holds holds reads same i) phase).mono ?_ ?_ ?_
  · rintro inode' t ⟨rfl, found'⟩
    rw [found, Option.some.injEq] at found'
    exact ⟨found'.symm, rfl⟩
  · rintro st t ⟨e, -, -, -, missing⟩
    rw [found] at missing
    cases missing
  · rintro e t ⟨-, -, -, missing⟩
    rw [found] at missing
    cases missing

/-- A path that does not resolve is answered with the status of the lookup that refused it. -/
theorem getAt_refused (same : s.device = d) {segs : List String} {e : FsError}
    (refused : follow d rootInode segs = .error (.fs e)) :
    Settles (getAt segs : StoreM MemoryDevice Response) s (fun _ _ => False)
      (fun st t => st = statusFor e .resolve ∧ t.device = d) (fun _ _ => False) := by
  unfold getAt
  rw [settles_bind]
  refine (resolve_settles holds reads same segs).mono ?_ ?_ fun _ _ never => never
  · rintro y t ⟨-, reached⟩
    rw [refused] at reached
    cases reached
  · rintro st t ⟨device, e', refused', rfl⟩
    rw [refused] at refused'
    cases refused'
    exact ⟨rfl, device⟩

/-- A path that resolves to a regular file is answered with its content, typed by its name. -/
theorem getAt_file (same : s.device = d) {segs : List String} {f : InodeNumber} {inode : Inode}
    {content : ByteArray} (reached : follow d rootInode segs = .ok f)
    (found : d.disk.stat? sb f = some inode) (regular : inode.kind = .regularFile)
    (contents : answer (read f inode.fileSize : FsM MemoryDevice ByteArray) d = .ok content) :
    Settles (getAt segs : StoreM MemoryDevice Response) s
      (fun r t => r = success content (contentTypeFor (segs.getLast?.getD "")) ∧ t.device = d)
      (fun _ _ => False) (fun _ _ => False) := by
  unfold getAt
  rw [settles_bind]
  refine (resolve_settles_of_follow holds reads same reached).mono ?_ (fun _ _ never => never)
    fun _ _ never => never
  rintro y t ⟨rfl, device⟩
  rw [settles_bind]
  refine (stat_settles_found holds reads device found .resolve).mono ?_ (fun _ _ never => never)
    fun _ _ never => never
  rintro inode' u ⟨rfl, rfl⟩
  rw [if_pos (by simp [regular]), settles_bind]
  refine (settles_orStatus (read_holds holds reads device y inode'.fileSize) .resolve).mono ?_ ?_ ?_
  · rintro content' v ⟨rfl, read'⟩
    rw [contents, Except.ok.injEq] at read'
    subst read'
    exact ⟨rfl, device⟩
  · rintro st v ⟨e, -, -, read'⟩
    rw [contents] at read'
    cases read'
  · rintro e v ⟨-, -, read'⟩
    rw [contents] at read'
    cases read'

/-- A path that resolves to a directory is answered with its listing. -/
theorem getAt_directory (same : s.device = d) {segs : List String} {p : InodeNumber}
    (reached : follow d rootInode segs = .ok p) (dir : d.disk.IsDirectory sb p) :
    Settles (getAt segs : StoreM MemoryDevice Response) s
      (fun r t => r = success (listingText (d.disk.namesDirectory sb)
          ((sortByName (d.disk.usedEntries sb p)).filter fun e => !e.isDot)).toUTF8 "text/plain" ∧
        t.device = d)
      (fun _ _ => False) (fun _ _ => False) := by
  obtain ⟨inode, found, kind⟩ := dir
  unfold getAt
  rw [settles_bind]
  refine (resolve_settles_of_follow holds reads same reached).mono ?_ (fun _ _ never => never)
    fun _ _ never => never
  rintro y t ⟨rfl, device⟩
  rw [settles_bind]
  refine (stat_settles_found holds reads device found .resolve).mono ?_ (fun _ _ never => never)
    fun _ _ never => never
  rintro inode' u ⟨rfl, rfl⟩
  rw [if_neg (by simp [kind]), settles_bind]
  refine (settles_orStatus (readDir_holds holds reads device ⟨inode', found, kind⟩) .resolve).mono
    ?_ (fun _ _ stopped => stopped.elim fun _ never => never.2.elim) fun _ _ never => never.2.elim
  rintro entries v ⟨rfl, rfl⟩
  rw [settles_bind]
  -- the listing holds one line for each entry done, in order
  refine settles_forIn _ _ _ _ (fun rest acc v => v.device = d ∧ ∃ done,
      (sortByName (d.disk.usedEntries sb y)).filter (fun e => !e.isDot) = done ++ rest ∧
      acc = listingText (d.disk.namesDirectory sb) done) ?_ ?_ ⟨device, [], rfl, rfl⟩
  · rintro e rest acc v ⟨device', done, split, rfl⟩
    have listed : e ∈ d.disk.usedEntries sb y := by
      have member : e ∈ (sortByName (d.disk.usedEntries sb y)).filter fun e => !e.isDot := by
        rw [split]
        exact List.mem_append_right _ List.mem_cons_self
      exact (sortByName_perm _).mem_iff.1 (List.mem_filter.1 member).1
    obtain ⟨child, found'⟩ := Option.isSome_iff_exists.1
      (holds.wellFormed.stat?_isSome_of_used ⟨inode', found, kind⟩ listed)
    rw [settles_bind]
    refine (stat_settles_found holds reads device' found' .resolve).mono ?_ (fun _ _ never => never)
      fun _ _ never => never
    rintro child' w ⟨rfl, rfl⟩
    refine ⟨device', done ++ [e], by rw [split, List.append_assoc, List.singleton_append], ?_⟩
    rw [listingText_append_singleton]
    simp [Disk.namesDirectory, found']
  · rintro acc v ⟨device', done, split, rfl⟩
    rw [List.append_nil] at split
    rw [split]
    exact ⟨rfl, device'⟩

end Get

/-! ## Requests on a device that holds a file system -/

section Handle

variable {path : String} {segs : List String} {d : MemoryDevice} {sb : SuperBlock}
  (holds : d.Holds sb) (healthy : d.Healthy)
include holds healthy

/-- A `PUT` that answers success stores its body at its path. -/
theorem handle_put_stores (mounted : mountedSegments path = some segs) {body : ByteArray}
    {r : Response} (answered : answer (handle ⟨.put, path, body⟩ : FsM MemoryDevice Response) d = .ok r)
    (succeeded : r.status = .ok) :
    Stored d (after (handle ⟨.put, path, body⟩ : FsM MemoryDevice Response) d) sb segs body := by
  refine answer_after_of_ends (x := (handle ⟨.put, path, body⟩ : FsM MemoryDevice Response))
    (fun res d' => ∀ r, res = .ok r → r.status = .ok → Stored d d' sb segs body)
    ?_ r answered succeeded
  rw [ends_handle_put mounted body]
  refine (putAt_settles holds healthy rfl segs body).mono ?_ ?_ ?_
  · rintro r' t ⟨rfl, stored⟩ r same -
    exact stored
  · rintro st t notOk r same status
    cases same
    exact absurd status notOk
  · rintro e t - r same
    cases same

/-- A `GET` of a path that leads to a regular file answers its content. -/
theorem handle_get_file (mounted : mountedSegments path = some segs) (body : ByteArray)
    {f : InodeNumber} {inode : Inode} {content : ByteArray} (reached : follow d rootInode segs = .ok f)
    (found : d.disk.stat? sb f = some inode) (regular : inode.kind = .regularFile)
    (contents : answer (read f inode.fileSize : FsM MemoryDevice ByteArray) d = .ok content) :
    answer (handle ⟨.get, path, body⟩ : FsM MemoryDevice Response) d =
      .ok (success content (contentTypeFor (segs.getLast?.getD ""))) := by
  apply answer_eq_of_ends
  rw [ends_handle_get mounted body]
  refine (getAt_file holds healthy.reads rfl reached found regular contents).mono ?_
    (fun _ _ never => never.elim) fun _ _ never => never.elim
  rintro r t ⟨rfl, -⟩
  rfl

/-- A `GET` of a path that leads to a directory answers its listing. -/
theorem handle_get_directory (mounted : mountedSegments path = some segs) (body : ByteArray)
    {p : InodeNumber} (reached : follow d rootInode segs = .ok p) (dir : d.disk.IsDirectory sb p) :
    answer (handle ⟨.get, path, body⟩ : FsM MemoryDevice Response) d =
      .ok (success (listingText (d.disk.namesDirectory sb)
          ((sortByName (d.disk.usedEntries sb p)).filter fun e => !e.isDot)).toUTF8 "text/plain") := by
  apply answer_eq_of_ends
  rw [ends_handle_get mounted body]
  refine (getAt_directory holds healthy.reads rfl reached dir).mono ?_
    (fun _ _ never => never.elim) fun _ _ never => never.elim
  rintro r t ⟨rfl, -⟩
  rfl

/-- A `GET` of a path that leads nowhere answers the status of the lookup that refused. -/
theorem handle_get_refused (mounted : mountedSegments path = some segs) (body : ByteArray)
    {e : FsError} (refused : follow d rootInode segs = .error (.fs e)) :
    answer (handle ⟨.get, path, body⟩ : FsM MemoryDevice Response) d =
      .ok (Response.failure (statusFor e .resolve)) := by
  apply answer_eq_of_ends
  rw [ends_handle_get mounted body]
  refine (getAt_refused holds healthy.reads rfl refused).mono (fun _ _ never => never.elim) ?_
    fun _ _ never => never.elim
  rintro st t ⟨rfl, -⟩
  rfl

/-- A `DELETE` of a file answers success and leaves its path leading nowhere. -/
theorem handle_delete_removes (mounted : mountedSegments path = some segs) (body : ByteArray)
    {name : String} {p f : InodeNumber} {inode : Inode} (last : segs.getLast? = some name)
    (reached : follow d rootInode segs.dropLast = .ok p)
    (found : answer (lookup p name : FsM MemoryDevice InodeNumber) d = .ok f)
    (file : d.disk.stat? sb f = some inode) (notDir : inode.kind ≠ .directory) :
    answer (handle ⟨.delete, path, body⟩ : FsM MemoryDevice Response) d =
      .ok (success ByteArray.empty "text/plain") ∧
    (after (handle ⟨.delete, path, body⟩ : FsM MemoryDevice Response) d).Holds sb ∧
    (after (handle ⟨.delete, path, body⟩ : FsM MemoryDevice Response) d).Healthy ∧
    follow (after (handle ⟨.delete, path, body⟩ : FsM MemoryDevice Response) d) rootInode segs =
      .error (.fs .notFound) := by
  refine answer_after_of_ends (x := (handle ⟨.delete, path, body⟩ : FsM MemoryDevice Response))
    (fun res d' => res = .ok (success ByteArray.empty "text/plain") ∧ d'.Holds sb ∧ d'.Healthy ∧
      follow d' rootInode segs = .error (.fs .notFound)) ?_
  rw [ends_handle_delete mounted body]
  refine (deleteAt_removes holds healthy rfl last reached found file notDir).mono ?_
    (fun _ _ never => never.elim) fun _ _ never => never.elim
  rintro r t ⟨rfl, holdsT, healthyT, gone⟩
  exact ⟨rfl, holdsT, healthyT, gone⟩

end Handle

/-! ## Put, get and delete agree -/

def pathOf (segs : List String) : String :=
  pathTo (segs.map fun seg => (0, seg)) 0 none

theorem mountedSegments_pathOf {segs : List String} (named : ∀ x ∈ segs, IsSegment x) :
    mountedSegments (pathOf segs) = some segs := by
  have segments : ∀ x ∈ segs.map (fun seg => (0, seg)), IsSegment x.2 := by
    simpa using named
  rw [pathOf, mountedSegments_of_spelled segments (takeWhile_pathTo segments 0 none), List.map_map]
  simp

theorem usedEntries_pairwise {disk : Disk} {sb : SuperBlock} (wf : disk.WellFormed sb)
    {p : InodeNumber} (dir : disk.IsDirectory sb p) :
    (disk.usedEntries sb p).Pairwise fun e e' => e.name ≠ e'.name := by
  obtain ⟨inode, found, kind⟩ := dir
  obtain ⟨allocated, decoded⟩ := Disk.stat?_eq_some.1 found
  rw [Disk.usedEntries_of_stat? found]
  exact (wf.entries_pairwise allocated decoded kind).filter _

/-- On every reachable image, after a `PUT` of `body` that succeeds, a `GET` answers the body,
the directory lists its entries once each in name order with `name` as a file, a second `PUT`
changes no listing, and a `DELETE` answers success and leaves `404 Not Found`. -/
theorem put_get_delete_agree {ni nd : Nat} {d : MemoryDevice} (reach : Engine.Reachable ni nd d)
    {segs : List String} {name : String} (named : ∀ x ∈ segs, IsSegment x)
    (last : segs.getLast? = some name) {body : ByteArray} {r : Response}
    (put : answer (handle ⟨.put, pathOf segs, body⟩ : FsM MemoryDevice Response) d = .ok r)
    (succeeded : r.status = .ok) :
    let sb := SuperBlock.withCapacity (UInt32.ofNat ni) (UInt32.ofNat nd)
    let d₁ := after (handle ⟨.put, pathOf segs, body⟩ : FsM MemoryDevice Response) d
    answer (handle ⟨.get, pathOf segs, .empty⟩ : FsM MemoryDevice Response) d₁ =
      .ok ⟨.ok, body, contentTypeFor name⟩ ∧
    (∃ p listed entries, follow d₁ rootInode segs.dropLast = .ok p ∧
      answer (readDir p : FsM MemoryDevice (List DirEntry)) d₁ = .ok listed ∧
      entries.Perm (listed.filter fun e => !e.isDot) ∧
      entries.Pairwise (fun e e' => e.name < e'.name) ∧
      (∃ e ∈ entries, e.name = name ∧ d₁.disk.namesDirectory sb e = false) ∧
      answer (handle ⟨.get, pathOf segs.dropLast, .empty⟩ : FsM MemoryDevice Response) d₁ =
        .ok ⟨.ok, (listingText (d₁.disk.namesDirectory sb) entries).toUTF8, "text/plain"⟩) ∧
    (∀ body' r', answer (handle ⟨.put, pathOf segs, body'⟩ : FsM MemoryDevice Response) d₁ = .ok r' →
      r'.status = .ok →
      (∀ x, answer (readDir x : FsM MemoryDevice (List DirEntry))
          (after (handle ⟨.put, pathOf segs, body'⟩ : FsM MemoryDevice Response) d₁) =
        answer (readDir x : FsM MemoryDevice (List DirEntry)) d₁) ∧
      answer (handle ⟨.get, pathOf segs, .empty⟩ : FsM MemoryDevice Response)
          (after (handle ⟨.put, pathOf segs, body'⟩ : FsM MemoryDevice Response) d₁) =
        .ok ⟨.ok, body', contentTypeFor name⟩) ∧
    answer (handle ⟨.delete, pathOf segs, .empty⟩ : FsM MemoryDevice Response) d₁ =
      .ok ⟨.ok, .empty, "text/plain"⟩ ∧
    answer (handle ⟨.get, pathOf segs, .empty⟩ : FsM MemoryDevice Response)
        (after (handle ⟨.delete, pathOf segs, .empty⟩ : FsM MemoryDevice Response) d₁) =
      .ok ⟨.notFound, "Not Found".toUTF8, "text/plain"⟩ := by
  intro sb d₁
  obtain ⟨holds, healthy⟩ : d.Holds sb ∧ d.Healthy := reach.holds
  have mounted := mountedSegments_pathOf named
  have mountedUp := mountedSegments_pathOf fun x member => named x (List.dropLast_subset _ member)
  have split : segs = segs.dropLast ++ [name] := (List.dropLast_append_getLast? name last).symm
  have stored : Stored d d₁ sb segs body := handle_put_stores holds healthy mounted put succeeded
  have wf := stored.holds.wellFormed
  obtain ⟨f, inode, reached, statted, regular, contents⟩ := stored.file
  have reachedSplit : follow d₁ rootInode (segs.dropLast ++ [name]) = .ok f := by
    rw [← split]
    exact reached
  obtain ⟨p, reachedP, foundF⟩ := follow_append_eq_ok reachedSplit
  rw [follow_singleton] at foundF
  have dirP := isDirectory_of_lookup stored.holds stored.healthy.reads foundF
  have notDir : inode.kind ≠ .directory := by rw [regular]; decide
  refine ⟨?_, ?_, ?_, ?_⟩
  · rw [handle_get_file stored.holds stored.healthy mounted _ reached statted regular contents, last]
    rfl
  · -- the entry the path's last lookup finds is the file, and no dot
    obtain ⟨e, listed, named', rfl⟩ :=
      exists_entry_of_lookup stored.holds stored.healthy.reads foundF
    have notDot := wf.isDot_eq_false_of_file dirP listed statted notDir
    refine ⟨p, d₁.disk.usedEntries sb p,
      (sortByName (d₁.disk.usedEntries sb p)).filter fun e => !e.isDot, reachedP,
      readDir_answer_usedEntries stored.holds stored.healthy.reads dirP,
      (sortByName_perm _).filter _, (sortByName_pairwise_lt (usedEntries_pairwise wf dirP)).filter _,
      ⟨e, ?_, named', ?_⟩,
      handle_get_directory stored.holds stored.healthy mountedUp _ reachedP dirP⟩
    · exact List.mem_filter.2 ⟨(sortByName_perm _).mem_iff.2 listed, by simp [notDot]⟩
    · simp [Disk.namesDirectory, statted, Inode.isDirectory, regular]
  · intro body' r' put' succeeded'
    have stored' := handle_put_stores stored.holds stored.healthy mounted put' succeeded'
    obtain ⟨f', inode', reached', statted', regular', contents'⟩ := stored'.file
    refine ⟨stored'.unchanged ⟨f, reached⟩, ?_⟩
    rw [handle_get_file stored'.holds stored'.healthy mounted _ reached' statted' regular' contents',
      last]
    rfl
  · obtain ⟨answered, holds', healthy', gone⟩ :=
      handle_delete_removes stored.holds stored.healthy mounted ByteArray.empty last reachedP foundF
        statted notDir
    refine ⟨answered, ?_⟩
    rw [handle_get_refused holds' healthy' mounted _ gone]
    rfl

/-! ## A store on a fresh image -/

theorem formatted_of_answer {d : MemoryDevice} (closed : d.pending = none) (whole : d.disk.Whole)
    {ni nd : Nat} (formatted : answer (formatDevice ni nd : FsM MemoryDevice Unit) d = .ok ()) :
    Formatted (after (formatDevice ni nd : FsM MemoryDevice Unit) d).disk
      (SuperBlock.withCapacity (UInt32.ofNat ni) (UInt32.ofNat nd)) := by
  refine answer_after_of_ends (x := (formatDevice ni nd : FsM MemoryDevice Unit)) (d := d)
    (fun r d' => r = .ok () → Formatted d'.disk (SuperBlock.withCapacity (UInt32.ofNat ni)
      (UInt32.ofNat nd))) ?_ formatted
  refine (formatDevice_ends { device := d } ni nd closed whole).mono ?_ ?_
  · rintro _ t ⟨-, -, -, -, -, c, staged, committed, image⟩ -
    rw [committed, MemoryDevice.disk_commit _ staged]
    exact image
  · rintro e t - refused
    cases refused

end Store

namespace Engine.Formatted

variable {disk : Disk} {sb : SuperBlock}

theorem entries_root (image : Formatted disk sb) :
    disk.entries (formatRoot sb) = [⟨".", rootInode⟩, ⟨"..", rootInode⟩] := by
  unfold Disk.entries
  rw [fileSize_formatRoot, show List.range (2 * entrySize / entrySize) = [0, 1] from rfl,
    List.filterMap_cons, List.filterMap_cons, image.slot?_root (by decide),
    image.slot?_root (by decide)]
  rfl

theorem freeInode?_ne_none (image : Formatted disk sb) (layout : sb.Layout)
    (room : 2 ≤ sb.numInodes.toInt.toNat) : disk.freeInode? sb ≠ none := by
  have bits := layout.inodeBits
  have clear : 1 ∈ Bitmap.clearBits (disk.inodeBitmap sb) sb.numInodes.toInt.toNat := by
    rw [Bitmap.mem_clearBits, image.inodeBits 1 (by omega)]
    exact ⟨by omega, rfl⟩
  unfold Disk.freeInode?
  rw [Ne, List.head?_eq_none_iff]
  exact List.ne_nil_of_mem clear

/-- On a formatted image with room for a second inode, creating a file under the root adds an
entry. -/
theorem createShortcut_root_file (image : Formatted disk sb) (layout : sb.Layout)
    (room : 2 ≤ sb.numInodes.toInt.toNat) {name : String} (valid : DirEntry.validName name = true)
    (notDots : "." ≠ name ∧ ".." ≠ name) :
    disk.createShortcut sb rootInode .regularFile name = none := by
  have allocated := (image.allocated_iff layout rootInode).2 rfl
  have absent : ∀ e ∈ (disk.entries (formatRoot sb)).filter (·.isUsed), e.name ≠ name := by
    rw [image.entries_root]
    intro e member
    rcases List.mem_cons.1 (List.mem_of_mem_filter member) with rfl | member'
    · exact notDots.1
    · rcases List.mem_cons.1 member' with rfl | never
      · exact notDots.2
      · cases never
  rw [Disk.WellFormed.createShortcut_of_absent allocated image.root (kind_formatRoot sb) valid
    absent .regularFile, if_neg]
  -- an inode is free, the root's block has a free slot, and a file needs no data block
  rintro (none | ⟨aligned, -⟩ | short)
  · exact image.freeInode?_ne_none layout room none
  · rw [fileSize_formatRoot] at aligned
    cases aligned
  · have notAligned : ¬(2 * entrySize % blockSize = 0) := by decide
    rw [fileSize_formatRoot, if_neg notAligned] at short
    exact Nat.not_lt_zero _ short

end Engine.Formatted

namespace Store

/-- A `PUT` of an empty file `a` on a fresh two-inode image answers success. -/
theorem formatted_put_answers :
    answer (handle ⟨.put, pathOf ["a"], ByteArray.empty⟩ : FsM MemoryDevice Response)
      (after (formatDevice 2 1 : FsM MemoryDevice Unit) (MemoryDevice.zeroed 5)) =
      .ok (success ByteArray.empty "text/plain") := by
  have formatted : answer (formatDevice 2 1 : FsM MemoryDevice Unit) (MemoryDevice.zeroed 5) = .ok () :=
    format_answer (by decide) (by decide) (by decide)
  have reach : Engine.Reachable 2 1
      (after (formatDevice 2 1 : FsM MemoryDevice Unit) (MemoryDevice.zeroed 5)) :=
    .format rfl Pages.full_empty ⟨rfl, rfl, rfl⟩ formatted
  obtain ⟨holds, healthy⟩ := reach.holds
  have image := formatted_of_answer (d := MemoryDevice.zeroed 5) rfl Pages.full_empty formatted
  have layout := SuperBlock.layout_of_isConsistent holds.wellFormed.consistent
  have room : 2 ≤ (SuperBlock.withCapacity (UInt32.ofNat 2) (UInt32.ofNat 1)).numInodes.toInt.toNat := by
    decide
  have valid : DirEntry.validName "a" = true := by
    simp [DirEntry.validName, String.contains_char_eq, nameField]
    decide
  have adds := image.createShortcut_root_file layout room valid ⟨by decide, by decide⟩
  generalize after (formatDevice 2 1 : FsM MemoryDevice Unit) (MemoryDevice.zeroed 5) = d at *
  generalize SuperBlock.withCapacity (UInt32.ofNat 2) (UInt32.ofNat 1) = sb at *
  have mounted : mountedSegments (pathOf ["a"]) = some ["a"] :=
    mountedSegments_pathOf (by decide)
  apply answer_eq_of_ends
  rw [ends_handle_put mounted _]
  unfold putAt
  rw [List.getLast?_singleton]
  dsimp only
  rw [if_neg (by decide), List.dropLast_singleton, settles_bind, List.forIn_nil, settles_pure,
    settles_bind]
  refine (settles_orStatus (create_ends_adds holds healthy rfl adds) .create).mono ?_
    (fun _ _ stopped => stopped.elim fun _ never => never.2.elim) fun _ _ never => never.2.elim
  rintro r t ⟨kept, dir, inode, dir', fresh, cr⟩
  have holds' := cr.holds holds kept
  have healthy' := healthy.of_committed kept
  have accepted : t.device.disk.writeRefusal sb r ByteArray.empty = none := by
    have nothing : blocksFor 0 = 0 := by decide
    rw [Disk.writeRefusal, cr.stat?_self]
    simp [cr.kind_inode, nothing]
  rw [settles_bind]
  exact (settles_orStatus (write_ends_accepted holds' healthy' rfl accepted) .write).mono
    (fun _ _ _ => rfl) (fun _ _ stopped => stopped.elim fun _ never => never.2.elim)
    fun _ _ never => never.2.elim

/-- A store of an empty file `a` on a fresh image reads back. -/
theorem formatted_put_get_delete_agree :
    Engine.Reachable 2 1 (after (formatDevice 2 1 : FsM MemoryDevice Unit) (MemoryDevice.zeroed 5)) ∧
    (∀ x ∈ ["a"], IsSegment x) ∧ ["a"].getLast? = some "a" ∧
    answer (handle ⟨.put, pathOf ["a"], ByteArray.empty⟩ : FsM MemoryDevice Response)
      (after (formatDevice 2 1 : FsM MemoryDevice Unit) (MemoryDevice.zeroed 5)) =
      .ok (success ByteArray.empty "text/plain") ∧
    (success ByteArray.empty "text/plain").status = .ok ∧
    answer (handle ⟨.get, pathOf ["a"], .empty⟩ : FsM MemoryDevice Response)
      (after (handle ⟨.put, pathOf ["a"], ByteArray.empty⟩ : FsM MemoryDevice Response)
        (after (formatDevice 2 1 : FsM MemoryDevice Unit) (MemoryDevice.zeroed 5))) =
      .ok ⟨.ok, .empty, contentTypeFor "a"⟩ := by
  have reach : Engine.Reachable 2 1
      (after (formatDevice 2 1 : FsM MemoryDevice Unit) (MemoryDevice.zeroed 5)) :=
    .format rfl Pages.full_empty ⟨rfl, rfl, rfl⟩ (format_answer (by decide) (by decide) (by decide))
  have named : ∀ x ∈ ["a"], IsSegment x := by decide
  exact ⟨reach, named, rfl, formatted_put_answers, rfl,
    (put_get_delete_agree reach named rfl formatted_put_answers rfl).1⟩

end Store

end InodeFs
