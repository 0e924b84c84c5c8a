import InodeFs.Proofs.Requests

/-!
Paths of the store, walked through the engine's lookups. `follow d x segs` is the walk read off
a device; walks survive listings that only grow (`Grows.follow`) and the removal of a file's
entry (`Removed.lookup_kept`).
-/

namespace InodeFs

open Engine FsM Store

/-! ## Entries of a directory -/

theorem Disk.WellFormed.stat?_isSome_of_used {disk : Disk} {sb : SuperBlock} (wf : disk.WellFormed sb)
    {x : InodeNumber} (dir : disk.IsDirectory sb x) {e : DirEntry} (listed : e ∈ disk.usedEntries sb x) :
    (disk.stat? sb e.inum).isSome := by
  obtain ⟨inode, found, kind⟩ := dir
  obtain ⟨allocated, decoded⟩ := Disk.stat?_eq_some.1 found
  rw [Disk.usedEntries_of_stat? found] at listed
  exact (Disk.stat?_isSome wf).2
    (wf.allocated_of_entry allocated decoded kind (List.mem_filter.1 listed).1)

theorem Disk.WellFormed.isDirectory_of_isDot {disk : Disk} {sb : SuperBlock} (wf : disk.WellFormed sb)
    {p : InodeNumber} (dir : disk.IsDirectory sb p) {e : DirEntry} (listed : e ∈ disk.usedEntries sb p)
    (dot : e.isDot = true) : disk.IsDirectory sb e.inum := by
  obtain ⟨inode, found, kind⟩ := dir
  obtain ⟨allocated, decoded⟩ := Disk.stat?_eq_some.1 found
  have shape := wf.directories p inode allocated decoded kind
  rw [Disk.usedEntries_of_stat? found] at listed
  obtain ⟨k, within, slot⟩ := Disk.mem_entries_iff.1 (List.mem_filter.1 listed).1
  -- slot 0 holds `.`, slot 1 holds `..`, and every later slot a name that is no dot
  rcases k with _ | _ | k
  · rw [shape.dot, Option.some.injEq] at slot
    subst slot
    exact ⟨inode, found, kind⟩
  · obtain ⟨q, dotDot, up⟩ := shape.dotDot
    rw [dotDot, Option.some.injEq] at slot
    subst slot
    rcases up with ⟨rfl, rfl⟩ | ⟨k, allocated', dir', e', decoded', kind', -⟩
    · exact ⟨inode, found, kind⟩
    · exact ⟨dir', Disk.stat?_eq_some.2 ⟨allocated', decoded'⟩, kind'⟩
  · obtain ⟨e', slot', -, notDot, -⟩ := shape.named (k + 2) (by omega) within
    rw [slot, Option.some.injEq] at slot'
    subst slot'
    rw [dot] at notDot
    cases notDot

theorem Disk.WellFormed.isDot_eq_false_of_file {disk : Disk} {sb : SuperBlock}
    (wf : disk.WellFormed sb) {p : InodeNumber} (dir : disk.IsDirectory sb p) {e : DirEntry}
    (listed : e ∈ disk.usedEntries sb p) {inode : Inode} (file : disk.stat? sb e.inum = some inode)
    (notDir : inode.kind ≠ .directory) : e.isDot = false := by
  cases dot : e.isDot
  · rfl
  · obtain ⟨inode', found', kind'⟩ := wf.isDirectory_of_isDot dir listed dot
    rw [file, Option.some.injEq] at found'
    subst found'
    exact absurd kind' notDir

/-- What a lookup of `name` answers in the entries a directory lists. -/
def lookupIn (name : String) (entries : List DirEntry) : Except Fault InodeNumber :=
  match entries.find? (·.name == name) with
  | some e => .ok e.inum
  | none => .error (.fs .notFound)

theorem lookupIn_append {name : String} {entries : List DirEntry} {y : InodeNumber}
    (found : lookupIn name entries = .ok y) (more : List DirEntry) :
    lookupIn name (entries ++ more) = .ok y := by
  unfold lookupIn at found ⊢
  rw [List.find?_append]
  cases first : entries.find? (·.name == name) with
  | none => rw [first] at found; cases found
  | some e => rw [first] at found; exact found

theorem lookupIn_eraseIdx {entries : List DirEntry} {i : Nat} {e : DirEntry}
    (at_ : entries[i]? = some e) {name : String} (other : e.name ≠ name) :
    lookupIn name (entries.eraseIdx i) = lookupIn name entries := by
  obtain ⟨inside, rfl⟩ := List.getElem?_eq_some_iff.1 at_
  have whole : entries = entries.take i ++ entries[i] :: entries.drop (i + 1) := by
    rw [List.getElem_cons_drop, List.take_append_drop]
  have skipped : (entries[i].name == name) = false := by simpa using other
  unfold lookupIn
  rw [List.eraseIdx_eq_take_drop_succ]
  conv => rhs; rw [whole]
  rw [List.find?_append, List.find?_append, List.find?_cons, skipped]

/-! ## Lookups on a device that holds a file system -/

section Reads
variable {d : MemoryDevice} {sb : SuperBlock} (holds : d.Holds sb) (reads : d.failReads = none)
  {s : Session MemoryDevice}
include holds reads

theorem lookup_holds (same : s.device = d) (parent : InodeNumber) (name : String) :
    Ends (lookup parent name : FsM MemoryDevice InodeNumber) s
      (fun i t => t = s ∧ answer (lookup parent name : FsM MemoryDevice InodeNumber) d = .ok i)
      (fun e t => t.device = d ∧
        answer (lookup parent name : FsM MemoryDevice InodeNumber) d = .error e) := by
  rw [(lookup_answer holds reads parent name).1]
  simp only [lookup, ends_bind]
  rw [ends_run_ok (readSuperBlock_holds holds reads same)]
  refine (loadDirectory_holds holds reads same parent).mono ?_ ?_
  · rintro ⟨dir, slots⟩ t ⟨rfl, found, kind, listed⟩
    dsimp only at found kind listed
    subst listed
    rw [found, Option.elim_some, if_pos kind, slotsOf_content holds found]
    cases (d.disk.entries dir).find? (fun e => e.isUsed && e.name == name) with
    | none => exact ⟨same, rfl⟩
    | some e => exact ⟨rfl, rfl⟩
  · rintro e t ⟨unchanged, rfl, notDirectory⟩
    refine ⟨unchanged.trans same, ?_⟩
    cases found : d.disk.stat? sb parent with
    | none => rfl
    | some dir => rw [Option.elim_some, if_neg (notDirectory dir found)]

theorem read_holds (same : s.device = d) (i : InodeNumber) (size : Nat) :
    Ends (read i size : FsM MemoryDevice ByteArray) s
      (fun b t => t = s ∧ answer (read i size : FsM MemoryDevice ByteArray) d = .ok b)
      (fun e t => t.device = d ∧ answer (read i size : FsM MemoryDevice ByteArray) d = .error e) := by
  rw [(read_answer holds reads i size).1]
  simp only [Engine.read, ends_bind]
  rw [ends_run_ok (readSuperBlock_holds holds reads same)]
  refine (loadInode_holds holds reads same i).mono ?_ ?_
  · rintro inode t ⟨rfl, found⟩
    rw [found]
    simp only [Option.elim_some, ends_ite, gt_iff_lt]
    split
    · simp only [ends_bind, ends_fail]
      exact ⟨same, trivial⟩
    · rw [ends_run_ok (readContent_allocated holds reads same found _)]
      exact ⟨rfl, rfl⟩
  · rintro e t ⟨unchanged, rfl, missing⟩
    rw [missing]
    exact ⟨unchanged.trans same, rfl⟩

theorem lookup_answer_ne_trap (parent : InodeNumber) (name : String) :
    answer (lookup parent name : FsM MemoryDevice InodeNumber) d ≠ .error .trap := by
  rw [(lookup_answer holds reads parent name).1]
  cases d.disk.stat? sb parent with
  | none => simp
  | some dir =>
    simp only [Option.elim_some]
    split
    · cases (d.disk.entries dir).find? (fun e => e.isUsed && e.name == name) <;> simp
    · simp

/-- A lookup answers what the first entry of its name in the directory's listing names. -/
theorem lookup_answer_readDir (parent : InodeNumber) (name : String) :
    answer (lookup parent name : FsM MemoryDevice InodeNumber) d =
      (answer (readDir parent : FsM MemoryDevice (List DirEntry)) d).bind (lookupIn name) := by
  rw [(lookup_answer holds reads parent name).1, (readDir_answer holds reads parent).1]
  cases d.disk.stat? sb parent with
  | none => rfl
  | some dir =>
    simp only [Option.elim_some]
    split
    · rw [Except.bind, lookupIn, List.find?_filter]
      simp only [Bool.decide_and, Bool.decide_eq_true]
      cases (d.disk.entries dir).find? (fun e => e.isUsed && e.name == name) <;> rfl
    · rfl

theorem isDirectory_of_lookup {parent y : InodeNumber} {name : String}
    (found : answer (lookup parent name : FsM MemoryDevice InodeNumber) d = .ok y) :
    d.disk.IsDirectory sb parent := by
  rw [(lookup_answer holds reads parent name).1] at found
  cases statted : d.disk.stat? sb parent with
  | none => simp [statted] at found
  | some dir =>
    rw [statted, Option.elim_some] at found
    by_cases kind : dir.kind = .directory
    · exact ⟨dir, statted, kind⟩
    · simp [kind] at found

theorem lookup_answer_eq_ok {parent y : InodeNumber} {name : String} :
    answer (lookup parent name : FsM MemoryDevice InodeNumber) d = .ok y ↔
      ∃ dir e, d.disk.stat? sb parent = some dir ∧ dir.kind = .directory ∧
        (d.disk.entries dir).find? (fun e => e.isUsed && e.name == name) = some e ∧ e.inum = y := by
  rw [(lookup_answer holds reads parent name).1]
  cases found : d.disk.stat? sb parent with
  | none => simp
  | some dir =>
    simp only [Option.elim_some, Option.some.injEq, exists_and_left, exists_eq_left']
    by_cases kind : dir.kind = .directory
    · simp only [kind, if_true, true_and]
      cases (d.disk.entries dir).find? (fun e => e.isUsed && e.name == name) with
      | none => simp
      | some e => simp
    · simp [kind]

theorem exists_entry_of_lookup {parent y : InodeNumber} {name : String}
    (found : answer (lookup parent name : FsM MemoryDevice InodeNumber) d = .ok y) :
    ∃ e ∈ d.disk.usedEntries sb parent, e.name = name ∧ e.inum = y := by
  obtain ⟨dir, e, statted, -, first, rfl⟩ := (lookup_answer_eq_ok holds reads).1 found
  have matched := List.find?_some first
  simp only [Bool.and_eq_true, beq_iff_eq] at matched
  refine ⟨e, ?_, matched.2, rfl⟩
  rw [Disk.usedEntries_of_stat? statted]
  exact List.mem_filter.2 ⟨List.mem_of_find?_eq_some first, matched.1⟩

end Reads

namespace Store

/-- The inode reached from `x` by looking up each name in turn, or the first refusal. -/
def follow (d : MemoryDevice) (x : InodeNumber) : List String → Except Fault InodeNumber
  | [] => .ok x
  | n :: ns => (answer (lookup x n : FsM MemoryDevice InodeNumber) d).bind fun y => follow d y ns

@[simp] theorem follow_nil (d : MemoryDevice) (x : InodeNumber) : follow d x [] = .ok x := rfl

theorem follow_cons (d : MemoryDevice) (x : InodeNumber) (n : String) (ns : List String) :
    follow d x (n :: ns) =
      (answer (lookup x n : FsM MemoryDevice InodeNumber) d).bind fun y => follow d y ns := rfl

theorem follow_append (d : MemoryDevice) (x : InodeNumber) (ns ms : List String) :
    follow d x (ns ++ ms) = (follow d x ns).bind fun y => follow d y ms := by
  induction ns generalizing x with
  | nil => rfl
  | cons n ns ih =>
    rw [List.cons_append, follow_cons, follow_cons]
    cases answer (lookup x n : FsM MemoryDevice InodeNumber) d with
    | error e => rfl
    | ok y => exact ih y

theorem follow_append_eq_ok {d : MemoryDevice} {x y : InodeNumber} {ns ms : List String}
    (reached : follow d x (ns ++ ms) = .ok y) :
    ∃ z, follow d x ns = .ok z ∧ follow d z ms = .ok y := by
  rw [follow_append] at reached
  cases walked : follow d x ns with
  | error e => rw [walked] at reached; cases reached
  | ok z => rw [walked] at reached; exact ⟨z, rfl, reached⟩

theorem follow_singleton (d : MemoryDevice) (x : InodeNumber) (n : String) :
    follow d x [n] = answer (lookup x n : FsM MemoryDevice InodeNumber) d := by
  rw [follow_cons]
  cases answer (lookup x n : FsM MemoryDevice InodeNumber) d <;> rfl

theorem follow_append_singleton {d : MemoryDevice} {x z : InodeNumber} {ns : List String}
    (reached : follow d x ns = .ok z) (n : String) :
    follow d x (ns ++ [n]) = answer (lookup z n : FsM MemoryDevice InodeNumber) d := by
  rw [follow_append, reached]
  exact follow_singleton d z n

section Resolve
variable {d : MemoryDevice} {sb : SuperBlock} (holds : d.Holds sb) (reads : d.failReads = none)
  {s : Session MemoryDevice}
include holds reads

/-- A request's walk answers the inode `follow` reaches, or the status of the first refusing
lookup, changing nothing. -/
theorem resolve_settles (same : s.device = d) (segs : List String) :
    Settles (resolve segs : StoreM MemoryDevice InodeNumber) s
      (fun y t => t.device = d ∧ follow d rootInode segs = .ok y)
      (fun st t => t.device = d ∧ ∃ e, follow d rootInode segs = .error (.fs e) ∧
        st = statusFor e .resolve)
      (fun _ _ => False) := by
  unfold resolve
  rw [settles_bind]
  -- the segments looked up so far lead from the root to the current inode, and nothing changed
  refine settles_forIn _ _ _ s (fun rest acc t => t.device = d ∧
      ∃ done, segs = done ++ rest ∧ follow d rootInode done = .ok acc) ?_ ?_ ⟨same, [], rfl, rfl⟩
  · rintro seg rest acc t ⟨device, done, split, reached⟩
    rw [settles_bind, settles_lift]
    refine (ends_attempt (lookup_holds holds reads device acc seg)).mono ?_ ?_
    · rintro r u (⟨i, rfl, rfl, found⟩ | ⟨e, rfl, device', refused⟩)
      · refine ⟨device, done ++ [seg], by rw [split, List.append_assoc, List.singleton_append], ?_⟩
        rw [follow_append_singleton reached, found]
      · have stopped : follow d rootInode segs = .error (.fs e) := by
          rw [split, follow_append, reached]
          show follow d acc (seg :: rest) = _
          rw [follow_cons, refused]
          rfl
        dsimp only
        split
        · simp only [settles_bind, settles_lift, ends_log, settles_throw]
          exact ⟨device', _, stopped, rfl⟩
        · simp only [settles_bind, settles_throw]
          exact ⟨device', _, stopped, rfl⟩
    · rintro f u ⟨-, -, refused⟩
      exact lookup_answer_ne_trap holds reads acc seg refused
  · rintro acc t ⟨device, done, split, reached⟩
    rw [List.append_nil] at split
    subst split
    exact ⟨device, reached⟩

theorem resolve_settles_of_follow (same : s.device = d) {segs : List String} {y : InodeNumber}
    (reached : follow d rootInode segs = .ok y) :
    Settles (resolve segs : StoreM MemoryDevice InodeNumber) s (fun y' t => y' = y ∧ t.device = d)
      (fun _ _ => False) (fun _ _ => False) := by
  refine (resolve_settles holds reads same segs).mono ?_ ?_ fun _ _ never => never
  · rintro y' t ⟨device, reached'⟩
    rw [reached, Except.ok.injEq] at reached'
    exact ⟨reached'.symm, device⟩
  · rintro st t ⟨-, e, refused, -⟩
    rw [reached] at refused
    cases refused

end Resolve

section Follow

variable {d d' : MemoryDevice} {sb : SuperBlock}

/-- A walk along lookups that answer the same in another device reaches the same inode there. -/
theorem follow_of_lookups
    (keep : ∀ x n y, answer (lookup x n : FsM MemoryDevice InodeNumber) d = .ok y →
      answer (lookup x n : FsM MemoryDevice InodeNumber) d' = .ok y)
    {x y : InodeNumber} {ns : List String} (reached : follow d x ns = .ok y) :
    follow d' x ns = .ok y := by
  induction ns generalizing x with
  | nil => exact reached
  | cons n ns ih =>
    rw [follow_cons] at reached ⊢
    cases found : answer (lookup x n : FsM MemoryDevice InodeNumber) d with
    | error e => rw [found] at reached; cases reached
    | ok z =>
      rw [found] at reached
      rw [keep x n z found]
      exact ih reached

variable (holds : d.Holds sb) (reads : d.failReads = none)
include holds reads

theorem isDirectory_of_follow {x y : InodeNumber} {ns : List String} (reached : follow d x ns = .ok y)
    (dir : d.disk.IsDirectory sb y) : d.disk.IsDirectory sb x := by
  cases ns with
  | nil => exact (Except.ok.inj reached) ▸ dir
  | cons n ns =>
    rw [follow_cons] at reached
    cases found : answer (lookup x n : FsM MemoryDevice InodeNumber) d with
    | error e => rw [found] at reached; cases reached
    | ok z => exact isDirectory_of_lookup holds reads found

/-- A walk that ends at a directory, along directories another device keeps, ends there too. -/
theorem follow_of_directory_lookups
    (keep : ∀ x n y, answer (lookup x n : FsM MemoryDevice InodeNumber) d = .ok y →
      d.disk.IsDirectory sb y → answer (lookup x n : FsM MemoryDevice InodeNumber) d' = .ok y)
    {x y : InodeNumber} {ns : List String} (reached : follow d x ns = .ok y)
    (dir : d.disk.IsDirectory sb y) : follow d' x ns = .ok y := by
  induction ns generalizing x with
  | nil => exact reached
  | cons n ns ih =>
    rw [follow_cons] at reached ⊢
    cases found : answer (lookup x n : FsM MemoryDevice InodeNumber) d with
    | error e => rw [found] at reached; cases reached
    | ok z =>
      rw [found] at reached
      rw [keep x n z found (isDirectory_of_follow holds reads reached dir)]
      exact ih reached

end Follow

/-! ## Directories that only grow -/

/-- Every directory of `d` lists in `d'` what it listed in `d`, perhaps followed by more. -/
def Grows (d d' : MemoryDevice) : Prop :=
  ∀ x entries, answer (readDir x : FsM MemoryDevice (List DirEntry)) d = .ok entries →
    ∃ more, answer (readDir x : FsM MemoryDevice (List DirEntry)) d' = .ok (entries ++ more)

theorem Grows.refl (d : MemoryDevice) : Grows d d :=
  fun _ entries listed => ⟨[], by rw [List.append_nil]; exact listed⟩

theorem Grows.trans {d d' d'' : MemoryDevice} (g : Grows d d') (g' : Grows d' d'') : Grows d d'' := by
  intro x entries listed
  obtain ⟨more, listed'⟩ := g x entries listed
  obtain ⟨more', listed''⟩ := g' x _ listed'
  exact ⟨more ++ more', by rw [listed'', List.append_assoc]⟩

theorem Grows.of_eq {d d' : MemoryDevice}
    (same : ∀ x, answer (readDir x : FsM MemoryDevice (List DirEntry)) d' =
      answer (readDir x : FsM MemoryDevice (List DirEntry)) d) : Grows d d' :=
  fun x entries listed => ⟨[], by rw [List.append_nil, same]; exact listed⟩

theorem Grows.lookup {d d' : MemoryDevice} {sb : SuperBlock} (holds : d.Holds sb)
    (reads : d.failReads = none) (holds' : d'.Holds sb) (reads' : d'.failReads = none)
    (g : Grows d d') {x y : InodeNumber} {name : String}
    (found : answer (lookup x name : FsM MemoryDevice InodeNumber) d = .ok y) :
    answer (lookup x name : FsM MemoryDevice InodeNumber) d' = .ok y := by
  rw [lookup_answer_readDir holds reads] at found
  rw [lookup_answer_readDir holds' reads']
  cases listed : answer (readDir x : FsM MemoryDevice (List DirEntry)) d with
  | error e => rw [listed] at found; cases found
  | ok entries =>
    rw [listed] at found
    obtain ⟨more, listed'⟩ := g x entries listed
    rw [listed']
    exact lookupIn_append found more

/-- A walk in a device whose directories only grow reaches the same inode afterwards. -/
theorem Grows.follow {d d' : MemoryDevice} {sb : SuperBlock} (holds : d.Holds sb)
    (reads : d.failReads = none) (holds' : d'.Holds sb) (reads' : d'.failReads = none)
    (g : Grows d d') {x y : InodeNumber} {ns : List String} (reached : Store.follow d x ns = .ok y) :
    Store.follow d' x ns = .ok y :=
  follow_of_lookups (fun _ _ _ found => g.lookup holds reads holds' reads' found) reached

end Store

/-! ## Walks that survive a removal -/

namespace Engine

/-- A removal keeps every lookup that answered a directory. -/
theorem Removed.lookup_kept {d d' : MemoryDevice} {sb : SuperBlock} {parent : InodeNumber}
    {name : String} {target : InodeNumber} {dir dir' victim : Inode}
    (removed : Removed d d' sb parent name target dir dir' victim) (holds : d.Holds sb)
    (reads : d.failReads = none) (holds' : d'.Holds sb) (reads' : d'.failReads = none)
    (file : ¬d.disk.IsDirectory sb target) {x y : InodeNumber} {n : String}
    (found : answer (lookup x n : FsM MemoryDevice InodeNumber) d = .ok y)
    (dirY : d.disk.IsDirectory sb y) :
    answer (lookup x n : FsM MemoryDevice InodeNumber) d' = .ok y := by
  by_cases atParent : x = parent
  · subst atParent
    have other : name ≠ n := by
      rintro rfl
      rw [removed.named, Except.ok.injEq] at found
      subst found
      exact file dirY
    obtain ⟨entries, position, before, at_, after⟩ := removed.listing
    rw [lookup_answer_readDir holds reads, before] at found
    rw [lookup_answer_readDir holds' reads', after]
    exact (lookupIn_eraseIdx at_ other).trans found
  · by_cases atTarget : x = target
    · subst atTarget
      exact absurd (isDirectory_of_lookup holds reads found) file
    · rw [lookup_answer_readDir holds reads] at found
      rw [lookup_answer_readDir holds' reads', (removed.others x atParent atTarget).2.2]
      exact found

end Engine

end InodeFs
