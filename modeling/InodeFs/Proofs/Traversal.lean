import InodeFs.Proofs.Reachable
import InodeFs.Engine.Walk
import Mathlib.Data.String.Basic

/-!
Walks of the directory tree, read as `Disk.tree`: the directories a budget of levels reaches,
each with the names leading to it, in depth-first pre-order with siblings in name order.
-/

namespace InodeFs

open Engine FsM

/-- The path a walk gives a directory reached by `names`: `/`, then each name and `/`. -/
def walkPath (names : List String) : String :=
  names.foldl (fun path name => path ++ name ++ "/") "/"

@[simp] theorem walkPath_append_singleton (names : List String) (name : String) :
    walkPath (names ++ [name]) = walkPath names ++ name ++ "/" := by
  simp [walkPath]

/-! ## Sorting by name -/

theorem sortByName_perm (entries : List DirEntry) : (sortByName entries).Perm entries :=
  List.mergeSort_perm _ _

theorem pairwise_sortByName (entries : List DirEntry) :
    (sortByName entries).Pairwise fun e e' => e.name ≤ e'.name := by
  have sorted := @List.pairwise_mergeSort _ (fun a b => !decide (b.name < a.name))
    (fun a b c ab bc => by
      simp only [Bool.not_eq_true', decide_eq_false_iff_not, not_lt] at ab bc ⊢
      exact le_trans ab bc)
    (fun a b => by
      simp only [Bool.or_eq_true, Bool.not_eq_true', decide_eq_false_iff_not, not_lt]
      exact le_total a.name b.name)
    entries
  exact sorted.imp fun inOrder => by
    simpa only [Bool.not_eq_true', decide_eq_false_iff_not, not_lt] using inOrder

theorem sortByName_pairwise_lt {entries : List DirEntry}
    (distinct : entries.Pairwise fun e e' => e.name ≠ e'.name) :
    (sortByName entries).Pairwise fun e e' => e.name < e'.name := by
  have distinct' := ((sortByName_perm entries).pairwise_iff fun apart => Ne.symm apart).2 distinct
  refine ((pairwise_sortByName entries).and distinct').imp ?_
  rintro e e' ⟨inOrder, apart⟩
  exact lt_of_le_of_ne inOrder apart

/-! ## The directory tree -/

namespace Disk

variable (disk : Disk) (sb : SuperBlock)

def IsDirectory (x : InodeNumber) : Prop :=
  ∃ dir, disk.stat? sb x = some dir ∧ dir.kind = .directory

/-- The used entries of `x` in slot order, `.` and `..` included: what `readDir` answers. -/
def usedEntries (x : InodeNumber) : List DirEntry :=
  ((disk.stat? sb x).map fun dir => (disk.entries dir).filter (·.isUsed)).getD []

def namesDirectory (e : DirEntry) : Bool :=
  ((disk.stat? sb e.inum).map Inode.isDirectory).getD false

/-- The subdirectories of `x` in name order. -/
def subdirectories (x : InodeNumber) : List DirEntry :=
  ((sortByName (disk.usedEntries sb x)).filter fun e => !e.isDot).filter (disk.namesDirectory sb)

/-- Directory `x` holds a used entry `name`, neither `.` nor `..`, for directory `c`. -/
def Subdir (x : InodeNumber) (name : String) (c : InodeNumber) : Prop :=
  ∃ dir e, disk.stat? sb x = some dir ∧ dir.kind = .directory ∧ e ∈ disk.entries dir ∧
    e.isUsed = true ∧ e.isDot = false ∧ e.name = name ∧ e.inum = c ∧ disk.IsDirectory sb c

/-- Directory `y` lies below directory `x` along the subdirectories named `names`. -/
inductive Below : InodeNumber → List String → InodeNumber → Prop
  | here {x : InodeNumber} : disk.IsDirectory sb x → Below x [] x
  | down {x c y : InodeNumber} {name : String} {names : List String} :
    disk.Subdir sb x name c → Below c names y → Below x (name :: names) y

/-- The directories a walk from `x` lists with `budget` levels left, each with the names leading
to it. -/
def tree : Nat → InodeNumber → List (List String × InodeNumber)
  | 0, x => [([], x)]
  | budget + 1, x => ([], x) :: (disk.subdirectories sb x).flatMap fun c =>
    (tree budget c.inum).map (Prod.map (c.name :: ·) id)

/-- The listing a walk gives directory `y`, reached by `names`. -/
def listingAt (names : List String) (y : InodeNumber) : Listing :=
  ⟨walkPath names, y, sortByName (disk.usedEntries sb y)⟩

variable {disk sb}

theorem usedEntries_of_stat? {x : InodeNumber} {dir : Inode} (found : disk.stat? sb x = some dir) :
    disk.usedEntries sb x = (disk.entries dir).filter (·.isUsed) := by
  rw [usedEntries, found, Option.map_some, Option.getD_some]

theorem namesDirectory_iff {e : DirEntry} :
    disk.namesDirectory sb e = true ↔ disk.IsDirectory sb e.inum := by
  unfold namesDirectory IsDirectory
  cases disk.stat? sb e.inum with
  | none => simp
  | some inode => simp [Inode.isDirectory]

theorem mem_entries_iff {dir : Inode} {e : DirEntry} :
    e ∈ disk.entries dir ↔ ∃ k < dir.fileSize / entrySize, disk.slot? dir k = some e := by
  simp [entries]

theorem mem_subdirectories {x : InodeNumber} {e : DirEntry} :
    e ∈ disk.subdirectories sb x ↔
      e ∈ disk.usedEntries sb x ∧ e.isDot = false ∧ disk.IsDirectory sb e.inum := by
  rw [subdirectories, List.mem_filter, List.mem_filter, (sortByName_perm _).mem_iff,
    namesDirectory_iff, Bool.not_eq_true', and_assoc]

theorem Subdir.isDirectory {x c : InodeNumber} {name : String} (sub : disk.Subdir sb x name c) :
    disk.IsDirectory sb x ∧ disk.IsDirectory sb c := by
  obtain ⟨dir, e, found, kind, -, -, -, -, -, child⟩ := sub
  exact ⟨⟨dir, found, kind⟩, child⟩

theorem subdir_of_mem_subdirectories {x : InodeNumber} (dir : disk.IsDirectory sb x)
    {e : DirEntry} (member : e ∈ disk.subdirectories sb x) : disk.Subdir sb x e.name e.inum := by
  obtain ⟨inode, found, kind⟩ := dir
  obtain ⟨used, notDot, child⟩ := mem_subdirectories.1 member
  rw [usedEntries_of_stat? found, List.mem_filter] at used
  exact ⟨inode, e, found, kind, used.1, used.2, notDot, rfl, rfl, child⟩

theorem Subdir.exists_mem {x c : InodeNumber} {name : String} (sub : disk.Subdir sb x name c) :
    ∃ e ∈ disk.subdirectories sb x, e.name = name ∧ e.inum = c := by
  obtain ⟨dir, e, found, -, listed, used, notDot, rfl, rfl, child⟩ := sub
  refine ⟨e, mem_subdirectories.2 ⟨?_, notDot, child⟩, rfl, rfl⟩
  rw [usedEntries_of_stat? found]
  exact List.mem_filter.2 ⟨listed, used⟩

theorem Subdir.namesAt {x c : InodeNumber} {name : String} (sub : disk.Subdir sb x name c) :
    ∃ k dir e, disk.stat? sb x = some dir ∧ disk.slot? dir k = some e ∧ e.name = name ∧
      disk.NamesAt sb x k c := by
  obtain ⟨dir, e, found, kind, listed, -, notDot, rfl, rfl, -⟩ := sub
  obtain ⟨k, within, slot⟩ := mem_entries_iff.1 listed
  obtain ⟨allocated, decoded⟩ := stat?_eq_some.1 found
  exact ⟨k, dir, e, found, slot, rfl,
    allocated, dir, e, decoded, kind, within, slot, notDot, rfl⟩

theorem Subdir.names {x c : InodeNumber} {name : String} (sub : disk.Subdir sb x name c) :
    disk.Names sb x c := by
  obtain ⟨k, -, -, -, -, -, named⟩ := sub.namesAt
  exact ⟨k, named⟩

/-! ### Paths below a directory -/

theorem below_nil_iff {x y : InodeNumber} :
    disk.Below sb x [] y ↔ y = x ∧ disk.IsDirectory sb x := by
  constructor
  · rintro ⟨dir⟩
    exact ⟨rfl, dir⟩
  · rintro ⟨rfl, dir⟩
    exact .here dir

theorem below_cons_iff {x y : InodeNumber} {name : String} {names : List String} :
    disk.Below sb x (name :: names) y ↔
      ∃ c, disk.Subdir sb x name c ∧ disk.Below sb c names y := by
  constructor
  · rintro (_ | ⟨sub, below⟩)
    exact ⟨_, sub, below⟩
  · rintro ⟨c, sub, below⟩
    exact .down sub below

theorem Below.isDirectory {x y : InodeNumber} {names : List String}
    (below : disk.Below sb x names y) : disk.IsDirectory sb x ∧ disk.IsDirectory sb y := by
  induction below with
  | here dir => exact ⟨dir, dir⟩
  | down sub _ ih => exact ⟨sub.isDirectory.1, ih.2⟩

theorem below_append_singleton {x y : InodeNumber} {names : List String} {name : String} :
    disk.Below sb x (names ++ [name]) y ↔
      ∃ p, disk.Below sb x names p ∧ disk.Subdir sb p name y := by
  induction names generalizing x with
  | nil =>
    rw [List.nil_append, below_cons_iff]
    constructor
    · rintro ⟨c, sub, below⟩
      obtain ⟨rfl, -⟩ := below_nil_iff.1 below
      exact ⟨x, .here sub.isDirectory.1, sub⟩
    · rintro ⟨p, below, sub⟩
      obtain ⟨rfl, -⟩ := below_nil_iff.1 below
      exact ⟨y, sub, .here sub.isDirectory.2⟩
  | cons first rest ih =>
    rw [List.cons_append, below_cons_iff]
    constructor
    · rintro ⟨c, sub, below⟩
      obtain ⟨p, below', sub'⟩ := ih.1 below
      exact ⟨p, .down sub below', sub'⟩
    · rintro ⟨p, below, sub'⟩
      obtain ⟨c, sub, below'⟩ := below_cons_iff.1 below
      exact ⟨c, sub, ih.2 ⟨p, below', sub'⟩⟩

theorem Below.reflTransGen {x y : InodeNumber} {names : List String}
    (below : disk.Below sb x names y) : Relation.ReflTransGen (disk.Names sb) x y := by
  induction below with
  | here _ => exact .refl
  | down sub _ ih => exact .head sub.names ih

/-! ### The tree a budget reaches -/

theorem nil_mem_tree (budget : Nat) (x : InodeNumber) : ([], x) ∈ disk.tree sb budget x := by
  cases budget <;> simp [tree]

theorem below_of_mem_tree {budget : Nat} {x y : InodeNumber} {names : List String}
    (dir : disk.IsDirectory sb x) (member : (names, y) ∈ disk.tree sb budget x) :
    disk.Below sb x names y ∧ names.length ≤ budget := by
  induction budget generalizing x y names with
  | zero =>
    simp only [tree, List.mem_singleton, Prod.mk.injEq] at member
    obtain ⟨rfl, rfl⟩ := member
    exact ⟨.here dir, Nat.le_refl 0⟩
  | succ budget ih =>
    simp only [tree, List.mem_cons, Prod.mk.injEq, List.mem_flatMap, List.mem_map] at member
    rcases member with ⟨rfl, rfl⟩ | ⟨e, listed, ⟨names', y'⟩, member', same⟩
    · exact ⟨.here dir, Nat.zero_le _⟩
    · simp only [Prod.map, id, Prod.mk.injEq] at same
      obtain ⟨rfl, rfl⟩ := same
      have sub := subdir_of_mem_subdirectories dir listed
      obtain ⟨below, shallow⟩ := ih sub.isDirectory.2 member'
      exact ⟨.down sub below, by simpa using shallow⟩

theorem mem_tree_of_below {x y : InodeNumber} {names : List String}
    (below : disk.Below sb x names y) {budget : Nat} (shallow : names.length ≤ budget) :
    (names, y) ∈ disk.tree sb budget x := by
  induction below generalizing budget with
  | here _ => exact nil_mem_tree budget _
  | down sub _ ih =>
    obtain ⟨e, listed, rfl, rfl⟩ := sub.exists_mem
    cases budget with
    | zero => simp at shallow
    | succ budget =>
      simp only [tree, List.mem_cons, List.mem_flatMap, List.mem_map]
      exact .inr ⟨e, listed, _, ih (by simpa using shallow), rfl⟩

theorem mem_tree_iff {budget : Nat} {x y : InodeNumber} {names : List String}
    (dir : disk.IsDirectory sb x) :
    (names, y) ∈ disk.tree sb budget x ↔ disk.Below sb x names y ∧ names.length ≤ budget :=
  ⟨below_of_mem_tree dir, fun both => mem_tree_of_below both.1 both.2⟩

/-! ### On a well-formed disk the directories form a tree -/

namespace WellFormed

variable (wf : disk.WellFormed sb)
include wf

theorem isDirectory_root : disk.IsDirectory sb rootInode := by
  obtain ⟨dir, decoded, kind⟩ := wf.rootDirectory
  exact ⟨dir, stat?_eq_some.2 ⟨wf.rootAllocated, decoded⟩, kind⟩

theorem not_transGen_self (x : InodeNumber) : ¬Relation.TransGen (disk.Names sb) x x := by
  -- no inode reached from the root lies on a cycle, by induction along the path
  have acyclic : ∀ y, Relation.ReflTransGen (disk.Names sb) rootInode y →
      ¬Relation.TransGen (disk.Names sb) y y := by
    intro y path
    induction path with
    | refl =>
      intro cycle
      obtain ⟨p, -, named⟩ := Relation.TransGen.tail'_iff.1 cycle
      exact wf.rootUnnamed p named
    | tail _ edge ih =>
      intro cycle
      obtain ⟨q, back, ⟨k', namedAt⟩⟩ := Relation.TransGen.tail'_iff.1 cycle
      obtain ⟨k, edgeAt⟩ := edge
      -- the last step of the cycle enters through the one slot that names the inode
      obtain ⟨rfl, -⟩ := wf.namedOnce _ _ _ _ _ namedAt edgeAt
      exact ih (Relation.TransGen.head' ⟨k, edgeAt⟩ back)
  intro cycle
  obtain ⟨p, -, named⟩ := Relation.TransGen.tail'_iff.1 cycle
  exact acyclic x (wf.reachable x (wf.allocated_of_names named)) cycle

theorem subdir_unique {p p' y : InodeNumber} {name name' : String}
    (sub : disk.Subdir sb p name y) (sub' : disk.Subdir sb p' name' y) :
    p = p' ∧ name = name' := by
  obtain ⟨k, dir, e, found, slot, rfl, named⟩ := sub.namesAt
  obtain ⟨k', dir', e', found', slot', rfl, named'⟩ := sub'.namesAt
  obtain ⟨rfl, rfl⟩ := wf.namedOnce _ _ _ _ _ named named'
  rw [found, Option.some.injEq] at found'
  subst found'
  rw [slot, Option.some.injEq] at slot'
  exact ⟨rfl, congrArg DirEntry.name slot'⟩

/-- One path leads from a directory to each directory below it. -/
theorem below_names_unique {x y : InodeNumber} {names names' : List String}
    (below : disk.Below sb x names y) (below' : disk.Below sb x names' y) : names = names' := by
  have noReturn : ∀ {front : List String} {last : String},
      ¬disk.Below sb x (front ++ [last]) x := by
    intro front last back
    obtain ⟨p, path, sub⟩ := below_append_singleton.1 back
    exact wf.not_transGen_self x (Relation.TransGen.tail' path.reflTransGen sub.names)
  -- the paths agree from their last step back, where the parent is unique
  induction names using List.reverseRecOn generalizing y names' with
  | nil =>
    obtain ⟨rfl, -⟩ := below_nil_iff.1 below
    rcases List.eq_nil_or_concat names' with rfl | ⟨front', last', rfl⟩
    · rfl
    · rw [List.concat_eq_append] at below'
      exact absurd below' noReturn
  | append_singleton front last ih =>
    obtain ⟨p, path, sub⟩ := below_append_singleton.1 below
    rcases List.eq_nil_or_concat names' with rfl | ⟨front', last', rfl⟩
    · obtain ⟨rfl, -⟩ := below_nil_iff.1 below'
      exact absurd below noReturn
    · rw [List.concat_eq_append] at below' ⊢
      obtain ⟨p', path', sub'⟩ := below_append_singleton.1 below'
      obtain ⟨rfl, rfl⟩ := wf.subdir_unique sub sub'
      rw [ih path path']

theorem subdirectories_pairwise {x : InodeNumber} (dir : disk.IsDirectory sb x) :
    (disk.subdirectories sb x).Pairwise fun e e' => e.name < e'.name := by
  obtain ⟨inode, found, kind⟩ := dir
  obtain ⟨allocated, decoded⟩ := stat?_eq_some.1 found
  have distinct := (wf.entries_pairwise allocated decoded kind).filter (·.isUsed)
  rw [subdirectories, usedEntries_of_stat? found]
  exact ((sortByName_pairwise_lt distinct).filter _).filter _

/-- The tree lists its directories in the lexicographic order of the names leading to them. -/
theorem tree_pairwise {budget : Nat} {x : InodeNumber} (dir : disk.IsDirectory sb x) :
    (disk.tree sb budget x).Pairwise fun v w => List.Lex (· < ·) v.1 w.1 := by
  induction budget generalizing x with
  | zero => exact List.pairwise_singleton _ _
  | succ budget ih =>
    rw [tree, List.pairwise_cons, List.pairwise_flatMap]
    refine ⟨?first, ?within, ?across⟩
    case first =>
      intro v member
      obtain ⟨e, -, member'⟩ := List.mem_flatMap.1 member
      obtain ⟨w, -, rfl⟩ := List.mem_map.1 member'
      exact List.Lex.nil
    case within =>
      intro e listed
      have sub := subdir_of_mem_subdirectories dir listed
      rw [List.pairwise_map]
      exact (ih sub.isDirectory.2).imp fun lex => List.Lex.cons lex
    case across =>
      refine (wf.subdirectories_pairwise dir).imp fun earlier => ?_
      intro v member w member'
      obtain ⟨v', -, rfl⟩ := List.mem_map.1 member
      obtain ⟨w', -, rfl⟩ := List.mem_map.1 member'
      exact List.Lex.rel earlier

theorem tree_nodup {budget : Nat} {x : InodeNumber} (dir : disk.IsDirectory sb x) :
    ((disk.tree sb budget x).map Prod.snd).Nodup := by
  rw [List.Nodup, List.pairwise_map]
  refine (wf.tree_pairwise dir).imp_of_mem fun {v w} member member' lex same => ?_
  -- two visits of one directory would be two paths to it
  have below := (below_of_mem_tree dir member).1
  have below' := (below_of_mem_tree dir member').1
  rw [same] at below
  rw [wf.below_names_unique below below'] at lex
  exact List.lex_irrefl (fun name => lt_irrefl name) _ lex

end WellFormed

end Disk

/-! ## Catching faults -/

namespace FsM

variable {δ α : Type} {x : FsM δ α} {s : Session δ} {ok : α → Session δ → Prop}
  {err : Fault → Session δ → Prop}

theorem ends_attempt (h : Ends x s ok err) :
    Ends (attempt x) s
      (fun r t => (∃ a, r = .ok a ∧ ok a t) ∨ ∃ e, r = .error e ∧ err (.fs e) t)
      (fun f t => f = .trap ∧ err .trap t) := by
  change Ends (EStateM.tryCatch (EStateM.map Except.ok x) _) s _ _
  unfold Ends at h ⊢
  simp only [EStateM.tryCatch, EStateM.map, EStateM.run] at h ⊢
  cases run : x s with
  | ok a t =>
    rw [run] at h
    exact .inl ⟨a, rfl, h⟩
  | error f t =>
    rw [run] at h
    cases f with
    | fs e => exact .inr ⟨e, rfl, h⟩
    | trap => exact ⟨rfl, h⟩

end FsM

/-! ## Walks on a device that holds a file system -/

section Walks

variable {d : MemoryDevice} {sb : SuperBlock} (holds : d.Holds sb) (reads : d.failReads = none)
  {s : Session MemoryDevice}
include holds reads

/-- `readDir` of an allocated directory answers its used entries and does not stop. -/
theorem readDir_holds (same : s.device = d) {x : InodeNumber} (dir : d.disk.IsDirectory sb x) :
    Ends (readDir x : FsM MemoryDevice (List DirEntry)) s
      (fun entries t => t = s ∧ entries = d.disk.usedEntries sb x) fun _ _ => False := by
  simp only [readDir, ends_bind]
  rw [ends_run_ok (readSuperBlock_holds holds reads same)]
  refine (loadDirectory_holds holds reads same x).mono ?_ ?_
  · rintro ⟨inode, slots⟩ t ⟨rfl, found, -, listed⟩
    dsimp only at found listed
    subst listed
    rw [ends_pure, Disk.usedEntries_of_stat? found, slotsOf_content holds found]
    exact ⟨rfl, rfl⟩
  · rintro e t ⟨-, -, notDirectory⟩
    obtain ⟨inode, found, kind⟩ := dir
    exact notDirectory inode found kind

/-- One level of a walk: directory `x`, then for each subdirectory in name order what `sub` says
the walk below it lists. -/
theorem walkFrom_succ_ends (same : s.device = d) {x : InodeNumber} (dir : d.disk.IsDirectory sb x)
    (fuel depth : Nat) (path : String) (sub : DirEntry → List Listing)
    (descend : ∀ c, d.disk.namesDirectory sb c = true →
      (maxWalkDepth < depth + 1 ∧ sub c = []) ∨
      (depth + 1 ≤ maxWalkDepth ∧ ∀ t : Session MemoryDevice, t.device = d →
        Ends (walkFrom fuel c.inum (path ++ c.name ++ "/") (depth + 1)) t
          (fun l u => u.device = d ∧ l = sub c) fun _ _ => False)) :
    Ends (walkFrom (fuel + 1) x path depth) s
      (fun l t => t.device = d ∧
        l = ⟨path, x, sortByName (d.disk.usedEntries sb x)⟩ ::
          (d.disk.subdirectories sb x).flatMap sub)
      fun _ _ => False := by
  rw [walkFrom.eq_def]
  simp only [ends_bind]
  refine (readDir_holds holds reads same dir).mono ?_ fun _ _ h => h
  rintro entries t ⟨rfl, rfl⟩
  -- the loop keeps the listing of `x` followed by the lists of the subdirectories done
  refine ends_forIn _ _ _ _ (fun rest acc t => t.device = d ∧ ∃ done,
      (sortByName (d.disk.usedEntries sb x)).filter (fun e => !e.isDot) = done ++ rest ∧
      acc = ⟨path, x, sortByName (d.disk.usedEntries sb x)⟩ ::
        (done.filter (d.disk.namesDirectory sb)).flatMap sub) ?_ ?_ ⟨same, [], rfl, rfl⟩
  · rintro c rest acc t ⟨device, done, split, rfl⟩
    have split' : (sortByName (d.disk.usedEntries sb x)).filter (fun e => !e.isDot) =
        (done ++ [c]) ++ rest := by
      rw [split, List.append_assoc, List.singleton_append]
    simp only [ends_bind]
    refine (ends_attempt (stat_holds holds reads device c.inum)).mono ?_ ?_
    · rintro r u (⟨inode, rfl, rfl, found⟩ | ⟨e, rfl, unchanged, -, missing⟩)
      · have named : d.disk.namesDirectory sb c = inode.isDirectory := by
          simp [Disk.namesDirectory, found]
        dsimp only
        by_cases directory : inode.isDirectory = true
        · rw [if_pos directory]
          rcases descend c (named.trans directory) with ⟨deep, nothing⟩ | ⟨shallow, below⟩
          · rw [if_pos deep]
            simp only [ends_bind, ends_log, ends_pure]
            refine ⟨device, done ++ [c], split', ?_⟩
            simp [List.filter_append, named, directory, nothing]
          · rw [if_neg (Nat.not_lt.2 shallow)]
            simp only [ends_bind]
            refine (ends_attempt (below _ device)).mono ?_ ?_
            · rintro r v (⟨more, rfl, device', rfl⟩ | ⟨e, rfl, ⟨⟩⟩)
              refine ⟨device', done ++ [c], split', ?_⟩
              simp [List.filter_append, named, directory]
            · rintro f v ⟨-, ⟨⟩⟩
        · rw [if_neg directory]
          refine ⟨device, done ++ [c], split', ?_⟩
          simp [List.filter_append, named, directory]
      · have named : d.disk.namesDirectory sb c = false := by
          simp [Disk.namesDirectory, missing]
        simp only [ends_bind, ends_log, ends_pure]
        refine ⟨by rw [← device]; exact unchanged, done ++ [c], split', ?_⟩
        simp [List.filter_append, named]
    · rintro f u ⟨-, -, impossible, -⟩
      cases impossible
  · rintro acc u ⟨device, done, split, rfl⟩
    rw [List.append_nil] at split
    rw [ends_pure, Disk.subdirectories, ← split]
    exact ⟨device, rfl⟩

/-- A walk with `budget + 1` levels of fuel lists the tree that budget reaches below `x`. -/
theorem walkFrom_ends (budget : Nat) (names : List String) {x : InodeNumber} {depth : Nat}
    (limit : depth + budget = maxWalkDepth) (same : s.device = d) (dir : d.disk.IsDirectory sb x) :
    Ends (walkFrom (budget + 1) x (walkPath names) depth) s
      (fun l t => t.device = d ∧
        l = (d.disk.tree sb budget x).map fun v => d.disk.listingAt sb (names ++ v.1) v.2)
      fun _ _ => False := by
  induction budget generalizing x names depth s with
  | zero =>
    refine (walkFrom_succ_ends holds reads same dir 0 depth _ (fun _ => []) ?_).mono ?_
      fun _ _ h => h
    · intro c _
      exact .inl ⟨by omega, rfl⟩
    · rintro l t ⟨device, rfl⟩
      exact ⟨device, by simp [Disk.tree, Disk.listingAt]⟩
  | succ budget ih =>
    refine (walkFrom_succ_ends holds reads same dir (budget + 1) depth _
      (fun c => (d.disk.tree sb budget c.inum).map fun v =>
        d.disk.listingAt sb (names ++ c.name :: v.1) v.2) ?_).mono ?_ fun _ _ h => h
    · intro c named
      refine .inr ⟨by omega, fun t device => ?_⟩
      rw [← walkPath_append_singleton]
      refine (ih _ (by omega) device (Disk.namesDirectory_iff.1 named)).mono ?_ fun _ _ h => h
      rintro l u ⟨device', rfl⟩
      exact ⟨device', by simp⟩
    · rintro l t ⟨device, rfl⟩
      refine ⟨device, ?_⟩
      simp [Disk.tree, Disk.listingAt, List.map_flatMap, Function.comp_def]

theorem readDir_answer_usedEntries {x : InodeNumber} (dir : d.disk.IsDirectory sb x) :
    answer (readDir x : FsM MemoryDevice (List DirEntry)) d = .ok (d.disk.usedEntries sb x) := by
  apply answer_after_of_ends fun a _ => a = _
  refine (readDir_holds holds reads rfl dir).mono ?_ fun _ _ h => h.elim
  rintro entries t ⟨-, rfl⟩
  rfl

/-- A walk from an allocated directory answers the tree `maxWalkDepth` levels reach. -/
theorem walk_answer {r : InodeNumber} (dir : d.disk.IsDirectory sb r) :
    answer (walk r : FsM MemoryDevice (List Listing)) d =
      .ok ((d.disk.tree sb maxWalkDepth r).map fun v => d.disk.listingAt sb v.1 v.2) := by
  apply answer_after_of_ends fun a _ => a = _
  refine (walkFrom_ends holds reads maxWalkDepth [] (Nat.zero_add _) rfl dir).mono ?_
    fun _ _ h => h.elim
  rintro l t ⟨-, rfl⟩
  simp

end Walks

/-! ## Walks of reachable images -/

/-- On every reachable image a walk from an allocated directory lists each directory at most
`maxWalkDepth` levels below it exactly once, in depth-first pre-order with siblings in name
order, with its path, number and sorted entries. -/
theorem walk_lists_tree_in_preorder {ni nd : Nat} {d : MemoryDevice} (reach : Reachable ni nd d)
    {r : InodeNumber}
    (root : d.disk.IsDirectory (SuperBlock.withCapacity (UInt32.ofNat ni) (UInt32.ofNat nd)) r) :
    let sb := SuperBlock.withCapacity (UInt32.ofNat ni) (UInt32.ofNat nd)
    ∃ visits : List (List String × InodeNumber),
      answer (walk r : FsM MemoryDevice (List Listing)) d =
        .ok (visits.map fun v =>
          { path := walkPath v.1, inum := v.2,
            entries := sortByName (d.disk.usedEntries sb v.2) }) ∧
      (∀ names y, (names, y) ∈ visits ↔
        d.disk.Below sb r names y ∧ names.length ≤ maxWalkDepth) ∧
      visits.Pairwise (fun v w => List.Lex (· < ·) v.1 w.1) ∧
      (visits.map Prod.snd).Nodup ∧
      ∀ v ∈ visits, answer (readDir v.2 : FsM MemoryDevice (List DirEntry)) d =
        .ok (d.disk.usedEntries sb v.2) := by
  intro sb
  obtain ⟨holds, healthy⟩ := reach.holds
  have wf := holds.wellFormed
  refine ⟨d.disk.tree sb maxWalkDepth r, walk_answer holds healthy.reads root,
    fun names y => Disk.mem_tree_iff root, wf.tree_pairwise root, wf.tree_nodup root, ?_⟩
  rintro ⟨names, y⟩ visited
  have below := ((Disk.mem_tree_iff root).1 visited).1
  exact readDir_answer_usedEntries holds healthy.reads below.isDirectory.2

/-- On a freshly formatted image a walk from the root lists each directory once. -/
theorem formatted_walk_lists_tree :
    let d := after (formatDevice 1 1 : FsM MemoryDevice Unit) (MemoryDevice.zeroed 5)
    let sb := SuperBlock.withCapacity (UInt32.ofNat 1) (UInt32.ofNat 1)
    Reachable 1 1 d ∧ d.disk.IsDirectory sb rootInode ∧
      ∃ visits : List (List String × InodeNumber), (visits.map Prod.snd).Nodup ∧
        ∀ names y, (names, y) ∈ visits ↔
          d.disk.Below sb rootInode names y ∧ names.length ≤ maxWalkDepth := by
  intro d sb
  have root := formatted_wellFormed.2.isDirectory_root
  obtain ⟨visits, -, members, -, nodup, -⟩ :=
    walk_lists_tree_in_preorder formatted_reachable root
  exact ⟨formatted_reachable, root, visits, nodup, members⟩

end InodeFs
