import InodeFs.Proofs.Mutation
import InodeFs.Proofs.Reachable
import InodeFs.Engine.Query

/-!
Broken bounds: no call breaks one except `create` putting its new entry past the end of its
parent's last block, which a parent a whole number of entries long never has.
-/

namespace InodeFs

namespace Engine

open FsM

variable {δ : Type} [BlockDevice δ]

/-! ## The read-only calls -/

theorem stat_ends (s : Session δ) (i : InodeNumber) :
    Ends (stat i : FsM δ Inode) s (fun _ t => t = s) (Refused s) := by
  simp only [stat, ends_bind]
  refine (readSuperBlock_ends s).mono ?_ fun _ _ refused => refused
  intro sb t read
  obtain ⟨rfl, -⟩ := read
  exact (loadInode_ends t sb i).mono (fun _ _ loaded => loaded.1) fun _ _ refused => refused

theorem lookup_ends (s : Session δ) (parent : InodeNumber) (name : String) :
    Ends (lookup parent name : FsM δ InodeNumber) s (fun _ t => t = s) (Refused s) := by
  simp only [lookup, ends_bind]
  refine (readSuperBlock_ends s).mono ?_ fun _ _ refused => refused
  intro sb t read
  obtain ⟨rfl, -⟩ := read
  refine (loadDirectory_ends t sb parent).mono ?_ fun _ _ refused => refused
  intro r u loaded
  obtain ⟨rfl, -⟩ := loaded
  split
  · rfl
  · exact refused_of_same rfl

theorem read_ends (s : Session δ) (i : InodeNumber) (size : Nat) :
    Ends (read i size : FsM δ ByteArray) s (fun _ t => t = s) (Refused s) := by
  simp only [read, ends_bind]
  refine (readSuperBlock_ends s).mono ?_ fun _ _ refused => refused
  intro sb t read
  obtain ⟨rfl, -⟩ := read
  refine (loadInode_ends t sb i).mono ?_ fun _ _ refused => refused
  intro inode u loaded
  obtain ⟨rfl, -⟩ := loaded
  simp only [ends_ite]
  split
  · simp only [ends_bind, ends_fail]
    exact refused_of_same rfl
  · exact (readContent_ends u sb inode _).mono (fun _ _ read => read.1) fun _ _ refused => refused

theorem readDir_ends (s : Session δ) (i : InodeNumber) :
    Ends (readDir i : FsM δ (List DirEntry)) s (fun _ t => t = s) (Refused s) := by
  simp only [readDir, ends_bind]
  refine (readSuperBlock_ends s).mono ?_ fun _ _ refused => refused
  intro sb t read
  obtain ⟨rfl, -⟩ := read
  exact (loadDirectory_ends t sb i).mono (fun _ _ loaded => loaded.1) fun _ _ refused => refused

omit [BlockDevice δ] in
theorem run_ne_trap {α : Type} {x : FsM δ α} {s : Session δ} {ok : α → Session δ → Prop}
    (h : Ends x s ok (Refused s)) (t : Session δ) : x.run s ≠ .error .trap t := by
  intro trapped
  exact ((ends_run_error trapped).1 h).1 rfl

/-- On a device holding `sb` where inode `i` is allocated and decodes, `stat` answers it. -/
theorem stat_run {s : Session δ} {sb : SuperBlock} {i : InodeNumber} {inode : Inode}
    (super : SuperOf s.device sb) (found : InodeOf s.device sb i inode) :
    (stat i : FsM δ Inode).run s = .ok inode s := by
  change (readSuperBlock >>= fun sb => loadInode sb i).run s = _
  rw [run_bind_of_ok (readSuperBlock_run super), loadInode_run found]

/-! ## The mutating calls -/

omit [BlockDevice δ] in
theorem stops_run_ne_trap {α : Type} {x : FsM δ α} {s : Session δ} {ok : α → Session δ → Prop}
    {E : Fault → Session δ → Prop} (h : Ends x s ok (Stops s False E)) (t : Session δ) :
    x.run s ≠ .error .trap t := by
  intro trapped
  exact (((ends_run_error trapped).1 h).1 rfl).2

theorem commit_stops_any (s : Session δ) (c : Changeset) :
    Ends (c.commit : FsM δ Unit) s (fun _ _ => True) fun _ _ => True :=
  (Changeset.commit_ends s c).mono (fun _ _ _ => trivial) fun _ _ _ => trivial

/-- A `create` that breaks a bound has a parent directory, as `stat` answers it, whose size lies
within an entry's width of the end of a block. -/
theorem create_trap_parent {s t : Session δ} {parent : InodeNumber} {kind : FileKind}
    {name : String} (trapped : (create parent kind name : FsM δ InodeNumber).run s = .error .trap t) :
    ∃ dir, (stat parent : FsM δ Inode).run s = .ok dir s ∧ dir.kind = .directory ∧
      blockSize - entrySize < dir.fileSize % blockSize ∧ dir.fileSize % entrySize ≠ 0 := by
  have stopped := (ends_run_error trapped).1
    (create_ends s parent kind name _ fun c => commit_stops_any s c)
  obtain ⟨-, sb, dir, super, found, directory, overflow⟩ := stopped.1 rfl
  have narrow : entrySize ≤ blockSize := by decide
  refine ⟨dir, stat_run super found, directory, by omega, fun aligned => ?_⟩
  exact absurd (entry_fits_of_aligned aligned) (Nat.not_le.2 overflow)

theorem create_ne_trap_of_aligned {s : Session δ} {parent : InodeNumber} {kind : FileKind}
    {name : String} (aligned : ∀ dir, (stat parent : FsM δ Inode).run s = .ok dir s →
      dir.kind = .directory → dir.fileSize % entrySize = 0) (t : Session δ) :
    (create parent kind name : FsM δ InodeNumber).run s ≠ .error .trap t := by
  intro trapped
  obtain ⟨dir, found, directory, -, notAligned⟩ := create_trap_parent trapped
  exact notAligned (aligned dir found directory)

/-! ## Reachable images -/

omit [BlockDevice δ] in
theorem answer_ne_trap {α : Type} {x : FsM δ α} {d : δ}
    (never : ∀ t, x.run { device := d } ≠ .error .trap t) : answer x d ≠ .error .trap := by
  unfold answer runOn
  split
  · exact fun stopped => by cases stopped
  · next e t run =>
    rintro ⟨⟩
    exact never t run

/-- On a reachable image every directory `stat` answers is a whole number of entries long. -/
theorem Reachable.stat_aligned {ni nd : Nat} {d : MemoryDevice} (reach : Reachable ni nd d)
    {i : InodeNumber} {dir : Inode} {t : Session MemoryDevice}
    (found : (stat i : FsM MemoryDevice Inode).run { device := d } = .ok dir t)
    (directory : dir.kind = .directory) : dir.fileSize % entrySize = 0 := by
  obtain ⟨holds, healthy⟩ := reach.holds
  have answered := (ends_run_ok found).1 (stat_holds holds healthy.reads rfl i)
  obtain ⟨allocated, decoded⟩ := Disk.stat?_eq_some.1 answered.2
  exact (holds.wellFormed.directories i dir allocated decoded directory).aligned

/-- No call breaks a bound, except `create` on a parent directory whose last block has no room for
the new entry; so none when every directory is a whole number of entries long, nor on a
reachable image. -/
theorem calls_trap_only_on_full_last_block (s : Session δ) :
    (∀ i t, (stat i : FsM δ Inode).run s ≠ .error .trap t) ∧
    (∀ parent name t, (lookup parent name : FsM δ InodeNumber).run s ≠ .error .trap t) ∧
    (∀ i size t, (read i size : FsM δ ByteArray).run s ≠ .error .trap t) ∧
    (∀ i t, (readDir i : FsM δ (List DirEntry)).run s ≠ .error .trap t) ∧
    (∀ i bytes t, (write i bytes : FsM δ Nat).run s ≠ .error .trap t) ∧
    (∀ parent name t, (unlink parent name : FsM δ Unit).run s ≠ .error .trap t) ∧
    (∀ parent kind name t, (create parent kind name : FsM δ InodeNumber).run s = .error .trap t →
      ∃ dir, (stat parent : FsM δ Inode).run s = .ok dir s ∧ dir.kind = .directory ∧
        blockSize - entrySize < dir.fileSize % blockSize ∧ dir.fileSize % entrySize ≠ 0) ∧
    ((∀ i dir, (stat i : FsM δ Inode).run s = .ok dir s → dir.kind = .directory →
        dir.fileSize % entrySize = 0) →
      ∀ parent kind name t, (create parent kind name : FsM δ InodeNumber).run s ≠ .error .trap t) ∧
    (∀ ni nd (d : MemoryDevice), Reachable ni nd d → ∀ parent kind name,
      answer (create parent kind name : FsM MemoryDevice InodeNumber) d ≠ .error .trap) := by
  refine ⟨fun i => run_ne_trap (stat_ends s i), fun parent name => run_ne_trap (lookup_ends s parent name),
    fun i size => run_ne_trap (read_ends s i size), fun i => run_ne_trap (readDir_ends s i), ?_, ?_,
    fun parent kind name t trapped => create_trap_parent trapped, ?_, ?_⟩
  · intro i bytes
    exact stops_run_ne_trap (write_ends s i bytes _ fun c => commit_stops_any s c)
  · intro parent name
    exact stops_run_ne_trap (unlink_ends s parent name _ fun c => commit_stops_any s c)
  · intro aligned parent kind name
    exact create_ne_trap_of_aligned (aligned parent)
  · intro ni nd d reach parent kind name
    apply answer_ne_trap
    exact create_ne_trap_of_aligned fun dir found directory => reach.stat_aligned found directory

end Engine

end InodeFs
