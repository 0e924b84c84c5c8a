import InodeFs.Proofs.Bounds

/-!
All or nothing: a mutating call that fails on the in-memory device leaves it as it was, a call
that breaks a bound has not touched any device, and the calls that change nothing touch nothing.
-/

namespace InodeFs

namespace Engine

open FsM

variable {δ : Type} [BlockDevice δ]

/-! ## What the read-only calls saw -/

theorem lookup_run_ok {s t : Session δ} {parent : InodeNumber} {name : String} {i : InodeNumber}
    (run : (lookup parent name : FsM δ InodeNumber).run s = .ok i t) :
    ∃ sb dir entries e, (readSuperBlock : FsM δ SuperBlock).run s = .ok sb s ∧
      (loadDirectory sb parent : FsM δ (Inode × List DirEntry)).run s = .ok (dir, entries) s ∧
      entries.find? (fun e => e.isUsed && e.name == name) = some e ∧ e.inum = i := by
  obtain ⟨sb, t₁, superRun, afterSuper⟩ := run_bind_eq_ok run
  obtain ⟨rfl, -⟩ := (ends_run_ok superRun).1 (readSuperBlock_ends s)
  obtain ⟨⟨dir, entries⟩, t₂, dirRun, rest⟩ := run_bind_eq_ok afterSuper
  obtain ⟨rfl, -⟩ := (ends_run_ok dirRun).1 (loadDirectory_ends _ sb parent)
  refine ⟨sb, dir, entries, ?_⟩
  dsimp only at rest
  cases found : entries.find? (fun e => e.isUsed && e.name == name) with
  | none =>
    rw [found] at rest
    change EStateM.Result.error (Fault.fs .notFound) _ = _ at rest
    cases rest
  | some e =>
    rw [found] at rest
    change EStateM.Result.ok e.inum _ = _ at rest
    cases rest
    exact ⟨e, superRun, dirRun, rfl, rfl⟩

theorem readDir_run_ok {s t : Session δ} {i : InodeNumber} {listing : List DirEntry}
    (run : (readDir i : FsM δ (List DirEntry)).run s = .ok listing t) :
    ∃ sb dir entries, (readSuperBlock : FsM δ SuperBlock).run s = .ok sb s ∧
      (loadDirectory sb i : FsM δ (Inode × List DirEntry)).run s = .ok (dir, entries) s ∧
      listing = entries.filter (·.isUsed) := by
  obtain ⟨sb, t₁, superRun, afterSuper⟩ := run_bind_eq_ok run
  obtain ⟨rfl, -⟩ := (ends_run_ok superRun).1 (readSuperBlock_ends s)
  obtain ⟨⟨dir, entries⟩, t₂, dirRun, rest⟩ := run_bind_eq_ok afterSuper
  obtain ⟨rfl, -⟩ := (ends_run_ok dirRun).1 (loadDirectory_ends _ sb i)
  change EStateM.Result.ok (entries.filter (·.isUsed)) _ = _ at rest
  cases rest
  exact ⟨sb, dir, entries, superRun, dirRun, rfl⟩

theorem stat_run_ok {s t : Session δ} {i : InodeNumber} {inode : Inode}
    (run : (stat i : FsM δ Inode).run s = .ok inode t) :
    ∃ sb, (readSuperBlock : FsM δ SuperBlock).run s = .ok sb s ∧
      (loadInode sb i : FsM δ Inode).run s = .ok inode s := by
  obtain ⟨sb, t₁, superRun, loadRun⟩ := run_bind_eq_ok run
  obtain ⟨rfl, -⟩ := (ends_run_ok superRun).1 (readSuperBlock_ends s)
  obtain ⟨rfl, -⟩ := (ends_run_ok loadRun).1 (loadInode_ends _ sb i)
  exact ⟨sb, superRun, loadRun⟩

/-! ## The calls that change nothing -/

/-- Creating a name the parent binds to `i` touches nothing and answers `i`, unless the name is
invalid or the kind differs. -/
theorem create_existing_ends (s : Session δ) (kind : FileKind) {parent : InodeNumber}
    {name : String} {i : InodeNumber} {t₀ : Session δ}
    (bound : (lookup parent name : FsM δ InodeNumber).run s = .ok i t₀) :
    Ends (create parent kind name : FsM δ InodeNumber) s (fun r t => r = i ∧ t.device = s.device)
      (fun _ t => t.device = s.device ∧ (DirEntry.validName name = true →
        ∀ inode t₁, (stat i : FsM δ Inode).run s = .ok inode t₁ → inode.kind ≠ kind)) := by
  obtain ⟨sb, dir, entries, e, superRun, dirRun, found, rfl⟩ := lookup_run_ok bound
  simp only [create, ends_bind]
  rw [ends_run_ok superRun, ends_run_ok dirRun]
  simp only [ends_ite]
  by_cases invalid : (!DirEntry.validName name) = true
  · rw [if_pos invalid, ends_bind, ends_fail]
    refine ⟨rfl, fun valid => ?_⟩
    simp [valid] at invalid
  rw [if_neg invalid]
  simp only [found]
  have statLoads : ∀ inode t₁, (stat e.inum : FsM δ Inode).run s = .ok inode t₁ →
      (loadInode sb e.inum : FsM δ Inode).run s = .ok inode s := by
    intro inode t₁ statRun
    obtain ⟨sb', superRun', loadRun⟩ := stat_run_ok statRun
    obtain rfl : sb' = sb := by simpa [superRun] using superRun'.symm
    exact loadRun
  refine ((loadInode_ends s sb e.inum).and (ends_self _ s)).seq ?_ ?_
  · intro inode t loaded
    obtain ⟨⟨rfl, -⟩, loadRun⟩ := loaded
    by_cases other : (inode.kind != kind) = true
    · rw [if_pos other, ends_bind, ends_fail]
      refine ⟨rfl, fun _ inode' t₁ statRun => ?_⟩
      obtain rfl : inode' = inode := by simpa [loadRun] using (statLoads inode' t₁ statRun).symm
      simpa using other
    · rw [if_neg other]
      simp only [ends_bind, ends_log, ends_pure, and_self]
  · intro e' t refused
    obtain ⟨⟨-, same⟩, loadRun⟩ := refused
    refine ⟨same, fun _ inode t₁ statRun => ?_⟩
    simp [statLoads inode t₁ statRun] at loadRun

/-- Unlinking a name the parent does not list touches nothing, and succeeds for a valid name
other than `.` and `..`. -/
theorem unlink_absent_ends (s : Session δ) {parent : InodeNumber} {name : String}
    {listing : List DirEntry} {t₀ : Session δ}
    (listed : (readDir parent : FsM δ (List DirEntry)).run s = .ok listing t₀)
    (absent : ∀ e ∈ listing, e.name ≠ name) :
    Ends (unlink parent name : FsM δ Unit) s (fun _ t => t.device = s.device)
      (fun _ t => t.device = s.device ∧
        (DirEntry.validName name = true → name = "." ∨ name = "..")) := by
  obtain ⟨sb, dir, entries, superRun, dirRun, rfl⟩ := readDir_run_ok listed
  have missing : entries.findIdx? (fun e => e.isUsed && e.name == name) = none := by
    rw [List.findIdx?_eq_none_iff]
    intro e member
    cases used : e.isUsed
    · rfl
    · have shown : e ∈ entries.filter (·.isUsed) := List.mem_filter.2 ⟨member, used⟩
      simpa [used] using absent e shown
  simp only [unlink, ends_bind]
  rw [ends_run_ok superRun, ends_run_ok dirRun]
  simp only [ends_ite]
  by_cases invalid : (!DirEntry.validName name) = true
  · rw [if_pos invalid, ends_bind, ends_fail]
    refine ⟨rfl, fun valid => ?_⟩
    simp [valid] at invalid
  rw [if_neg invalid]
  by_cases dots : (name == "." || name == "..") = true
  · rw [if_pos dots, ends_bind, ends_fail]
    refine ⟨rfl, fun _ => ?_⟩
    simpa using dots
  rw [if_neg dots]
  simp only [missing, ends_log]

/-! ## Failures -/

omit [BlockDevice δ] in
theorem device_of_stops {s t : Session δ} {cause : Prop} {e : Fault}
    (stopped : Stops s cause (fun _ t => t.device = s.device) e t) : t.device = s.device :=
  stopped.2.elim id id

/-- With no transaction open on the in-memory device, a failed commit rolls back. -/
theorem commit_stops_memory {s : Session MemoryDevice} (closed : s.device.pending = none)
    (c : Changeset) :
    Ends (c.commit : FsM MemoryDevice Unit) s (fun _ _ => True) fun _ t => t.device = s.device :=
  (Changeset.commit_ends_memory s c closed).mono (fun _ _ _ => trivial) fun _ _ failed => failed.2

/-- A mutating call is all or nothing: failures on the in-memory device change nothing, traps
change nothing on any device, and the calls with nothing to do touch nothing. -/
theorem mutations_all_or_nothing (s : Session δ) :
    (∀ m : Session MemoryDevice, m.device.pending = none →
      (∀ parent kind name e t, (create parent kind name : FsM MemoryDevice InodeNumber).run m =
        .error e t → t.device = m.device) ∧
      (∀ i bytes e t, (write i bytes : FsM MemoryDevice Nat).run m = .error e t →
        t.device = m.device) ∧
      (∀ parent name e t, (unlink parent name : FsM MemoryDevice Unit).run m = .error e t →
        t.device = m.device)) ∧
    (∀ parent kind name t, (create parent kind name : FsM δ InodeNumber).run s = .error .trap t →
      t.device = s.device) ∧
    (∀ i bytes t, (write i bytes : FsM δ Nat).run s = .error .trap t → t.device = s.device) ∧
    (∀ parent name t, (unlink parent name : FsM δ Unit).run s = .error .trap t →
      t.device = s.device) ∧
    (∀ parent kind name i t₀, (lookup parent name : FsM δ InodeNumber).run s = .ok i t₀ →
      (∀ r t, (create parent kind name : FsM δ InodeNumber).run s = .ok r t →
        r = i ∧ t.device = s.device) ∧
      (∀ e t, (create parent kind name : FsM δ InodeNumber).run s = .error e t →
        t.device = s.device) ∧
      (DirEntry.validName name = true → ∀ inode t₁, (stat i : FsM δ Inode).run s = .ok inode t₁ →
        inode.kind = kind →
        ∃ t, (create parent kind name : FsM δ InodeNumber).run s = .ok i t ∧ t.device = s.device)) ∧
    (∀ parent name listing t₀, (readDir parent : FsM δ (List DirEntry)).run s = .ok listing t₀ →
      (∀ e ∈ listing, e.name ≠ name) →
      (∀ t, (unlink parent name : FsM δ Unit).run s = .ok () t → t.device = s.device) ∧
      (∀ e t, (unlink parent name : FsM δ Unit).run s = .error e t → t.device = s.device) ∧
      (DirEntry.validName name = true → name ≠ "." → name ≠ ".." →
        ∃ t, (unlink parent name : FsM δ Unit).run s = .ok () t ∧ t.device = s.device)) := by
  have anyCommit : ∀ c : Changeset, Ends (c.commit : FsM δ Unit) s (fun _ _ => True)
      fun _ _ => True := fun c => (Changeset.commit_ends s c).mono (fun _ _ _ => trivial)
        fun _ _ _ => trivial
  refine ⟨?_, ?_, ?_, ?_, ?_, ?_⟩
  · intro m closed
    refine ⟨?_, ?_, ?_⟩
    · intro parent kind name e t failed
      exact device_of_stops ((ends_run_error failed).1
        (create_ends m parent kind name _ (commit_stops_memory closed)))
    · intro i bytes e t failed
      exact device_of_stops ((ends_run_error failed).1
        (write_ends m i bytes _ (commit_stops_memory closed)))
    · intro parent name e t failed
      exact device_of_stops ((ends_run_error failed).1
        (unlink_ends m parent name _ (commit_stops_memory closed)))
  · intro parent kind name t trapped
    exact (((ends_run_error trapped).1 (create_ends s parent kind name _ anyCommit)).1 rfl).1
  · intro i bytes t trapped
    exact (((ends_run_error trapped).1 (write_ends s i bytes _ anyCommit)).1 rfl).1
  · intro parent name t trapped
    exact (((ends_run_error trapped).1 (unlink_ends s parent name _ anyCommit)).1 rfl).1
  · intro parent kind name i t₀ bound
    have existing := create_existing_ends s kind bound
    refine ⟨fun r t created => (ends_run_ok created).1 existing,
      fun e t failed => ((ends_run_error failed).1 existing).1, ?_⟩
    intro valid inode t₁ statRun same
    have succeeds := existing.mono (fun _ _ answered => answered)
      fun _ _ failed => failed.2 valid inode t₁ statRun same
    obtain ⟨r, t, run, rfl, unchanged⟩ := exists_run_ok succeeds
    exact ⟨t, run, unchanged⟩
  · intro parent name listing t₀ listed absent
    have missing := unlink_absent_ends s listed absent
    refine ⟨fun t removed => (ends_run_ok removed).1 missing,
      fun e t failed => ((ends_run_error failed).1 missing).1, ?_⟩
    intro valid notDot notDotDot
    have succeeds := missing.mono (fun _ _ unchanged => unchanged)
      fun _ _ failed => (failed.2 valid).elim notDot notDotDot
    obtain ⟨r, t, run, unchanged⟩ := exists_run_ok succeeds
    exact ⟨t, run, unchanged⟩

end Engine

end InodeFs
