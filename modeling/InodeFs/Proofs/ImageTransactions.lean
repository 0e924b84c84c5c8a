import InodeFs.Device.Image
import InodeFs.Proofs.Store

/-!
Image files as transactional block devices: a handle keeps a transaction's writes in memory
and hands them to the file only at commit. A call that leaves a transaction open changes only
what it stages (`apply_of_open`), so a whole transaction is one induction (`run_of_open`).
-/

namespace InodeFs

inductive ImageCall where
  | read (n : Nat)
  | write (n : Nat) (bytes : ByteArray)
  | begin
  | commit
  | rollback

namespace ImageCall

def closes : ImageCall → Bool
  | .commit => true
  | .rollback => true
  | _ => false

/-- What the call leaves at block `n` of an image of `count` blocks, when it writes there. -/
def writtenTo (count n : Nat) : ImageCall → Option ByteArray
  | .write m b => if m = n ∧ m < count ∧ b.size ≤ blockSize then some (fitTo blockSize b) else none
  | _ => none

end ImageCall

/-- What the last write accepted at block `n` among `calls` leaves there, if one does. -/
def lastWrite (count : Nat) (calls : List ImageCall) (n : Nat) : Option ByteArray :=
  (calls.filterMap (ImageCall.writtenTo count n)).getLast?

theorem lastWrite_cons (count : Nat) (c : ImageCall) (calls : List ImageCall) (n : Nat) :
    lastWrite count (c :: calls) n = (lastWrite count calls n).or (c.writtenTo count n) := by
  unfold lastWrite
  rw [List.filterMap_cons]
  cases c.writtenTo count n with
  | none => simp
  | some b =>
    rw [List.getLast?_cons]
    cases (calls.filterMap (ImageCall.writtenTo count n)).getLast? <;> rfl

theorem size_of_lastWrite {count n : Nat} {calls : List ImageCall} {b : ByteArray}
    (h : lastWrite count calls n = some b) : b.size = blockSize := by
  obtain ⟨c, -, written⟩ := List.mem_filterMap.1 (List.mem_of_getLast? h)
  cases c with
  | write m bytes =>
    simp only [ImageCall.writtenTo] at written
    split at written
    · cases written
      exact size_fitTo _ _
    · cases written
  | _ => cases written

namespace ImageDevice

/-- The device once a call returns; a refused call leaves it as it was. -/
def apply (d : ImageDevice) : ImageCall → ImageDevice
  | .read _ => d
  | .write n b => (d.write n b).toOption.getD d
  | .begin => d.begin.toOption.getD d
  | .commit => d.flush.1
  | .rollback => d.discard.1

def run (d : ImageDevice) (calls : List ImageCall) : ImageDevice :=
  calls.foldl apply d

theorem run_cons (d : ImageDevice) (c : ImageCall) (calls : List ImageCall) :
    d.run (c :: calls) = (d.apply c).run calls := rfl

def fileBlock (d : ImageDevice) (n : Nat) : ByteArray :=
  d.image.pages.read n

def staged? (d : ImageDevice) (n : Nat) : Option ByteArray :=
  d.handle.pending.bind (·[n]?)

def reopened (d : ImageDevice) : ImageDevice :=
  { files := d.files, handle := ImageHandle.reopen d.files d.handle }

def staging (d : ImageDevice) (p : Option Pages) : ImageDevice :=
  { d with handle := { d.handle with pending := p } }

/-- The handle is on an image file holding exactly its blocks, fewer than 2^32, and a transaction
stages only blocks of the image. -/
structure Sound (d : ImageDevice) : Prop where
  onImage : ∃ name, d.handle.backing = .image name
  length : d.image.length = d.handle.blocks * blockSize
  fewer : d.handle.blocks < 4294967296
  staged : ∀ p, d.handle.pending = some p → ∀ n ∈ p, n < d.handle.blocks

/-! ## The views of a device -/

section Views

variable (d : ImageDevice)

@[simp] theorem files_staging (p : Option Pages) : (d.staging p).files = d.files := rfl

@[simp] theorem handle_staging (p : Option Pages) :
    (d.staging p).handle = { d.handle with pending := p } := rfl

@[simp] theorem image_staging (p : Option Pages) : (d.staging p).image = d.image := rfl

@[simp] theorem fileBlock_staging (p : Option Pages) : (d.staging p).fileBlock = d.fileBlock := rfl

@[simp] theorem blocks_staging (p : Option Pages) : (d.staging p).handle.blocks = d.handle.blocks :=
  rfl

@[simp] theorem backing_staging (p : Option Pages) :
    (d.staging p).handle.backing = d.handle.backing := rfl

theorem staging_staging (p q : Option Pages) : (d.staging p).staging q = d.staging q := rfl

theorem staging_self : d.staging d.handle.pending = d := rfl

theorem reopened_staging (p : Option Pages) : (d.staging p).reopened = d.reopened := rfl

theorem handle_writeThrough (n : Nat) (b : ByteArray) : (d.writeThrough n b).handle = d.handle := by
  unfold writeThrough
  split <;> rfl

theorem image_writeThrough {name : String} (on : d.handle.backing = .image name) (n : Nat)
    (b : ByteArray) : (d.writeThrough n b).image = d.image.writeBlock n b := by
  simp only [writeThrough, on, image, FileStore.contents, Std.ExtTreeMap.get?_eq_getElem?,
    Std.ExtTreeMap.getElem?_insert_self, Option.getD_some]

theorem fileBlock_writeThrough {name : String} (on : d.handle.backing = .image name) (n : Nat)
    (b : ByteArray) (m : Nat) :
    (d.writeThrough n b).fileBlock m = if n = m then fitTo blockSize b else d.fileBlock m := by
  rw [fileBlock, image_writeThrough d on]
  exact Pages.read_store _ _ _ _

theorem foldl_writeThrough {name : String} (on : d.handle.backing = .image name)
    (l : List (Nat × ByteArray)) :
    (l.foldl (fun acc x => acc.writeThrough x.1 x.2) d).handle = d.handle ∧
    (l.foldl (fun acc x => acc.writeThrough x.1 x.2) d).image.pages =
      l.foldl (fun acc x => acc.store x.1 x.2) d.image.pages ∧
    ((∀ x ∈ l, (x.1 + 1) * blockSize ≤ d.image.length) →
      (l.foldl (fun acc x => acc.writeThrough x.1 x.2) d).image.length = d.image.length) := by
  induction l generalizing d with
  | nil => exact ⟨rfl, rfl, fun _ => rfl⟩
  | cons x rest ih =>
    have onNext : (d.writeThrough x.1 x.2).handle.backing = .image name := by
      rw [handle_writeThrough, on]
    obtain ⟨handle, pages, length⟩ := ih (d.writeThrough x.1 x.2) onNext
    refine ⟨by rw [List.foldl_cons, handle, handle_writeThrough], ?_, fun inside => ?_⟩
    · rw [List.foldl_cons, pages, image_writeThrough d on]
      rfl
    · have first := inside x List.mem_cons_self
      rw [List.foldl_cons, length fun y member => ?_, image_writeThrough d on]
      · exact Nat.max_eq_left first
      · rw [image_writeThrough d on]
        exact Nat.le_trans (inside y (List.mem_cons_of_mem x member)) (Nat.le_max_left _ _)

variable {d}

theorem read_eq (length : d.image.length = d.handle.blocks * blockSize) (n : Nat) :
    d.read n = if d.handle.blocks ≤ n then .error (outOfRange n d.handle.blocks)
      else .ok ((d.staged? n).getD (d.fileBlock n)) := by
  unfold read
  by_cases beyond : d.handle.blocks ≤ n
  · rw [if_pos beyond, if_pos beyond]
  · rw [if_neg beyond, if_neg beyond, staged?]
    cases d.handle.pending.bind (·[n]?) with
    | some b => rfl
    | none =>
      unfold SparseFile.readBlock
      rw [if_pos (by rw [length]; exact Nat.mul_le_mul_right _ (by omega))]
      rfl

theorem reopened_read (sound : d.Sound) (n : Nat) :
    d.reopened.read n = if d.handle.blocks ≤ n then .error (outOfRange n d.handle.blocks)
      else .ok (d.fileBlock n) := by
  obtain ⟨name, on⟩ := sound.onImage
  have blocks : d.reopened.handle.blocks = d.handle.blocks := by
    show ((d.files.contents d.handle.backing).length / blockSize) % 4294967296 = _
    rw [← image, sound.length, Nat.mul_div_cancel _ (by decide), Nat.mod_eq_of_lt sound.fewer]
  have length : d.reopened.image.length = d.reopened.handle.blocks * blockSize := by
    rw [blocks, ← sound.length]
    rfl
  rw [read_eq length, blocks]
  rfl

end Views

/-! ## One call -/

section Calls

variable {d : ImageDevice}

theorem read_beyond {n : Nat} (beyond : d.handle.blocks ≤ n) :
    ∃ e, d.read n = .error e ∧ e.kind = .invalidInput := by
  unfold read
  exact ⟨_, if_pos beyond, rfl⟩

theorem write_refused {n : Nat} {b : ByteArray} (refused : d.handle.blocks ≤ n ∨ blockSize < b.size) :
    (∃ e, d.write n b = .error e ∧ e.kind = .invalidInput) ∧ d.apply (.write n b) = d := by
  have answer : ∃ e, d.write n b = .error e ∧ e.kind = .invalidInput := by
    unfold write
    by_cases beyond : d.handle.blocks ≤ n
    · exact ⟨_, if_pos beyond, rfl⟩
    · rw [if_neg beyond, if_pos (refused.resolve_left beyond)]
      exact ⟨_, rfl, rfl⟩
  obtain ⟨e, refusal, kind⟩ := answer
  refine ⟨⟨e, refusal, kind⟩, ?_⟩
  simp only [apply, refusal]
  rfl

theorem apply_write_closed (closed : d.handle.pending = none) {n : Nat} {b : ByteArray}
    (below : n < d.handle.blocks) (fits : b.size ≤ blockSize) :
    d.apply (.write n b) = d.writeThrough n (fitTo blockSize b) := by
  simp only [apply, write, closed]
  rw [if_neg (Nat.not_le.2 below), if_neg (Nat.not_lt.2 fits)]
  rfl

theorem apply_write_open {p : Pages} (inTransaction : d.handle.pending = some p) {n : Nat} {b : ByteArray}
    (below : n < d.handle.blocks) (fits : b.size ≤ blockSize) :
    d.apply (.write n b) = d.staging (some (p.insert n (fitTo blockSize b))) := by
  simp only [apply, write, inTransaction]
  rw [if_neg (Nat.not_le.2 below), if_neg (Nat.not_lt.2 fits)]
  rfl

theorem begin_open (inTransaction : d.handle.pending.isSome) :
    (∃ e, d.begin = .error e) ∧ d.apply .begin = d := by
  obtain ⟨p, staged⟩ := Option.isSome_iff_exists.1 inTransaction
  have refusal : d.begin = .error ⟨.other, "a transaction is already open"⟩ := by
    simp only [ImageDevice.begin, staged]
  refine ⟨⟨_, refusal⟩, ?_⟩
  simp only [apply, refusal]
  rfl

theorem apply_begin_closed (closed : d.handle.pending = none) :
    d.apply .begin = d.staging (some ∅) := by
  simp only [apply, ImageDevice.begin, closed]
  rfl

theorem apply_rollback : d.apply .rollback = d.staging none := by
  simp only [apply, discard]
  split
  · next closed =>
    rw [← closed]
    rfl
  · rfl

theorem apply_commit_closed (closed : d.handle.pending = none) : d.apply .commit = d := by
  simp only [apply, flush, closed]

theorem apply_commit_open {p : Pages} (inTransaction : d.handle.pending = some p) :
    d.apply .commit = p.toList.foldl (fun acc x => acc.writeThrough x.1 x.2) (d.staging none) := by
  simp only [apply, flush, inTransaction]
  rw [Std.ExtTreeMap.foldl_eq_foldl_toList]
  rfl

/-- A commit closes the transaction and leaves each staged block in the file. -/
theorem commit_open {name : String} (on : d.handle.backing = .image name) {p : Pages}
    (inTransaction : d.handle.pending = some p) :
    (d.apply .commit).handle = { d.handle with pending := none } ∧
    (∀ m, (d.apply .commit).fileBlock m = (p[m]?.map (fitTo blockSize)).getD (d.fileBlock m)) ∧
    ((∀ n ∈ p, (n + 1) * blockSize ≤ d.image.length) →
      (d.apply .commit).image.length = d.image.length) := by
  obtain ⟨handle, pages, length⟩ := foldl_writeThrough (d.staging none) on p.toList
  rw [apply_commit_open inTransaction]
  refine ⟨handle, fun m => ?_, fun inside => length fun x member => inside x.1 ?_⟩
  · unfold fileBlock
    rw [pages, image_staging, ← Pages.read_overlay]
    unfold Pages.overlay
    rw [Std.ExtTreeMap.foldl_eq_foldl_toList]
  · obtain ⟨k, v⟩ := x
    rw [Std.ExtTreeMap.mem_iff_isSome_getElem?,
      Std.ExtTreeMap.mem_toList_iff_getElem?_eq_some.1 member]
    rfl

/-- Inside a transaction a call that does not close it changes only what it stages. -/
theorem apply_of_open {p : Pages} (inTransaction : d.handle.pending = some p) (c : ImageCall)
    (stays : c.closes = false) :
    ∃ p', d.apply c = d.staging (some p') ∧
      ∀ m, p'[m]? = (c.writtenTo d.handle.blocks m).or p[m]? := by
  cases c with
  | read n => exact ⟨p, by rw [← inTransaction, staging_self]; rfl, fun m => rfl⟩
  | write n b =>
    by_cases accepted : n < d.handle.blocks ∧ b.size ≤ blockSize
    · refine ⟨p.insert n (fitTo blockSize b), apply_write_open inTransaction accepted.1 accepted.2, ?_⟩
      intro m
      rw [Changeset.getElem?_insert]
      simp only [ImageCall.writtenTo, accepted, and_true]
      by_cases here : n = m <;> simp [here]
    · have refused : d.handle.blocks ≤ n ∨ blockSize < b.size := by omega
      refine ⟨p, by rw [(write_refused refused).2, ← inTransaction, staging_self], fun m => ?_⟩
      simp only [ImageCall.writtenTo, accepted, and_false, if_false, Option.none_or]
  | begin =>
    exact ⟨p, by rw [(begin_open (by rw [inTransaction]; rfl)).2, ← inTransaction, staging_self], fun m => rfl⟩
  | commit => cases stays
  | rollback => cases stays

end Calls

/-! ## Whole transactions -/

/-- A run that leaves a transaction open stages, at each block, its last accepted write or what
was staged before. -/
theorem run_of_open {d : ImageDevice} {p : Pages} (inTransaction : d.handle.pending = some p)
    (calls : List ImageCall) (stays : ∀ c ∈ calls, c.closes = false) :
    ∃ p', d.run calls = d.staging (some p') ∧
      ∀ m, p'[m]? = (lastWrite d.handle.blocks calls m).or p[m]? := by
  induction calls generalizing d p with
  | nil => exact ⟨p, by rw [← inTransaction, staging_self]; rfl, fun m => rfl⟩
  | cons c rest ih =>
    obtain ⟨p₁, step, staged₁⟩ := apply_of_open inTransaction c (stays c List.mem_cons_self)
    obtain ⟨p', rest', staged'⟩ :=
      ih (d := d.staging (some p₁)) rfl fun c' member => stays c' (List.mem_cons_of_mem c member)
    refine ⟨p', by rw [run_cons, step, rest', staging_staging], fun m => ?_⟩
    rw [staged', staged₁, lastWrite_cons, Option.or_assoc]
    rfl

theorem Sound.apply {d : ImageDevice} (sound : d.Sound) (c : ImageCall) : (d.apply c).Sound := by
  obtain ⟨name, on⟩ := sound.onImage
  cases c with
  | read n => exact sound
  | write n b =>
    by_cases accepted : n < d.handle.blocks ∧ b.size ≤ blockSize
    · cases staged : d.handle.pending with
      | none =>
        rw [apply_write_closed staged accepted.1 accepted.2]
        refine ⟨⟨name, by rw [handle_writeThrough, on]⟩, ?_, ?_, ?_⟩
        · rw [image_writeThrough d on, handle_writeThrough, ← sound.length]
          exact Nat.max_eq_left (by rw [sound.length]; exact Nat.mul_le_mul_right _ accepted.1)
        · rw [handle_writeThrough]
          exact sound.fewer
        · intro p inTransaction
          rw [handle_writeThrough, staged] at inTransaction
          cases inTransaction
      | some p =>
        rw [apply_write_open staged accepted.1 accepted.2]
        refine ⟨sound.onImage, sound.length, sound.fewer, fun q inTransaction m member => ?_⟩
        simp only [handle_staging, Option.some.injEq] at inTransaction
        subst inTransaction
        rw [Std.ExtTreeMap.mem_insert, Nat.compare_eq_eq] at member
        rcases member with rfl | old
        · exact accepted.1
        · exact sound.staged p staged m old
    · rw [(write_refused (by omega)).2]
      exact sound
  | begin =>
    cases staged : d.handle.pending with
    | none =>
      rw [apply_begin_closed staged]
      refine ⟨sound.onImage, sound.length, sound.fewer, fun q inTransaction m member => ?_⟩
      simp only [handle_staging, Option.some.injEq] at inTransaction
      subst inTransaction
      exact absurd member Std.ExtTreeMap.not_mem_empty
    | some p =>
      rw [(begin_open (by rw [staged]; rfl)).2]
      exact sound
  | commit =>
    cases staged : d.handle.pending with
    | none =>
      rw [apply_commit_closed staged]
      exact sound
    | some p =>
      obtain ⟨handle, -, length⟩ := commit_open on staged
      have inside : ∀ n ∈ p, (n + 1) * blockSize ≤ d.image.length := fun n member => by
        rw [sound.length]
        exact Nat.mul_le_mul_right _ (sound.staged p staged n member)
      refine ⟨⟨name, by rw [handle]; exact on⟩, by rw [length inside, handle]; exact sound.length,
        by rw [handle]; exact sound.fewer, fun q inTransaction => ?_⟩
      rw [handle] at inTransaction
      cases inTransaction
  | rollback =>
    rw [apply_rollback]
    exact ⟨sound.onImage, sound.length, sound.fewer, fun q inTransaction => by cases inTransaction⟩

theorem Sound.run {d : ImageDevice} (sound : d.Sound) (calls : List ImageCall) :
    (d.run calls).Sound := by
  induction calls generalizing d with
  | nil => exact sound
  | cons c rest ih => exact ih (sound.apply c)

/-- A transaction from a sound closed device: reads see its last writes over the file, the file
is unchanged, and commit writes them while rollback gives the device back. -/
theorem transaction {d : ImageDevice} (sound : d.Sound) (closed : d.handle.pending = none)
    (inside : List ImageCall) (stays : ∀ c ∈ inside, c.closes = false) :
    let t := d.run (.begin :: inside)
    (∀ n < d.handle.blocks,
      t.read n = .ok ((lastWrite d.handle.blocks inside n).getD (d.fileBlock n))) ∧
    t.reopened = d.reopened ∧
    ((t.apply .commit).handle.pending = none ∧
      ∀ m, (t.apply .commit).fileBlock m = (lastWrite d.handle.blocks inside m).getD (d.fileBlock m)) ∧
    t.apply .rollback = d := by
  intro t
  obtain ⟨name, on⟩ := sound.onImage
  obtain ⟨p, opened, staged⟩ := run_of_open (d := d.staging (some ∅)) rfl inside stays
  have same : t = d.staging (some p) := by
    show (d.apply .begin).run inside = _
    rw [apply_begin_closed closed, opened, staging_staging]
  have lastOnly : ∀ m, p[m]? = lastWrite d.handle.blocks inside m := fun m => by
    rw [staged m, blocks_staging, Std.ExtTreeMap.getElem?_empty, Option.or_none]
  refine ⟨fun n below => ?_, by rw [same, reopened_staging], ⟨?_, fun m => ?_⟩, ?_⟩
  · rw [same, read_eq (by rw [image_staging, blocks_staging]; exact sound.length), blocks_staging,
      if_neg (Nat.not_le.2 below)]
    show Except.ok ((p[n]?).getD (d.fileBlock n)) = _
    rw [lastOnly]
  · rw [same, (commit_open (d := d.staging (some p)) on rfl).1]
  · rw [same, (commit_open (d := d.staging (some p)) on rfl).2.1, lastOnly, fileBlock_staging]
    cases written : lastWrite d.handle.blocks inside m with
    | none => rfl
    | some b => rw [Option.map_some, Option.getD_some, Option.getD_some,
        fitTo_eq_self (size_of_lastWrite written)]
  · rw [same, apply_rollback, staging_staging, ← closed, staging_self]

/-- Image handles are transactional block devices: from a sound handle, after any calls, refusals
change nothing, writes outside a transaction go through, and a transaction reads its last writes,
is invisible to a second handle, and commits its last writes or rolls back to where it began. -/
theorem image_handle_is_transactional {d₀ : ImageDevice} (sound : d₀.Sound)
    (calls : List ImageCall) :
    let d := d₀.run calls
    let count := d.handle.blocks
    (∀ n, count ≤ n → ∃ e, d.read n = .error e ∧ e.kind = .invalidInput) ∧
    (∀ n b, count ≤ n ∨ blockSize < b.size →
      (∃ e, d.write n b = .error e ∧ e.kind = .invalidInput) ∧ d.apply (.write n b) = d) ∧
    (d.handle.pending.isSome → (∃ e, d.begin = .error e) ∧ d.apply .begin = d) ∧
    (∀ n < count, d.reopened.read n = .ok (d.fileBlock n)) ∧
    (d.handle.pending = none →
      (∀ n < count, d.read n = .ok (d.fileBlock n)) ∧
      (∀ n b, n < count → b.size ≤ blockSize →
        (d.apply (.write n b)).handle = d.handle ∧
        ∀ m, (d.apply (.write n b)).fileBlock m = if n = m then fitTo blockSize b else d.fileBlock m) ∧
      ∀ inside : List ImageCall, (∀ c ∈ inside, c.closes = false) →
        let t := d.run (.begin :: inside)
        (∀ n < count, t.read n = .ok ((lastWrite count inside n).getD (d.fileBlock n))) ∧
        t.reopened = d.reopened ∧
        ((t.apply .commit).handle.pending = none ∧
          ∀ m, (t.apply .commit).fileBlock m = (lastWrite count inside m).getD (d.fileBlock m)) ∧
        t.apply .rollback = d) := by
  intro d count
  have reached : d.Sound := sound.run calls
  obtain ⟨name, on⟩ := reached.onImage
  refine ⟨fun n beyond => read_beyond beyond, fun n b refused => write_refused refused,
    fun inTransaction => begin_open inTransaction, fun n below => ?_, fun closed => ⟨fun n below => ?_,
      fun n b below fits => ?_, fun inside stays => transaction reached closed inside stays⟩⟩
  · rw [reopened_read reached, if_neg (Nat.not_le.2 below)]
  · rw [read_eq reached.length, if_neg (Nat.not_le.2 below)]
    simp only [staged?, closed, Option.bind_none, Option.getD_none]
  · rw [apply_write_closed closed below fits]
    refine ⟨handle_writeThrough _ _ _, fun m => ?_⟩
    rw [fileBlock_writeThrough d on, fitTo_eq_self (size_fitTo _ _)]

/-- Every image `create` makes, of fewer than 2^32 blocks, gives a sound device. -/
theorem create_sound {fs fs' : FileStore} {path : String} {n : Nat} {h : ImageHandle}
    (created : ImageHandle.create fs path n = .ok (fs', h)) (fewer : n < 4294967296) :
    (ImageDevice.mk fs' h).Sound := by
  unfold ImageHandle.create at created
  cases resolved : fs.resolve .create path with
  | error e =>
    rw [resolved] at created
    cases created
  | ok ref =>
    rw [resolved] at created
    cases ref with
    | device => cases created
    | image name =>
      cases created
      refine ⟨⟨name, rfl⟩, ?_, fewer, fun p none' => by cases none'⟩
      simp [image, FileStore.contents, SparseFile.zeroed]

def fourBlockImage : ImageDevice :=
  { files := (∅ : FileStore).insert "disk.img" (SparseFile.zeroed (4 * blockSize)),
    handle := { backing := .image "disk.img", blocks := 4 } }

theorem fourBlockImage_transactional :
    fourBlockImage.Sound ∧
    let d := fourBlockImage.run [.begin, .write 1 (zeros 3)]
    (∀ n, d.handle.blocks ≤ n → ∃ e, d.read n = .error e ∧ e.kind = .invalidInput) := by
  have sound : fourBlockImage.Sound := by
    refine ⟨⟨"disk.img", rfl⟩, ?_, by decide, fun p inTransaction => by cases inTransaction⟩
    simp [fourBlockImage, image, FileStore.contents, SparseFile.zeroed]
  exact ⟨sound, (image_handle_is_transactional sound [.begin, .write 1 (zeros 3)]).1⟩

end ImageDevice

end InodeFs
