import InodeFs.Engine.Monad
import InodeFs.Device.Pages

/-!
Changesets: every block a mutating call writes, built whole before the device is touched and
written at `commit` in one transaction, in ascending order.
-/

namespace InodeFs

/-- Staged blocks by number, each a full block. -/
abbrev Changeset := Pages

namespace Changeset

variable {δ : Type} [BlockDevice δ]

/-- Replace a whole block; short buffers are zero-padded. -/
def stage (c : Changeset) (n : Nat) (b : ByteArray) : Changeset :=
  c.insert n (fitTo blockSize b)

/-- The staged contents of a block, read from the device the first time it is touched. -/
def load (c : Changeset) (n : Nat) : FsM δ (Changeset × ByteArray) := do
  match c.get? n with
  | some b => return (c, b)
  | none =>
    let b := fitTo blockSize (← FsM.readBlock n)
    return (c.insert n b, b)

/-- Patch a record into a block at an offset; running past the block is a broken bound. -/
def writeRecord (c : Changeset) (n off : Nat) (record : ByteArray) : FsM δ Changeset := do
  let (c, b) ← load c n
  let b ← FsM.expect (patchAt b off record)
  return c.insert n b

/-- Stage the blocks of a region from `start` whose contents differ between `previous` and
`updated`. -/
def stageRegionChanges (c : Changeset) (start : Nat) (previous updated : ByteArray) :
    Changeset :=
  let count := blocksFor (min previous.size updated.size)
  (List.range count).foldl (fun c k =>
    let before := previous.extract (k * blockSize) ((k + 1) * blockSize)
    let after := updated.extract (k * blockSize) ((k + 1) * blockSize)
    if before == after then c else c.stage (start + k) after) c

/-- Roll the device back after a failure inside the transaction. -/
def abandon : FsM δ Unit := do
  let (d, rs) := BlockDevice.rollback (← FsM.device)
  FsM.setDevice d
  FsM.logAll rs

/-- Write every staged block inside one transaction. Nothing happens for an empty set. -/
def commit (c : Changeset) : FsM δ Unit := do
  if c.isEmpty then return
  FsM.setDevice (← FsM.liftIo (BlockDevice.beginTransaction (← FsM.device)))
  for (n, b) in c.toList do
    match BlockDevice.writeBlock (← FsM.device) n b with
    | .ok d => FsM.setDevice d
    | .error e =>
      let msg := e.message
      FsM.log .warn Target.changeset s!"write of block {n} failed, rolling back: {msg}"
      abandon
      FsM.fail (.disk e)
  match BlockDevice.commit (← FsM.device) with
  | .ok (d, rs) =>
    FsM.setDevice d
    FsM.logAll rs
  | .error e =>
    let msg := e.message
    FsM.log .warn Target.changeset s!"commit failed, rolling back: {msg}"
    abandon
    FsM.fail (.disk e)
  let count := c.size
  FsM.log .trace Target.changeset s!"committed {count} blocks"

end Changeset

end InodeFs
