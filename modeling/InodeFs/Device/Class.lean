import InodeFs.Error
import InodeFs.Log

/-!
Block devices with transactions: staged writes reach the medium only at `commit`, `rollback`
drops them, and reads inside a transaction see them.
-/

namespace InodeFs

/-- Block-granular access to a device. -/
class BlockDevice (δ : Type) where
  /-- The number of blocks on the device. -/
  blockCount : δ → Nat
  /-- The contents of one block. -/
  readBlock : δ → Nat → Except IoError ByteArray
  /-- Write one block; short buffers are zero-padded. -/
  writeBlock : δ → Nat → ByteArray → Except IoError δ
  /-- Open a transaction. -/
  beginTransaction : δ → Except IoError δ
  /-- Apply the staged writes and close the transaction. -/
  commit : δ → Except IoError (δ × List Record)
  /-- Drop the staged writes and close the transaction. -/
  rollback : δ → δ × List Record

end InodeFs
