import InodeFs.Device.Class
import InodeFs.Device.Pages

/-!
An in-memory transactional device over a sparse store, with failures that can be injected into
the writes or reads of one block and into every commit.
-/

namespace InodeFs

/-- An in-memory device of `size` blocks. -/
structure MemoryDevice where
  size : Nat
  committed : Pages := ∅
  pending : Option Pages := none
  failWrites : Option Nat := none
  failReads : Option Nat := none
  failCommit : Bool := false

namespace MemoryDevice

def zeroed (n : Nat) : MemoryDevice := { size := n }

def outOfRange (n : Nat) : IoError := ⟨.invalidInput, s!"block {n} out of range"⟩

/-- Block `n` as a read sees it: the staged copy if there is one, else the committed one. -/
def read (d : MemoryDevice) (n : Nat) : Except IoError ByteArray :=
  if n ≥ d.size then .error (outOfRange n)
  else if d.failReads = some n then .error ⟨.other, "injected read failure"⟩
  else
    match d.pending.bind (·[n]?) with
    | some b => .ok b
    | none => .ok (d.committed.read n)

/-- Write block `n`: staged inside a transaction, committed directly outside one. -/
def write (d : MemoryDevice) (n : Nat) (b : ByteArray) : Except IoError MemoryDevice :=
  if n ≥ d.size then .error (outOfRange n)
  else if d.failWrites = some n then .error ⟨.other, "injected write failure"⟩
  else
    let b := fitTo blockSize b
    match d.pending with
    | some p => .ok { d with pending := some (p.insert n b) }
    | none => .ok { d with committed := d.committed.store n b }

/-- Open a transaction, dropping any staged writes. -/
def begin (d : MemoryDevice) : MemoryDevice :=
  { d with pending := some ∅ }

/-- Fold the staged writes into the committed store and close the transaction. -/
def commitStaged (d : MemoryDevice) : Except IoError MemoryDevice :=
  if d.failCommit then .error ⟨.other, "injected commit failure"⟩
  else
    match d.pending with
    | some p => .ok { d with committed := d.committed.overlay p, pending := none }
    | none => .ok d

/-- Drop the staged writes and close the transaction. -/
def drop (d : MemoryDevice) : MemoryDevice :=
  { d with pending := none }

/-- Overwrite `data` into block `n` at offset `off`, bypassing transactions; `none` past the
block or the device. -/
def poke (d : MemoryDevice) (n off : Nat) (data : ByteArray) : Option MemoryDevice :=
  if n ≥ d.size then none
  else
    match patchAt (d.committed.read n) off data with
    | some b => some { d with committed := d.committed.store n b }
    | none => none

def peek (d : MemoryDevice) (n : Nat) : Option ByteArray :=
  if n < d.size then some (d.committed.read n) else none

def fingerprint (d : MemoryDevice) : UInt64 :=
  d.committed.fingerprint

end MemoryDevice

instance : BlockDevice MemoryDevice where
  blockCount d := d.size
  readBlock := MemoryDevice.read
  writeBlock := MemoryDevice.write
  beginTransaction d := .ok d.begin
  commit d := (MemoryDevice.commitStaged d).map fun d => (d, [])
  rollback d := (d.drop, [])

end InodeFs
