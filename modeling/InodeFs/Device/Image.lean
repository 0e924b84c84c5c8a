import InodeFs.Device.Class
import InodeFs.Device.Pages
import InodeFs.Device.Path

/-!
Image files and the device over one of them. A handle keeps its file's name and its block count
at opening, and stages a transaction's blocks; reads outside one see the file as it stands.
-/

namespace InodeFs

/-- A file held as its length and its non-zero 4096-byte pages. -/
structure SparseFile where
  length : Nat
  pages : Pages := ∅

namespace SparseFile

def zeroed (n : Nat) : SparseFile := { length := n }

def ofBytes (b : ByteArray) : SparseFile :=
  let count := blocksFor b.size
  { length := b.size,
    pages := (List.range count).foldl (fun p k =>
      p.store k (b.extract (k * blockSize) ((k + 1) * blockSize))) ∅ }

def toBytes (f : SparseFile) : ByteArray :=
  let whole := (List.range (blocksFor f.length)).foldl (fun acc k => acc ++ f.pages.read k)
    ByteArray.empty
  whole.extract 0 f.length

/-- The 4096 bytes at block `n`, or a failure when the file ends before them. -/
def readBlock (f : SparseFile) (n : Nat) : Except IoError ByteArray :=
  if (n + 1) * blockSize ≤ f.length then .ok (f.pages.read n) else .error IoError.unexpectedEof

/-- The file with block `n` overwritten by a full block, growing it when needed. -/
def writeBlock (f : SparseFile) (n : Nat) (b : ByteArray) : SparseFile :=
  { length := max f.length ((n + 1) * blockSize), pages := f.pages.store n b }

end SparseFile

abbrev FileStore := Std.ExtTreeMap String SparseFile compare

namespace FileStore

/-- What a path opens from the directory, or why it cannot be opened. -/
def resolve (fs : FileStore) (mode : Path.OpenMode) (path : String) :
    Except IoError Path.FileRef :=
  Path.resolve fs.contains mode path

def contents (fs : FileStore) : Path.FileRef → SparseFile
  | .image name => (fs.get? name).getD (SparseFile.zeroed 0)
  | .device => SparseFile.zeroed 0

def readFile (fs : FileStore) (path : String) : Except IoError ByteArray :=
  (fs.resolve .existing path).map fun r => (fs.contents r).toBytes

/-- The directory with the file at a path replaced, creating it; writes to a device are dropped. -/
def writeFile (fs : FileStore) (path : String) (b : ByteArray) : Except IoError FileStore :=
  (fs.resolve .create path).map fun
    | .image name => fs.insert name (SparseFile.ofBytes b)
    | .device => fs

end FileStore

structure ImageHandle where
  backing : Path.FileRef
  blocks : Nat
  pending : Option Pages := none

structure ImageDevice where
  files : FileStore
  handle : ImageHandle

namespace ImageHandle

/-- A handle on an opened path, its block count the length in whole blocks as a 32-bit count. -/
def onto (fs : FileStore) (r : Path.FileRef) : ImageHandle :=
  { backing := r, blocks := ((fs.contents r).length / blockSize) % 4294967296 }

def openAt (fs : FileStore) (path : String) : Except IoError ImageHandle :=
  (fs.resolve .existing path).map (onto fs)

def reopen (fs : FileStore) (h : ImageHandle) : ImageHandle :=
  onto fs h.backing

/-- Create or truncate a zero-filled image of `n` blocks and open it; a device cannot be resized. -/
def create (fs : FileStore) (path : String) (n : Nat) :
    Except IoError (FileStore × ImageHandle) := do
  match ← fs.resolve .create path with
  | .image name =>
    return (fs.insert name (SparseFile.zeroed (n * blockSize)),
      { backing := .image name, blocks := n })
  | .device => throw IoError.invalidArgument

end ImageHandle

namespace ImageDevice

def outOfRange (n count : Nat) : IoError :=
  ⟨.invalidInput, s!"block {n} out of range, the image holds {count} blocks"⟩

def image (d : ImageDevice) : SparseFile :=
  d.files.contents d.handle.backing

/-- Block `n`: the staged copy inside a transaction, otherwise the file's bytes. -/
def read (d : ImageDevice) (n : Nat) : Except IoError ByteArray :=
  if n ≥ d.handle.blocks then .error (outOfRange n d.handle.blocks)
  else
    match d.handle.pending.bind (·[n]?) with
    | some b => .ok b
    | none => d.image.readBlock n

/-- Write block `n` to the file now, growing it when needed; a device discards it. -/
def writeThrough (d : ImageDevice) (n : Nat) (b : ByteArray) : ImageDevice :=
  match d.handle.backing with
  | .image name => { d with files := d.files.insert name (d.image.writeBlock n b) }
  | .device => d

/-- Write block `n`, zero-padded: staged in a transaction, else to the file; longer buffers are
refused. -/
def write (d : ImageDevice) (n : Nat) (b : ByteArray) : Except IoError ImageDevice :=
  if n ≥ d.handle.blocks then .error (outOfRange n d.handle.blocks)
  else if b.size > blockSize then
    .error ⟨.invalidInput, s!"{b.size} bytes do not fit in a block"⟩
  else
    let b := fitTo blockSize b
    match d.handle.pending with
    | some p => .ok { d with handle := { d.handle with pending := some (p.insert n b) } }
    | none => .ok (d.writeThrough n b)

/-- Open a transaction; a second one is refused. -/
def begin (d : ImageDevice) : Except IoError ImageDevice :=
  match d.handle.pending with
  | some _ => .error ⟨.other, "a transaction is already open"⟩
  | none => .ok { d with handle := { d.handle with pending := some ∅ } }

/-- Write the staged blocks in ascending order and close the transaction. -/
def flush (d : ImageDevice) : ImageDevice × List Record :=
  match d.handle.pending with
  | none => (d, [])
  | some p =>
    let d' := p.foldl (fun acc n b => acc.writeThrough n b)
      { d with handle := { d.handle with pending := none } }
    let count := p.size
    (d', [⟨.trace, Target.imageDevice, s!"flushed {count} blocks"⟩])

def discard (d : ImageDevice) : ImageDevice × List Record :=
  match d.handle.pending with
  | none => (d, [])
  | some p =>
    let count := p.size
    ({ d with handle := { d.handle with pending := none } },
      [⟨.trace, Target.imageDevice, s!"discarded {count} blocks"⟩])

end ImageDevice

instance : BlockDevice ImageDevice where
  blockCount d := d.handle.blocks
  readBlock := ImageDevice.read
  writeBlock := ImageDevice.write
  beginTransaction := ImageDevice.begin
  commit d := .ok d.flush
  rollback := ImageDevice.discard

end InodeFs
