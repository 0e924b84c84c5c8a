import InodeFs.Bytes.Fields
import InodeFs.Layout.Geometry

/-!
Inodes. An inode is 128 bytes: the type code (signed 32-bit), the size in bytes (signed
32-bit on disk), then thirty unsigned 32-bit direct block pointers.
-/

namespace InodeFs

inductive FileKind where
  | directory
  | regularFile
  deriving DecidableEq, Repr

namespace FileKind

def code : FileKind → Int32
  | .directory => 0
  | .regularFile => 1

def ofCode? (c : Int32) : Option FileKind :=
  if c == 0 then some .directory
  else if c == 1 then some .regularFile
  else none

end FileKind

/-- One file or directory: its kind, its size in bytes and its direct pointers in file order. -/
structure Inode where
  kind : FileKind
  size : UInt32
  direct : Vector UInt32 30
  deriving DecidableEq, Repr

namespace Inode

def new (kind : FileKind) : Inode :=
  { kind, size := 0, direct := Vector.replicate 30 unusedBlock }

def fileSize (i : Inode) : Nat := i.size.toNat

/-- The inode with its size set to `n` bytes, kept modulo 2^32. -/
def setSize (i : Inode) (n : Nat) : Inode :=
  { i with size := UInt32.ofNat n }

def isDirectory (i : Inode) : Bool := i.kind == .directory

def blockCount (i : Inode) : Nat := blocksFor i.fileSize

def pointer? (i : Inode) (k : Nat) : Option UInt32 :=
  if h : k < directPointers then some (i.direct.get ⟨k, h⟩) else none

/-- The inode with direct pointer `k` replaced, for a `k` known to exist (the first). -/
def setPointer (i : Inode) (k : Nat) (b : UInt32) : Inode :=
  { i with direct := i.direct.setIfInBounds k b }

def setPointer? (i : Inode) (k : Nat) (b : UInt32) : Option Inode :=
  if h : k < directPointers then some { i with direct := i.direct.set k b h } else none

def blocks (i : Inode) : List UInt32 :=
  i.direct.toList.take (min i.blockCount directPointers)

def encode (i : Inode) : ByteArray :=
  concatBytes (encodeI32 i.kind.code :: encodeU32 i.size :: i.direct.toList.map encodeU32)

/-- The inode at the start of a buffer, or `none` when the buffer is short, the type code unknown,
or the size negative or past thirty blocks. -/
def decode? (b : ByteArray) : Option Inode :=
  if b.size < inodeSize then none
  else
    match FileKind.ofCode? (decodeI32 b 0) with
    | none => none
    | some kind =>
      let size := decodeI32 b 4
      if size.toInt < 0 || blocksFor size.toInt.toNat > directPointers then none
      else
        some { kind, size := size.toUInt32,
               direct := Vector.ofFn fun (k : Fin 30) => decodeU32 b (8 + 4 * k.val) }

end Inode

end InodeFs
