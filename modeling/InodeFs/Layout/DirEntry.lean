import InodeFs.Bytes.Fields
import InodeFs.Bytes.Utf8
import InodeFs.Layout.Geometry

/-!
Directory entries: 32-byte slots holding a NUL-padded name in 28 bytes and the inode number at
offset 28; the inode number `-1` marks an unused slot.
-/

namespace InodeFs

/-- A name bound to an inode inside a directory. -/
structure DirEntry where
  name : String
  inum : InodeNumber
  deriving DecidableEq, Repr

namespace DirEntry

/-- Whether a name may be stored: non-empty, at most 27 bytes and free of NUL. -/
def validName (name : String) : Bool :=
  !(name.isEmpty || name.utf8ByteSize ≥ nameField || name.contains (Char.ofNat 0))

/-- The filler written into the slots after the last entry of a directory block. -/
def unused : DirEntry := ⟨"", unusedInode⟩

def isUsed (e : DirEntry) : Bool := e.inum != unusedInode

/-- Whether the entry is `.` or `..`, which every directory holds. -/
def isDot (e : DirEntry) : Bool := e.name == "." || e.name == ".."

/-- The name cut to 27 bytes and NUL-padded to 28, then the inode number. -/
def encode (e : DirEntry) : ByteArray :=
  fitTo nameField (e.name.toUTF8.extract 0 (nameField - 1)) ++ encodeI32 e.inum

/-- The entry at the start of a buffer of at least 32 bytes; the name ends at its first NUL and
is read lossily. -/
def decode? (b : ByteArray) : Option DirEntry :=
  if b.size < entrySize then none
  else
    let field := b.extract 0 nameField
    let stop := (List.range nameField).find? (fun k => byteAt field k == 0) |>.getD nameField
    some ⟨Utf8.decodeLossy (field.extract 0 stop), decodeI32 b nameField⟩

end DirEntry

end InodeFs
