/-!
The fixed geometry: 4096-byte blocks, the super block at block 0, then the inode bitmap, the
data bitmap, the inode region and the data region.
-/

namespace InodeFs

def blockSize : Nat := 4096

def directPointers : Nat := 30

/-- The largest file or directory an inode can describe. -/
def maxFileSize : Nat := directPointers * blockSize

/-- Width of a directory entry's name field, terminator included. -/
def nameField : Nat := 28

def bitsPerBlock : Nat := blockSize * 8

def inodeSize : Nat := 128

def entrySize : Nat := 32

def inodesPerBlock : Nat := blockSize / inodeSize

abbrev InodeNumber := Int32

def rootInode : InodeNumber := 0

/-- The inode number of an unused directory slot. -/
def unusedInode : InodeNumber := -1

/-- The pointer value of a direct slot that names no block. -/
def unusedBlock : UInt32 := 0xFFFFFFFF

def blocksFor (size : Nat) : Nat :=
  (size + blockSize - 1) / blockSize

end InodeFs
