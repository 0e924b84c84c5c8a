import Std.Data.ExtTreeMap
import InodeFs.Bytes.Fields
import InodeFs.Bytes.Checksum
import InodeFs.Layout.Geometry

/-!
Sparse block stores, where an absent block reads as zeros. A staging store keeps zero blocks
too, since a staged zero block hides what lies below it.
-/

namespace InodeFs

/-- Blocks by number. -/
abbrev Pages := Std.ExtTreeMap Nat ByteArray compare

namespace Pages

/-- A block of zeros. -/
def zeroBlock : ByteArray := zeros blockSize

/-- Block `n` of a committed store. -/
def read (p : Pages) (n : Nat) : ByteArray :=
  p[n]?.getD zeroBlock

/-- A committed store with block `n` replaced by `b` fitted to a block; zero blocks are dropped. -/
def store (p : Pages) (n : Nat) (b : ByteArray) : Pages :=
  let b := fitTo blockSize b
  if allZero b then p.erase n else p.insert n b

/-- A committed store with every block of `overlay` written over it, in ascending order. -/
def overlay (p : Pages) (staged : Pages) : Pages :=
  staged.foldl (fun acc n b => acc.store n b) p

/-- FNV-1a 64 over the number and contents of every non-zero block, in ascending order. -/
def fingerprint (p : Pages) : UInt64 :=
  p.foldl (fun h n b => fnvFeed (fnvFeed h (encodeU32 (UInt32.ofNat n))) b) fnvBasis

end Pages

end InodeFs
