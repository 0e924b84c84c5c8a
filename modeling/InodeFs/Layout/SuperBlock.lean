import InodeFs.Bytes.Fields
import InodeFs.Layout.Geometry

/-!
The super block: ten signed 32-bit fields at the start of block 0 giving where each region
starts, how long it is, and how many inodes and data blocks there are.
-/

namespace InodeFs

structure SuperBlock where
  inodeBitmapAddr : Int32
  inodeBitmapLen : Int32
  dataBitmapAddr : Int32
  dataBitmapLen : Int32
  inodeRegionAddr : Int32
  inodeRegionLen : Int32
  dataRegionAddr : Int32
  dataRegionLen : Int32
  numInodes : Int32
  numData : Int32
  deriving DecidableEq, Repr

namespace SuperBlock

def size : Nat := 40

def fields (sb : SuperBlock) : List Int32 :=
  [sb.inodeBitmapAddr, sb.inodeBitmapLen, sb.dataBitmapAddr, sb.dataBitmapLen,
    sb.inodeRegionAddr, sb.inodeRegionLen, sb.dataRegionAddr, sb.dataRegionLen,
    sb.numInodes, sb.numData]

/-- The super block with the ten fields in on-disk order (missing ones are zero). -/
def ofFields (xs : List Int32) : SuperBlock where
  inodeBitmapAddr := xs.getD 0 0
  inodeBitmapLen := xs.getD 1 0
  dataBitmapAddr := xs.getD 2 0
  dataBitmapLen := xs.getD 3 0
  inodeRegionAddr := xs.getD 4 0
  inodeRegionLen := xs.getD 5 0
  dataRegionAddr := xs.getD 6 0
  dataRegionLen := xs.getD 7 0
  numInodes := xs.getD 8 0
  numData := xs.getD 9 0

/-- `n / d` rounded up, in 32-bit arithmetic. -/
def ceilDiv (n d : UInt32) : UInt32 :=
  n / d + (if n % d != 0 then 1 else 0)

/-- The layout for `ni` inodes and `nd` data blocks, regions following each other from block 1;
fields wrap modulo 2^32. -/
def withCapacity (ni nd : UInt32) : SuperBlock :=
  let ibmLen := ceilDiv ni (UInt32.ofNat bitsPerBlock)
  let dbmLen := ceilDiv nd (UInt32.ofNat bitsPerBlock)
  let irLen := ceilDiv ni (UInt32.ofNat inodesPerBlock)
  let ibmAddr : UInt32 := 1
  let dbmAddr := ibmAddr + ibmLen
  let irAddr := dbmAddr + dbmLen
  let drAddr := irAddr + irLen
  { inodeBitmapAddr := ibmAddr.toInt32, inodeBitmapLen := ibmLen.toInt32,
    dataBitmapAddr := dbmAddr.toInt32, dataBitmapLen := dbmLen.toInt32,
    inodeRegionAddr := irAddr.toInt32, inodeRegionLen := irLen.toInt32,
    dataRegionAddr := drAddr.toInt32, dataRegionLen := nd.toInt32,
    numInodes := ni.toInt32, numData := nd.toInt32 }

/-- The end of the data region, clamped to an unsigned 32-bit word. -/
def totalBlocks (sb : SuperBlock) : Nat :=
  let e := sb.dataRegionAddr.toInt + sb.dataRegionLen.toInt
  (max 0 (min e 4294967295)).toNat

def regions (sb : SuperBlock) : List (Int × Int) :=
  [(sb.inodeBitmapAddr.toInt, sb.inodeBitmapLen.toInt),
    (sb.dataBitmapAddr.toInt, sb.dataBitmapLen.toInt),
    (sb.inodeRegionAddr.toInt, sb.inodeRegionLen.toInt),
    (sb.dataRegionAddr.toInt, sb.dataRegionLen.toInt)]

def regionsOrdered : List (Int × Int) → Bool
  | a :: b :: rest => a.1 + a.2 ≤ b.1 && regionsOrdered (b :: rest)
  | _ => true

/-- A usable layout: no negative field, an inode, regions in order after block 0, each large
enough for its counts. -/
def isConsistent (sb : SuperBlock) : Bool :=
  sb.fields.all (fun f => 0 ≤ f.toInt) && sb.numInodes.toInt != 0 &&
    1 ≤ sb.inodeBitmapAddr.toInt && regionsOrdered sb.regions &&
    sb.inodeBitmapLen.toInt * bitsPerBlock ≥ sb.numInodes.toInt &&
    sb.dataBitmapLen.toInt * bitsPerBlock ≥ sb.numData.toInt &&
    sb.inodeRegionLen.toInt * inodesPerBlock ≥ sb.numInodes.toInt &&
    sb.dataRegionLen.toInt ≥ sb.numData.toInt

def encode (sb : SuperBlock) : ByteArray :=
  concatBytes (sb.fields.map encodeI32)

def decode? (b : ByteArray) : Option SuperBlock :=
  if b.size < size then none
  else some (ofFields ((List.range 10).map fun k => decodeI32 b (4 * k)))

end SuperBlock

end InodeFs
