import InodeFs.Bytes.Fields

/-!
Allocation bitmaps: bit `i` lives in byte `i / 8` at position `i % 8`, least significant first.
The single-bit operations answer `none` at or past `8 * size`.
-/

namespace InodeFs.Bitmap

def bitOf (x : UInt8) (i : Nat) : Bool :=
  (x >>> i.toUInt8) &&& 1 == 1

def get? (bm : ByteArray) (i : Nat) : Option Bool :=
  if h : i / 8 < bm.size then some (bitOf bm[i / 8] (i % 8)) else none

def set? (bm : ByteArray) (i : Nat) : Option ByteArray :=
  if h : i / 8 < bm.size then
    some (bm.set (i / 8) (bm[i / 8] ||| ((1 : UInt8) <<< (i % 8).toUInt8)))
  else none

def clear? (bm : ByteArray) (i : Nat) : Option ByteArray :=
  if h : i / 8 < bm.size then
    some (bm.set (i / 8) (bm[i / 8] &&& ~~~((1 : UInt8) <<< (i % 8).toUInt8)))
  else none

/-- Whether bit `i` is set; bits past the end read as clear. -/
def test (bm : ByteArray) (i : Nat) : Bool :=
  (get? bm i).getD false

def width (bm : ByteArray) : Nat := bm.size * 8

/-- The bits below `n` that count: `n` cut down to the bitmap's width. -/
def limit (bm : ByteArray) (n : Nat) : Nat := min n (width bm)

/-- `acc` plus the clear bits among bits `i .. i + k - 1`. -/
def countClearFrom (bm : ByteArray) (i acc : Nat) : Nat → Nat
  | 0 => acc
  | k + 1 => countClearFrom bm (i + 1) (if test bm i then acc else acc + 1) k

def zeroCount (x : UInt8) : Nat :=
  8 - x.toBitVec.cpop.toNat

/-- The clear bits among the first `n` (cut to the width), counted by whole bytes, then bit by
bit. -/
def countFree (bm : ByteArray) (n : Nat) : Nat :=
  let total := limit bm n
  let fullBytes := total / 8
  let whole := (List.range fullBytes).foldl (fun acc k => acc + zeroCount (byteAt bm k)) 0
  countClearFrom bm (fullBytes * 8) whole (total - fullBytes * 8)

def trailingOnes (x : UInt8) : Nat :=
  let rec go : Nat → Nat
    | 0 => 8
    | k + 1 => if bitOf x (8 - (k + 1)) then go k else 8 - (k + 1)
  go 8

/-- The first byte from `i` that is not full gives its lowest clear bit, when below `total`;
the search looks no further. -/
def firstFreeFrom (bm : ByteArray) (total : Nat) (i : Nat) : Option Nat :=
  if h : i < bm.size then
    if bm[i] == 0xFF then firstFreeFrom bm total (i + 1)
    else
      let index := i * 8 + trailingOnes bm[i]
      if index ≥ total then none else some index
  else none
termination_by bm.size - i

/-- The lowest clear bit below `n`, found byte by byte. -/
def firstFree (bm : ByteArray) (n : Nat) : Option Nat :=
  firstFreeFrom bm (limit bm n) 0

end InodeFs.Bitmap
