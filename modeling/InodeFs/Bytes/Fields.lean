/-!
Little-endian 32-bit fields and buffer surgery. Reads past the end see zeros; the decoders
check lengths first.
-/

namespace InodeFs

/-- The byte at `i`, or zero past the end of the buffer. -/
def byteAt (b : ByteArray) (i : Nat) : UInt8 :=
  if h : i < b.size then b[i] else 0

def zeros (n : Nat) : ByteArray :=
  ⟨Array.replicate n 0⟩

def encodeU32 (x : UInt32) : ByteArray :=
  ⟨#[x.toUInt8, (x >>> 8).toUInt8, (x >>> 16).toUInt8, (x >>> 24).toUInt8]⟩

/-- The 32-bit word stored least significant byte first at offset `off`. -/
def decodeU32 (b : ByteArray) (off : Nat) : UInt32 :=
  (byteAt b off).toUInt32 |||
    ((byteAt b (off + 1)).toUInt32 <<< 8) |||
    ((byteAt b (off + 2)).toUInt32 <<< 16) |||
    ((byteAt b (off + 3)).toUInt32 <<< 24)

def encodeI32 (x : Int32) : ByteArray :=
  encodeU32 x.toUInt32

def decodeI32 (b : ByteArray) (off : Nat) : Int32 :=
  (decodeU32 b off).toInt32

def concatBytes (parts : List ByteArray) : ByteArray :=
  parts.foldl (· ++ ·) ByteArray.empty

/-- The buffer cut or zero-extended to exactly `n` bytes. -/
def fitTo (n : Nat) (b : ByteArray) : ByteArray :=
  if b.size < n then b ++ zeros (n - b.size) else b.extract 0 n

/-- `dst` with `src` copied in at `off`, or `none` when it would run past the end. -/
def patchAt (dst : ByteArray) (off : Nat) (src : ByteArray) : Option ByteArray :=
  if off + src.size ≤ dst.size then
    some (dst.extract 0 off ++ src ++ dst.extract (off + src.size) dst.size)
  else
    none

/-- The `n` bytes of `b` from offset `off`, or `none` when they run past its end. -/
def slice? (b : ByteArray) (off n : Nat) : Option ByteArray :=
  if off + n ≤ b.size then some (b.extract off (off + n)) else none

def allZero (b : ByteArray) : Bool :=
  b.data.all (· == 0)

def trimZeros (b : ByteArray) : ByteArray :=
  let rec go (n : Nat) : Nat :=
    match n with
    | 0 => 0
    | k + 1 => if byteAt b k == 0 then go k else k + 1
  b.extract 0 (go b.size)

/-- `n` bytes repeating `pattern` cyclically; empty when the pattern is. -/
def cycleBytes (pattern : ByteArray) (n : Nat) : ByteArray :=
  if pattern.size = 0 then ByteArray.empty
  else ⟨(Array.range n).map fun i => byteAt pattern (i % pattern.size)⟩

end InodeFs
