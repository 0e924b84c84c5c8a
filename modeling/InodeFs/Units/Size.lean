import InodeFs.Text.Space

/-!
Byte sizes with units (`512KiB`, `1.5 MB`), read through a double and 128-bit arithmetic modulo
2^64, and rendered in the largest binary unit below them.
-/

namespace InodeFs

namespace Size

/-- The exact value of a finite positive double: `(m, e)` with the value `m * 2^e`. -/
def exactParts (x : Float) : Nat × Int :=
  let (m, e) := x.frExp
  ((m.scaleB 53).toUInt64.toNat, e - 53)

/-- The double truncated into an unsigned 128-bit integer, saturating; NaN and negatives give 0. -/
def truncU128 (x : Float) : Nat :=
  let top := Nat.pow 2 128 - 1
  if x.isNaN || x ≤ 0 then 0
  else if x.isInf then top
  else
    let (m, e) := exactParts x
    let v := if e ≥ 0 then m * Nat.pow 2 e.toNat else m / Nat.pow 2 (-e).toNat
    min v top

/-- A unit letter's decimal and binary multipliers, as powers of their bases. -/
def unitPower (c : Char) : Option Nat :=
  match c.toUpper with
  | 'K' => some 1
  | 'M' => some 2
  | 'G' => some 3
  | 'T' => some 4
  | 'P' => some 5
  | 'E' => some 6
  | 'Z' => some 7
  | _ => none

inductive SizeUnit where
  | bytes
  | decimal (power : Nat)
  | binary (power : Nat)
  deriving DecidableEq, Repr

/-- The unit the characters after the number spell, case ignored; only a binary unit written out
to its `B` may be followed by anything. -/
def readUnit (cs : List Char) : Option SizeUnit :=
  match cs.map Char.toUpper with
  | [] => some .bytes
  | ['B'] => some .bytes
  | [c] => (unitPower c).map .decimal
  | [c, 'B'] => (unitPower c).map .decimal
  | [c, 'I'] => (unitPower c).map .binary
  | c :: 'I' :: 'B' :: _ => (unitPower c).map .binary
  | _ => none

/-- The leading digits' value, read into a double digit by digit, and what follows. -/
def readWhole (v : Float) : List Char → Float × List Char
  | c :: rest => if c.isDigit then readWhole (v * 10 + (c.toNat - 48).toFloat) rest else (v, c :: rest)
  | [] => (v, [])

def readFraction (v w : Float) : List Char → Float × Float × List Char
  | c :: rest =>
    if c.isDigit then readFraction (v + (c.toNat - 48).toFloat * w) (w / 10) rest
    else (v, w, c :: rest)
  | [] => (v, w, [])

def parse (s : String) : Option Nat := do
  let cs := Space.trimChars s.toList
  let first :: rest := cs | none
  if !first.isDigit then none
  let (v, rest) := readWhole (first.toNat - 48).toFloat rest
  let (v, rest) ← match rest with
    | '.' :: more =>
      let (v, w, more) := readFraction v 0.1 more
      if (w * 10).toUInt8 == 1 then none else some (v, more)
    | _ => some (v, rest)
  let unit ← readUnit (rest.dropWhile (· == ' '))
  let n : Nat := match unit with
    | .bytes => truncU128 v
    | .decimal 1 => truncU128 (v * 1000000) / 1000
    | .decimal p => truncU128 (v * 1000000) * Nat.pow 1000 (p - 2)
    | .binary 1 => truncU128 (v * 1048576) / 1024
    | .binary p => truncU128 (v * 1048576) * Nat.pow 1024 (p - 2)
  return n % Nat.pow 2 128 % Nat.pow 2 64

def binaryUnits : List (Nat × String) :=
  [(Nat.pow 2 60, "EiB"), (Nat.pow 2 50, "PiB"), (Nat.pow 2 40, "TiB"),
    (Nat.pow 2 30, "GiB"), (Nat.pow 2 20, "MiB"), (Nat.pow 2 10, "KiB")]

/-- `m * 2^e` rounded to an integer, ties to even. -/
def roundHalfEven (m : Nat) (e : Int) : Nat :=
  if e ≥ 0 then m * Nat.pow 2 e.toNat
  else
    let d := Nat.pow 2 (-e).toNat
    let q := m / d
    let r := m % d
    if 2 * r > d then q + 1
    else if 2 * r = d then (if q % 2 = 1 then q + 1 else q)
    else q

/-- A finite non-negative double with two decimals, half to even on its exact value. -/
def showTwoDecimals (x : Float) : String :=
  let hundredths := if x ≤ 0 then 0 else
    let (m, e) := exactParts x
    roundHalfEven (m * 100) e
  let frac := hundredths % 100
  let fracText := if frac < 10 then "0" ++ toString frac else toString frac
  toString (hundredths / 100) ++ "." ++ fracText

/-- A count of bytes in the largest binary unit strictly below it, with two decimals. -/
def render (n : Nat) : String :=
  match binaryUnits.find? (fun u => n > u.1) with
  | none => toString n ++ " B"
  | some (bytes, name) =>
    let x := (UInt64.ofNat n).toFloat / (UInt64.ofNat bytes).toFloat
    showTwoDecimals x ++ " " ++ name

end Size

end InodeFs
