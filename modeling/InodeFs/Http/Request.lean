import InodeFs.Bytes.Utf8
import InodeFs.Http.Text
import InodeFs.Store.Request
import InodeFs.Units.Number
import InodeFs.Units.Allocation

/-!
Reading one HTTP/1.x request: a request line of three words, headers up to an empty line of
which only the last `Content-Length` counts, then that many bytes of body. Lines end at `\n`,
lose their trailing `\r` and `\n`, and are UTF-8 of at most 8192 bytes.
-/

namespace InodeFs

namespace Http

inductive RequestError where
  | io (e : IoError)
  /-- The stream ended before any byte of a request. -/
  | closed
  | malformed (msg : String)
  | bodyTooLarge (n : Nat)
  /-- The body is within the limit but longer than any buffer can be: reading it aborts. -/
  | bodyUnallocatable (n : Nat)
  deriving DecidableEq, Repr

namespace RequestError

def message : RequestError → String
  | .io e => "connection error: " ++ e.message
  | .closed => "connection closed before a request was read"
  | .malformed msg => "malformed request: " ++ msg
  | .bodyTooLarge n => s!"body of {n} bytes exceeds the limit"
  | .bodyUnallocatable n => s!"body of {n} bytes cannot be held in memory"

/-- The status to answer with, when the client is still worth answering. -/
def status : RequestError → Option Store.Status
  | .malformed _ => some .badRequest
  | .bodyTooLarge _ => some .insufficientStorage
  | _ => none

end RequestError

def maxLine : Nat := 8192

def maxHeaders : Nat := 100

/-- Bytes of `input` from `pos` up to and including the first `\n`, at most `limit` of them. -/
def lineSpan (input : ByteArray) (pos limit : Nat) : Nat :=
  let rec go (k : Nat) (fuel : Nat) : Nat :=
    match fuel with
    | 0 => k
    | f + 1 =>
      if pos + k < input.size then
        if byteAt input (pos + k) == 10 then k + 1 else go (k + 1) f
      else k
  go 0 limit

def stripEol (b : ByteArray) : ByteArray :=
  let rec go (n : Nat) : Nat :=
    match n with
    | 0 => 0
    | k + 1 => if byteAt b k == 10 || byteAt b k == 13 then go k else k + 1
  b.extract 0 (go b.size)

/-- The line starting at `pos` and the position after it, or `none` at the end. -/
def readLine (input : ByteArray) (pos : Nat) :
    Except RequestError (Option (String × Nat)) :=
  let n := lineSpan input pos (maxLine + 1)
  if n = 0 then .ok none
  else if n > maxLine then .error (.malformed "line too long")
  else
    match Utf8.decode? (stripEol (input.extract pos (pos + n))) with
    | some line => .ok (some (line, pos + n))
    | none => .error (.malformed "line is not UTF-8")

/-- The name and value of a header line, trimmed, split at its first `:`. -/
def splitHeader (line : String) : Option (String × String) :=
  let cs := line.toList
  match cs.idxOf? ':' with
  | some i =>
    some (Space.trim (String.ofList (cs.take i)), Space.trim (String.ofList (cs.drop (i + 1))))
  | none => none

/-- Read header lines from `pos` to the empty line, tracking the content length; `budget` is
the number of header lines still allowed. -/
def readHeaders (input : ByteArray) (pos length budget : Nat) :
    Except RequestError (Nat × Nat) := do
  match ← readLine input pos with
  | none => throw (.malformed "truncated headers")
  | some (line, next) =>
    if line.isEmpty then return (length, next)
    match budget with
    | 0 => throw (.malformed "too many headers")
    | b + 1 =>
      let some (name, value) := splitHeader line
        | throw (.malformed s!"header \"{line}\"")
      let length ← if equalsIgnoringCase name "content-length" then
          match parseInt .u64 value with
          | some v => pure v.toNat
          | none => throw (.malformed s!"content length \"{value}\"")
        else pure length
      readHeaders input next length b

/-- Read one request from the start of `input`, with bodies limited to `maxBody` bytes;
answers the request and the position after it. -/
def readRequest (input : ByteArray) (maxBody : Nat) : Except RequestError (Store.Request × Nat) := do
  let some (line, pos) ← readLine input 0 | throw .closed
  let (method, target) ← match Space.words line with
    | m :: t :: v :: _ =>
      if v.startsWith "HTTP/" then pure (m, t)
      else throw (.malformed s!"request line \"{line}\"")
    | _ => throw (.malformed s!"request line \"{line}\"")
  let (length, bodyStart) ← readHeaders input pos 0 maxHeaders
  if length > maxBody then throw (.bodyTooLarge length)
  if !Allocation.fits 1 1 length then throw (.bodyUnallocatable length)
  if bodyStart + length > input.size then throw (.io IoError.unexpectedEof)
  return ({ method := Store.Method.parse method, path := target,
            body := input.extract bodyStart (bodyStart + length) }, bodyStart + length)

end Http

end InodeFs
