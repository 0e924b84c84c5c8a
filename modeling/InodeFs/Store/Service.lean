import InodeFs.Store.Request
import InodeFs.Engine.Query
import InodeFs.Engine.Create
import InodeFs.Engine.Write
import InodeFs.Engine.Unlink

/-!
The object store over the file system: `GET`, `HEAD`, `PUT` and `DELETE`, every engine error
becoming a status by the error and the request's phase.
-/

namespace InodeFs

namespace Store

inductive Phase where
  | resolve
  | create
  | write
  | unlink
  deriving DecidableEq, Repr

/-- The status an engine error becomes; want of space is `insufficient storage` only when storing. -/
def statusFor (e : FsError) (phase : Phase) : Status :=
  match e, phase with
  | .disk _, _ => .internalServerError
  | .corruptedSuperBlock, _ => .internalServerError
  | .notFound, _ => .notFound
  | .notEnoughSpace, .create => .insufficientStorage
  | .notEnoughSpace, .write => .insufficientStorage
  | .invalidSize, .write => .insufficientStorage
  | .invalidType, .create => .conflict
  | _, _ => .badRequest

abbrev StoreM (δ : Type) := ExceptT Status (FsM δ)

variable {δ : Type} [BlockDevice δ]

/-- Run an engine computation, an engine error becoming its status for the phase. -/
def orStatus {α : Type} (phase : Phase) (x : FsM δ α) : StoreM δ α := do
  match ← (FsM.attempt x : FsM δ _) with
  | .ok a => pure a
  | .error e => throw (statusFor e phase)

def success (body : ByteArray) (contentType : String) : Response :=
  { status := .ok, body, contentType }

/-- The inode a list of segments names, walking down from the root. -/
def resolve (segments : List String) : StoreM δ InodeNumber := do
  let mut inum := rootInode
  for seg in segments do
    match ← (FsM.attempt (Engine.lookup inum seg) : FsM δ _) with
    | .ok i => inum := i
    | .error e =>
      if let .disk _ := e then
        let msg := e.message
        (FsM.log .warn Target.store s!"lookup of {seg} failed: {msg}" : FsM δ Unit)
      throw (statusFor e .resolve)
  return inum

/-- A file's content, or a directory's sorted entries without `.` and `..`, one per line. -/
def getAt (segments : List String) : StoreM δ Response := do
  let inum ← resolve segments
  let inode ← orStatus .resolve (Engine.stat inum)
  if inode.kind == .regularFile then
    let content ← orStatus .resolve (Engine.read inum inode.fileSize)
    return success content (contentTypeFor (segments.getLast?.getD ""))
  let entries := Engine.sortByName (← orStatus .resolve (Engine.readDir inum))
  let mut listing := ""
  for entry in entries.filter (fun e => !e.isDot) do
    let child ← orStatus .resolve (Engine.stat entry.inum)
    listing := listing ++ entry.name ++ (if child.isDirectory then "/" else "") ++ "\n"
  return success listing.toUTF8 "text/plain"

/-- Store a file, making the leading segments directories; directories made stay on failure. -/
def putAt (segments : List String) (body : ByteArray) : StoreM δ Response := do
  let some name := segments.getLast? | throw .badRequest
  if body.size > maxFileSize then
    let n := body.size
    (FsM.log .debug Target.store s!"refusing {n} byte body for {name}" : FsM δ Unit)
    throw .insufficientStorage
  let mut parent := rootInode
  for seg in segments.dropLast do
    parent ← orStatus .create (Engine.create parent .directory seg)
  let inum ← orStatus .create (Engine.create parent .regularFile name)
  let _ ← orStatus .write (Engine.write inum body)
  return success ByteArray.empty "text/plain"

/-- Remove the entry a path names from its directory. -/
def deleteAt (segments : List String) : StoreM δ Response := do
  let some name := segments.getLast? | throw .badRequest
  let parent ← resolve segments.dropLast
  match ← (FsM.attempt (Engine.unlink parent name) : FsM δ _) with
  | .ok _ => return success ByteArray.empty "text/plain"
  | .error e =>
    if e == .dirNotEmpty then
      (FsM.log .debug Target.store s!"refusing to delete non-empty directory {name}" :
        FsM δ Unit)
    throw (statusFor e .unlink)

def handle (req : Request) : FsM δ Response := do
  let path := req.path
  match mountedSegments path with
  | none =>
    FsM.log .debug Target.store s!"{path} is outside {mountPoint}"
    return Response.failure .notFound
  | some segments =>
    let result ← ExceptT.run (match req.method with
      | .get => getAt segments
      | .head => do
        let r ← getAt segments
        return { r with body := ByteArray.empty }
      | .put => putAt segments req.body
      | .delete => deleteAt segments
      | .other m => do
        (FsM.log .debug Target.store s!"unsupported method {m}" : FsM δ Unit)
        throw .notImplemented)
    match result with
    | .ok r => return r
    | .error s => return Response.failure s

end Store

end InodeFs
