import InodeFs.Error

/-!
Requests and responses of the object store, which serves the file system under `/ds3`: a path
below it is cut into its non-empty segments, any query ignored.
-/

namespace InodeFs

namespace Store

def mountPoint : String := "/ds3"

/-- Request methods; anything else is kept as it was written. -/
inductive Method where
  | get
  | head
  | put
  | delete
  | other (name : String)
  deriving DecidableEq, Repr

/-- The method a request line names; the match is exact and case-sensitive. -/
def Method.parse (s : String) : Method :=
  if s == "GET" then .get
  else if s == "HEAD" then .head
  else if s == "PUT" then .put
  else if s == "DELETE" then .delete
  else .other s

inductive Status where
  | ok
  | badRequest
  | notFound
  | conflict
  | internalServerError
  | notImplemented
  | insufficientStorage
  deriving DecidableEq, Repr

namespace Status

def code : Status → Nat
  | .ok => 200
  | .badRequest => 400
  | .notFound => 404
  | .conflict => 409
  | .internalServerError => 500
  | .notImplemented => 501
  | .insufficientStorage => 507

def reason : Status → String
  | .ok => "OK"
  | .badRequest => "Bad Request"
  | .notFound => "Not Found"
  | .conflict => "Conflict"
  | .internalServerError => "Internal Server Error"
  | .notImplemented => "Not Implemented"
  | .insufficientStorage => "Insufficient Storage"

def isSuccess (s : Status) : Bool := s == .ok

def ofCode? (n : Nat) : Option Status :=
  [Status.ok, .badRequest, .notFound, .conflict, .internalServerError, .notImplemented,
    .insufficientStorage].find? (·.code == n)

end Status

structure Request where
  method : Method
  path : String
  body : ByteArray

structure Response where
  status : Status
  body : ByteArray
  contentType : String

/-- The response of a failure: the reason phrase as plain text. -/
def Response.failure (s : Status) : Response :=
  { status := s, body := s.reason.toUTF8, contentType := "text/plain" }

def withoutQuery (path : String) : String :=
  String.ofList (path.toList.takeWhile (· != '?'))

def segmentsOf (cs : List Char) : List (List Char) :=
  (cs.splitOn '/').filter fun seg => !seg.isEmpty

/-- The segments of a path below the mount point, or `none` when it is not under it. -/
def mountedSegments (path : String) : Option (List String) :=
  let q := (withoutQuery path).toList
  let m := mountPoint.toList
  if q.take m.length != m then none
  else
    let rest := q.drop m.length
    if !rest.isEmpty && rest.head? != some '/' then none
    else some ((segmentsOf rest).map String.ofList)

def contentTypeFor (name : String) : String :=
  if name.endsWith ".css" then "text/css"
  else if name.endsWith ".js" then "text/javascript"
  else "text/plain"

end Store

end InodeFs
