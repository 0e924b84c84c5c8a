import InodeFs.Store.Request

/-!
Writing a response: a status line, the content type, the body's length, a `close`
connection header, an empty line and the body.
-/

namespace InodeFs

namespace Http

/-- The bytes of a response. -/
def encodeResponse (r : Store.Response) : ByteArray :=
  let code := r.status.code
  let reason := r.status.reason
  let ct := r.contentType
  let n := r.body.size
  (s!"HTTP/1.1 {code} {reason}\r\nContent-Type: {ct}\r\nContent-Length: {n}\r\n" ++
    "Connection: close\r\n\r\n").toUTF8 ++ r.body

end Http

end InodeFs
