import InodeFs.Server.Config
import InodeFs.Server.Queue
import InodeFs.Store.Service
import InodeFs.Http.Request
import InodeFs.Http.Response

/-!
Serving an image over HTTP: open the file system, start the workers, bind the socket, then
answer each connection with one request and its response.
-/

namespace InodeFs

namespace Server

open Tools

/-- What the host's network allows. -/
structure Network where
  taken : List Nat := []
  loopback : Bool := true
  deriving DecidableEq, Repr

def Network.bind (net : Network) (n : Nat) : Except IoError Unit :=
  if net.taken.contains n then .error ⟨.addrInUse, "Address already in use (os error 98)"⟩
  else .ok ()

def Network.connectLocal (net : Network) : Except IoError Unit :=
  if net.loopback then .ok () else .error ⟨.networkUnreachable, "Network is unreachable (os error 101)"⟩

/-- What a worker sends back to a client that sent `input`; a body no buffer holds aborts it. -/
def answer {δ : Type} [BlockDevice δ] (input : ByteArray) (maxBody : Nat) : FsM δ ByteArray := do
  match Http.readRequest input maxBody with
  | .ok (req, _) => return Http.encodeResponse (← Store.handle req)
  | .error (.bodyUnallocatable _) => FsM.trap
  | .error e =>
    match e.status with
    | some s => return Http.encodeResponse (Store.Response.failure s)
    | none => return ByteArray.empty

/-- The bytes one queued connection takes: the handle of an open socket. -/
def connectionSlot : Nat := 4

/-- Open the file system, reserve the connection queue, then bind; failures end the server, and a
queue too large to reserve aborts it. -/
def serve (net : Network) (config : Config) : ProgramM Unit := do
  let _ ← openFilesystem config.image
  if !BoundedQueue.canReserve connectionSlot config.buffers then
    throw (.trap .capacityOverflow)
  let _ ← orFail ((net.bind config.listenOn).mapError .io)
  let image := config.image
  let listenOn := config.listenOn
  let threads := config.threads
  logLine .info "gunrock_ufs" s!"serving {image} on port {listenOn} with {threads} workers"

def serverMain (net : Network) (args : List String) : ProgramM Exit := do
  match serverCommand.parse args with
  | .error f => refuse serverCommand f
  | .ok m =>
    match Config.ofMatches m with
    | .error e =>
      eprintln e.message
      return .status 1
    | .ok config =>
      installLogger config.verbosity
      match ← attempt (serve net config) with
      | .ok _ => return .serving
      | .error e =>
        let msg := e.message
        logLine .error "gunrock_ufs" msg
        eprintln s!"An error occurred: {msg}"
        return .status 1

end Server

end InodeFs
