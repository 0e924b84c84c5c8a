import InodeFs.Tools.Programs
import InodeFs.Engine.Format

/-!
A directory of image files with at most one image open as a device, used directly, as a file
system or through the object store.
-/

namespace InodeFs

/-- A directory of image files and the handle of the open image, if any. -/
structure Workspace where
  files : FileStore := ∅
  handle : Option ImageHandle := none

namespace Workspace

def device? (w : Workspace) : Option ImageDevice :=
  w.handle.map fun h => { files := w.files, handle := h }

def ofDevice (d : ImageDevice) : Workspace :=
  { files := d.files, handle := some d.handle }

def putFile (w : Workspace) (path : String) (b : ByteArray) : Except IoError Workspace :=
  (FileStore.writeFile w.files path b).map fun files => { w with files }

def getFile (w : Workspace) (path : String) : Except IoError ByteArray :=
  FileStore.readFile w.files path

def createImage (w : Workspace) (path : String) (n : Nat) : Except IoError Workspace :=
  (ImageHandle.create w.files path n).map fun (files, h) => { files, handle := some h }

def openImage (w : Workspace) (path : String) : Except IoError Workspace :=
  (ImageHandle.openAt w.files path).map fun h => { w with handle := some h }

/-- Open an image as a file system: it must hold a valid super block. -/
def openFilesystem (w : Workspace) (path : String) : Except Tools.Halt Workspace :=
  let (r, console) := ((Tools.openFilesystem path).run).run { files := w.files, stamp := "" }
  r.map fun d => ofDevice { d with files := console.files }

def close (w : Workspace) : Workspace := { w with handle := none }

/-- Run an engine call on the open device `d`, keeping the device as the call left it. -/
def runEngine {α : Type} (d : ImageDevice) (x : FsM ImageDevice α) :
    Except Fault α × Workspace :=
  match x.runOn d with
  | .ok a s => (.ok a, ofDevice s.device)
  | .error f s => (.error f, ofDevice s.device)

/-- Format through a second handle on the same file, which becomes the open device on success. -/
def format (w : Workspace) (d : ImageDevice) (ni nd : Nat) : Except Fault Unit × Workspace :=
  let h := ImageHandle.reopen w.files d.handle
  match (Engine.formatDevice ni nd).runOn { files := w.files, handle := h } with
  | .ok _ s => (.ok (), ofDevice s.device)
  | .error f _ => (.error f, w)

def runProgram (w : Workspace) (main : List String → Tools.ProgramM Tools.Exit)
    (args : List String) (stamp : String) : Tools.RunResult × Workspace :=
  let r := Tools.runProgram main args w.files stamp
  (r, { w with files := r.files })

/-- Start the server: its command line's outcome, the way it stops, or `none` when it serves. -/
def serve (w : Workspace) (net : Server.Network) (args : List String) :
    Except Cli.Failure (Option Tools.Halt) × Workspace :=
  match Server.serverCommand.parse args with
  | .error f => (.error f, w)
  | .ok m =>
    match Server.Config.ofMatches m with
    | .error e => (.ok (some (.tool e)), w)
    | .ok config =>
      let (r, console) := ((Server.serve net config).run).run { files := w.files, stamp := "" }
      let w := { w with files := console.files }
      match r with
      | .ok _ => (.ok none, w)
      | .error h => (.ok (some h), w)

/-- Send `input` to the object store over one connection; without loopback the device is lost. -/
def exchange (w : Workspace) (d : ImageDevice) (net : Server.Network) (input : ByteArray)
    (maxBody : Nat) : Except Fault (Except IoError ByteArray) × Workspace :=
  match net.connectLocal with
  | .error e => (.ok (.error e), w.close)
  | .ok () =>
    match (Server.answer input maxBody).runOn d with
    | .ok out s => (.ok (.ok out), ofDevice s.device)
    | .error f s => (.error f, ofDevice s.device)

end Workspace

end InodeFs
