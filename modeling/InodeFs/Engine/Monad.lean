import InodeFs.Device.Class
import InodeFs.Layout.Geometry

/-!
The engine's computations: a call over a device and a log ends with a value or a fault, and
hands back the device and the log as they stand either way.
-/

namespace InodeFs

/-- The state an engine call runs in: the device and the records logged so far. -/
structure Session (δ : Type) where
  device : δ
  log : Array Record := #[]

abbrev FsM (δ : Type) := EStateM Fault (Session δ)

namespace FsM

variable {δ : Type} [BlockDevice δ] {α : Type}

def fail (e : FsError) : FsM δ α := throw (.fs e)

/-- Stop on a broken internal bound. -/
def trap : FsM δ α := throw .trap

/-- The value of an option, stopping on a broken bound when there is none. -/
def expect (o : Option α) : FsM δ α :=
  match o with
  | some a => pure a
  | none => trap

/-- `a - b` on machine sizes, stopping on a broken bound where it would go below zero. -/
def sub (a b : Nat) : FsM δ Nat :=
  if b ≤ a then pure (a - b) else trap

def log (level : Level) (target message : String) : FsM δ Unit :=
  modify fun s => { s with log := s.log.push ⟨level, target, message⟩ }

def logAll (rs : List Record) : FsM δ Unit :=
  modify fun s => { s with log := s.log ++ rs.toArray }

def device : FsM δ δ := do
  return (← get).device

def setDevice (d : δ) : FsM δ Unit :=
  modify fun s => { s with device := d }

def blockCount : FsM δ Nat := do
  return BlockDevice.blockCount (← device)

/-- The value of a device result, a device failure becoming a disk error. -/
def liftIo (r : Except IoError α) : FsM δ α :=
  match r with
  | .ok a => pure a
  | .error e => fail (.disk e)

def readBlock (n : Nat) : FsM δ ByteArray := do
  liftIo (BlockDevice.readBlock (← device) n)

/-- Run a computation, catching its engine error; a broken bound still stops the caller. -/
def attempt (x : FsM δ α) : FsM δ (Except FsError α) :=
  tryCatch (x.map Except.ok) fun f =>
    match f with
    | .fs e => pure (.error e)
    | .trap => throw .trap

def runOn (x : FsM δ α) (d : δ) : EStateM.Result Fault (Session δ) α :=
  x.run { device := d }

end FsM

end InodeFs
