import InodeFs.Error

/-!
Paths to image files, resolved as the host resolves them on open: one component at a time, `.`
staying and `..` climbing, failing with the host's errors (no such file, not a directory, is a
directory, file name too long).
-/

namespace InodeFs

namespace Path

def nameMax : Nat := 255

def pathMax : Nat := 4095

inductive OpenMode where
  | existing
  /-- A file created when absent and emptied when present. -/
  | create
  deriving DecidableEq, Repr

inductive FileRef where
  | image (name : String)
  /-- A character device of the host: it holds no bytes and cannot be resized. -/
  | device
  deriving DecidableEq, Repr

/-- What a known host path outside the image directory holds. -/
inductive HostEntry where
  | directory
  | device
  deriving DecidableEq, Repr

/-- The host paths known to exist: the root, its standard directories and the devices of
`/dev`. -/
def hostEntries : List (List String × HostEntry) :=
  ([], .directory) ::
  (["bin", "boot", "dev", "etc", "home", "lib", "media", "mnt", "opt", "proc", "root", "run",
      "sbin", "srv", "sys", "tmp", "usr", "var"].map fun d => ([d], HostEntry.directory)) ++
  (["null", "zero", "full", "random", "urandom"].map fun d => (["dev", d], HostEntry.device))

def hostEntry (p : List String) : Option HostEntry :=
  hostEntries.lookup p

inductive Place where
  | images
  | outside
  | host (p : List String)
  deriving DecidableEq, Repr

/-- The directory `..` leads to; the root is its own parent. -/
def Place.up : Place → Place
  | .images => .outside
  | .outside => .outside
  | .host p => .host p.dropLast

def tooLong (c : String) : Bool := c.utf8ByteSize > nameMax

/-- What the last component `c` opens in `place`; `slash` says whether the path ends in one. -/
def lastStep (present : String → Bool) (mode : OpenMode) (slash : Bool) (place : Place)
    (c : String) : Except IoError FileRef :=
  if c == "." || c == ".." then .error IoError.isADirectory
  else
    match mode with
    | .existing =>
      if tooLong c then .error IoError.nameTooLong
      else
        match place with
        | .outside => .error IoError.noSuchFile
        | .images =>
          if !present c then .error IoError.noSuchFile
          else if slash then .error IoError.notADirectory
          else .ok (.image c)
        | .host p =>
          match hostEntry (p ++ [c]) with
          | none => .error IoError.noSuchFile
          | some .directory => .error IoError.isADirectory
          | some .device => if slash then .error IoError.notADirectory else .ok .device
    | .create =>
      if slash then .error IoError.isADirectory
      else if tooLong c then .error IoError.nameTooLong
      else
        match place with
        | .outside => .error IoError.permissionDenied
        | .images => .ok (.image c)
        | .host p =>
          match hostEntry (p ++ [c]) with
          | none => .error IoError.permissionDenied
          | some .directory => .error IoError.isADirectory
          | some .device => .ok .device

def walk (present : String → Bool) (mode : OpenMode) (slash : Bool) :
    Place → List String → Except IoError FileRef
  | _, [] => .error IoError.isADirectory
  | place, [c] => lastStep present mode slash place c
  | place, c :: rest =>
    if c == "." then walk present mode slash place rest
    else if c == ".." then walk present mode slash place.up rest
    else if tooLong c then .error IoError.nameTooLong
    else
      match place with
      | .outside => .error IoError.noSuchFile
      | .images => .error (if present c then IoError.notADirectory else IoError.noSuchFile)
      | .host p =>
        match hostEntry (p ++ [c]) with
        | none => .error IoError.noSuchFile
        | some .directory => walk present mode slash (.host (p ++ [c])) rest
        | some .device => .error IoError.notADirectory

/-- What a path opens, or why not; `present` tells which image names hold a file. -/
def resolve (present : String → Bool) (mode : OpenMode) (path : String) :
    Except IoError FileRef :=
  if path.contains (Char.ofNat 0) then .error IoError.zeroInName
  else if path.utf8ByteSize > pathMax then .error IoError.nameTooLong
  else if path.isEmpty then .error IoError.noSuchFile
  else
    let start := if path.startsWith "/" then Place.host [] else Place.images
    walk present mode (path.endsWith "/") start ((path.splitOn "/").filter (!·.isEmpty))

end Path

end InodeFs
