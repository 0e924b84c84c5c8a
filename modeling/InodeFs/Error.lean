/-!
Errors: those of the operating system's input and output, and those of the file system
engine, each with the text it is shown as.
-/

namespace InodeFs

inductive IoKind where
  | invalidInput
  | other
  | unexpectedEof
  | notFound
  | isADirectory
  | notADirectory
  | invalidFilename
  | permissionDenied
  | addrInUse
  | networkUnreachable
  deriving DecidableEq, Repr

structure IoError where
  kind : IoKind
  message : String
  deriving DecidableEq, Repr

namespace IoError

def noSuchFile : IoError := ⟨.notFound, "No such file or directory (os error 2)"⟩

def isADirectory : IoError := ⟨.isADirectory, "Is a directory (os error 21)"⟩

def notADirectory : IoError := ⟨.notADirectory, "Not a directory (os error 20)"⟩

def nameTooLong : IoError := ⟨.invalidFilename, "File name too long (os error 36)"⟩

def permissionDenied : IoError := ⟨.permissionDenied, "Permission denied (os error 13)"⟩

/-- An operation the opened file does not support, such as resizing a device. -/
def invalidArgument : IoError := ⟨.invalidInput, "Invalid argument (os error 22)"⟩

/-- A path holding a zero byte, which no file name can contain. -/
def zeroInName : IoError := ⟨.invalidInput, "file name contained an unexpected NUL byte"⟩

def unexpectedEof : IoError := ⟨.unexpectedEof, "failed to fill whole buffer"⟩

end IoError

inductive FsError where
  | invalidInode
  | invalidName
  | invalidType
  | invalidSize
  | notFound
  | notEnoughSpace
  | dirNotEmpty
  | unlinkNotAllowed
  | corruptedSuperBlock
  | disk (e : IoError)
  deriving DecidableEq, Repr

namespace FsError

/-- The stable negative code of each kind. -/
def code : FsError → Int
  | .invalidInode => -1
  | .invalidName => -2
  | .invalidType => -3
  | .invalidSize => -4
  | .notFound => -5
  | .notEnoughSpace => -6
  | .dirNotEmpty => -7
  | .unlinkNotAllowed => -8
  | .corruptedSuperBlock => -9
  | .disk _ => -10

def message : FsError → String
  | .invalidInode => "invalid inode"
  | .invalidName => "invalid name"
  | .invalidType => "invalid type"
  | .invalidSize => "invalid size"
  | .notFound => "entry not found"
  | .notEnoughSpace => "not enough space"
  | .dirNotEmpty => "directory not empty"
  | .unlinkNotAllowed => "unlinking not allowed"
  | .corruptedSuperBlock => "corrupted super block"
  | .disk e => "disk error: " ++ e.message

end FsError

/-- Why an engine call stopped: an error it reports, or a broken internal bound. -/
inductive Fault where
  | fs (e : FsError)
  | trap
  deriving DecidableEq, Repr

end InodeFs
