import InodeFs.Engine.Query

/-!
Walking a directory tree: every directory below a starting point, depth first, children in
name order, down to a fixed depth. A child that cannot be read is logged and skipped.
-/

namespace InodeFs

namespace Engine

variable {δ : Type} [BlockDevice δ]

/-- Directories nested deeper than this below the starting point are not listed. -/
def maxWalkDepth : Nat := 64

/-- One directory visited by a walk. -/
structure Listing where
  /-- Slash-separated path from the starting point, always ending in `/`. -/
  path : String
  inum : InodeNumber
  /-- Every entry, `.` and `..` included, sorted by name. -/
  entries : List DirEntry
  deriving DecidableEq, Repr

/-- List directory `inum` at `path`, `depth` levels down, then its subdirectories; `fuel` always
exceeds the levels left. -/
def walkFrom : Nat → InodeNumber → String → Nat → FsM δ (List Listing)
  | 0, _, _, _ => return []
  | fuel + 1, inum, path, depth => do
    let entries := sortByName (← readDir inum)
    let mut listings := [Listing.mk path inum entries]
    for child in entries.filter (fun e => !e.isDot) do
      let childName := child.name
      let childNum := showInum child.inum
      match ← FsM.attempt (stat child.inum) with
      | .error e =>
        let msg := e.message
        FsM.log .warn Target.walk s!"skipping {path}{childName} (#{childNum}): {msg}"
      | .ok inode =>
        if inode.isDirectory then
          let childPath := path ++ childName ++ "/"
          if depth + 1 > maxWalkDepth then
            FsM.log .warn Target.walk
              s!"not descending into {childPath}: deeper than {maxWalkDepth} levels"
          else
            match ← FsM.attempt (walkFrom fuel child.inum childPath (depth + 1)) with
            | .ok more => listings := listings ++ more
            | .error e =>
              let msg := e.message
              FsM.log .warn Target.walk s!"skipping {childPath}: {msg}"
    return listings

/-- Every directory from `root` down, depth first in name order. -/
def walk (root : InodeNumber) : FsM δ (List Listing) :=
  walkFrom (maxWalkDepth + 1) root "/" 0

end Engine

end InodeFs
