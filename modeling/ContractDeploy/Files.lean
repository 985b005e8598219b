/-!
# Files

What the tool asks of a file system: to read and to replace a whole text, to append to one, and to
list what is below a directory. A disk is any state together with these four operations, so what is
proved of a run holds on every disk, also on one that refuses some or all writes. What is below a
directory comes as a finite listing in the order in which the disk gives it.
-/

namespace ContractDeploy

/-- Why a file operation fails. -/
inductive FileFault where
  /-- Nothing is there, or a directory on the way is missing. -/
  | notFound
  /-- Something on the way, or what was to be listed, is no directory. -/
  | notDirectory
  /-- A directory was to be read or written as a file. -/
  | isDirectory
  /-- The content is no text. -/
  | notText
  /-- Any other reason, in the words of the system. -/
  | other (reason : String)
deriving DecidableEq

/-- The sentence that names a fault. -/
def FileFault.message : FileFault → String
  | .notFound => "No such file or directory (os error 2)"
  | .notDirectory => "Not a directory (os error 20)"
  | .isDirectory => "Is a directory (os error 21)"
  | .notText => "stream did not contain valid UTF-8"
  | .other reason => reason

/-- What is in a directory and below it, one entry after the other. -/
inductive Listing where
  /-- No further entry. -/
  | done
  /-- The directory cannot be listed, or not any further. -/
  | failed (fault : FileFault)
  /-- An entry that is no directory. -/
  | leaf (name : String) (rest : Listing)
  /-- A directory with what is in it. -/
  | directory (name : String) (inside rest : Listing)

/-- A file system with states in `φ`. -/
structure Disk (φ : Type) where
  /-- The text of a file. -/
  read : φ → (path : String) → Except FileFault String
  /-- Replaces the text of a file, or makes the file. -/
  write : (path text : String) → φ → Except FileFault Unit × φ
  /-- Adds to the end of a file, or makes the file. -/
  append : (path text : String) → φ → Except FileFault Unit × φ
  /-- What is below a directory. -/
  list : φ → (path : String) → Listing

namespace Path

/-- The parts of a path between its slashes. -/
def parts (path : String) : List String := (path.toList.splitOn '/').map String.ofList

/-- Whether a path begins with a slash. -/
def isAbsolute (path : String) : Bool := path.toList.head? = some '/'

/-- Whether the last part of a path is empty, as it is if the path ends with a slash. -/
def isOpen (path : String) : Bool := (parts path).getLast? = some ""

/-- The path of a name below a directory. -/
def join (directory name : String) : String :=
  if directory = "" || isAbsolute name then name
  else if isOpen directory then directory ++ name
  else directory ++ "/" ++ name

end Path

namespace Listing

/-- The path of the entry of this name in the directory itself, if it is no directory. -/
def findHere (directory name : String) : Listing → Except FileFault (Option String)
  | .done => .ok none
  | .failed fault => .error fault
  | .leaf entry rest =>
    if entry = name then .ok (some (Path.join directory entry)) else findHere directory name rest
  | .directory _ _ rest => findHere directory name rest

/-- The path of an entry of this name in the subdirectories, each searched to its depth before the
next one. -/
def findBelow (directory name : String) : Listing → Except FileFault (Option String)
  | .done => .ok none
  | .failed fault => .error fault
  | .leaf _ rest => findBelow directory name rest
  | .directory entry inside rest => do
    let subdirectory := Path.join directory entry
    match ← findHere subdirectory name inside with
    | some path => return some path
    | none =>
      match ← findBelow subdirectory name inside with
      | some path => return some path
      | none => findBelow directory name rest

/-- The path of an entry of this name that is no directory: one in the directory itself before one
in its subdirectories. -/
def find (directory name : String) (listing : Listing) : Except FileFault (Option String) := do
  match ← findHere directory name listing with
  | some path => return some path
  | none => findBelow directory name listing

end Listing

end ContractDeploy
