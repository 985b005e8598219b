import ContractDeploy.Bytes
import ContractDeploy.Files

/-!
# File trees

A file system held in memory: the files and directories below a working directory. Paths are
followed as a system without links follows them, one component at a time, with `.` for the
directory itself and `..` for the one above; an absolute path and one that leaves the working
directory lead nowhere.
-/

namespace ContractDeploy

/-- The content of a file. -/
inductive FileContent where
  /-- A text. -/
  | text (text : String)
  /-- Bytes that spell no text. -/
  | binary (bytes : Bytes)

namespace FileContent

/-- The content that is these bytes. -/
def ofBytes (bytes : Bytes) : FileContent :=
  match Bytes.toString? bytes with
  | some spelled => .text spelled
  | none => .binary bytes

/-- The content with a text behind it. -/
def append (content : FileContent) (added : String) : FileContent :=
  match content with
  | .text old => .text (old ++ added)
  | .binary bytes => .binary (bytes ++ Bytes.ofString added)

/-- The bytes of a content. -/
def bytes : FileContent → Bytes
  | .text spelled => Bytes.ofString spelled
  | .binary bytes => bytes

/-- The text of a content. -/
def read : FileContent → Except FileFault String
  | .text content => .ok content
  | .binary _ => .error .notText

end FileContent

/-- The entries of a directory, in order. -/
inductive FileTree where
  /-- No further entry. -/
  | done
  /-- A file. -/
  | file (name : String) (content : FileContent) (rest : FileTree)
  /-- A directory with what is in it. -/
  | directory (name : String) (inside rest : FileTree)

namespace FileTree

/-- What a name stands for in a directory. -/
inductive Entry where
  /-- Nothing of this name. -/
  | absent
  /-- A file. -/
  | file (content : FileContent)
  /-- A directory. -/
  | directory (inside : FileTree)

/-- What a name stands for among these entries. -/
def lookup (name : String) : FileTree → Entry
  | .done => .absent
  | .file entry content rest => if entry = name then .file content else lookup name rest
  | .directory entry inside rest => if entry = name then .directory inside else lookup name rest

/-- The entries without those of this name. -/
def erase (name : String) : FileTree → FileTree
  | .done => .done
  | .file entry content rest =>
    if entry = name then erase name rest else .file entry content (erase name rest)
  | .directory entry inside rest =>
    if entry = name then erase name rest else .directory entry inside (erase name rest)

/-- The entries with a name set to something else, in its old place if it had one. -/
def set (name : String) (entry : Entry) : FileTree → FileTree
  | .done =>
    match entry with
    | .absent => .done
    | .file content => .file name content .done
    | .directory inside => .directory name inside .done
  | .file other content rest =>
    if other = name then
      match entry with
      | .absent => rest
      | .file content => .file name content rest
      | .directory inside => .directory name inside rest
    else .file other content (set name entry rest)
  | .directory other inside rest =>
    if other = name then
      match entry with
      | .absent => rest
      | .file content => .file name content rest
      | .directory inside => .directory name inside rest
    else .directory other inside (set name entry rest)

/-- What a list of names leads to, each in the directory that the ones before it lead to. -/
def follow (tree : FileTree) : List String → Entry
  | [] => .directory tree
  | name :: names =>
    match tree.lookup name with
    | .absent => .absent
    | .file content => if names.isEmpty then .file content else .absent
    | .directory inside => follow inside names

/-- The tree with what a list of names leads to set to something else. Nothing changes if the
directory in which the last name stands is not there. -/
def put (tree : FileTree) (entry : Entry) : List String → FileTree
  | [] => tree
  | [name] => tree.set name entry
  | name :: names =>
    match tree.lookup name with
    | .directory inside => tree.set name (.directory (inside.put entry names))
    | _ => tree

/-! ## Paths -/

/-- The names that the components of a path come to, starting from a directory below the working
one. All but the last have to lead to directories. A component that is empty or `.` stays, `..`
goes up; slashes at the end alone need no directory to be there yet. -/
def resolveFrom (tree : FileTree) (base : List String) :
    List String → Except FileFault (List String)
  | [] => .ok base
  | part :: parts =>
    match tree.follow base with
    | .absent =>
      -- Nothing is here yet, but something may be about to be put here.
      if (part :: parts).all (· = "") then .ok base else .error .notFound
    | .file _ => .error .notDirectory
    | .directory _ =>
      if part = "" || part = "." then resolveFrom tree base parts
      else if part = ".." then
        match base with
        | [] => .error .notFound
        | _ :: _ => resolveFrom tree base.dropLast parts
      else resolveFrom tree (base ++ [part]) parts

/-- The names that a path comes to. The last of them need not lead to anything. -/
def resolve (tree : FileTree) (path : String) : Except FileFault (List String) :=
  if path = "" || Path.isAbsolute path then .error .notFound
  else if path.toList.contains '\x00' then
    .error (.other "file name contained an unexpected NUL byte")
  else resolveFrom tree [] (Path.parts path)

/-- What a path leads to. -/
def entryAt (tree : FileTree) (path : String) : Except FileFault Entry :=
  (tree.resolve path).map tree.follow

/-! ## Operations -/

/-- The text of the file at a path. -/
def read (tree : FileTree) (path : String) : Except FileFault String :=
  match tree.entryAt path with
  | .error fault => .error fault
  | .ok .absent => .error .notFound
  | .ok (.file content) => content.read
  | .ok (.directory _) => .error .isDirectory

/-- Sets the file at a path to what its old content, if any, becomes. -/
def modify (change : Option FileContent → FileContent) (path : String) (tree : FileTree) :
    Except FileFault Unit × FileTree :=
  match tree.resolve path with
  | .error fault => (.error fault, tree)
  | .ok names =>
    match tree.follow names with
    | .directory _ => (.error .isDirectory, tree)
    | .file content => (.ok (), tree.put (.file (change (some content))) names)
    | .absent =>
      if Path.isOpen path then (.error .isDirectory, tree)
      else (.ok (), tree.put (.file (change none)) names)

/-- Replaces the text of the file at a path. -/
def write (path text : String) (tree : FileTree) : Except FileFault Unit × FileTree :=
  tree.modify (fun _ => .text text) path

/-- Adds to the end of the file at a path. -/
def append (path text : String) (tree : FileTree) : Except FileFault Unit × FileTree :=
  tree.modify (fun content => (content.getD (.text "")).append text) path

/-- What is in a tree, as a listing. -/
def listing : FileTree → Listing
  | .done => .done
  | .file name _ rest => .leaf name rest.listing
  | .directory name inside rest => .directory name inside.listing rest.listing

/-- What is below the directory at a path. -/
def list (tree : FileTree) (path : String) : Listing :=
  match tree.entryAt path with
  | .error fault => .failed fault
  | .ok .absent => .failed .notFound
  | .ok (.file _) => .failed .notDirectory
  | .ok (.directory inside) => inside.listing

/-- A file tree as a disk. -/
def disk : Disk FileTree where
  read := read
  write := write
  append := append
  list := list

/-! ## Laying out -/

/-- The tree with all the directories that a list of names goes through. -/
def makeDirectories (tree : FileTree) : List String → FileTree
  | [] => tree
  | name :: names =>
    match tree.lookup name with
    | .directory inside => tree.set name (.directory (inside.makeDirectories names))
    | _ => tree.set name (.directory (FileTree.done.makeDirectories names))

/-- The names of a path, without regard to what is there. -/
def plainNames (path : String) : List String :=
  (Path.parts path).filter fun part => part ≠ "" && part ≠ "."

/-- The tree with a file at a path, and with the directories on the way to it. -/
def place (path : String) (content : FileContent) (tree : FileTree) : FileTree :=
  let names := plainNames path
  (tree.makeDirectories names.dropLast).put (.file content) names

/-- The tree with a directory at a path, and with those on the way to it. -/
def placeDirectory (path : String) (tree : FileTree) : FileTree :=
  tree.makeDirectories (plainNames path)

/-- The tree without what is at a path. -/
def remove (path : String) (tree : FileTree) : FileTree := tree.put .absent (plainNames path)

/-- The files of a tree with their paths, behind the path of the tree itself. -/
def files (base : String) : FileTree → List (String × FileContent)
  | .done => []
  | .file name content rest => (Path.join base name, content) :: rest.files base
  | .directory name inside rest => inside.files (Path.join base name) ++ rest.files base

/-- The files that are new, or not what they were before, with their paths. -/
def changedSince (before after : FileTree) : List (String × FileContent) :=
  (after.files "").filter fun (path, content) =>
    match (before.files "").find? fun entry => entry.1 = path with
    | some (_, old) => old.bytes ≠ content.bytes
    | none => true

end FileTree

end ContractDeploy
