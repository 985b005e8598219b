import ContractDeploy.World

/-!
# The journal of transactions

What a run sends is told and, if there is a directory for it, also added to a file of the day, each
line behind the moment at which it was written. A journal that cannot be written is told and
otherwise passed over.
-/

namespace ContractDeploy

/-- Where calls are recorded. -/
structure Journal where
  /-- The directory of the daily files, if they are kept. -/
  directory : Option String
deriving DecidableEq

namespace Journal

/-- What the name of a daily file begins with. -/
def fileStart : String := "tx-"

/-- The extension of a daily file. -/
def fileExtension : String := "log"

/-- The path of the file of the day of a moment. -/
def path (directory : String) (now : Instant) : String :=
  Path.join directory (fileStart ++ now.day ++ "." ++ fileExtension)

/-- A line as it stands in the file. -/
def entryLine (now : Instant) (line : String) : String := "[" ++ now.stamp ++ "] " ++ line ++ "\n"

/-- Lines as they stand in the file. -/
def entryText (now : Instant) (lines : List String) : String :=
  String.join (lines.map (entryLine now))

variable {γ φ : Type} (host : Host γ φ)

/-- Adds lines to the file of the day. -/
def keep (directory : String) (now : Instant) (lines : List String) : Act γ φ Unit := do
  let path := path directory now
  match ← host.appendFile path (entryText now lines) with
  | .ok () => return
  | .error fault => Act.tell (.journalNotWritten path fault)

/-- Tells lines and keeps them. -/
def record (journal : Journal) (lines : List String) : Act γ φ Unit := do
  let now ← host.now
  Act.tellAll (lines.map .line)
  match journal.directory with
  | none => return
  | some directory => keep host directory now lines

end Journal

end ContractDeploy
