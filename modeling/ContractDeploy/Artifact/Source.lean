import ContractDeploy.World

/-!
# Where artifacts come from

A source gives the artifact of a contract by name. It may look at the files as they are at that
moment. One source keeps its artifacts in memory; another searches the directory that a build
leaves behind, in which an artifact is a file named for its contract, at any depth.
-/

namespace ContractDeploy

/-- A source of artifacts, over file systems with states in `φ`. -/
structure ArtifactSource (φ : Type) where
  /-- The artifact of a contract, as the files are now. -/
  read : φ → (name : String) → Except DeployError Artifact

namespace ArtifactSource

variable {γ φ : Type}

/-- The artifact of a contract. -/
def load (source : ArtifactSource φ) (name : String) : Run γ φ Artifact := do
  source.read (← get).files name

/-- The artifact that a text holds. -/
def ofText (text : String) : Except DeployError Artifact :=
  (Artifact.parse text).mapError fun fault => .artifactParsing (.shape fault)

/-- A source that holds the texts of its artifacts by name. -/
def inMemory (texts : NameMap String) : ArtifactSource φ where
  read _ name :=
    match texts.get? name with
    | some text => ofText text
    | none => .error (.artifactNotFound (.unknown name))

/-- The extension of the file of an artifact. -/
def fileExtension : String := "json"

/-- The name of the file of a contract's artifact. -/
def fileName (name : String) : String := name ++ "." ++ fileExtension

/-- A source that searches a directory. -/
def inDirectory (disk : Disk φ) (directory : String) : ArtifactSource φ where
  read files name :=
    match (disk.list files directory).find directory (fileName name) with
    | .error fault => .error (.artifactNotFound (.searchFailed name fault))
    | .ok none => .error (.artifactNotFound (.notBelow name directory))
    | .ok (some path) =>
      match disk.read files path with
      | .error fault => .error (.artifactParsing (.unreadable path fault))
      | .ok text => ofText text

end ArtifactSource

end ContractDeploy
