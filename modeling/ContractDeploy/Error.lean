import ContractDeploy.Abi.Calldata
import ContractDeploy.Artifact.Link
import ContractDeploy.Files
import ContractDeploy.Record.Form

/-!
# Errors of a deployment

The twelve kinds of failure, each with its causes. The text of an error is the heading of its kind
and the sentence of its cause. One kind does not end a run: when the address book cannot be
written, what is in memory stays in force.
-/

namespace ContractDeploy

/-- The kinds of failure. -/
inductive ErrorKind where
  /-- The address book is no address book. -/
  | malformedBook
  /-- The address book cannot be read. -/
  | readBook
  /-- The address book cannot be written. -/
  | writeBook
  /-- The sender is not connected. -/
  | notConnected
  /-- A contract that is needed is not deployed. -/
  | missingDeployment
  /-- There is no artifact of a contract. -/
  | artifactNotFound
  /-- An artifact cannot be read. -/
  | artifactParsing
  /-- Bytecode cannot be linked. -/
  | linking
  /-- Arguments make no call. -/
  | calldata
  /-- A transaction was refused or reverted. -/
  | submission
  /-- The chain cannot be read. -/
  | query
  /-- No sender can be set up. -/
  | connection
deriving DecidableEq

namespace ErrorKind

/-- What the text of an error of this kind begins with. -/
def heading : ErrorKind → String
  | malformedBook => "malformed address book: "
  | readBook => "error reading address book: "
  | writeBook => "error writing address book: "
  | notConnected => "sender has no provider: "
  | missingDeployment => "contract not deployed: "
  | artifactNotFound => "artifact not found: "
  | artifactParsing => "error parsing artifact: "
  | linking => "error linking libraries: "
  | calldata => "error constructing calldata: "
  | submission => "transaction failed: "
  | query => "error querying chain: "
  | connection => "error initializing client: "

/-- Whether a failure of this kind ends the run. -/
def isFatal : ErrorKind → Bool
  | writeBook => false
  | _ => true

/-- The text of an error of this kind with these details. -/
def describe (kind : ErrorKind) (details : String) : String := kind.heading ++ details

end ErrorKind

/-- Why there is no artifact of a contract. -/
inductive MissingArtifact where
  /-- Nothing of this name is known. -/
  | unknown (name : String)
  /-- The search for it failed. -/
  | searchFailed (name : String) (fault : FileFault)
  /-- The search found nothing below the directory. -/
  | notBelow (name directory : String)
  /-- The admin's interface is needed to send the accept call, but was not loaded. -/
  | adminNotLoaded (name : String)
deriving DecidableEq

/-- The sentence that names the cause. -/
def MissingArtifact.message : MissingArtifact → String
  | unknown name => name
  | searchFailed name fault => name ++ ": " ++ fault.message
  | notBelow name directory => name ++ " in " ++ directory
  | adminNotLoaded name => name ++ " was not loaded for a manual accept"

/-- Why an artifact cannot be read. -/
inductive ArtifactFault where
  /-- Its file cannot be read. -/
  | unreadable (path : String) (fault : FileFault)
  /-- Its document has the wrong shape. -/
  | shape (fault : Json.Fault)
  /-- Its bytecode is not hexadecimal. -/
  | hex (fault : Hex.Fault)
deriving DecidableEq

/-- The sentence that names the cause. -/
def ArtifactFault.message : ArtifactFault → String
  | unreadable path fault => path ++ ": " ++ fault.message
  | shape fault => fault.message
  | hex fault => fault.message

/-- Why a transaction failed. -/
inductive SubmissionFault where
  /-- The node refused it, in its own words. -/
  | refused (reason : String)
  /-- It was included and reverted. -/
  | reverted (contract function : String) (hash : Hash)
deriving DecidableEq

/-- The sentence that names the cause. -/
def SubmissionFault.message : SubmissionFault → String
  | refused reason => reason
  | reverted contract function hash => contract ++ "." ++ function ++ " reverted in " ++ hash.hex

/-- Why the chain could not be read. -/
inductive QueryFault where
  /-- The node failed, in its own words. -/
  | unavailable (reason : String)
  /-- The receipt of a creation names no contract. -/
  | noContractAddress (hash : Hash)
deriving DecidableEq

/-- The sentence that names the cause. -/
def QueryFault.message : QueryFault → String
  | unavailable reason => reason
  | noContractAddress hash => "receipt of " ++ hash.hex ++ " has no contract address"

/-- Why no sender can be set up. -/
inductive ConnectionFault where
  /-- The private key is no private key. -/
  | badKey
  /-- The address of the node is no address. -/
  | badUrl
  /-- The node does not answer, in its own words. -/
  | unreachable (reason : String)
deriving DecidableEq

/-- The sentence that names the cause. -/
def ConnectionFault.message : ConnectionFault → String
  | badKey => "invalid private key"
  | badUrl => "invalid URL"
  | unreachable reason => ErrorKind.query.describe reason

/-- A failure with its cause. -/
inductive DeployError where
  /-- The address book is no address book. -/
  | malformedBook (fault : RegistryFault)
  /-- The address book cannot be read. -/
  | readBook (file : String) (fault : FileFault)
  /-- The address book cannot be written. -/
  | writeBook (file : String) (fault : FileFault)
  /-- The sender is not connected. -/
  | notConnected (sender : Address)
  /-- A contract that is needed is not deployed. -/
  | missingDeployment (contract : String)
  /-- There is no artifact of a contract. -/
  | artifactNotFound (cause : MissingArtifact)
  /-- An artifact cannot be read. -/
  | artifactParsing (fault : ArtifactFault)
  /-- Bytecode cannot be linked. -/
  | linking (fault : LinkFault)
  /-- Arguments make no call. -/
  | calldata (fault : CalldataFault)
  /-- A transaction was refused or reverted. -/
  | submission (fault : SubmissionFault)
  /-- The chain cannot be read. -/
  | query (fault : QueryFault)
  /-- No sender can be set up. -/
  | connection (fault : ConnectionFault)
deriving DecidableEq

namespace DeployError

/-- The kind of a failure. -/
def kind : DeployError → ErrorKind
  | malformedBook _ => .malformedBook
  | readBook _ _ => .readBook
  | writeBook _ _ => .writeBook
  | notConnected _ => .notConnected
  | missingDeployment _ => .missingDeployment
  | artifactNotFound _ => .artifactNotFound
  | artifactParsing _ => .artifactParsing
  | linking _ => .linking
  | calldata _ => .calldata
  | submission _ => .submission
  | query _ => .query
  | connection _ => .connection

/-- The sentence that names the cause of a failure. -/
def details : DeployError → String
  | malformedBook fault => fault.message
  | readBook file fault => file ++ ": " ++ fault.message
  | writeBook file fault => file ++ ": " ++ fault.message
  | notConnected sender => "sender " ++ sender.hex ++ " must be connected to a provider"
  | missingDeployment contract =>
    contract ++ " not detected in the address book, must be deployed first"
  | artifactNotFound cause => cause.message
  | artifactParsing fault => fault.message
  | linking fault => fault.message
  | calldata fault => fault.message
  | submission fault => fault.message
  | query fault => fault.message
  | connection fault => fault.message

/-- The text of a failure. -/
def message (error : DeployError) : String := error.kind.describe error.details

/-- Whether a failure ends the run. -/
def isFatal (error : DeployError) : Bool := error.kind.isFatal

/-- A fault of linking or decoding bytecode as a failure. -/
def ofCode : CodeFault → DeployError
  | .link fault => .linking fault
  | .hex fault => .artifactParsing (.hex fault)

end DeployError

end ContractDeploy
