import ContractDeploy.Contract

/-!
# Deploying contracts

A deployer creates contracts from an account. The libraries that a contract's code refers to can be
deployed first, each once and without arguments, and are linked into the code. Libraries are
deployed without linking, so one that refers to a library itself is refused. The first failure ends
a deployment; what was created until then stays on the chain.
-/

namespace ContractDeploy

/-- Creates contracts from an account. -/
structure Deployer (φ : Type) where
  /-- The account that everything is sent from. -/
  sender : Sender
  /-- Where artifacts come from. -/
  source : ArtifactSource φ
  /-- The directory of the journal, if it is kept. -/
  journalDirectory : Option String := none

namespace Deployer

variable {γ φ : Type}

/-- The journal of what the deployer sends. -/
def journal (deployer : Deployer φ) : Journal := ⟨deployer.journalDirectory⟩

/-- The contract that the receipt of a creation names. -/
def createdContract (receipt : Receipt) : Except DeployError Address :=
  match receipt.contractAddress with
  | some address => .ok address
  | none => .error (.query (.noContractAddress receipt.txHash))

variable (host : Host γ φ)

/-- Links an artifact and creates its contract, then reads back the code that is there now. -/
def deployArtifact (deployer : Deployer φ) (artifact : Artifact) (args : List String)
    (libraries : Libraries) : Run γ φ Deployed := do
  deployer.sender.requireConnection
  let code ← (artifact.linkedCode libraries).mapError DeployError.ofCode
  let creation : Creation := {
    name := artifact.contractName
    interface := artifact.interface
    code
    sender := deployer.sender
    journal := some deployer.journal }
  let call ← creation.call args
  let receipt ← creation.endpoint.send host call
  Run.tell (.deployIncluded artifact.contractName receipt.txHash)
  let address ← createdContract receipt
  let runtimeCode ← host.codeAt address
  let deployed : Deployed := {
    address
    creationCodeHash := keccak256 code
    runtimeCodeHash := keccak256 runtimeCode
    txHash := receipt.txHash
    libraries }
  Run.tellAll [.creationCode deployed.creationCodeHash, .runtimeCode deployed.runtimeCodeHash,
    .deployedAt artifact.contractName address]
  return deployed

/-- Deploys libraries of a contract, next to those that are deployed already. -/
def deployLibraries (deployer : Deployer φ) (contract : String) :
    List String → Libraries → Run γ φ Libraries
  | [], libraries => return libraries
  | name :: names, libraries => do
    Run.tell (.deployingLibrary name contract)
    let library ← deployer.source.load name
    let deployed ← deployer.deployArtifact host library [] NameMap.empty
    deployLibraries deployer contract names (libraries.insert name deployed.address)

/-- Deploys a contract with constructor arguments, after its libraries if it is to be linked. -/
def deploy (deployer : Deployer φ) (name : String) (args : List String) (autolink : Bool) :
    Run γ φ Deployed := do
  deployer.sender.requireConnection
  let artifact ← deployer.source.load name
  let libraries ←
    if autolink then
      deployer.deployLibraries host artifact.contractName artifact.libraryNames NameMap.empty
    else pure NameMap.empty
  deployer.deployArtifact host artifact args libraries

end Deployer

/-! ## Recording -/

/-- A step that also sets entries of an address book. What was set stays set when a later step
fails. -/
abbrev Recording (γ φ : Type) := ExceptT DeployError (StateT Book (StateM (World γ φ)))

namespace Recording

variable {γ φ : Type} (host : Host γ φ)

/-- A step that leaves the address book alone. -/
def ofRun {α : Type} (run : Run γ φ α) : Recording γ φ α := fun book => do
  return (← run.run, book)

/-- Sets the entry of a contract, and tells so. -/
def save (name : String) (record : Record) : Recording γ φ Unit := fun book => do
  let book ← book.set host name record
  Act.tell .saved
  return (.ok (), book)

end Recording

/-- Deploys a contract, linked with its libraries, and records it. The entry is set only when the
deployment is complete. -/
def Deployer.deployAndSave {γ φ : Type} (host : Host γ φ) (deployer : Deployer φ) (name : String)
    (args : List String) : Recording γ φ Deployed := do
  let deployed ← Recording.ofRun (deployer.deploy host name args true)
  Recording.save host name (.direct (deployed.toSnapshot args))
  return deployed

end ContractDeploy
