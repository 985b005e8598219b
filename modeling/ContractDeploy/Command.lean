import ContractDeploy.Chain.Networks
import ContractDeploy.Integrity

/-!
# Commands

What can be asked of the tool: to list, deploy, verify and call recorded contracts, and to look at
the latest block. Every command begins by finding out which network the account is connected to and
opening the address book for it.
-/

namespace ContractDeploy

/-- What the tool is asked to do. -/
inductive Command where
  /-- List the recorded contracts. -/
  | list
  /-- Deploy a contract and record it. -/
  | deploy (contract : String) (args : List String)
  /-- Deploy a contract behind a proxy and record it. -/
  | deployProxy (upgrade : Upgrade)
  /-- Check one recorded contract, or all of them. -/
  | verify (contract : Option String) (withCreation : Bool)
  /-- Send a call to a recorded contract. -/
  | call (contract function : String) (args : List String)
  /-- Tell the latest block. -/
  | block
deriving DecidableEq

/-- Why a command fails. -/
inductive CommandError where
  /-- Something that it needed failed. -/
  | failed (error : DeployError)
  /-- Contracts did not pass their checks. -/
  | unverified (names : List String) (checked : Nat)
  /-- A contract that was to be called is not recorded. -/
  | notRecorded (contract : String)
deriving DecidableEq

/-- The text of a failed command. -/
def CommandError.message : CommandError → String
  | failed error => error.message
  | unverified names checked =>
    toString names.length ++ " of " ++ toString checked ++ " contracts failed verification: " ++
      ", ".intercalate names
  | notRecorded contract => contract ++ " is not in the address book"

/-- Where the tool finds what it works on. -/
structure Locations where
  /-- The file of the address book. -/
  addressBook : String
  /-- The directory of the artifacts. -/
  artifacts : String
  /-- The directory of the journal. -/
  journal : String
deriving DecidableEq

/-- What every command works with. -/
structure Context (φ : Type) where
  /-- The account that everything is sent from. -/
  sender : Sender
  /-- The address book, opened for the account's network. -/
  book : Book
  /-- Where artifacts come from. -/
  source : ArtifactSource φ
  /-- The directory of the journal. -/
  journalDirectory : String

namespace Context

variable {γ φ : Type}

/-- The deployer for the account. -/
def deployer (context : Context φ) : Deployer φ where
  sender := context.sender
  source := context.source
  journalDirectory := some context.journalDirectory

/-- What is told about the network. -/
def networkNotice (chainId : Nat) : Notice :=
  match Network.nameOf chainId, Network.counterpart chainId with
  | some name, some counterpart => .connected name chainId counterpart
  | _, _ => .connectedUnknown chainId

/-- What is told about a recorded contract. -/
def entryNotice (name : String) (record : Record) : Notice :=
  match record.implementation? with
  | some implementation => .proxyEntry name record.address implementation.address
  | none => .entry name record.address

variable (host : Host γ φ)

/-- Opens the address book for the network that an account is connected to. -/
def make (sender : Sender) (locations : Locations) : Run γ φ (Context φ) := do
  sender.requireConnection
  let chainId ← Host.query host.node.chainId
  Run.tell (networkNotice chainId)
  let book ← Book.openFile host locations.addressBook (toString chainId)
  return {
    sender
    book
    source := ArtifactSource.inDirectory host.disk locations.artifacts
    journalDirectory := locations.journal }

/-- Tells the recorded contracts. -/
def list (context : Context φ) : Run γ φ Unit := do
  let book := context.book
  Run.tell (.recorded book.list.length book.network book.file)
  Run.tellAll (book.list.map fun name => entryNotice name (book.get name))

/-- Deploys a contract and records it. -/
def deploy (context : Context φ) (contract : String) (args : List String) :
    Recording γ φ Unit := do
  let deployed ← context.deployer.deployAndSave host contract args
  Recording.ofRun (Run.tellAll
    (deployed.libraries.entries.map fun (library, address) => .linked library address))

/-- What is told about a deployment behind a proxy. -/
def proxyNotice (upgrade : Upgrade) (deployment : ProxyDeployment) : Notice :=
  match deployment.acceptance with
  | .accepted _ => .live upgrade.name upgrade.proxyName deployment.proxy.address
  | .pending _ => .notAccepted upgrade.name deployment.proxy.address

/-- Deploys a contract behind a proxy and records it. -/
def deployProxy (context : Context φ) (upgrade : Upgrade) : Recording γ φ Unit := do
  let deployment ← context.deployer.deployBehindProxyAndSave host upgrade
  Recording.ofRun (Run.tell (proxyNotice upgrade deployment))

/-- The verifier for the artifacts. -/
def verifier (context : Context φ) : Verifier φ where
  source := context.source

/-- The names of the contracts that do not pass their checks, each being checked in turn. -/
def failing (context : Context φ) (withCreation : Bool) : List String → Act γ φ (List String)
  | [] => return []
  | name :: names => do
    let sound ← context.verifier.verify host name (context.book.get name) withCreation
    let others ← failing context withCreation names
    return if sound then others else name :: others

/-- A step of a command that can only fail in the way of a deployment. -/
def liftRun {α : Type} (run : Run γ φ α) : ExceptT CommandError (Act γ φ) α := do
  match ← run.run with
  | .ok value => return value
  | .error error => throw (.failed error)

/-- Checks one recorded contract, or all of them. -/
def verify (context : Context φ) (contract : Option String) (withCreation : Bool) :
    ExceptT CommandError (Act γ φ) Unit := do
  let names := match contract with
    | some name => [name]
    | none => context.book.list
  liftRun context.sender.requireConnection
  let failed ← context.failing host withCreation names
  if failed.isEmpty then liftRun (Run.tell (.verified names.length))
  else throw (.unverified failed names.length)

/-- What is told about an included call. -/
def inclusionNotices (receipt : Receipt) : List Notice :=
  receipt.blockNumber.toList.map .included

/-- Sends a call to a recorded contract. -/
def call (context : Context φ) (contract function : String) (args : List String) :
    ExceptT CommandError (Act γ φ) Unit := do
  let handle ← liftRun (Contract.load context.source context.book contract context.sender
    (some context.journalDirectory))
  if handle.address.isZero then throw (.notRecorded contract)
  liftRun do
    let call ← handle.call function args
    let receipt ← handle.endpoint.send host call
    Run.tellAll (inclusionNotices receipt)

/-- Tells the latest block. -/
def block (context : Context φ) : Run γ φ Unit := do
  context.sender.requireConnection
  let number ← Host.query host.node.blockNumber
  let baseFee ← Host.query host.node.baseFee
  Run.tell (.latestBlock number baseFee)

/-- A command's steps that record, on the context's own address book. -/
def recordIn {α : Type} (context : Context φ) (recording : Recording γ φ α) : Run γ φ α := do
  let (outcome, _) ← (recording.run.run context.book : StateM (World γ φ) _)
  MonadExcept.ofExcept outcome

end Context

variable {γ φ : Type} (host : Host γ φ)

/-- Runs a command from an account. -/
def Command.run (command : Command) (sender : Sender) (locations : Locations) :
    ExceptT CommandError (Act γ φ) Unit := do
  let context ← Context.liftRun (Context.make host sender locations)
  match command with
  | .list => Context.liftRun context.list
  | .deploy contract args =>
    Context.liftRun (context.recordIn (context.deploy host contract args))
  | .deployProxy upgrade => Context.liftRun (context.recordIn (context.deployProxy host upgrade))
  | .verify contract withCreation => context.verify host contract withCreation
  | .call contract function args => context.call host contract function args
  | .block => Context.liftRun (context.block host)

end ContractDeploy
