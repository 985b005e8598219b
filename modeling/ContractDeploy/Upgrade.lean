import ContractDeploy.Deployer

/-!
# Contracts behind a proxy

A contract behind a proxy is deployed in three steps: the implementation, a proxy that points at
it, and the acceptance of the implementation by the proxy's admin. The call that accepts is sent
from the deploying account, or, if the admin is in other hands, handed out to be executed by them.
Everything that can be checked beforehand is checked before the first step. No step is undone when
a later one fails.
-/

namespace ContractDeploy

/-- What is to be deployed behind a proxy. -/
structure Upgrade where
  /-- The name of the implementation. -/
  name : String
  /-- The arguments of its initializer, which is called on acceptance if there are any. -/
  initArgs : List String
  /-- The name of the proxy's artifact. -/
  proxyName : String
  /-- Whether the call that accepts is handed out instead of sent. -/
  manualAccept : Bool
deriving DecidableEq

namespace Upgrade

/-- The name of the proxy's artifact, unless another one is asked for. -/
def defaultProxyName : String := "GraphProxy"

/-- The name of the proxy admin, both of its artifact and of its entry in the address book. -/
def adminName : String := "GraphProxyAdmin"

/-- The function that initializes an implementation. -/
def initializerName : String := "initialize"

end Upgrade

/-! ## The call that accepts -/

/-- The call by which the proxy admin accepts an implementation for a proxy. -/
structure AcceptPayload where
  /-- The proxy admin. -/
  admin : Address
  /-- The implementation to be accepted. -/
  implementation : Address
  /-- The proxy that is to use it. -/
  proxy : Address
  /-- The call of the initializer that goes with it, if any. -/
  initCall : Option Bytes
deriving DecidableEq

namespace AcceptPayload

/-- The admin's function for accepting alone. -/
def acceptName : String := "acceptProxy"

/-- The admin's function for accepting with a call of the initializer. -/
def acceptAndCallName : String := "acceptProxyAndCall"

/-- The function of the admin that is called. -/
def function (payload : AcceptPayload) : String :=
  if payload.initCall.isSome then acceptAndCallName else acceptName

/-- The name and the parameter types of that function. -/
def signature (payload : AcceptPayload) : String :=
  match payload.initCall with
  | some _ => acceptAndCallName ++ "(address,address,bytes)"
  | none => acceptName ++ "(address,address)"

/-- The values that are passed. -/
def values (payload : AcceptPayload) : List AbiValue :=
  [.address payload.implementation, .address payload.proxy] ++
    payload.initCall.toList.map .bytes

/-- The input of the transaction. -/
def calldata (payload : AcceptPayload) : Bytes :=
  Abi.selectorOf payload.signature ++ encodeArguments payload.values

/-- The arguments as texts. -/
def args (payload : AcceptPayload) : List String :=
  [payload.implementation.checksum, payload.proxy.checksum] ++
    payload.initCall.toList.map Hex.encodePrefixed

/-- The payload as a call that can be submitted. -/
def toCall (payload : AcceptPayload) : Call where
  function := payload.function
  args := payload.args
  input := payload.calldata

/-- The payload as it is handed out. -/
def lines (payload : AcceptPayload) : List String :=
  let data := match payload.initCall with
    | some call => Hex.encodePrefixed call
    | none => ""
  ["Copy this data in the Gnosis Multisig UI, or a similar app and call " ++ payload.function,
   String.ofList (List.replicate 86 '-'),
   "  > Contract Address:  " ++ payload.admin.hex,
   "  > Implementation:    " ++ payload.implementation.hex,
   "  > Proxy:             " ++ payload.proxy.hex,
   "  > Data:              " ++ data,
   "  > Calldata:          " ++ Hex.encodePrefixed payload.calldata]

/-- Hands out the payload. -/
def handOut {γ φ : Type} (payload : AcceptPayload) : Run γ φ Unit :=
  Run.tellAll (payload.lines.map .line)

end AcceptPayload

/-! ## States -/

/-- How an implementation came to be accepted. -/
inductive Acceptance where
  /-- The call was sent and succeeded. -/
  | accepted (receipt : Receipt)
  /-- The call was handed out. Whether it is executed has to be found out elsewhere. -/
  | pending (payload : AcceptPayload)
deriving DecidableEq

/-- How far a deployment behind a proxy has come. -/
inductive UpgradeState where
  /-- Nothing is deployed. -/
  | start
  /-- The implementation is deployed. -/
  | implementationDeployed (implementation : Deployed)
  /-- The implementation and a proxy that points at it are deployed. -/
  | proxyDeployed (implementation proxy : Deployed)
  /-- Nothing is left to be done from here. -/
  | settled (implementation proxy : Deployed) (acceptance : Acceptance)
deriving DecidableEq

/-- Whether nothing is left to be done. -/
def UpgradeState.isSettled : UpgradeState → Bool
  | settled .. => true
  | _ => false

/-- A deployment behind a proxy that has come to its end. -/
structure ProxyDeployment where
  /-- The implementation's interface at the address of the proxy. -/
  contract : Contract
  /-- The implementation. -/
  implementation : Deployed
  /-- The proxy. -/
  proxy : Deployed
  /-- How the implementation came to be accepted. -/
  acceptance : Acceptance

/-- An upgrade of which everything that can be checked beforehand has been. -/
structure PreparedUpgrade where
  /-- What is to be deployed. -/
  upgrade : Upgrade
  /-- The implementation's interface. -/
  interface : Interface
  /-- The interface of the proxy admin, if the call that accepts is to be sent. -/
  adminInterface : Option Interface
  /-- The call of the initializer, if it is to be called. -/
  initCall : Option Bytes

/-- The call by which an admin accepts what was deployed. -/
def PreparedUpgrade.payload (prepared : PreparedUpgrade) (admin : Address)
    (implementation proxy : Deployed) : AcceptPayload where
  admin := admin
  implementation := implementation.address
  proxy := proxy.address
  initCall := prepared.initCall

namespace Deployer

variable {γ φ : Type}

/-- The interface of the proxy admin, needed only if the call that accepts is to be sent. -/
def adminInterface (deployer : Deployer φ) (upgrade : Upgrade) : Run γ φ (Option Interface) :=
  if upgrade.manualAccept then pure none
  else do
    let admin ← deployer.source.load Upgrade.adminName
    return some admin.interface

/-- The call of an upgrade's initializer, which is made only if there are arguments for it. -/
def initCall (upgrade : Upgrade) (interface : Interface) : Except DeployError (Option Bytes) :=
  if upgrade.initArgs.isEmpty then .ok none
  else do
    let call ← (interface.encodeCall Upgrade.initializerName upgrade.initArgs).mapError
      DeployError.calldata
    return some call

/-- Loads every artifact that an upgrade needs and encodes the call of its initializer. -/
def prepare (deployer : Deployer φ) (upgrade : Upgrade) : Run γ φ PreparedUpgrade := do
  let implementation ← deployer.source.load upgrade.name
  let proxy ← deployer.source.load upgrade.proxyName
  let _ ← (proxy.linkedCode NameMap.empty).mapError DeployError.ofCode
  let adminInterface ← deployer.adminInterface upgrade
  let initCall ← initCall upgrade implementation.interface
  return { upgrade, interface := implementation.interface, adminInterface, initCall }

variable (host : Host γ φ)

/-- Deploys a proxy that points at an implementation and answers to an admin. -/
def deployProxy (deployer : Deployer φ) (proxyName : String) (implementation admin : Address) :
    Run γ φ Deployed :=
  deployer.deploy host proxyName [implementation.checksum, admin.checksum] false

/-- Sends the call that accepts from the deploying account. -/
def sendAccept (deployer : Deployer φ) (prepared : PreparedUpgrade) (payload : AcceptPayload) :
    Run γ φ Receipt := do
  let some interface := prepared.adminInterface
    | throw (.artifactNotFound (.adminNotLoaded Upgrade.adminName))
  let admin : Contract := {
    name := Upgrade.adminName
    address := payload.admin
    interface
    sender := deployer.sender
    journal := some deployer.journal }
  admin.endpoint.send host payload.toCall

/-- Has the implementation accepted, or hands out the call for it. -/
def accept (deployer : Deployer φ) (prepared : PreparedUpgrade) (admin : Address)
    (implementation proxy : Deployed) : Run γ φ Acceptance := do
  let payload := prepared.payload admin implementation proxy
  if prepared.upgrade.manualAccept then
    payload.handOut
    return .pending payload
  else
    let receipt ← deployer.sendAccept host prepared payload
    return .accepted receipt

/-- Takes the next step of an upgrade. A settled one stays as it is. -/
def advance (deployer : Deployer φ) (prepared : PreparedUpgrade) (admin : Address) :
    UpgradeState → Run γ φ UpgradeState
  | .start => do
    let implementation ← deployer.deploy host prepared.upgrade.name [] true
    return .implementationDeployed implementation
  | .implementationDeployed implementation => do
    let proxy ← deployer.deployProxy host prepared.upgrade.proxyName implementation.address admin
    return .proxyDeployed implementation proxy
  | .proxyDeployed implementation proxy => do
    let acceptance ← deployer.accept host prepared admin implementation proxy
    return .settled implementation proxy acceptance
  | .settled implementation proxy acceptance => return .settled implementation proxy acceptance

/-- What a settled upgrade comes to: the implementation's interface at the address of the proxy. -/
def deliver (deployer : Deployer φ) (prepared : PreparedUpgrade) (implementation proxy : Deployed)
    (acceptance : Acceptance) : ProxyDeployment where
  contract := {
    name := prepared.upgrade.name
    address := proxy.address
    interface := prepared.interface
    sender := deployer.sender
    journal := some deployer.journal }
  implementation := implementation
  proxy := proxy
  acceptance := acceptance

/-- Takes the step after the proxy. -/
def completeFromProxy (deployer : Deployer φ) (prepared : PreparedUpgrade) (admin : Address)
    (implementation proxy : Deployed) : Run γ φ ProxyDeployment := do
  let acceptance ← deployer.accept host prepared admin implementation proxy
  return deployer.deliver prepared implementation proxy acceptance

/-- Takes the steps after the implementation. -/
def completeFromImplementation (deployer : Deployer φ) (prepared : PreparedUpgrade)
    (admin : Address) (implementation : Deployed) : Run γ φ ProxyDeployment := do
  let proxy ← deployer.deployProxy host prepared.upgrade.proxyName implementation.address admin
  deployer.completeFromProxy host prepared admin implementation proxy

/-- Takes all steps. -/
def complete (deployer : Deployer φ) (prepared : PreparedUpgrade) (admin : Address) :
    Run γ φ ProxyDeployment := do
  let implementation ← deployer.deploy host prepared.upgrade.name [] true
  deployer.completeFromImplementation host prepared admin implementation

/-- Deploys a contract behind a new proxy that answers to an admin. -/
def deployBehindProxy (deployer : Deployer φ) (upgrade : Upgrade) (admin : Address) :
    Run γ φ ProxyDeployment := do
  deployer.sender.requireConnection
  let prepared ← deployer.prepare upgrade
  deployer.complete host prepared admin

/-- The record of an accepted upgrade: the proxy with the initializer's arguments, and the record
there was of the implementation. -/
def acceptedRecord (upgrade : Upgrade) (proxy : Deployed) (before : Record) : Record :=
  .proxied { proxy.toSnapshot [] with initArgs := recordedArgs upgrade.initArgs }
    before.implementation

/-- The recorded proxy admin. -/
def recordedAdmin : Recording γ φ Address := do
  let admin := (← get).get Upgrade.adminName
  if admin.isDeployed then return admin.address
  else throw (.missingDeployment Upgrade.adminName)

/-- Replaces the entry of an implementation by that of its proxy, if the admin accepted it. -/
def recordAcceptance (upgrade : Upgrade) (deployment : ProxyDeployment) :
    Recording γ φ Unit := do
  match deployment.acceptance with
  | .accepted _ =>
    let before := (← get).get upgrade.name
    Recording.save host upgrade.name (acceptedRecord upgrade deployment.proxy before)
  | .pending _ => return

/-- Deploys a contract behind a new proxy and records both. The proxy answers to the recorded proxy
admin. The implementation is recorded as soon as it is deployed; once it is accepted its entry
makes way for that of the proxy, in which it is kept. -/
def deployBehindProxyAndSave (deployer : Deployer φ) (upgrade : Upgrade) :
    Recording γ φ ProxyDeployment := do
  deployer.sender.requireConnection
  let admin ← recordedAdmin
  let prepared ← Recording.ofRun (deployer.prepare upgrade)
  let implementation ← deployer.deployAndSave host upgrade.name []
  -- Whatever fails from here on leaves the implementation recorded.
  let deployment ← Recording.ofRun
    (deployer.completeFromImplementation host prepared admin implementation)
  recordAcceptance host upgrade deployment
  return deployment

end Deployer

end ContractDeploy
