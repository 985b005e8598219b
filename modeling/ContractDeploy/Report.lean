import ContractDeploy.CommandLine

/-!
# Reports

What a run comes to, as documents for other programs: deployments, receipts, handles, payloads and
the command line that was understood. Addresses, hashes and code are written in hexadecimal, and
what is absent is `null`.
-/

namespace ContractDeploy

open Json (field ofFields ofText ofNat ofOption)

/-- The document of a byte string of any size. -/
def Bytes.toJson (bytes : Bytes) : Json := ofText (Hex.encodePrefixed bytes)

/-- The document of one contract's fields. -/
def Snapshot.toJson (snapshot : Snapshot) : Json := ofFields snapshot.members

/-- The document of a map from names. -/
def NameMap.toJson {α : Type} (write : α → Json) (map : NameMap α) : Json :=
  ofFields (map.entries.map fun (name, value) => field name (write value))

/-- A record with all that can be asked of it. -/
def Record.toReport (record : Record) : Json := ofFields [
  field "record" record.toJson,
  field "address" (writeBytes record.address),
  field "is_deployed" (.bool record.isDeployed),
  field "is_proxy" (.bool record.isProxy),
  field "fields" record.fields.toJson,
  field "implementation" (ofOption Snapshot.toJson record.implementation?),
  field "into_implementation" record.implementation.toJson]

/-- The document of a deployment. -/
def Deployed.toJson (deployed : Deployed) : Json := ofFields [
  field "address" (writeBytes deployed.address),
  field "creation_code_hash" (writeBytes deployed.creationCodeHash),
  field "runtime_code_hash" (writeBytes deployed.runtimeCodeHash),
  field "tx_hash" (writeBytes deployed.txHash),
  field "libraries" (deployed.libraries.toJson writeBytes)]

/-- The document of a receipt. -/
def Receipt.toJson (receipt : Receipt) : Json := ofFields [
  field "tx_hash" (writeBytes receipt.txHash),
  field "from" (writeBytes receipt.sender),
  field "to" (ofOption writeBytes receipt.callee),
  field "status" (.bool receipt.succeeded),
  field "contract_address" (ofOption writeBytes receipt.contractAddress),
  field "block_number" (ofOption ofNat receipt.blockNumber)]

/-- The document of a transaction. -/
def Transaction.toJson (transaction : Transaction) : Json := ofFields [
  field "from" (writeBytes transaction.sender),
  field "to" (ofOption writeBytes transaction.callee),
  field "input" transaction.input.toJson]

/-- The members of an encoded call. -/
def Call.members (call : Call) : List (List Char × Json) := [
  field "function" (ofText call.function),
  field "args" (writeTexts call.args),
  field "input" call.input.toJson]

/-- The document of a submitted call. -/
def Submitted.toJson (submitted : Submitted) : Json := ofFields [
  field "tx_hash" (writeBytes submitted.txHash),
  field "from" (writeBytes submitted.sender),
  field "to" (ofOption writeBytes submitted.callee),
  field "function" (ofText submitted.function),
  field "args" (writeTexts submitted.args)]

/-- The document of a handle on a contract. -/
def Contract.toJson (contract : Contract) : Json := ofFields [
  field "name" (ofText contract.name),
  field "address" (writeBytes contract.address),
  field "sender" (writeBytes contract.sender.address),
  field "connected" (.bool contract.sender.connected),
  field "functions" (writeTexts contract.interface.functions.names)]

/-- The document of a call by which an admin accepts. -/
def AcceptPayload.toJson (payload : AcceptPayload) : Json := ofFields [
  field "admin" (writeBytes payload.admin),
  field "implementation" (writeBytes payload.implementation),
  field "proxy" (writeBytes payload.proxy),
  field "function" (ofText payload.function),
  field "init_calldata" (ofOption Bytes.toJson payload.initCall),
  field "calldata" payload.calldata.toJson]

/-- The document of how an implementation came to be accepted. -/
def Acceptance.toJson : Acceptance → Json
  | accepted receipt => ofFields [field "accepted" receipt.toJson]
  | pending payload => ofFields [field "pending" payload.toJson]

/-- The document of a deployment behind a proxy. -/
def ProxyDeployment.toJson (deployment : ProxyDeployment) : Json := ofFields [
  field "implementation" deployment.implementation.toJson,
  field "proxy" deployment.proxy.toJson,
  field "contract" deployment.contract.toJson,
  field "acceptance" deployment.acceptance.toJson]

/-- The name of a state and what is known in it. -/
def UpgradeState.parts : UpgradeState → String × List (List Char × Json)
  | start => ("Start", [])
  | implementationDeployed implementation =>
    ("ImplementationDeployed", [field "implementation" implementation.toJson])
  | proxyDeployed implementation proxy =>
    ("ProxyDeployed",
      [field "implementation" implementation.toJson, field "proxy" proxy.toJson])
  | settled implementation proxy (.accepted receipt) =>
    ("Accepted",
      [field "implementation" implementation.toJson, field "proxy" proxy.toJson,
        field "receipt" receipt.toJson])
  | settled implementation proxy (.pending payload) =>
    ("PendingManualAccept",
      [field "implementation" implementation.toJson, field "proxy" proxy.toJson,
        field "payload" payload.toJson])

/-- The document of a state. -/
def UpgradeState.toJson (state : UpgradeState) : Json :=
  ofFields ([field "state" (ofText state.parts.1), field "is_terminal" (.bool state.isSettled)] ++
    state.parts.2)

/-- The document of a command. -/
def Command.toJson : Command → Json
  | list => ofFields [field "name" (ofText "list")]
  | deploy contract args => ofFields [
      field "name" (ofText "deploy"),
      field "contract" (ofText contract),
      field "args" (writeTexts args)]
  | deployProxy upgrade => ofFields [
      field "name" (ofText "deploy-proxy"),
      field "contract" (ofText upgrade.name),
      field "init_args" (writeTexts upgrade.initArgs),
      field "proxy_name" (ofText upgrade.proxyName),
      field "build_accept_tx" (.bool upgrade.manualAccept)]
  | verify contract withCreation => ofFields [
      field "name" (ofText "verify"),
      field "contract" (ofOption ofText contract),
      field "skip_creation_code" (.bool !withCreation)]
  | call contract function args => ofFields [
      field "name" (ofText "call"),
      field "contract" (ofText contract),
      field "function" (ofText function),
      field "args" (writeTexts args)]
  | block => ofFields [field "name" (ofText "block")]

/-- The document of a command line. -/
def CommandLine.toJson (line : CommandLine) : Json := ofFields [
  field "priv_key" (ofText line.privateKey),
  field "rpc_url" (ofText line.nodeUrl),
  field "address_book" (ofText line.locations.addressBook),
  field "artifacts" (ofText line.locations.artifacts),
  field "tx_log_dir" (ofText line.locations.journal),
  field "command" line.command.toJson]

end ContractDeploy
