import ContractDeploy.Journal

/-!
# Sending calls

An endpoint is something that calls can be sent to from an account: a contract at its address, or
one that is yet to be created. Sending submits the call, waits until it is included and fails if it
reverted. An endpoint with a journal records each call that the node accepted, waits for it to be
included and records the outcome, all as part of submitting it.
-/

namespace ContractDeploy

/-- The account that transactions are sent from. -/
structure Sender where
  /-- The address of the account. -/
  address : Address
  /-- Whether the account is connected to the node. -/
  connected : Bool := true
deriving DecidableEq

/-- Fails if the account is not connected. -/
def Sender.requireConnection (sender : Sender) : Except DeployError Unit :=
  if sender.connected then .ok () else .error (.notConnected sender.address)

/-- A call, encoded and ready to be submitted. -/
structure Call where
  /-- The name of the function. -/
  function : String
  /-- The arguments as they were given. -/
  args : List String
  /-- The input of the transaction. -/
  input : Bytes
deriving DecidableEq

/-- A call that the node accepted. It may not be included yet. -/
structure Submitted where
  /-- The hash of the transaction. -/
  txHash : Hash
  /-- The account it was sent from. -/
  sender : Address
  /-- The contract it calls, none if it creates one. -/
  callee : Option Address
  /-- The name of the function. -/
  function : String
  /-- The arguments as they were given. -/
  args : List String
deriving DecidableEq

/-- What calls are sent to. -/
structure Endpoint where
  /-- The name of the contract. -/
  name : String
  /-- Its address, none if the call creates it. -/
  callee : Option Address
  /-- The account that calls are sent from. -/
  sender : Sender
  /-- Where calls are recorded, if they are. -/
  journal : Option Journal

namespace Endpoint

/-- What is recorded of an accepted call. -/
def callLines (name : String) (submitted : Submitted) : List String :=
  let callee := match submitted.callee with
    | some address => address.hex
    | none => "<create>"
  ["> Sent transaction " ++ name ++ "." ++ submitted.function,
   "   sender: " ++ submitted.sender.hex,
   "   contract: " ++ callee,
   "   params: [ " ++ ", ".intercalate submitted.args ++ " ]",
   "   txHash: " ++ submitted.txHash.hex]

/-- What is recorded of an included call. -/
def outcomeLine (receipt : Receipt) : String :=
  if receipt.succeeded then "✔ Transaction succeeded: " ++ receipt.txHash.hex
  else "✖ Transaction failed: " ++ receipt.txHash.hex

variable {γ φ : Type} (host : Host γ φ)

/-- Submits a call without recording it. -/
def submitBare (endpoint : Endpoint) (call : Call) : Run γ φ Submitted := do
  endpoint.sender.requireConnection
  let txHash ← host.submit ⟨endpoint.sender.address, endpoint.callee, call.input⟩
  return {
    txHash
    sender := endpoint.sender.address
    callee := endpoint.callee
    function := call.function
    args := call.args }

/-- Waits until a submitted call is included. -/
def wait (endpoint : Endpoint) (submitted : Submitted) : Run γ φ Receipt := do
  endpoint.sender.requireConnection
  host.await submitted.txHash

/-- Records the outcome of an included call. -/
def recordOutcome (journal : Journal) (receipt : Receipt) : Act γ φ Unit := do
  if !receipt.succeeded then
    Act.tell (.reverted receipt.txHash)
  journal.record host [outcomeLine receipt]

/-- Submits a call. With a journal, the call is recorded once the node accepted it, and its outcome
once it is included. -/
def submit (endpoint : Endpoint) (call : Call) : Run γ φ Submitted := do
  let submitted ← endpoint.submitBare host call
  match endpoint.journal with
  | none => return submitted
  | some journal =>
    journal.record host (callLines endpoint.name submitted)
    let receipt ← endpoint.wait host submitted
    recordOutcome host journal receipt
    return submitted

/-- Submits a call, waits until it is included and fails if it reverted. -/
def send (endpoint : Endpoint) (call : Call) : Run γ φ Receipt := do
  let submitted ← endpoint.submit host call
  -- With a journal this is the second wait; the first was for the record of the outcome.
  let receipt ← endpoint.wait host submitted
  if receipt.succeeded then return receipt
  else
    throw (.submission (.reverted endpoint.name submitted.function submitted.txHash))

end Endpoint

end ContractDeploy
