import ContractDeploy.Endpoint
import ContractDeploy.PrivateKey
import ContractDeploy.Url

/-!
# Setting up a sender

A sender is made from a private key and the address of a node. The key is judged first, then the
address; then the node is asked for its network, so that one that does not answer is found out
before anything is sent.
-/

namespace ContractDeploy

namespace Host

variable {γ φ : Type} (host : Host γ φ)

/-- Asks the node behind a URL for its network. -/
def reach (url : Url) : Run γ φ Nat := fun world =>
  if url.takesRequests then
    let (answer, chain) := host.node.chainId world.chain
    (answer.mapError fun reason => .connection (.unreachable reason), { world with chain })
  else (.error (.connection (.unreachable "no requests can be sent there")), world)

/-- The sender of a private key, connected to the node behind a URL. -/
def setUpSender (privateKey nodeUrl : String) : Run γ φ Sender := do
  let some key := PrivateKey.parse? privateKey | throw (.connection .badKey)
  let some url := Url.parse? nodeUrl | throw (.connection .badUrl)
  let chainId ← host.reach url
  Run.tell (.clientConnected key.address chainId)
  return { address := key.address }

end Host

end ContractDeploy
