import ContractDeploy.Artifact.Source
import ContractDeploy.CodeHash
import ContractDeploy.Upgrade

/-!
# Integrity of the address book

A recorded deployment is sound if its address is known, if the artifact still yields the code that
created it, and if the code at the address is still the one that was recorded. The checks are made
in this order, and the first that fails is the mismatch. An entry behind a proxy is compared with
the proxy's artifact, since that is the code at its address.
-/

namespace ContractDeploy

/-- Compares entries of the address book with artifacts and the chain. -/
structure Verifier (φ : Type) where
  /-- Where artifacts come from. -/
  source : ArtifactSource φ
  /-- The name of the artifact that entries behind a proxy are compared with. -/
  proxyName : String := Upgrade.defaultProxyName

namespace Verifier

variable {γ φ : Type}

/-- The name of the artifact that an entry is compared with. -/
def artifactName (verifier : Verifier φ) (name : String) (record : Record) : String :=
  if record.isProxy then verifier.proxyName else name

/-- Whether a recorded hash is the hash of an artifact's code. -/
def compareCreation (recorded : Option Hash) (artifact : Hash) : Except Mismatch Unit :=
  if recorded = some artifact then .ok () else .error (.creationCode recorded artifact)

/-- Whether a recorded hash is the hash of the code that is at an address. -/
def compareRuntime (recorded : Option Hash) (observed : Hash) : Except Mismatch Unit :=
  if observed.isOfNoCode then .error .noCode
  else if recorded = some observed then .ok ()
  else .error (.runtimeCode recorded observed)

/-- The code of an artifact, linked as it was for an entry. -/
def artifactCode (verifier : Verifier φ) (name : String) (libraries : Option Libraries)
    (files : φ) : Except DeployError Bytes := do
  let artifact ← verifier.source.read files name
  (artifact.linkedCode (libraries.getD NameMap.empty)).mapError DeployError.ofCode

/-- Checks the code that created a contract. -/
def checkCreation (verifier : Verifier φ) (name : String) (record : Record) (files : φ) :
    Except Mismatch Unit := do
  let fields := record.fields
  let code ← (verifier.artifactCode (verifier.artifactName name record) fields.libraries
    files).mapError .artifactUnavailable
  compareCreation fields.creationCodeHash (keccak256 code)

variable (host : Host γ φ)

/-- Checks the code that is at a contract's address. -/
def checkRuntime (record : Record) : Act γ φ (Except Mismatch Unit) := do
  match ← (host.codeAt record.address).run with
  | .error error => return .error (.codeUnavailable error)
  | .ok code => return compareRuntime record.fields.runtimeCodeHash (keccak256 code)

/-- Checks an entry and gives the first mismatch. The code that created the contract is left out
if that is asked for. -/
def check (verifier : Verifier φ) (name : String) (record : Record) (withCreation : Bool) :
    Act γ φ (Except Mismatch Unit) := do
  let files := (← get).files
  if !record.isDeployed then return .error .addressMissing
  else
    let creation := if withCreation then verifier.checkCreation name record files else .ok ()
    match creation with
    | .error mismatch => return .error mismatch
    | .ok () => checkRuntime host record

/-- Checks an entry and tells the mismatch, if there is one. -/
def verify (verifier : Verifier φ) (name : String) (record : Record) (withCreation : Bool) :
    Act γ φ Bool := do
  Act.tell (.checking name)
  match ← verifier.check host name record withCreation with
  | .ok () => return true
  | .error mismatch =>
    Act.tell (.mismatched name record.address mismatch)
    return false

end Verifier

end ContractDeploy
