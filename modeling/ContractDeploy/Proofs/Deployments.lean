import ContractDeploy.Proofs.ChainHistory
import ContractDeploy.Proofs.Recordings

/-!
# What a deployment found

A deployment that succeeds has linked an artifact and has read the code at the address of the new
contract. The hashes that it gives are those of the linked code and of the code that was read, and
the libraries that it gives are those that were linked. So the outcome is tied to two things
outside of it: the artifact in the files, and the code on the chain at the moment it was read.
-/

namespace ContractDeploy

variable {γ φ : Type}

/-- The artifact of a contract yields, with the libraries of a deployment, the code that the
deployment recorded. -/
def Deployed.ComesFrom (deployed : Deployed) (source : ArtifactSource φ) (name : String)
    (files : φ) : Prop :=
  ∃ artifact code, source.read files name = .ok artifact ∧
    artifact.linkedCode deployed.libraries = .ok code ∧
    deployed.creationCodeHash = keccak256 code

theorem Deployed.ComesFrom.of_read {deployed : Deployed} {source : ArtifactSource φ} {name : String}
    {files later : φ} (h : deployed.ComesFrom source name files)
    (hsame : source.read later name = source.read files name) :
    deployed.ComesFrom source name later := by
  obtain ⟨artifact, code, hread, hcode, hhash⟩ := h
  exact ⟨artifact, code, hsame.trans hread, hcode, hhash⟩

/-- The code at the address of a deployment is the code that the deployment recorded. -/
def Deployed.StandsOn (deployed : Deployed) (node : Node γ) (chain : γ) : Prop :=
  ∃ code, (node.code deployed.address chain).1 = .ok code ∧
    deployed.runtimeCodeHash = keccak256 code

namespace Deployer

variable {host : Host γ φ} {deployer : Deployer φ} {world after : World γ φ} {deployed : Deployed}

/-- The code that was read is the code at the address. -/
theorem codeAt_eq_ok {address : Address} {code : Bytes}
    (h : host.codeAt address world = (.ok code, after)) :
    (host.node.code address world.chain).1 = .ok code ∧
      host.node.Reaches world.chain after.chain := by
  have hanswer : (host.node.code address world.chain).1.mapError
      (fun reason => DeployError.query (.unavailable reason)) = .ok code :=
    congrArg Prod.fst h
  have hchain : (host.node.code address world.chain).2 = after.chain :=
    congrArg (fun result => result.2.chain) h
  exact ⟨mapError_eq_ok hanswer, .single (.inr (.inr ⟨address, hchain.symm⟩))⟩

/-- Sending a creation takes the chain from one moment to another. -/
theorem reaches_send {endpoint : Endpoint} {call : Call} {outcome : Except DeployError Receipt}
    (hjournal : endpoint.journal = some deployer.journal)
    (h : endpoint.send host call world = (outcome, after)) :
    host.node.Reaches world.chain after.chain := by
  have hreaches := Endpoint.send_within (deploymentSteps_reaches host deployer.journal) hjournal
    call world
  rwa [h] at hreaches

/-- What is done with the receipt of a creation: the contract that it names is told, and its code is
read. -/
def readBack (host : Host γ φ) (contract : String) (code : Bytes) (libraries : Libraries)
    (receipt : Receipt) : Run γ φ Deployed := do
  Run.tell (.deployIncluded contract receipt.txHash)
  let address ← createdContract receipt
  let runtimeCode ← host.codeAt address
  let deployed : Deployed := {
    address
    creationCodeHash := keccak256 code
    runtimeCodeHash := keccak256 runtimeCode
    txHash := receipt.txHash
    libraries }
  Run.tellAll [.creationCode deployed.creationCodeHash, .runtimeCode deployed.runtimeCodeHash,
    .deployedAt contract address]
  return deployed

theorem createdContract_eq_ok {receipt : Receipt} {address : Address}
    (h : createdContract receipt = .ok address) : receipt.contractAddress = some address := by
  unfold createdContract at h
  split at h
  · next found hfound =>
    cases h
    exact hfound
  · cases h

/-- What is read back is the contract that the receipt names, with the code that is at its
address. -/
theorem readBack_eq_ok {contract : String} {code : Bytes} {libraries : Libraries}
    {receipt : Receipt}
    (h : readBack host contract code libraries receipt world = (.ok deployed, after)) :
    receipt.contractAddress = some deployed.address ∧ deployed.txHash = receipt.txHash ∧
      deployed.libraries = libraries ∧ deployed.creationCodeHash = keccak256 code ∧
      deployed.StandsOn host.node world.chain ∧ host.node.Reaches world.chain after.chain := by
  obtain ⟨_, told, htold, h⟩ := Run.bind_eq_ok h
  cases htold
  obtain ⟨address, named, haddress, h⟩ := Run.bind_eq_ok h
  obtain ⟨hcreated, rfl⟩ := Run.ofExcept_eq_ok haddress
  obtain ⟨runtimeCode, read, hruntime, h⟩ := Run.bind_eq_ok h
  obtain ⟨hanswer, hread⟩ := codeAt_eq_ok hruntime
  obtain ⟨_, last, hlast, h⟩ := Run.bind_eq_ok h
  cases hlast
  cases h
  exact ⟨createdContract_eq_ok hcreated, rfl, rfl, rfl, ⟨runtimeCode, hanswer, rfl⟩, hread⟩

/-- A contract that was created has the libraries that were linked, the hash of the code that they
were linked into, and that of the code that was read afterwards. -/
theorem deployArtifact_eq_ok {artifact : Artifact} {args : List String} {libraries : Libraries}
    (h : deployer.deployArtifact host artifact args libraries world = (.ok deployed, after)) :
    deployed.libraries = libraries ∧
      (∃ code, artifact.linkedCode libraries = .ok code ∧
        deployed.creationCodeHash = keccak256 code) ∧
      ∃ chain, host.node.Reaches world.chain chain ∧ host.node.Reaches chain after.chain ∧
        deployed.StandsOn host.node chain := by
  -- The steps are taken apart one by one. Nothing before the sending changes the chain.
  obtain ⟨_, first, hconnected, h⟩ := Run.bind_eq_ok h
  obtain ⟨-, rfl⟩ := Run.ofExcept_eq_ok hconnected
  obtain ⟨code, second, hlink, h⟩ := Run.bind_eq_ok h
  obtain ⟨hcode, rfl⟩ := Run.ofExcept_eq_ok hlink
  obtain ⟨call, third, hcall, h⟩ := Run.bind_eq_ok h
  obtain ⟨-, rfl⟩ := Run.ofExcept_eq_ok hcall
  obtain ⟨receipt, sent, hsend, h⟩ := Run.bind_eq_ok h
  have hback : readBack host artifact.contractName code libraries receipt sent =
      (.ok deployed, after) := h
  obtain ⟨-, -, hlibraries, hhash, hstands, hlast⟩ := readBack_eq_ok hback
  exact ⟨hlibraries, ⟨code, mapError_eq_ok hcode, hhash⟩, sent.chain, reaches_send rfl hsend, hlast,
    hstands⟩

/-- Deploying libraries takes the chain from one moment to another. -/
theorem reaches_deployLibraries {contract : String} {names : List String}
    {libraries : Libraries} {outcome : Except DeployError Libraries}
    (h : deployer.deployLibraries host contract names libraries world = (outcome, after)) :
    host.node.Reaches world.chain after.chain := by
  have hreaches := deployLibraries_within (deploymentSteps_reaches host deployer.journal)
    contract names libraries world
  rwa [h] at hreaches

/-- A deployment comes from the artifact that the files have as it starts, and stands on the code
that the chain has at some moment of it. -/
theorem deploy_eq_ok {name : String} {args : List String} {autolink : Bool}
    (h : deployer.deploy host name args autolink world = (.ok deployed, after)) :
    deployed.ComesFrom deployer.source name world.files ∧
      ∃ chain, host.node.Reaches world.chain chain ∧ host.node.Reaches chain after.chain ∧
        deployed.StandsOn host.node chain := by
  obtain ⟨_, first, hconnected, h⟩ := Run.bind_eq_ok h
  obtain ⟨-, rfl⟩ := Run.ofExcept_eq_ok hconnected
  obtain ⟨artifact, loaded, hload, h⟩ := Run.bind_eq_ok h
  rw [ArtifactSource.reads_load, Prod.mk.injEq] at hload
  obtain ⟨hread, rfl⟩ := hload
  -- With and without libraries, what is left to do is to create the contract.
  have hlinked : ∃ libraries middle, host.node.Reaches world.chain middle.chain ∧
      deployer.deployArtifact host artifact args libraries middle = (.ok deployed, after) := by
    cases autolink with
    | true =>
      obtain ⟨libraries, middle, hlibraries, h⟩ := Run.bind_eq_ok h
      exact ⟨libraries, middle, reaches_deployLibraries hlibraries, h⟩
    | false => exact ⟨NameMap.empty, world, .refl, h⟩
  obtain ⟨libraries, middle, hmiddle, h⟩ := hlinked
  obtain ⟨rfl, ⟨code, hcode, hhash⟩, chain, hchain, hlast, hstands⟩ := deployArtifact_eq_ok h
  exact ⟨⟨artifact, code, hread, hcode, hhash⟩, chain, hmiddle.trans hchain, hlast, hstands⟩

theorem reaches_deploy {name : String} {args : List String} {autolink : Bool}
    {outcome : Except DeployError Deployed}
    (h : deployer.deploy host name args autolink world = (outcome, after)) :
    host.node.Reaches world.chain after.chain := by
  have hreaches := deploy_within (deploymentSteps_reaches host deployer.journal) name args autolink
    world
  rwa [h] at hreaches

theorem reaches_accept {prepared : PreparedUpgrade} {admin : Address}
    {implementation proxy : Deployed} {outcome : Except DeployError Acceptance}
    (h : deployer.accept host prepared admin implementation proxy world = (outcome, after)) :
    host.node.Reaches world.chain after.chain := by
  have hreaches := accept_within (deploymentSteps_reaches host deployer.journal) prepared admin
    implementation proxy world
  rwa [h] at hreaches

end Deployer

end ContractDeploy
