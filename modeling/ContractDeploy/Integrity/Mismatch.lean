import ContractDeploy.Error

/-!
# Mismatches

How an entry of the address book can disagree with the artifacts or with the chain. The sentence
that names a mismatch is built over a wording of failures, because two of the causes are failures
of their own.
-/

namespace ContractDeploy

/-- The first thing about an entry that does not match. -/
inductive Mismatch where
  /-- The entry points at no deployment. -/
  | addressMissing
  /-- The artifact to compare with cannot be had. -/
  | artifactUnavailable (error : DeployError)
  /-- The recorded hash is not that of the artifact's code. -/
  | creationCode (recorded : Option Hash) (artifact : Hash)
  /-- The code at the address cannot be read. -/
  | codeUnavailable (error : DeployError)
  /-- There is no code at the address. -/
  | noCode
  /-- The recorded hash is not that of the code at the address. -/
  | runtimeCode (recorded : Option Hash) (observed : Hash)
deriving DecidableEq

namespace Mismatch

/-- A recorded hash, which may be absent. -/
def shown : Option Hash → String
  | some hash => hash.hex
  | none => "<none>"

/-- The sentence that names a mismatch, with failures in the given words. -/
def describe (wording : DeployError → String) : Mismatch → String
  | addressMissing => "contract is not in the address book"
  | artifactUnavailable error => "artifact unavailable: " ++ wording error
  | creationCode recorded artifact =>
    "creation code hash does not match the artifacts: " ++ shown recorded ++ " !== " ++ artifact.hex
  | codeUnavailable error => "error reading code: " ++ wording error
  | noCode => "no runtime code exists at the address"
  | runtimeCode recorded observed =>
    "runtime code hash does not match the code on chain: " ++ shown recorded ++ " !== " ++
      observed.hex

end Mismatch

end ContractDeploy
