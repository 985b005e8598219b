import ContractDeploy.Bytes
import ContractDeploy.NameMap

/-!
# Records of deployed contracts

What the address book keeps of a contract. A contract is used at its own address, or through a
proxy; in the second case its record holds the proxy's fields and a snapshot of the implementation
as it was when the proxy accepted it. The snapshot is plain by type, so the history that a record
keeps is one level deep.
-/

namespace ContractDeploy

/-- Libraries by name, with the addresses they are deployed at. -/
abbrev Libraries := NameMap Address

/-- The fields kept of one deployed contract. -/
structure Snapshot where
  /-- Where the contract is; the zero address stands for "not deployed". -/
  address : Address
  /-- The constructor arguments as they were given, if any. -/
  constructorArgs : Option (List String) := none
  /-- The initializer arguments as they were given, if any. -/
  initArgs : Option (List String) := none
  /-- The hash of the linked bytecode that created the contract. -/
  creationCodeHash : Option Hash := none
  /-- The hash of the code found at the address after the deployment. -/
  runtimeCodeHash : Option Hash := none
  /-- The hash of the transaction that created the contract. -/
  txHash : Option Hash := none
  /-- The libraries linked into the bytecode, if it needed any. -/
  libraries : Option Libraries := none
deriving DecidableEq

/-- A contract of which only the address is known. -/
def Snapshot.at (address : Address) : Snapshot := { address }

/-- What the address book holds under a contract's name. -/
inductive Record where
  /-- A contract used at its own address. -/
  | direct (contract : Snapshot)
  /-- A contract used through a proxy, which has accepted the implementation. -/
  | proxied (proxy implementation : Snapshot)
deriving DecidableEq

namespace Record

/-- The record of a contract that has no entry: nothing at the zero address. -/
def missing : Record := .direct (Snapshot.at FixedBytes.zero)

/-- The fields of what callers talk to: the proxy's for a contract behind one. -/
def fields : Record → Snapshot
  | .direct contract => contract
  | .proxied proxy _ => proxy

/-- The address that callers use. -/
def address (record : Record) : Address := record.fields.address

/-- Whether the record points at a deployment. -/
def isDeployed (record : Record) : Bool := !record.address.isZero

/-- Whether the contract sits behind a proxy. -/
def isProxy : Record → Bool
  | .direct _ => false
  | .proxied _ _ => true

/-- The snapshot of the implementation behind a proxy. -/
def implementation? : Record → Option Snapshot
  | .direct _ => none
  | .proxied _ implementation => some implementation

/-- The fields of the contract's own code: the implementation's for a contract behind a proxy. -/
def implementation : Record → Snapshot
  | .direct contract => contract
  | .proxied _ implementation => implementation

@[simp] theorem isDeployed_missing : missing.isDeployed = false := by
  simp [isDeployed, address, missing, fields, Snapshot.at]

end Record

/-- The outcome of one deployment. -/
structure Deployed where
  /-- Where the contract is. -/
  address : Address
  /-- The hash of the linked bytecode, constructor arguments left out. -/
  creationCodeHash : Hash
  /-- The hash of the code found at the address once the deployment was included. -/
  runtimeCodeHash : Hash
  /-- The hash of the transaction that created the contract. -/
  txHash : Hash
  /-- The libraries deployed and linked for the contract. -/
  libraries : Libraries
deriving DecidableEq

/-- Arguments as a record keeps them: none rather than an empty list. -/
def recordedArgs (args : List String) : Option (List String) :=
  if args.isEmpty then none else some args

/-- The fields to keep of a deployment that was given these constructor arguments. -/
def Deployed.toSnapshot (deployed : Deployed) (args : List String) : Snapshot where
  address := deployed.address
  constructorArgs := recordedArgs args
  creationCodeHash := some deployed.creationCodeHash
  runtimeCodeHash := some deployed.runtimeCodeHash
  txHash := some deployed.txHash
  libraries := if deployed.libraries.isEmpty then none else some deployed.libraries

end ContractDeploy
