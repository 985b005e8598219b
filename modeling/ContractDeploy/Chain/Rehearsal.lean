import ContractDeploy.Address
import ContractDeploy.Files.Tree
import ContractDeploy.World

/-!
# Rehearsals

A chain held in memory, on which a deployment can be rehearsed. Every accepted transaction gets a
block of its own, and a created contract has the input of its creation as code. Attempts are
numbered from zero, refused ones included, and a script says which of them the node refuses, which
revert, whose receipts name no contract or cannot be read, and how often a receipt is still missing.
-/

namespace ContractDeploy

/-- What is to happen on a rehearsed chain. -/
structure Script where
  /-- The attempts that are refused. -/
  refused : List Nat := []
  /-- The transactions that revert. -/
  reverting : List Nat := []
  /-- The creations whose receipts name no contract. -/
  nameless : List Nat := []
  /-- The transactions whose receipts cannot be read. -/
  unreadable : List Nat := []
  /-- How often the receipt of a transaction is still missing. -/
  pending : List (Nat × Nat) := []
  /-- The code that creations leave, where it is not their input. -/
  creationCode : List (Nat × Bytes) := []
  /-- The addresses whose code cannot be read. -/
  hiddenCode : List Address := []
  /-- The id of the network. -/
  chainId : Nat := 1337
  /-- The base fee, if the chain has one. -/
  baseFee : Option Nat := some 7
  /-- Whether the id of the network cannot be read. -/
  down : Bool := false

/-- The state of a rehearsed chain. -/
structure Rehearsal where
  /-- What is to happen. -/
  script : Script := {}
  /-- How many transactions were attempted. -/
  attempts : Nat := 0
  /-- The next nonces, zero for accounts that are not named. -/
  nonces : List (Address × Nat) := []
  /-- Code by address, empty for addresses that are not named. -/
  code : List (Address × Bytes) := []
  /-- Receipts by hash, each with the number of its attempt. -/
  receipts : List (Hash × Nat × Receipt) := []
  /-- The number of the latest block. -/
  blockNumber : Nat := 0

namespace Rehearsal

/-- The first value under a key. -/
def find? {κ α : Type} [DecidableEq κ] (pairs : List (κ × α)) (key : κ) : Option α :=
  (pairs.find? fun pair => pair.1 = key).map (·.2)

/-- The next nonce of an account. -/
def nonceOf (state : Rehearsal) (account : Address) : Nat :=
  (find? state.nonces account).getD 0

/-- The code at an address. -/
def codeOf (state : Rehearsal) (address : Address) : Bytes := (find? state.code address).getD []

/-- The hash of a transaction: of its account and nonce. -/
def hashOf (account : Address) (nonce : Nat) : Hash :=
  keccak256 (account.bytes ++ Bytes.ofNat 8 nonce)

/-- Takes in a transaction. -/
def submit (transaction : Transaction) (state : Rehearsal) : Except String Hash × Rehearsal :=
  let attempt := state.attempts
  let state := { state with attempts := attempt + 1 }
  if attempt ∈ state.script.refused then (.error "rejected by the node", state)
  else
    let sender := transaction.sender
    let nonce := state.nonceOf sender
    let txHash := hashOf sender nonce
    let succeeded := attempt ∉ state.script.reverting
    let created :=
      if transaction.callee.isNone && succeeded then some (sender.created nonce) else none
    let left := (find? state.script.creationCode attempt).getD transaction.input
    let receipt : Receipt := {
      txHash
      sender
      callee := transaction.callee
      contractAddress := if attempt ∈ state.script.nameless then none else created
      succeeded
      blockNumber := some (state.blockNumber + 1) }
    (.ok txHash,
      { state with
        nonces := (sender, nonce + 1) :: state.nonces
        code := (created.toList.map fun address => (address, left)) ++ state.code
        receipts := (txHash, attempt, receipt) :: state.receipts
        blockNumber := state.blockNumber + 1 })

/-- How often the receipt of an attempt is still missing. -/
def missing (state : Rehearsal) (attempt : Nat) : Nat :=
  (find? state.script.pending attempt).getD 0

/-- Reads a receipt. -/
def receipt (hash : Hash) (state : Rehearsal) : Except String (Option Receipt) × Rehearsal :=
  match find? state.receipts hash with
  | none => (.error "unknown transaction", state)
  | some (attempt, receipt) =>
    if attempt ∈ state.script.unreadable then (.error "receipt unavailable", state)
    else
      match state.missing attempt with
      | 0 => (.ok (some receipt), state)
      | count + 1 =>
        let pending := (attempt, count) :: state.script.pending
        (.ok none, { state with script := { state.script with pending } })

/-- A bound on how often a receipt will still be missing. -/
def patience (hash : Hash) (state : Rehearsal) : Nat :=
  match find? state.receipts hash with
  | none => 0
  | some (attempt, _) => state.missing attempt

theorem patience_decreases (hash : Hash) (before after : Rehearsal)
    (h : receipt hash before = (.ok none, after)) : patience hash after < patience hash before := by
  unfold receipt at h
  split at h
  · simp at h
  · next attempt found hfound =>
    split at h
    · simp at h
    · split at h
      · simp at h
      · next count hcount =>
        simp only [Prod.mk.injEq, true_and] at h
        subst h
        have hbefore : patience hash before = count + 1 := by simp [patience, hfound, hcount]
        rw [hbefore]
        unfold patience
        simp only [hfound]
        simp [missing, find?]

/-- Reads the code at an address. -/
def readCode (address : Address) (state : Rehearsal) : Except String Bytes × Rehearsal :=
  if address ∈ state.script.hiddenCode then (.error "code unavailable", state)
  else (.ok (state.codeOf address), state)

/-- Reads the id of the network. -/
def readChainId (state : Rehearsal) : Except String Nat × Rehearsal :=
  if state.script.down then (.error "chain id unavailable", state)
  else (.ok state.script.chainId, state)

/-- A rehearsed chain as a node. -/
def node : Node Rehearsal where
  submit := submit
  receipt := receipt
  code := readCode
  blockNumber state := (.ok state.blockNumber, state)
  baseFee state := (.ok state.script.baseFee, state)
  chainId := readChainId
  patience := patience
  patience_decreases := patience_decreases

end Rehearsal

/-- A host for rehearsals. Its clock stands at the start of 1970. -/
def rehearsalHost : Host Rehearsal FileTree where
  node := Rehearsal.node
  disk := FileTree.disk
  clock _ := ⟨0⟩

end ContractDeploy
