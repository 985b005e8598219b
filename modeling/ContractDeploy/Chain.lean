import ContractDeploy.Bytes

/-!
# The chain

What the tool asks of a node: to take in a transaction, and to tell receipts, code, the latest
block and the network. A node is any state together with these operations, so what is proved of a
run holds for every way in which a chain may answer. The one promise is that a transaction does
not stay pending for ever: each answer that it still is leaves fewer of them to come.
-/

namespace ContractDeploy

/-- A transaction to be sent. -/
structure Transaction where
  /-- The account it is sent from. -/
  sender : Address
  /-- The contract it calls, none if it creates one. -/
  callee : Option Address
  /-- The call data, or the code that creates the contract. -/
  input : Bytes
deriving DecidableEq

/-- What the chain keeps of an included transaction. -/
structure Receipt where
  /-- The hash of the transaction. -/
  txHash : Hash
  /-- The account it was sent from. -/
  sender : Address
  /-- The contract it called, none if it created one. -/
  callee : Option Address
  /-- The contract it created, if any. -/
  contractAddress : Option Address
  /-- Whether it succeeded. -/
  succeeded : Bool
  /-- The block it was included in. -/
  blockNumber : Option Nat
deriving DecidableEq

/-- A node with states in `γ`. A failure comes with the node's own words. -/
structure Node (γ : Type) where
  /-- Takes in a transaction and gives its hash. -/
  submit : Transaction → γ → Except String Hash × γ
  /-- The receipt of a transaction, none while it is pending. -/
  receipt : Hash → γ → Except String (Option Receipt) × γ
  /-- The code at an address. -/
  code : Address → γ → Except String Bytes × γ
  /-- The number of the latest block. -/
  blockNumber : γ → Except String Nat × γ
  /-- The base fee of the latest block, if the chain has one. -/
  baseFee : γ → Except String (Option Nat) × γ
  /-- The id of the network. -/
  chainId : γ → Except String Nat × γ
  /-- A bound on how often a transaction will still be found pending. -/
  patience : Hash → γ → Nat
  /-- Finding a transaction pending uses up some of that bound. -/
  patience_decreases : ∀ hash before after,
    receipt hash before = (.ok none, after) → patience hash after < patience hash before

namespace Node

/-- The milliseconds between two reads of a receipt. -/
def pollMillis : Nat := 1000

variable {γ : Type}

/-- Reads a receipt until it is there or cannot be read, and counts how often the transaction was
still pending. -/
def await (node : Node γ) (hash : Hash) (state : γ) : (Except String Receipt × Nat) × γ :=
  match h : node.receipt hash state with
  | (.ok (some receipt), state) => ((.ok receipt, 0), state)
  | (.error reason, state) => ((.error reason, 0), state)
  | (.ok none, next) =>
    have := node.patience_decreases hash state next h
    let ((outcome, polls), last) := node.await hash next
    ((outcome, polls + 1), last)
termination_by node.patience hash state

end Node

end ContractDeploy
