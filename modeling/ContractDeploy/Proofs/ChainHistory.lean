import ContractDeploy.Proofs.Footprint
import Mathlib.Logic.Relation

/-!
# What a run does to the chain

The chain changes by what the node is asked, and a deployment asks it three things: to take in a
transaction, for a receipt, and for the code at an address. So the chain at the end of a deployment
is reached from the one at its start, and every moment at which something was read lies between.
-/

namespace ContractDeploy

variable {γ φ : Type}

/-- A node was asked once. -/
def Node.Asked (node : Node γ) (before after : γ) : Prop :=
  (∃ transaction, after = (node.submit transaction before).2) ∨
    (∃ hash, after = (node.receipt hash before).2) ∨
    ∃ address, after = (node.code address before).2

/-- A node was asked any number of times. -/
abbrev Node.Reaches (node : Node γ) : γ → γ → Prop := Relation.ReflTransGen node.Asked

/-- A node was asked any number of times, but not to take in a transaction. -/
abbrev Node.Queried (node : Node γ) : γ → γ → Prop :=
  Relation.ReflTransGen fun before after =>
    (∃ hash, after = (node.receipt hash before).2) ∨ ∃ address, after = (node.code address before).2

theorem Node.Queried.reaches {node : Node γ} {before after : γ} (h : node.Queried before after) :
    node.Reaches before after :=
  Relation.ReflTransGen.mono (fun _ _ hasked => .inr hasked) before after h

/-- Waiting for a transaction is asking for its receipt again and again. -/
theorem Node.queried_await (node : Node γ) (hash : Hash) (state : γ) :
    node.Queried state (node.await hash state).2 := by
  fun_induction Node.await node hash state with
  | case1 state receipt next h =>
    exact .single (.inl ⟨hash, by rw [h]⟩)
  | case2 state reason next h =>
    exact .single (.inl ⟨hash, by rw [h]⟩)
  | case3 state next h hless outcome polls last hawait ih =>
    rw [hawait] at ih
    exact .head (.inl ⟨hash, by rw [h]⟩) ih

theorem Node.reaches_await (node : Node γ) (hash : Hash) (state : γ) :
    node.Reaches state (node.await hash state).2 :=
  (node.queried_await hash state).reaches

/-- A receipt that was waited for was there at some moment of the wait. -/
theorem Node.await_eq_ok {node : Node γ} {hash : Hash} {state : γ} {receipt : Receipt}
    (h : (node.await hash state).1.1 = .ok receipt) :
    ∃ found, node.Reaches state found ∧ (node.receipt hash found).1 = .ok (some receipt) ∧
      node.Reaches found (node.await hash state).2 := by
  fun_induction Node.await node hash state with
  | case1 state found next hread =>
    have hnext : node.Asked state next := .inr (.inl ⟨hash, by rw [hread]⟩)
    refine ⟨state, .refl, ?_, .single hnext⟩
    cases h
    rw [hread]
  | case2 state reason next hread => cases h
  | case3 state next hread hless outcome polls last hawait ih =>
    rw [hawait] at ih
    obtain ⟨found, hreach, hfound, hlast⟩ := ih h
    have hnext : node.Asked state next := .inr (.inl ⟨hash, by rw [hread]⟩)
    exact ⟨found, .head hnext hreach, hfound, hlast⟩

/-- A deployment takes the chain from one moment to another. -/
theorem deploymentSteps_reaches (host : Host γ φ) (journal : Journal) :
    DeploymentSteps host journal fun before after =>
      host.node.Reaches before.chain after.chain where
  refl _ := .refl
  trans := .trans
  told _ _ := .refl
  clockRead _ := .refl
  journalKept _ _ _ _ _ := .refl
  submitted transaction _ := .single (.inl ⟨transaction, rfl⟩)
  awaited hash world := host.node.reaches_await hash world.chain
  codeRead address _ := .single (.inr (.inr ⟨address, rfl⟩))

end ContractDeploy
