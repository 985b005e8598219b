import ContractDeploy.Files.Tree
import ContractDeploy.Proofs.ChainDependence
import ContractDeploy.Proofs.Creations

/-!
# A journal does not show

What is sent through a handle with a journal is submitted as without it, but waited for twice: a
first time to record the outcome, and a second time because sending waits. Where a receipt stays
once it is there, the second wait ends at once with the receipt of the first. So the two ways of
sending hand over the same transaction, come to the same outcome on every way in which a call can
fail, and leave the same chain behind, but for one more read of a receipt.
-/

namespace ContractDeploy

variable {γ φ : Type}

/-! ## Receipts that stay -/

namespace Node

variable {node : Node γ} {start state next : γ} {hash : Hash} {receipt : Receipt}

/-- From some moment on, a receipt that was there once is there, and is the same, ever after. -/
def KeepsReceipts (node : Node γ) (start : γ) : Prop :=
  ∀ chain, node.Reaches start chain → ∀ hash receipt,
    (node.receipt hash chain).1 = .ok (some receipt) →
      ∀ later, node.Reaches chain later → (node.receipt hash later).1 = .ok (some receipt)

/-- A receipt that was there was read once more. -/
def Reread (node : Node γ) (before after : γ) : Prop :=
  ∃ hash receipt, node.receipt hash before = (.ok (some receipt), after)

/-- A receipt that is there is waited for with one read. -/
theorem await_of_available (h : node.receipt hash state = (.ok (some receipt), next)) :
    node.await hash state = ((.ok receipt, 0), next) := by
  rw [await.eq_def]
  split
  · next found last hfound =>
    rw [h] at hfound
    cases hfound
    rfl
  · next reason last hfound =>
    rw [h] at hfound
    cases hfound
  · next last hfound =>
    rw [h] at hfound
    cases hfound

/-- A receipt that was waited for is still there afterwards. -/
theorem KeepsReceipts.available (h : node.KeepsReceipts start) (hstart : node.Reaches start state)
    (hawait : (node.await hash state).1.1 = .ok receipt) :
    ∃ next, node.receipt hash (node.await hash state).2 = (.ok (some receipt), next) := by
  obtain ⟨found, hfound, hread, hlast⟩ := Node.await_eq_ok hawait
  have hthere := h found (hstart.trans hfound) hash receipt hread _ hlast
  exact ⟨_, Prod.ext hthere rfl⟩

end Node

/-! ## Sending twice waited for -/

/-- What is the same of a call that was sent through a handle with a journal and through the handle
alone, and what may differ. -/
structure SentAlike (host : Host γ φ) (transaction : Transaction) (before : World γ φ)
    (logged bare : Except DeployError Receipt × World γ φ) : Prop where
  outcome : logged.1 = bare.1
  /-- Both handed over the one transaction, or both handed over nothing. -/
  handed : ∃ attempts,
    (attempts = [] ∨ attempts = [host.node.attempt transaction before.chain]) ∧
      logged.2.submissions = before.submissions ++ attempts ∧
      bare.2.submissions = before.submissions ++ attempts
  /-- The chain is the same, unless a receipt was read once more. -/
  chain : logged.2.chain = bare.2.chain ∨ host.node.Reread bare.2.chain logged.2.chain

namespace Endpoint

/-- The same endpoint, keeping a journal. -/
def logged (endpoint : Endpoint) (journal : Journal) : Endpoint :=
  { endpoint with journal := some journal }

variable {host : Host γ φ} {endpoint : Endpoint} {journal : Journal} {submitted : Submitted}
  {call : Call} {world waited after : World γ φ} {receipt : Receipt}

theorem submit_of_bare (hbare : endpoint.journal = none)
    (h : endpoint.submitBare host call world = (.ok submitted, after)) :
    endpoint.submit host call world = (.ok submitted, after) := by
  rw [submit, Run.bind_of_ok h, hbare]
  rfl

/-- If the receipt cannot be had, recording fails as waiting for it does. -/
theorem afterSubmission_of_error {error : DeployError} (host : Host γ φ) (endpoint : Endpoint)
    (journal : Journal) (h : endpoint.wait host submitted world = (.error error, waited)) :
    ∃ after, afterSubmission host endpoint journal submitted world = (.error error, after) ∧
      after.Alike waited := by
  have hrecord := Journal.record_quiet host journal (callLines endpoint.name submitted) world
  obtain ⟨houtcome, halike⟩ := wait_byChain host endpoint submitted _ _ hrecord
  rw [h] at houtcome halike
  cases hwait : endpoint.wait host submitted
      (journal.record host (callLines endpoint.name submitted) world).2 with
  | mk outcome after =>
    rw [hwait] at houtcome halike
    cases houtcome
    refine ⟨after, ?_, halike⟩
    rw [afterSubmission, Run.bind_of_ok (Run.ofAct_apply _ world)]
    exact Run.bind_of_error hwait

/-- If it is had, recording leaves the world as waiting for it does. -/
theorem afterSubmission_of_ok (host : Host γ φ) (endpoint : Endpoint) (journal : Journal)
    (h : endpoint.wait host submitted world = (.ok receipt, waited)) :
    ∃ after, afterSubmission host endpoint journal submitted world = (.ok submitted, after) ∧
      after.Alike waited := by
  have hrecord := Journal.record_quiet host journal (callLines endpoint.name submitted) world
  obtain ⟨houtcome, halike⟩ := wait_byChain host endpoint submitted _ _ hrecord
  rw [h] at houtcome halike
  cases hwait : endpoint.wait host submitted
      (journal.record host (callLines endpoint.name submitted) world).2 with
  | mk outcome after =>
    rw [hwait] at houtcome halike
    cases houtcome
    have hrecorded := recordOutcome_quiet host journal receipt after
    refine ⟨(recordOutcome host journal receipt after).2, ?_, hrecorded.trans halike⟩
    rw [afterSubmission, Run.bind_of_ok (Run.ofAct_apply _ world), Run.bind_of_ok hwait,
      Run.bind_of_ok (Run.ofAct_apply _ after)]
    rfl

/-- Waiting a second time gives the receipt of the first, with one more read. -/
theorem wait_again {later : World γ φ} (hkeeps : host.node.KeepsReceipts world.chain)
    (h : endpoint.wait host submitted world = (.ok receipt, waited)) (hlater : later.Alike waited) :
    ∃ again, endpoint.wait host submitted later = (.ok receipt, again) ∧
      again.submissions = later.submissions ∧ host.node.Reread waited.chain again.chain := by
  obtain ⟨hconnected, hanswer, hchain⟩ := await_of_wait h
  obtain ⟨next, hthere⟩ := hkeeps.available .refl hanswer
  rw [hchain] at hthere
  have hagain : host.node.await submitted.txHash later.chain = ((.ok receipt, 0), next) := by
    rw [hlater.chain]
    exact Node.await_of_available hthere
  have hawait : host.await submitted.txHash later =
      (.ok receipt, { later with chain := next, notices := later.notices ++ [] }) := by
    simp only [Host.await, hagain]
    rfl
  have hwait := (wait_of_connected host hconnected submitted later).trans hawait
  exact ⟨_, hwait, rfl, submitted.txHash, receipt, hthere⟩

/-- What is done with the receipt of a call that was sent: it is given if the call succeeded. -/
theorem awaitSuccess_of_wait (host : Host γ φ)
    (h : endpoint.wait host submitted world = (.ok receipt, after)) :
    awaitSuccess host endpoint submitted world =
      (if receipt.succeeded then .ok receipt
        else .error (.submission (.reverted endpoint.name submitted.function submitted.txHash)),
        after) := by
  rw [awaitSuccess, Run.bind_of_ok h]
  split <;> rfl

/-- A call that the node took in comes to the same with a journal and without. -/
theorem accepted_sentAlike (journal : Journal) {transaction : Transaction}
    (hbare : endpoint.journal = none) (hkeeps : host.node.KeepsReceipts world.chain)
    (hsubmit : endpoint.submitBare host call world =
      (.ok submitted, host.handed transaction world)) :
    SentAlike host transaction world ((endpoint.logged journal).send host call world)
      (endpoint.send host call world) := by
  have hreached : host.node.Reaches world.chain (host.handed transaction world).chain :=
    .single (.inl ⟨transaction, rfl⟩)
  have hkept : host.node.KeepsReceipts (host.handed transaction world).chain :=
    fun chain hchain => hkeeps chain (hreached.trans hchain)
  have hlogged : (endpoint.logged journal).send host call world =
      (afterSubmission host (endpoint.logged journal) journal submitted >>=
        awaitSuccess host (endpoint.logged journal)) (host.handed transaction world) :=
    Run.bind_congr (submit_of_submitted rfl hsubmit)
  have hplain : endpoint.send host call world =
      awaitSuccess host endpoint submitted (host.handed transaction world) :=
    Run.bind_of_ok (submit_of_bare hbare hsubmit)
  have hquiet := wait_within (surroundingSteps_submissions host journal) endpoint submitted
    (host.handed transaction world)
  rw [hlogged, hplain]
  cases hwait : endpoint.wait host submitted (host.handed transaction world) with
  | mk outcome waited =>
    rw [hwait] at hquiet
    cases outcome with
    | error error =>
      -- Without a receipt the first wait ends both.
      obtain ⟨after, hrecord, halike⟩ := afterSubmission_of_error host
        (endpoint.logged journal) journal hwait
      have hfailed : awaitSuccess host endpoint submitted (host.handed transaction world) =
          (.error error, waited) := Run.bind_of_error hwait
      rw [Run.bind_of_error hrecord, hfailed]
      exact ⟨rfl, ⟨_, .inr rfl, halike.submissions.trans hquiet, hquiet⟩, .inl halike.chain⟩
    | ok receipt =>
      obtain ⟨after, hrecord, halike⟩ := afterSubmission_of_ok host (endpoint.logged journal)
        journal hwait
      obtain ⟨again, hagain, hsubmissions, hreread⟩ := wait_again hkept hwait halike
      have hlogged : (endpoint.logged journal).wait host submitted after = (.ok receipt, again) :=
        hagain
      rw [Run.bind_of_ok hrecord, awaitSuccess_of_wait host hwait,
        awaitSuccess_of_wait host hlogged]
      exact ⟨rfl, ⟨_, .inr rfl, hsubmissions.trans (halike.submissions.trans hquiet), hquiet⟩,
        .inr hreread⟩

/-- A call comes to the same with a journal and without. -/
theorem send_sentAlike (host : Host γ φ) (journal : Journal) (hbare : endpoint.journal = none)
    (hkeeps : host.node.KeepsReceipts world.chain) (call : Call) :
    SentAlike host (endpoint.transaction call) world
      ((endpoint.logged journal).send host call world) (endpoint.send host call world) := by
  cases hconnected : endpoint.sender.requireConnection with
  | error error =>
    rw [send_of_disconnected host endpoint hconnected,
      send_of_disconnected host (endpoint.logged journal) hconnected]
    have hnone : world.submissions = world.submissions ++ [] := (List.append_nil _).symm
    exact ⟨rfl, ⟨[], .inl rfl, hnone, hnone⟩, .inl rfl⟩
  | ok _ =>
    have hsubmit := submitBare_apply host hconnected call world
    cases hanswer : (host.node.submit (endpoint.transaction call) world.chain).1 with
    | ok txHash =>
      rw [hanswer] at hsubmit
      exact accepted_sentAlike journal hbare hkeeps hsubmit
    | error reason =>
      rw [hanswer] at hsubmit
      have hrefused (endpoint : Endpoint) {handed : World γ φ}
          (hsubmit : endpoint.submitBare host call world =
            (.error (.submission (.refused reason)), handed)) :
          endpoint.send host call world = (.error (.submission (.refused reason)), handed) :=
        Run.bind_of_error (Run.bind_of_error hsubmit)
      rw [hrefused endpoint hsubmit, hrefused (endpoint.logged journal) hsubmit]
      exact ⟨rfl, ⟨_, .inr rfl, rfl, rfl⟩, .inl rfl⟩

end Endpoint

/-! ## Handles -/

/-- What calls are sent through: a handle on a contract, or on one that is yet to be created. -/
inductive Handle where
  | contract (contract : Contract)
  | creation (creation : Creation)

namespace Handle

/-- The handle as something that calls are sent to. -/
def endpoint : Handle → Endpoint
  | .contract called => called.endpoint
  | .creation created => created.endpoint

/-- The same handle, sending from another account. -/
def connect (handle : Handle) (sender : Sender) : Handle :=
  match handle with
  | .contract called => .contract (called.connect sender)
  | .creation created => .creation (created.connect sender)

/-- The handle connected to several accounts, one after the other. -/
def connectAll (handle : Handle) (senders : List Sender) : Handle := senders.foldl connect handle

/-- The handle alone. -/
def bare : Handle → Handle
  | .contract called => .contract { called with journal := none }
  | .creation created => .creation { created with journal := none }

/-- The handle with a journal. -/
def logged (handle : Handle) (journal : Journal) : Handle :=
  match handle with
  | .contract called => .contract { called with journal := some journal }
  | .creation created => .creation { created with journal := some journal }

variable (handle : Handle) (journal : Journal) (senders : List Sender)

theorem endpoint_logged : (handle.logged journal).endpoint = handle.endpoint.logged journal := by
  cases handle <;> rfl

/-- A handle with a journal that is connected to an account keeps the journal. -/
theorem connect_logged (sender : Sender) :
    (handle.logged journal).connect sender = (handle.connect sender).logged journal := by
  cases handle <;> rfl

theorem connectAll_logged :
    (handle.logged journal).connectAll senders = (handle.connectAll senders).logged journal := by
  induction senders generalizing handle with
  | nil => rfl
  | cons sender senders ih =>
    show ((handle.logged journal).connect sender).connectAll senders = _
    rw [connect_logged]
    exact ih (handle.connect sender)

/-- A handle without a journal does not get one by being connected. -/
theorem journal_connectAll (h : handle.endpoint.journal = none) :
    (handle.connectAll senders).endpoint.journal = none := by
  induction senders generalizing handle with
  | nil => exact h
  | cons sender senders ih =>
    refine ih (handle.connect sender) ?_
    cases handle <;> exact h

end Handle

/-- A journal does not show. Where receipts stay once they are there, a call that is sent through a
handle with a journal comes to the same receipt or the same error as through the handle alone, with
the same transaction handed over or none, and with the same chain but for one more read of the
receipt; and a handle with a journal that is connected to other accounts is the connected handle
with that journal. -/
theorem journal_is_transparent (host : Host γ φ) (handle : Handle) (journal : Journal)
    (senders : List Sender) (call : Call) (world : World γ φ)
    (hkeeps : host.node.KeepsReceipts world.chain) :
    let connected := handle.bare.connectAll senders
    let logged := (handle.bare.logged journal).connectAll senders
    logged = connected.logged journal ∧
      SentAlike host (connected.endpoint.transaction call) world
        (logged.endpoint.send host call world) (connected.endpoint.send host call world) := by
  intro connected logged
  have hlogged : logged = connected.logged journal :=
    handle.bare.connectAll_logged journal senders
  have hbare : connected.endpoint.journal = none := by
    refine handle.bare.journal_connectAll senders ?_
    cases handle <;> rfl
  refine ⟨hlogged, ?_⟩
  rw [hlogged, Handle.endpoint_logged]
  exact Endpoint.send_sentAlike host journal hbare hkeeps call

/-! ## A node that makes one wait -/

/-- A node that has receipts only after they were asked for a number of times. -/
def slowNode : Node Nat where
  submit _ missing := (.ok (FixedBytes.ofNat 7), missing)
  receipt hash missing :=
    if 0 < missing then (.ok none, missing - 1)
    else (.ok (some {
      txHash := hash
      sender := FixedBytes.ofNat 1
      callee := some (FixedBytes.ofNat 16)
      contractAddress := none
      succeeded := false
      blockNumber := none }), 0)
  code _ missing := (.ok [], missing)
  blockNumber missing := (.ok 0, missing)
  baseFee missing := (.ok none, missing)
  chainId missing := (.ok 1337, missing)
  patience _ missing := missing
  patience_decreases hash before after h := by
    split at h
    · simp only [Prod.mk.injEq, true_and] at h
      omega
    · simp at h

theorem slowNode_keepsReceipts (start : Nat) : slowNode.KeepsReceipts start := by
  intro chain _ hash receipt hread later hlater
  -- A receipt is there when no more of them are missing, and that remains so.
  have hnone : chain = 0 := by
    refine Nat.eq_zero_of_not_pos fun hmissing => ?_
    have hpending : slowNode.receipt hash chain = (.ok none, chain - 1) := if_pos hmissing
    rw [hpending] at hread
    cases hread
  subst hnone
  have hlater : later = 0 := by
    induction hlater with
    | refl => rfl
    | tail _ hasked ih =>
      subst ih
      rcases hasked with ⟨_, rfl⟩ | ⟨_, rfl⟩ | ⟨_, rfl⟩ <;> rfl
  rw [hlater]
  exact hread

/-- A call that reverts is sent from another account, and its receipt is asked for in vain twice. -/
theorem journal_is_transparent_slow :
    let host : Host Nat FileTree :=
      { node := slowNode, disk := FileTree.disk, clock := fun _ => ⟨0⟩ }
    let world : World Nat FileTree := { chain := 2, files := .directory "tx-logs" .done .done }
    let token := Handle.contract {
      name := "Token"
      address := FixedBytes.ofNat 16
      interface := { constructorInputs := none }
      sender := { address := FixedBytes.ofNat 1 }
      journal := none }
    let call : Call := { function := "pause", args := [], input := [1, 2, 3, 4] }
    let senders : List Sender := [{ address := FixedBytes.ofNat 2 }]
    let connected := token.bare.connectAll senders
    let logged := (token.bare.logged ⟨some "tx-logs"⟩).connectAll senders
    host.node.KeepsReceipts world.chain ∧ logged = connected.logged ⟨some "tx-logs"⟩ ∧
      SentAlike host (connected.endpoint.transaction call) world
        (logged.endpoint.send host call world) (connected.endpoint.send host call world) := by
  intro host world token call senders connected logged
  have hkeeps : host.node.KeepsReceipts world.chain := slowNode_keepsReceipts 2
  exact ⟨hkeeps, journal_is_transparent host token ⟨some "tx-logs"⟩ _ call world hkeeps⟩

end ContractDeploy
