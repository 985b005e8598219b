import ContractDeploy.Proofs.Deployments

/-!
# What the creation of a contract hands to the node

Sending a call from a connected account hands one transaction to the node, whatever the node makes
of it. So creating a contract from an artifact hands over at most one: the linked code with the
encoded arguments behind it, if the code can be linked and the arguments be encoded. `CreationEnd`
says what comes of it in each case.
-/

namespace ContractDeploy

variable {γ φ α β : Type}

/-! ## Sending -/

/-- What an endpoint hands to the node for a call. -/
def Endpoint.transaction (endpoint : Endpoint) (call : Call) : Transaction where
  sender := endpoint.sender.address
  callee := endpoint.callee
  input := call.input

/-- An accepted call. -/
def Endpoint.submitted (endpoint : Endpoint) (call : Call) (txHash : Hash) : Submitted where
  txHash := txHash
  sender := endpoint.sender.address
  callee := endpoint.callee
  function := call.function
  args := call.args

/-- A transaction with the answer that the node gives to it. -/
def Node.attempt (node : Node γ) (transaction : Transaction) (chain : γ) : Submission where
  transaction := transaction
  answer := (node.submit transaction chain).1

/-- The world once a transaction was handed to the node. -/
def Host.handed (host : Host γ φ) (transaction : Transaction) (world : World γ φ) : World γ φ :=
  { world with
    chain := (host.node.submit transaction world.chain).2
    submissions := world.submissions ++ [host.node.attempt transaction world.chain] }

/-- Between two moments of a chain the node took a transaction in, and afterwards it had a receipt
of its success. -/
structure Node.Included (node : Node γ) (before after : γ) (attempt : Submission)
    (receipt : Receipt) : Prop where
  found : ∃ start hash later, node.Reaches before start ∧ attempt.answer = .ok hash ∧
    (node.submit attempt.transaction start).1 = .ok hash ∧
    node.Reaches (node.submit attempt.transaction start).2 later ∧
    (node.receipt hash later).1 = .ok (some receipt) ∧ node.Reaches later after
  succeeded : receipt.succeeded = true

section Included

variable {node : Node γ} {first before after last : γ} {attempt : Submission} {receipt : Receipt}

theorem Node.Included.reaches (h : node.Included before after attempt receipt) :
    node.Reaches before after := by
  obtain ⟨start, hash, later, hstart, -, -, hlater, -, hafter⟩ := h.found
  have hsubmitted : node.Reaches start (node.submit attempt.transaction start).2 :=
    .single (.inl ⟨attempt.transaction, rfl⟩)
  exact hstart.trans (hsubmitted.trans (hlater.trans hafter))

/-- What was included between two moments was so over any stretch around them. -/
theorem Node.Included.widen (h : node.Included before after attempt receipt)
    (hfirst : node.Reaches first before) (hlast : node.Reaches after last) :
    node.Included first last attempt receipt := by
  obtain ⟨start, hash, later, hstart, hanswer, hsubmitted, hlater, hfound, hafter⟩ := h.found
  exact ⟨⟨start, hash, later, hfirst.trans hstart, hanswer, hsubmitted, hlater, hfound,
    hafter.trans hlast⟩, h.succeeded⟩

end Included

/-- A failure that comes from the node: it refused the transaction, the transaction reverted, or
something about it could not be read. -/
def DeployError.FromNode (error : DeployError) : Prop :=
  error.kind = .submission ∨ error.kind = .query

theorem DeployError.FromNode.kind_ne {error : DeployError} (h : error.FromNode) :
    error.kind ≠ .artifactNotFound := by
  rcases h with h | h <;> rw [h] <;> exact nofun

/-- One transaction was handed to the node, and the outcome is its receipt or a failure of the
node. -/
structure Endpoint.Sent (host : Host γ φ) (before : World γ φ) (attempt : Submission)
    (result : Except DeployError Receipt × World γ φ) : Prop where
  handed : result.2.submissions = before.submissions ++ [attempt]
  failed : ∀ error, result.1 = .error error → error.FromNode
  included : ∀ receipt, result.1 = .ok receipt →
    host.node.Included before.chain result.2.chain attempt receipt

/-- Whatever surrounds a submission hands nothing else to the node. -/
theorem surroundingSteps_submissions (host : Host γ φ) (journal : Journal) :
    SurroundingSteps host journal fun before after => after.submissions = before.submissions where
  refl _ := rfl
  trans hfirst hlast := hlast.trans hfirst
  told _ _ := rfl
  clockRead _ := rfl
  journalKept _ _ _ _ _ := rfl
  awaited _ _ := rfl
  codeRead _ _ := rfl

/-- Every failure of a run is of some kind. -/
def Run.FailsWith (P : DeployError → Prop) (run : Run γ φ α) : Prop :=
  ∀ world error after, run world = (.error error, after) → P error

theorem Run.failsWith_pure (P : DeployError → Prop) (value : α) :
    (pure value : Run γ φ α).FailsWith P := by
  intro world error after h
  cases h

theorem Run.failsWith_throw {P : DeployError → Prop} {error : DeployError} (herror : P error) :
    (throw error : Run γ φ α).FailsWith P := by
  intro world found after h
  cases h
  exact herror

theorem Run.failsWith_ofAct (P : DeployError → Prop) (act : Act γ φ α) :
    (liftM act : Run γ φ α).FailsWith P := by
  intro world error after h
  cases h

theorem Run.failsWith_bind {P : DeployError → Prop} {run : Run γ φ α} {next : α → Run γ φ β}
    (hrun : run.FailsWith P) (hnext : ∀ value, (next value).FailsWith P) :
    (run >>= next).FailsWith P := by
  intro world error after h
  cases hfirst : run world with
  | mk outcome middle =>
    cases outcome with
    | ok value =>
      rw [Run.bind_of_ok hfirst] at h
      exact hnext value middle error after h
    | error found =>
      rw [Run.bind_of_error hfirst] at h
      cases h
      exact hrun world error after hfirst

namespace Endpoint

variable {host : Host γ φ} {endpoint : Endpoint} {journal : Journal} {call : Call}
  {world : World γ φ}

/-- A connected account hands the transaction to the node and goes by its answer. -/
theorem submitBare_apply (host : Host γ φ) (h : endpoint.sender.requireConnection = .ok ())
    (call : Call) (world : World γ φ) :
    endpoint.submitBare host call world =
      (((host.node.submit (endpoint.transaction call) world.chain).1.map
          (endpoint.submitted call)).mapError fun reason => .submission (.refused reason),
        host.handed (endpoint.transaction call) world) := by
  have hconnected : (liftM endpoint.sender.requireConnection : Run γ φ Unit) world =
      (.ok (), world) := by
    rw [Run.ofExcept_apply, h]
  have hsubmit : host.submit (endpoint.transaction call) world =
      ((host.node.submit (endpoint.transaction call) world.chain).1.mapError
          fun reason => .submission (.refused reason),
        host.handed (endpoint.transaction call) world) := rfl
  rw [submitBare, Run.bind_of_ok hconnected]
  cases hanswer : (host.node.submit (endpoint.transaction call) world.chain).1 with
  | ok txHash =>
    rw [hanswer] at hsubmit
    exact Run.bind_of_ok hsubmit
  | error reason =>
    rw [hanswer] at hsubmit
    exact Run.bind_of_error hsubmit

/-- An account that is not connected submits nothing. -/
theorem submitBare_of_disconnected (host : Host γ φ) {error : DeployError}
    (h : endpoint.sender.requireConnection = .error error) (call : Call) (world : World γ φ) :
    endpoint.submitBare host call world = (.error error, world) :=
  Run.bind_of_error (by rw [Run.ofExcept_apply, h])

/-- An account that is not connected hands nothing to the node. -/
theorem send_of_disconnected (host : Host γ φ) (endpoint : Endpoint) {error : DeployError}
    (h : endpoint.sender.requireConnection = .error error) (call : Call) (world : World γ φ) :
    endpoint.send host call world = (.error error, world) :=
  Run.bind_of_error (Run.bind_of_error (submitBare_of_disconnected host h call world))

theorem submit_of_submitted (hjournal : endpoint.journal = some journal) {submitted : Submitted}
    {handed : World γ φ} (h : endpoint.submitBare host call world = (.ok submitted, handed)) :
    endpoint.submit host call world = afterSubmission host endpoint journal submitted handed := by
  rw [submit, Run.bind_of_ok h, hjournal]
  rfl

/-- A connected account waits for the transaction. -/
theorem wait_of_connected (host : Host γ φ) (h : endpoint.sender.requireConnection = .ok ())
    (submitted : Submitted) (world : World γ φ) :
    endpoint.wait host submitted world = host.await submitted.txHash world :=
  Run.bind_of_ok (by rw [Run.ofExcept_apply, h])

theorem wait_failsWith (endpoint : Endpoint) (submitted : Submitted)
    (h : endpoint.sender.requireConnection = .ok ()) :
    (endpoint.wait host submitted).FailsWith DeployError.FromNode := by
  intro world error after hwait
  rw [wait_of_connected host h] at hwait
  have hanswer : (host.node.await submitted.txHash world.chain).1.1.mapError
      (fun reason => DeployError.query (.unavailable reason)) = .error error :=
    congrArg Prod.fst hwait
  cases hread : (host.node.await submitted.txHash world.chain).1.1 with
  | ok receipt =>
    rw [hread] at hanswer
    cases hanswer
  | error reason =>
    rw [hread] at hanswer
    cases hanswer
    exact .inr rfl

/-- An account that has a receipt is connected, and the receipt is what it waited for. -/
theorem await_of_wait {submitted : Submitted} {receipt : Receipt} {after : World γ φ}
    (h : endpoint.wait host submitted world = (.ok receipt, after)) :
    endpoint.sender.requireConnection = .ok () ∧
      (host.node.await submitted.txHash world.chain).1.1 = .ok receipt ∧
      (host.node.await submitted.txHash world.chain).2 = after.chain := by
  obtain ⟨_, middle, hrequired, h⟩ := Run.bind_eq_ok h
  obtain ⟨hconnected, rfl⟩ := Run.ofExcept_eq_ok hrequired
  have hanswer : (host.node.await submitted.txHash world.chain).1.1.mapError
      (fun reason => DeployError.query (.unavailable reason)) = .ok receipt :=
    congrArg Prod.fst h
  have hchain : (host.node.await submitted.txHash world.chain).2 = after.chain :=
    congrArg (fun result => result.2.chain) h
  exact ⟨hconnected, mapError_eq_ok hanswer, hchain⟩

theorem wait_eq_ok {submitted : Submitted} {receipt : Receipt} {after : World γ φ}
    (h : endpoint.wait host submitted world = (.ok receipt, after)) :
    ∃ later, host.node.Reaches world.chain later ∧
      (host.node.receipt submitted.txHash later).1 = .ok (some receipt) ∧
      host.node.Reaches later after.chain := by
  obtain ⟨-, hanswer, hchain⟩ := await_of_wait h
  rw [← hchain]
  exact Node.await_eq_ok hanswer

theorem awaitSuccess_eq_ok {submitted : Submitted} {receipt : Receipt} {after : World γ φ}
    (h : awaitSuccess host endpoint submitted world = (.ok receipt, after)) :
    endpoint.wait host submitted world = (.ok receipt, after) ∧ receipt.succeeded = true := by
  obtain ⟨found, middle, hwait, h⟩ := Run.bind_eq_ok h
  split at h
  · next hsucceeded =>
    cases h
    exact ⟨hwait, hsucceeded⟩
  · cases h

theorem afterSubmission_failsWith (hconnected : endpoint.sender.requireConnection = .ok ())
    (submitted : Submitted) :
    (afterSubmission host endpoint journal submitted).FailsWith DeployError.FromNode := by
  refine Run.failsWith_bind (Run.failsWith_ofAct _ _) fun _ => ?_
  refine Run.failsWith_bind (wait_failsWith endpoint submitted hconnected) fun receipt => ?_
  refine Run.failsWith_bind (Run.failsWith_ofAct _ _) fun _ => ?_
  exact Run.failsWith_pure _ submitted

theorem awaitSuccess_failsWith (hconnected : endpoint.sender.requireConnection = .ok ())
    (submitted : Submitted) :
    (awaitSuccess host endpoint submitted).FailsWith DeployError.FromNode := by
  refine Run.failsWith_bind (wait_failsWith endpoint submitted hconnected) fun receipt => ?_
  split
  · exact Run.failsWith_pure _ receipt
  · exact Run.failsWith_throw (.inl rfl)

theorem afterSubmission_eq_ok {submitted found : Submitted} {after : World γ φ}
    (h : afterSubmission host endpoint journal submitted world = (.ok found, after)) :
    found = submitted := by
  obtain ⟨_, _, -, h⟩ := Run.bind_eq_ok h
  obtain ⟨_, _, -, h⟩ := Run.bind_eq_ok h
  obtain ⟨_, _, -, h⟩ := Run.bind_eq_ok h
  cases h
  rfl

/-- A connected account that keeps a journal hands a call to the node exactly once. -/
theorem send_sent (host : Host γ φ) (endpoint : Endpoint)
    (hconnected : endpoint.sender.requireConnection = .ok ())
    (hjournal : endpoint.journal = some journal) (call : Call) (world : World γ φ) :
    Sent host world (host.node.attempt (endpoint.transaction call) world.chain)
      (endpoint.send host call world) := by
  have hsubmit := submitBare_apply host hconnected call world
  cases hanswer : (host.node.submit (endpoint.transaction call) world.chain).1 with
  | error reason =>
    rw [hanswer] at hsubmit
    have hsend : endpoint.send host call world =
        (.error (.submission (.refused reason)), host.handed (endpoint.transaction call) world) :=
      Run.bind_of_error (Run.bind_of_error hsubmit)
    rw [hsend]
    refine ⟨rfl, ?_, ?_⟩
    · intro error herror
      cases herror
      exact .inl rfl
    · intro receipt hreceipt
      cases hreceipt
  | ok txHash =>
    rw [hanswer] at hsubmit
    -- From here on nothing is handed over, and what fails fails because of the node.
    have hsend : endpoint.send host call world =
        (afterSubmission host endpoint journal (endpoint.submitted call txHash) >>=
          awaitSuccess host endpoint) (host.handed (endpoint.transaction call) world) :=
      Run.bind_congr (submit_of_submitted hjournal hsubmit)
    have hquiet := surroundingSteps_submissions host journal
    have hreaches := (deploymentSteps_reaches host journal).toSurroundingSteps
    rw [hsend]
    refine ⟨?_, ?_, ?_⟩
    · exact Run.within_bind hquiet.toCumulative (afterSubmission_within hquiet _ _)
        (fun submitted => awaitSuccess_within hquiet _ submitted) _
    · intro error herror
      exact Run.failsWith_bind (afterSubmission_failsWith hconnected _)
        (awaitSuccess_failsWith hconnected) _ error _ (Prod.ext herror rfl)
    · intro receipt hreceipt
      obtain ⟨submitted, middle, hafter, hawait⟩ := Run.bind_eq_ok (Prod.ext hreceipt rfl)
      obtain rfl := afterSubmission_eq_ok hafter
      obtain ⟨hwait, hsucceeded⟩ := awaitSuccess_eq_ok hawait
      obtain ⟨later, hlater, hfound, hlast⟩ := wait_eq_ok hwait
      have hrecorded := afterSubmission_within hreaches endpoint
        (endpoint.submitted call txHash) (host.handed (endpoint.transaction call) world)
      rw [hafter] at hrecorded
      exact ⟨⟨world.chain, txHash, later, .refl, hanswer, hanswer, hrecorded.trans hlater, hfound,
        hlast⟩, hsucceeded⟩

end Endpoint

/-! ## Creating one contract -/

/-- A deployment is what came of handing a transaction to the node: the contract that the receipt
of its success names, and the code that was then read at its address. -/
structure Deployed.CreatedBy (deployed : Deployed) (node : Node γ) (before after : γ)
    (attempt : Submission) : Prop where
  traced : ∃ receipt included read, node.Included before included attempt receipt ∧
    receipt.contractAddress = some deployed.address ∧ receipt.txHash = deployed.txHash ∧
    node.Reaches included read ∧ deployed.StandsOn node read ∧ node.Reaches read after

theorem Deployed.CreatedBy.reaches {deployed : Deployed} {node : Node γ} {before after : γ}
    {attempt : Submission} (h : deployed.CreatedBy node before after attempt) :
    node.Reaches before after := by
  obtain ⟨receipt, included, read, hincluded, -, -, hread, -, hafter⟩ := h.traced
  exact hincluded.reaches.trans (hread.trans hafter)

theorem Deployed.CreatedBy.widen {deployed : Deployed} {node : Node γ} {first before after last : γ}
    {attempt : Submission} (h : deployed.CreatedBy node before after attempt)
    (hfirst : node.Reaches first before) (hlast : node.Reaches after last) :
    deployed.CreatedBy node first last attempt := by
  obtain ⟨receipt, included, read, hincluded, haddress, hhash, hread, hstands, hafter⟩ := h.traced
  exact ⟨receipt, included, read, hincluded.widen hfirst .refl, haddress, hhash, hread, hstands,
    hafter.trans hlast⟩

/-- What was created comes of an attempt that was included. -/
theorem Deployed.CreatedBy.included {deployed : Deployed} {node : Node γ} {before after : γ}
    {attempt : Submission} (h : deployed.CreatedBy node before after attempt) :
    ∃ receipt, node.Included before after attempt receipt := by
  obtain ⟨receipt, included, read, hincluded, -, -, hread, -, hafter⟩ := h.traced
  exact ⟨receipt, hincluded.widen .refl (hread.trans hafter)⟩

/-- What comes of creating a contract from an artifact: the attempt that was made, if one was, the
outcome, and the world then. -/
inductive CreationEnd (host : Host γ φ) (sender : Address) (artifact : Artifact)
    (args : List String) (libraries : Libraries) (before : World γ φ) :
    Option Submission → Except DeployError Deployed → World γ φ → Prop
  /-- The code cannot be linked or decoded. Nothing is handed to the node. -/
  | unlinked {fault : CodeFault} {after : World γ φ}
      (hcode : artifact.linkedCode libraries = .error fault)
      (handed : after.submissions = before.submissions) :
      CreationEnd host sender artifact args libraries before none (.error (.ofCode fault)) after
  /-- The arguments are none of the constructor. Nothing is handed to the node. -/
  | uncallable {code : Bytes} {fault : CalldataFault} {after : World γ φ}
      (hcode : artifact.linkedCode libraries = .ok code)
      (hencoded : artifact.interface.encodeConstructor args = .error fault)
      (handed : after.submissions = before.submissions) :
      CreationEnd host sender artifact args libraries before none (.error (.calldata fault)) after
  /-- The code with the arguments behind it is handed over once, and then the node fails. -/
  | failed {code encoded : Bytes} {attempt : Submission} {error : DeployError} {after : World γ φ}
      (hcode : artifact.linkedCode libraries = .ok code)
      (hencoded : artifact.interface.encodeConstructor args = .ok encoded)
      (transaction : attempt.transaction = ⟨sender, none, code ++ encoded⟩)
      (handed : after.submissions = before.submissions ++ [attempt])
      (fromNode : error.FromNode) :
      CreationEnd host sender artifact args libraries before (some attempt) (.error error) after
  /-- The code with the arguments behind it is handed over once and creates the contract. -/
  | created {code encoded : Bytes} {attempt : Submission} {deployed : Deployed} {after : World γ φ}
      (hcode : artifact.linkedCode libraries = .ok code)
      (hencoded : artifact.interface.encodeConstructor args = .ok encoded)
      (transaction : attempt.transaction = ⟨sender, none, code ++ encoded⟩)
      (handed : after.submissions = before.submissions ++ [attempt])
      (createdBy : deployed.CreatedBy host.node before.chain after.chain attempt)
      (linked : deployed.libraries = libraries)
      (creationCode : deployed.creationCodeHash = keccak256 code) :
      CreationEnd host sender artifact args libraries before (some attempt) (.ok deployed) after

/-- Where a creation starts matters only for the chain and for what was handed over before. -/
theorem CreationEnd.of_same {host : Host γ φ} {sender : Address} {artifact : Artifact}
    {args : List String} {libraries : Libraries} {before start after : World γ φ}
    {last : Option Submission} {outcome : Except DeployError Deployed}
    (h : CreationEnd host sender artifact args libraries start last outcome after)
    (hchain : start.chain = before.chain) (hsubmissions : start.submissions = before.submissions) :
    CreationEnd host sender artifact args libraries before last outcome after := by
  cases h with
  | unlinked hcode handed => exact .unlinked hcode (handed.trans hsubmissions)
  | uncallable hcode hencoded handed =>
    exact .uncallable hcode hencoded (handed.trans hsubmissions)
  | failed hcode hencoded transaction handed fromNode =>
    exact .failed hcode hencoded transaction (hsubmissions ▸ handed) fromNode
  | created hcode hencoded transaction handed createdBy linked creationCode =>
    exact .created hcode hencoded transaction (hsubmissions ▸ handed) (hchain ▸ createdBy) linked
      creationCode

/-- A creation that fails does not fail for want of an artifact. -/
theorem CreationEnd.kind_ne {host : Host γ φ} {sender : Address} {artifact : Artifact}
    {args : List String} {libraries : Libraries} {before after : World γ φ}
    {last : Option Submission} {error : DeployError}
    (h : CreationEnd host sender artifact args libraries before last (.error error) after) :
    error.kind ≠ .artifactNotFound := by
  cases h with
  | @unlinked fault _ hcode handed => cases fault <;> exact nofun
  | uncallable hcode hencoded handed => exact nofun
  | failed hcode hencoded transaction handed fromNode => exact fromNode.kind_ne

namespace Deployer

variable {host : Host γ φ} {deployer : Deployer φ} {artifact : Artifact} {args : List String}
  {libraries : Libraries} {world : World γ φ}

theorem readBack_failsWith (contract : String) (code : Bytes) (libraries : Libraries)
    (receipt : Receipt) :
    (readBack host contract code libraries receipt).FailsWith DeployError.FromNode := by
  refine Run.failsWith_bind (Run.failsWith_ofAct _ _) fun _ => ?_
  refine Run.failsWith_bind ?_ fun address => ?_
  · intro world error after h
    rw [Run.ofExcept_apply] at h
    have herror := congrArg Prod.fst h
    unfold createdContract at herror
    split at herror
    · cases herror
    · cases herror
      exact .inr rfl
  refine Run.failsWith_bind ?_ fun runtimeCode => ?_
  · intro world error after h
    have herror : (host.node.code address world.chain).1.mapError
        (fun reason => DeployError.query (.unavailable reason)) = .error error :=
      congrArg Prod.fst h
    cases hread : (host.node.code address world.chain).1 with
    | ok code =>
      rw [hread] at herror
      cases herror
    | error reason =>
      rw [hread] at herror
      cases herror
      exact .inr rfl
  refine Run.failsWith_bind (Run.failsWith_ofAct _ _) fun _ => ?_
  exact Run.failsWith_pure _ _

theorem readBack_within {R : World γ φ → World γ φ → Prop} {journal : Journal}
    (h : SurroundingSteps host journal R) (contract : String) (code : Bytes)
    (libraries : Libraries) (receipt : Receipt) :
    (readBack host contract code libraries receipt).Within R := by
  refine Run.within_bind h.toCumulative (Run.tell_within h _) fun _ => ?_
  refine Run.within_bind h.toCumulative (Run.within_ofExcept h.toCumulative _) fun address => ?_
  refine Run.within_bind h.toCumulative (h.codeRead address) fun runtimeCode => ?_
  refine Run.within_bind h.toCumulative (Run.tellAll_within h _) fun _ => ?_
  exact Run.within_pure h.toCumulative _

/-- Without linked code nothing is created. -/
theorem deployArtifact_of_unlinked {fault : CodeFault}
    (hconnected : deployer.sender.requireConnection = .ok ())
    (hcode : artifact.linkedCode libraries = .error fault) (world : World γ φ) :
    deployer.deployArtifact host artifact args libraries world =
      (.error (.ofCode fault), world) := by
  rw [deployArtifact, Run.bind_of_ok (by rw [Run.ofExcept_apply, hconnected])]
  exact Run.bind_of_error (by rw [Run.ofExcept_apply, hcode]; rfl)

/-- The call of a constructor with encoded arguments. -/
def constructorCall (code encoded : Bytes) (args : List String) : Call where
  function := constructorName
  args := args
  input := code ++ encoded

theorem call_creationOf (deployer : Deployer φ) (artifact : Artifact) (code : Bytes)
    (args : List String) :
    (deployer.creationOf artifact code).call args =
      ((artifact.interface.encodeConstructor args).mapError DeployError.calldata).map
        fun encoded => constructorCall code encoded args := by
  show ((artifact.interface.encodeConstructor args).mapError DeployError.calldata >>= fun encoded =>
      pure (constructorCall code encoded args)) = _
  cases artifact.interface.encodeConstructor args with
  | ok encoded => rfl
  | error fault => rfl

/-- With linked code it depends on the arguments whether a creation is sent. -/
theorem deployArtifact_of_linked (host : Host γ φ) {code : Bytes}
    (hconnected : deployer.sender.requireConnection = .ok ())
    (hcode : artifact.linkedCode libraries = .ok code) (args : List String) (world : World γ φ) :
    deployer.deployArtifact host artifact args libraries world =
      (do
        let call ← (deployer.creationOf artifact code).call args
        let receipt ← (deployer.creationOf artifact code).endpoint.send host call
        readBack host artifact.contractName code libraries receipt : Run γ φ Deployed) world := by
  rw [deployArtifact, Run.bind_of_ok (by rw [Run.ofExcept_apply, hconnected]),
    Run.bind_of_ok (by rw [Run.ofExcept_apply, hcode]; rfl)]
  rfl

/-- Once code and arguments are there, one creation is sent, and what it created is read back. -/
theorem sent_creationEnd (host : Host γ φ) (hconnected : deployer.sender.requireConnection = .ok ())
    {code encoded : Bytes} (hcode : artifact.linkedCode libraries = .ok code)
    (hencoded : artifact.interface.encodeConstructor args = .ok encoded) (world : World γ φ) :
    ∃ last outcome after,
      ((deployer.creationOf artifact code).endpoint.send host
          (constructorCall code encoded args) >>=
        readBack host artifact.contractName code libraries) world = (outcome, after) ∧
      CreationEnd host deployer.sender.address artifact args libraries world last outcome
        after := by
  have hsent := Endpoint.send_sent host (deployer.creationOf artifact code).endpoint hconnected rfl
    (constructorCall code encoded args) world
  cases hsend : (deployer.creationOf artifact code).endpoint.send host
      (constructorCall code encoded args) world with
  | mk outcome middle =>
    rw [hsend] at hsent
    cases outcome with
    | error error =>
      exact ⟨some _, _, middle, Run.bind_of_error hsend,
        .failed hcode hencoded rfl hsent.handed (hsent.failed error rfl)⟩
    | ok receipt =>
      rw [Run.bind_of_ok hsend]
      have hquiet := readBack_within (surroundingSteps_submissions host deployer.journal)
        artifact.contractName code libraries receipt middle
      cases hback : readBack host artifact.contractName code libraries receipt middle with
      | mk outcome after =>
        rw [hback] at hquiet
        have hhanded := hquiet.trans hsent.handed
        refine ⟨some (host.node.attempt
          ((deployer.creationOf artifact code).endpoint.transaction
            (constructorCall code encoded args)) world.chain), outcome, after, rfl, ?_⟩
        cases outcome with
        | error error =>
          exact .failed hcode hencoded rfl hhanded
            (readBack_failsWith _ _ _ _ middle error after hback)
        | ok deployed =>
          obtain ⟨haddress, htxHash, hlinked, hcreation, hstands, hafter⟩ := readBack_eq_ok hback
          exact .created hcode hencoded rfl hhanded
            ⟨receipt, middle.chain, middle.chain, hsent.included receipt rfl, haddress,
              htxHash.symm, .refl, hstands, hafter⟩ hlinked hcreation

/-- Creating a contract hands at most one transaction to the node, with the linked code and the
encoded arguments behind it. -/
theorem deployArtifact_creationEnd (host : Host γ φ)
    (hconnected : deployer.sender.requireConnection = .ok ()) (artifact : Artifact)
    (args : List String) (libraries : Libraries) (world : World γ φ) :
    ∃ last outcome after,
      deployer.deployArtifact host artifact args libraries world = (outcome, after) ∧
      CreationEnd host deployer.sender.address artifact args libraries world last outcome
        after := by
  cases hcode : artifact.linkedCode libraries with
  | error fault =>
    exact ⟨none, _, world, deployArtifact_of_unlinked hconnected hcode world, .unlinked hcode rfl⟩
  | ok code =>
    have hrun := deployArtifact_of_linked host hconnected hcode args world
    rw [hrun, call_creationOf]
    cases hencoded : artifact.interface.encodeConstructor args with
    | error fault =>
      refine ⟨none, _, world, Run.bind_of_error ?_, .uncallable hcode hencoded rfl⟩
      rw [Run.ofExcept_apply]
      rfl
    | ok encoded =>
      have hcall : (liftM (((Except.ok encoded : Except CalldataFault Bytes).mapError
          DeployError.calldata).map fun encoded => constructorCall code encoded args) :
            Run γ φ Call) world = (.ok (constructorCall code encoded args), world) := rfl
      rw [Run.bind_of_ok hcall]
      exact sent_creationEnd host hconnected hcode hencoded world

end Deployer

end ContractDeploy
