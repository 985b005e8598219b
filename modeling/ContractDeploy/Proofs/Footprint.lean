import ContractDeploy.Upgrade
import ContractDeploy.Proofs.Runs

/-!
# What a deployment touches

A deployment tells notices, reads the clock, adds to its journal and asks the node; it does nothing
else to the world. So a relation between moments that each of these keeps is kept by every
deployment and by every step of an upgrade, however they end. Statements about the files, about the
chain or about what was submitted choose a relation and get the rest from here.
-/

namespace ContractDeploy

variable {γ φ α : Type}

/-- A relation between moments that telling, reading the clock and adding to a journal stay
within. -/
structure JournalSteps (host : Host γ φ) (journal : Journal)
    (R : World γ φ → World γ φ → Prop) : Prop extends Cumulative R where
  told : ∀ notices world, R world { world with notices := world.notices ++ notices }
  clockRead : ∀ world, R world (host.now world).2
  journalKept : ∀ directory now text world, journal.directory = some directory →
    R world (host.appendFile (Journal.path directory now) text world).2

/-- A relation between moments that everything a deployment does besides handing over transactions
stays within. -/
structure SurroundingSteps (host : Host γ φ) (journal : Journal)
    (R : World γ φ → World γ φ → Prop) : Prop extends JournalSteps host journal R where
  awaited : ∀ hash world, R world (host.await hash world).2
  codeRead : ∀ address world, R world (host.codeAt address world).2

/-- A relation between moments that everything a deployment does stays within. -/
structure DeploymentSteps (host : Host γ φ) (journal : Journal)
    (R : World γ φ → World γ φ → Prop) : Prop extends SurroundingSteps host journal R where
  submitted : ∀ transaction world, R world (host.submit transaction world).2

variable {host : Host γ φ} {journal : Journal} {R : World γ φ → World γ φ → Prop}

theorem Run.tellAll_within (h : SurroundingSteps host journal R) (notices : List Notice) :
    (Run.tellAll notices : Run γ φ Unit).Within R :=
  h.told notices

theorem Run.tell_within (h : SurroundingSteps host journal R) (notice : Notice) :
    (Run.tell notice : Run γ φ Unit).Within R :=
  h.told [notice]

/-! ## The journal -/

theorem Journal.keep_within (h : JournalSteps host journal R) {directory : String}
    (hdirectory : journal.directory = some directory) (now : Instant) (lines : List String) :
    (Journal.keep host directory now lines).Within R := by
  refine Act.within_bind h.toCumulative
    (fun world => h.journalKept directory now _ world hdirectory)
    fun outcome => ?_
  cases outcome with
  | ok _ => exact Act.within_pure h.toCumulative ()
  | error fault => exact h.told [.journalNotWritten _ fault]

theorem Journal.record_within (h : JournalSteps host journal R) (lines : List String) :
    (journal.record host lines).Within R := by
  refine Act.within_bind h.toCumulative h.clockRead fun now => ?_
  refine Act.within_bind h.toCumulative (h.told (lines.map .line)) fun _ => ?_
  split
  · exact Act.within_pure h.toCumulative ()
  · next directory hdirectory => exact keep_within h hdirectory now lines

/-! ## Calls -/

namespace Endpoint

theorem submitBare_within (h : DeploymentSteps host journal R) (endpoint : Endpoint)
    (call : Call) : (endpoint.submitBare host call).Within R := by
  refine Run.within_bind h.toCumulative (Run.within_ofExcept h.toCumulative _) fun _ => ?_
  refine Run.within_bind h.toCumulative (h.submitted _) fun txHash => ?_
  exact Run.within_pure h.toCumulative _

theorem wait_within (h : SurroundingSteps host journal R) (endpoint : Endpoint)
    (submitted : Submitted) : (endpoint.wait host submitted).Within R := by
  refine Run.within_bind h.toCumulative (Run.within_ofExcept h.toCumulative _) fun _ => ?_
  exact h.awaited submitted.txHash

theorem recordOutcome_within (h : JournalSteps host journal R) (receipt : Receipt) :
    (recordOutcome host journal receipt).Within R := by
  have hline := Journal.record_within h [outcomeLine receipt]
  rw [recordOutcome]
  split
  · exact Act.within_bind h.toCumulative (h.told [.reverted receipt.txHash]) fun _ => hline
  · exact hline

/-- What follows on a submission: the call is recorded, and so is its outcome once it is
included. -/
def afterSubmission (host : Host γ φ) (endpoint : Endpoint) (journal : Journal)
    (submitted : Submitted) : Run γ φ Submitted := do
  journal.record host (callLines endpoint.name submitted)
  let receipt ← endpoint.wait host submitted
  recordOutcome host journal receipt
  return submitted

/-- What a sender does with a call that was submitted and recorded. -/
def awaitSuccess (host : Host γ φ) (endpoint : Endpoint) (submitted : Submitted) :
    Run γ φ Receipt := do
  let receipt ← endpoint.wait host submitted
  if receipt.succeeded then return receipt
  else throw (.submission (.reverted endpoint.name submitted.function submitted.txHash))

/-- A relation that the steps around a submission stay within is kept by what follows on it. -/
theorem afterSubmission_within (h : SurroundingSteps host journal R) (endpoint : Endpoint)
    (submitted : Submitted) :
    (afterSubmission host endpoint journal submitted).Within R := by
  refine Run.within_bind h.toCumulative ?_ fun _ => ?_
  · exact Run.within_ofAct (Journal.record_within h.toJournalSteps _)
  refine Run.within_bind h.toCumulative (wait_within h endpoint submitted) fun receipt => ?_
  refine Run.within_bind h.toCumulative ?_ fun _ => ?_
  · exact Run.within_ofAct (recordOutcome_within h.toJournalSteps receipt)
  exact Run.within_pure h.toCumulative submitted

theorem awaitSuccess_within (h : SurroundingSteps host journal R) (endpoint : Endpoint)
    (submitted : Submitted) :
    (awaitSuccess host endpoint submitted).Within R := by
  refine Run.within_bind h.toCumulative (wait_within h endpoint submitted) fun receipt => ?_
  split
  · exact Run.within_pure h.toCumulative receipt
  · exact Run.within_throw h.toCumulative _

/-- An endpoint keeps this journal, or none. -/
def KeepsOnly (endpoint : Endpoint) (journal : Journal) : Prop :=
  ∀ kept, endpoint.journal = some kept → kept = journal

theorem keepsOnly_of_eq {endpoint : Endpoint} (h : endpoint.journal = some journal) :
    endpoint.KeepsOnly journal :=
  fun _ hkept => Option.some.inj (hkept.symm.trans h)

theorem submit_within (h : DeploymentSteps host journal R) {endpoint : Endpoint}
    (hjournal : endpoint.KeepsOnly journal) (call : Call) :
    (endpoint.submit host call).Within R := by
  refine Run.within_bind h.toCumulative (submitBare_within h endpoint call) fun submitted => ?_
  cases hkept : endpoint.journal with
  | none => exact Run.within_pure h.toCumulative submitted
  | some kept =>
    obtain rfl := hjournal kept hkept
    exact afterSubmission_within h.toSurroundingSteps endpoint submitted

/-- Sending a call through an endpoint that keeps the journal, or none. -/
theorem send_within_kept (h : DeploymentSteps host journal R) {endpoint : Endpoint}
    (hjournal : endpoint.KeepsOnly journal) (call : Call) : (endpoint.send host call).Within R :=
  Run.within_bind h.toCumulative (submit_within h hjournal call)
    fun submitted => awaitSuccess_within h.toSurroundingSteps endpoint submitted

/-- Sending a call through an endpoint that keeps the journal. -/
theorem send_within (h : DeploymentSteps host journal R) {endpoint : Endpoint}
    (hjournal : endpoint.journal = some journal) (call : Call) :
    (endpoint.send host call).Within R :=
  send_within_kept h (keepsOnly_of_eq hjournal) call

end Endpoint

/-! ## Artifacts -/

theorem ArtifactSource.reads_load (source : ArtifactSource φ) (name : String) :
    (source.load name : Run γ φ Artifact).Reads fun files => source.read files name :=
  fun _ => rfl

theorem ArtifactSource.load_of_read {source : ArtifactSource φ} {name : String}
    {outcome : Except DeployError Artifact} {world : World γ φ}
    (h : source.read world.files name = outcome) :
    (source.load name : Run γ φ Artifact) world = (outcome, world) :=
  (source.reads_load name world).trans (congrArg (fun outcome => (outcome, world)) h)

theorem ArtifactSource.load_eq_ok {source : ArtifactSource φ} {name : String}
    {artifact : Artifact} {world middle : World γ φ}
    (h : (source.load name : Run γ φ Artifact) world = (.ok artifact, middle)) :
    source.read world.files name = .ok artifact :=
  congrArg Prod.fst h

/-! ## Recorded contracts -/

namespace Contract

/-- Encodes a call of a contract's function and sends it. -/
def sendCall (host : Host γ φ) (contract : Contract) (function : String) (args : List String) :
    Run γ φ Receipt := do
  let call ← contract.call function args
  contract.endpoint.send host call

/-- Loads a recorded contract and sends it a call. -/
def loadAndCall (host : Host γ φ) (source : ArtifactSource φ) (book : Book) (sender : Sender)
    (directory : Option String) (name function : String) (args : List String) :
    Run γ φ Receipt := do
  let contract ← load source book name sender directory
  contract.sendCall host function args

variable {source : ArtifactSource φ} {name : String} {world after : World γ φ}

/-- A contract is loaded at its recorded address, with the interface of its artifact. -/
theorem load_of_read {artifact : Artifact} (book : Book) (sender : Sender)
    (directory : Option String) (world : World γ φ)
    (h : source.read world.files name = .ok artifact) :
    Contract.load source book name sender directory world =
      (.ok { name, address := (book.get name).address, interface := artifact.interface, sender,
             journal := some ⟨directory⟩ }, world) := by
  have hread : (source.load name : Run γ φ Artifact) world = (.ok artifact, world) :=
    ArtifactSource.load_of_read h
  have hat : Contract.loadAt source name (book.get name).address sender world =
      (.ok { name, address := (book.get name).address, interface := artifact.interface, sender,
             journal := none }, world) := by
    rw [Contract.loadAt, Run.bind_of_ok hread]
    rfl
  rw [Contract.load, Run.bind_of_ok (Run.tryCatch_of_ok hat)]
  rfl

/-- A contract without an artifact is not loaded, which is told. -/
theorem load_of_unread {error : DeployError} (book : Book) (sender : Sender)
    (directory : Option String) (h : source.read world.files name = .error error) :
    Contract.load source book name sender directory world =
      (.error error, { world with notices := world.notices ++ [.notLoaded name error] }) := by
  have hread : (source.load name : Run γ φ Artifact) world = (.error error, world) :=
    ArtifactSource.load_of_read h
  have hat : Contract.loadAt source name (book.get name).address sender world =
      (.error error, world) :=
    Run.bind_of_error hread
  refine Run.bind_of_error ?_
  rw [Run.tryCatch_of_error hat, Run.bind_of_ok (Run.tell_apply _ _)]
  rfl

/-- A contract that was loaded is at its recorded address and keeps the journal. -/
theorem load_eq_ok {book : Book} {sender : Sender} {directory : Option String}
    {contract : Contract}
    (h : Contract.load source book name sender directory world = (.ok contract, after)) :
    ∃ artifact, source.read world.files name = .ok artifact ∧ after = world ∧
      contract = { name, address := (book.get name).address, interface := artifact.interface,
                   sender, journal := some ⟨directory⟩ } := by
  cases hread : source.read world.files name with
  | ok artifact =>
    rw [load_of_read book sender directory world hread] at h
    cases h
    exact ⟨artifact, rfl, rfl, rfl⟩
  | error error =>
    rw [load_of_unread book sender directory hread] at h
    cases h

theorem load_within (hR : Cumulative R)
    (told : ∀ notices world, R world { world with notices := world.notices ++ notices })
    (source : ArtifactSource φ) (book : Book) (name : String) (sender : Sender)
    (directory : Option String) :
    (Contract.load source book name sender directory : Run γ φ Contract).Within R := by
  intro world
  cases hread : source.read world.files name with
  | ok artifact =>
    rw [load_of_read book sender directory world hread]
    exact hR.refl world
  | error error =>
    rw [load_of_unread book sender directory hread]
    exact told _ world

end Contract

/-! ## What a deployer sends -/

namespace Deployer

/-- The creation of a contract from an artifact whose code is linked. -/
def creationOf (deployer : Deployer φ) (artifact : Artifact) (code : Bytes) : Creation where
  name := artifact.contractName
  interface := artifact.interface
  code := code
  sender := deployer.sender
  journal := some deployer.journal

/-- The proxy admin, as something that the call that accepts is sent to. -/
def adminEndpoint (deployer : Deployer φ) (admin : Address) : Endpoint where
  name := Upgrade.adminName
  callee := some admin
  sender := deployer.sender
  journal := some deployer.journal

/-- A deployer sends creations of what its source has, and calls that accept if it is to. -/
inductive Sends (deployer : Deployer φ) (accepts : Prop) : Endpoint → Call → Prop
  | creation {files : φ} {name : String} {artifact : Artifact} {libraries : Libraries}
      {code : Bytes} {args : List String} {call : Call}
      (loaded : deployer.source.read files name = .ok artifact)
      (linked : artifact.linkedCode libraries = .ok code)
      (encoded : (deployer.creationOf artifact code).call args = .ok call) :
      Sends deployer accepts (deployer.creationOf artifact code).endpoint call
  | acceptance (asked : accepts) (payload : AcceptPayload) :
      Sends deployer accepts (deployer.adminEndpoint payload.admin) payload.toCall

variable {deployer : Deployer φ}

/-- Whatever a deployer sends is recorded in its journal. -/
theorem Sends.journal_eq {accepts : Prop} {endpoint : Endpoint} {call : Call}
    (h : deployer.Sends accepts endpoint call) : endpoint.journal = some deployer.journal := by
  cases h <;> rfl

end Deployer

/-- A relation between moments that sending stays within, and so does what a deployment does besides
it. It need not allow for calls that accept if none is to be sent. -/
structure SendingSteps (host : Host γ φ) (deployer : Deployer φ) (accepts : Prop)
    (R : World γ φ → World γ φ → Prop) : Prop extends Cumulative R where
  told : ∀ notices world, R world { world with notices := world.notices ++ notices }
  codeRead : ∀ address world, R world (host.codeAt address world).2
  sent : ∀ {endpoint call}, deployer.Sends accepts endpoint call →
    ∀ world, R world (endpoint.send host call world).2

variable {deployer : Deployer φ} {accepts : Prop}

/-- A relation that every step of sending stays within is one that sending stays within. -/
theorem DeploymentSteps.sending (h : DeploymentSteps host deployer.journal R) (accepts : Prop) :
    SendingSteps host deployer accepts R where
  toCumulative := h.toCumulative
  told := h.told
  codeRead := h.codeRead
  sent hsends := Endpoint.send_within h hsends.journal_eq _

/-! ## Deployments -/

namespace SendingSteps

variable (h : SendingSteps host deployer accepts R)

include h

theorem tellAll (notices : List Notice) : (Run.tellAll notices : Run γ φ Unit).Within R :=
  h.told notices

theorem deployArtifact {files : φ} {name : String} {artifact : Artifact}
    (hloaded : deployer.source.read files name = .ok artifact) (args : List String)
    (libraries : Libraries) : (deployer.deployArtifact host artifact args libraries).Within R := by
  refine Run.within_bind h.toCumulative (Run.within_ofExcept h.toCumulative _) fun _ => ?_
  intro world
  refine Run.within_bind_at h.toCumulative (h.refl world) fun code linked hlink => ?_
  refine Run.within_bind_at h.toCumulative (h.refl linked) fun call called hcall => ?_
  -- What is sent is the creation with the code that was linked and the call that was encoded.
  have hcode := mapError_eq_ok (Run.ofExcept_eq_ok hlink).1
  have hsends : deployer.Sends accepts (deployer.creationOf artifact code).endpoint call :=
    .creation hloaded hcode (Run.ofExcept_eq_ok hcall).1
  refine Run.within_bind h.toCumulative (h.sent hsends) (fun receipt => ?_) called
  refine Run.within_bind h.toCumulative (h.tellAll _) fun _ => ?_
  refine Run.within_bind h.toCumulative (Run.within_ofExcept h.toCumulative _) fun address => ?_
  refine Run.within_bind h.toCumulative (h.codeRead address) fun runtimeCode => ?_
  refine Run.within_bind h.toCumulative (h.tellAll _) fun _ => ?_
  exact Run.within_pure h.toCumulative _

theorem deployLibraries (contract : String) (names : List String) (libraries : Libraries) :
    (deployer.deployLibraries host contract names libraries).Within R := by
  induction names generalizing libraries with
  | nil => exact Run.within_pure h.toCumulative libraries
  | cons name names ih =>
    refine Run.within_bind h.toCumulative (h.tellAll _) fun _ => ?_
    intro world
    refine Run.within_bind_at h.toCumulative (h.refl world) fun library loaded hload => ?_
    refine Run.within_bind h.toCumulative
      (h.deployArtifact (ArtifactSource.load_eq_ok hload) [] _) (fun deployed => ?_) loaded
    exact ih _

theorem deploy (name : String) (args : List String) (autolink : Bool) :
    (deployer.deploy host name args autolink).Within R := by
  refine Run.within_bind h.toCumulative (Run.within_ofExcept h.toCumulative _) fun _ => ?_
  intro world
  refine Run.within_bind_at h.toCumulative (h.refl world) fun artifact loaded hload => ?_
  have hartifact := ArtifactSource.load_eq_ok hload
  cases autolink with
  | true =>
    exact Run.within_bind h.toCumulative (h.deployLibraries _ _ _)
      (fun libraries => h.deployArtifact hartifact args libraries) loaded
  | false => exact h.deployArtifact hartifact args _ loaded

/-- The call that accepts is sent only if it is not handed out instead. -/
theorem accept {prepared : PreparedUpgrade}
    (haccepts : prepared.upgrade.manualAccept = false → accepts) (admin : Address)
    (implementation proxy : Deployed) :
    (deployer.accept host prepared admin implementation proxy).Within R := by
  rw [Deployer.accept]
  split
  · refine Run.within_bind h.toCumulative (h.tellAll _) fun _ => ?_
    exact Run.within_pure h.toCumulative _
  · next hdirect =>
    have hasked := haccepts (eq_false_of_ne_true hdirect)
    refine Run.within_bind h.toCumulative ?_ fun receipt => Run.within_pure h.toCumulative _
    rw [Deployer.sendAccept]
    split
    · exact h.sent (.acceptance hasked (prepared.payload admin implementation proxy))
    · exact Run.within_throw h.toCumulative _

theorem completeFromImplementation {prepared : PreparedUpgrade}
    (haccepts : prepared.upgrade.manualAccept = false → accepts) (admin : Address)
    (implementation : Deployed) :
    (deployer.completeFromImplementation host prepared admin implementation).Within R := by
  refine Run.within_bind h.toCumulative (h.deploy _ _ false) fun proxy => ?_
  refine Run.within_bind h.toCumulative (h.accept haccepts admin implementation proxy)
    fun acceptance => ?_
  exact Run.within_pure h.toCumulative _

end SendingSteps

namespace Deployer

theorem deployArtifact_within (h : DeploymentSteps host deployer.journal R) {files : φ}
    {name : String} {artifact : Artifact}
    (hloaded : deployer.source.read files name = .ok artifact) (args : List String)
    (libraries : Libraries) : (deployer.deployArtifact host artifact args libraries).Within R :=
  (h.sending True).deployArtifact hloaded args libraries

theorem deployLibraries_within (h : DeploymentSteps host deployer.journal R) (contract : String)
    (names : List String) (libraries : Libraries) :
    (deployer.deployLibraries host contract names libraries).Within R :=
  (h.sending True).deployLibraries contract names libraries

theorem deploy_within (h : DeploymentSteps host deployer.journal R) (name : String)
    (args : List String) (autolink : Bool) :
    (deployer.deploy host name args autolink).Within R :=
  (h.sending True).deploy name args autolink

theorem accept_within (h : DeploymentSteps host deployer.journal R) (prepared : PreparedUpgrade)
    (admin : Address) (implementation proxy : Deployed) :
    (deployer.accept host prepared admin implementation proxy).Within R :=
  (h.sending True).accept (fun _ => trivial) admin implementation proxy

theorem completeFromImplementation_within (h : DeploymentSteps host deployer.journal R)
    (prepared : PreparedUpgrade) (admin : Address) (implementation : Deployed) :
    (deployer.completeFromImplementation host prepared admin implementation).Within R :=
  (h.sending True).completeFromImplementation (fun _ => trivial) admin implementation

end Deployer

end ContractDeploy
