import ContractDeploy.Proofs.Recordings
import Mathlib.Logic.ExistsUnique

/-!
# What an upgrade that records leaves in the address book

The entry of the upgraded contract is set twice in one run, and nothing is taken back when a step
fails in between. So a run leaves the book in one of three ways: as it was, with the entry of the
implementation, or with that of the proxy and the implementation in it. Which of them it is follows
from how far the run came, and from nothing else: not from what the entry was before, nor from
whether the disk took the documents that it was handed.
-/

namespace ContractDeploy

variable {γ φ : Type}

namespace Deployer

/-! ## Before and after the implementation -/

/-- The proxy admin's interface as an upgrade needs it, as a function of the files. -/
def adminInterfaceIn (deployer : Deployer φ) (upgrade : Upgrade) (files : φ) :
    Except DeployError (Option Interface) :=
  if upgrade.manualAccept then .ok none
  else do
    let admin ← deployer.source.read files Upgrade.adminName
    return some admin.interface

/-- What preparing an upgrade comes to, as a function of the files. -/
def preparation (deployer : Deployer φ) (upgrade : Upgrade) (files : φ) :
    Except DeployError PreparedUpgrade := do
  let implementation ← deployer.source.read files upgrade.name
  let proxy ← deployer.source.read files upgrade.proxyName
  let _ ← (proxy.linkedCode NameMap.empty).mapError DeployError.ofCode
  let adminInterface ← deployer.adminInterfaceIn upgrade files
  let initCall ← initCall upgrade implementation.interface
  return { upgrade, interface := implementation.interface, adminInterface, initCall }

theorem reads_adminInterface (deployer : Deployer φ) (upgrade : Upgrade) :
    (deployer.adminInterface upgrade : Run γ φ (Option Interface)).Reads
      (deployer.adminInterfaceIn upgrade) := by
  unfold adminInterface adminInterfaceIn
  split
  · exact Run.reads_pure none
  · refine Run.reads_bind (ArtifactSource.reads_load _ _) fun admin => ?_
    exact Run.reads_pure (some admin.interface)

/-- Preparing an upgrade looks at the files and changes nothing. -/
theorem reads_prepare (deployer : Deployer φ) (upgrade : Upgrade) :
    (deployer.prepare upgrade : Run γ φ PreparedUpgrade).Reads (deployer.preparation upgrade) := by
  refine Run.reads_bind (ArtifactSource.reads_load _ _) fun implementation => ?_
  refine Run.reads_bind (ArtifactSource.reads_load _ _) fun proxy => ?_
  refine Run.reads_bind (Run.reads_ofExcept _) fun _ => ?_
  refine Run.reads_bind (reads_adminInterface deployer upgrade) fun adminInterface => ?_
  refine Run.reads_bind (Run.reads_ofExcept _) fun initCall => ?_
  exact Run.reads_pure _

/-- What was prepared is the upgrade, with the interface of the artifact of its name. -/
theorem preparation_eq_ok {deployer : Deployer φ} {upgrade : Upgrade} {files : φ}
    {prepared : PreparedUpgrade} (h : deployer.preparation upgrade files = .ok prepared) :
    prepared.upgrade = upgrade ∧
      ∃ artifact, deployer.source.read files upgrade.name = .ok artifact ∧
        prepared.interface = artifact.interface := by
  obtain ⟨artifact, hartifact, h⟩ := Except.bind_eq_ok h
  obtain ⟨proxy, -, h⟩ := Except.bind_eq_ok h
  obtain ⟨code, -, h⟩ := Except.bind_eq_ok h
  obtain ⟨adminInterface, -, h⟩ := Except.bind_eq_ok h
  obtain ⟨initCall, -, h⟩ := Except.bind_eq_ok h
  cases h
  exact ⟨rfl, artifact, hartifact, rfl⟩

variable {host : Host γ φ} {deployer : Deployer φ} {world after : World γ φ}

/-- The steps after the implementation come to a deployment of it, of the proxy that was deployed
for it, and of the acceptance that was had. -/
theorem completeFromImplementation_eq_ok {prepared : PreparedUpgrade} {admin : Address}
    {implementation : Deployed} {deployment : ProxyDeployment}
    (h : deployer.completeFromImplementation host prepared admin implementation world =
      (.ok deployment, after)) :
    ∃ middle, deployer.deployProxy host prepared.upgrade.proxyName implementation.address admin
        world = (.ok deployment.proxy, middle) ∧
      deployer.accept host prepared admin implementation deployment.proxy middle =
        (.ok deployment.acceptance, after) ∧
      deployment = deployer.deliver prepared implementation deployment.proxy
        deployment.acceptance := by
  obtain ⟨proxy, middle, hproxy, h⟩ := Run.bind_eq_ok h
  obtain ⟨acceptance, last, haccept, h⟩ := Run.bind_eq_ok h
  cases h
  exact ⟨middle, hproxy, haccept, rfl⟩

end Deployer

/-! ## The three ways -/

section Ways

variable (host : Host γ φ) (deployer : Deployer φ) (upgrade : Upgrade) (book : Book)
  (world : World γ φ)

/-- A run comes to have its implementation: the account is connected, the proxy admin is recorded,
what can be checked beforehand is in order, and the deployment gave the implementation. -/
structure Deployer.Implements (prepared : PreparedUpgrade) (implementation : Deployed)
    (reached : World γ φ) : Prop where
  connected : deployer.sender.requireConnection = .ok ()
  adminRecorded : (book.get Upgrade.adminName).isDeployed = true
  isPrepared : deployer.preparation upgrade world.files = .ok prepared
  isDeployed : deployer.deploy host upgrade.name [] true world = (.ok implementation, reached)

/-- What a step that records comes to. -/
abbrev Recorded (γ φ α : Type) := (Except DeployError α × Book) × World γ φ

/-- The run failed before it had an implementation, and left the book and its file alone. -/
structure LeavesBook (result : Recorded γ φ ProxyDeployment) : Prop where
  failed : ∃ error, result.1.1 = .error error
  notImplemented : ∀ prepared implementation reached,
    ¬ deployer.Implements host upgrade book world prepared implementation reached
  memory : result.1.2 = book
  /-- Nothing was handed to the disk for its file. -/
  file : FileEffect host.disk deployer.journal book.file [] world.files result.2.files

/-- The run had an implementation, which was not accepted: a later step failed, or the call that
accepts was handed out. The entry is that of the implementation. -/
structure RecordsImplementation (implementation : Deployed) (answer : Except FileFault Unit)
    (result : Recorded γ φ ProxyDeployment) : Prop where
  implemented : ∃ prepared reached,
    deployer.Implements host upgrade book world prepared implementation reached
  /-- It went no further than to hand out the call that accepts. -/
  notAccepted : (∃ error, result.1.1 = .error error) ∨
    ∃ deployment payload, result.1.1 = .ok deployment ∧
      deployment.implementation = implementation ∧ deployment.acceptance = .pending payload
  memory : book.Replaced upgrade.name (.direct (implementation.toSnapshot [])) result.1.2
  /-- The book was handed to the disk once. -/
  file : FileEffect host.disk deployer.journal book.file [(result.1.2.document, answer)]
    world.files result.2.files

/-- The run ended with an implementation that the proxy's admin accepted. The entry is that of the
proxy, with the implementation in it. -/
structure RecordsProxy (deployment : ProxyDeployment) (receipt : Receipt)
    (result : Recorded γ φ ProxyDeployment) : Prop where
  implemented : ∃ prepared reached, deployer.Implements host upgrade book world prepared
    deployment.implementation reached
  /-- The proxy that it gives was deployed for that implementation. -/
  proxied : ∃ before after, deployer.deployProxy host upgrade.proxyName
    deployment.implementation.address (book.get Upgrade.adminName).address before =
      (.ok deployment.proxy, after)
  succeeded : result.1.1 = .ok deployment
  accepted : deployment.acceptance = .accepted receipt
  /-- The entry is the proxy's with the implementation's fields, and nothing else changed. -/
  memory : book.Replaced upgrade.name
    (.proxied { deployment.proxy.toSnapshot [] with initArgs := recordedArgs upgrade.initArgs }
      (deployment.implementation.toSnapshot [])) result.1.2
  /-- The book was handed to the disk twice: first with the entry of the implementation. -/
  file : ∃ between firstAnswer lastAnswer,
    book.Replaced upgrade.name (.direct (deployment.implementation.toSnapshot [])) between ∧
      FileEffect host.disk deployer.journal book.file
        [(between.document, firstAnswer), (result.1.2.document, lastAnswer)]
        world.files result.2.files
  /-- As long as the artifact is what it was, the recorded contract is loaded as it was given. -/
  loaded : ∀ (later : World γ φ) sender directory,
    deployer.source.read later.files upgrade.name = deployer.source.read world.files upgrade.name →
      ∃ contract, Contract.load deployer.source result.1.2 upgrade.name sender directory later =
          (.ok contract, later) ∧
        contract.address = deployment.contract.address ∧
        contract.interface = deployment.contract.interface

/-- The ways in which a run can leave the address book: as it was, with the implementation's
entry, or with the proxy's. -/
inductive BookEffect where
  | untouched
  | implementation
  | proxy
deriving DecidableEq

/-- Whether the address book was left in a way. -/
def BookEffect.Describes (result : Recorded γ φ ProxyDeployment) : BookEffect → Prop
  | .untouched => LeavesBook host deployer upgrade book world result
  | .implementation => ∃ implementation answer,
    RecordsImplementation host deployer upgrade book world implementation answer result
  | .proxy => ∃ deployment receipt,
    RecordsProxy host deployer upgrade book world deployment receipt result

end Ways

/-! ## How far a run comes -/

section Progress

variable {host : Host γ φ} {deployer : Deployer φ} {upgrade : Upgrade} {book : Book}
  {world : World γ φ}

theorem recordedAdmin_of_deployed (h : (book.get Upgrade.adminName).isDeployed = true) :
    Deployer.recordedAdmin book world =
      ((.ok (book.get Upgrade.adminName).address, book), world) := by
  rw [Deployer.recordedAdmin, Recording.bind_of_ok (Recording.get_apply book world), if_pos h]
  rfl

theorem recordedAdmin_of_not_deployed (h : ¬ (book.get Upgrade.adminName).isDeployed = true) :
    Deployer.recordedAdmin book world =
      ((.error (.missingDeployment Upgrade.adminName), book), world) := by
  rw [Deployer.recordedAdmin, Recording.bind_of_ok (Recording.get_apply book world), if_neg h]
  rfl

/-- A run without an implementation fails, and all it does is what the deployment of the
implementation does before it fails. -/
theorem deployBehindProxyAndSave_of_not_implements
    (h : ∀ prepared implementation reached,
      ¬ deployer.Implements host upgrade book world prepared implementation reached) :
    ∃ error after, deployer.deployBehindProxyAndSave host upgrade book world =
        ((.error error, book), after) ∧
      deployer.journal.Grown host.disk world.files after.files := by
  -- Each check ends the run where it stands. The deployment itself may have come some way.
  cases hconnected : deployer.sender.requireConnection with
  | error error =>
    refine ⟨error, world, Recording.bind_of_error ?_, .refl⟩
    rw [Recording.ofExcept_apply, hconnected]
  | ok _ =>
    rw [Deployer.deployBehindProxyAndSave,
      Recording.bind_of_ok ((Recording.ofExcept_apply _ _ _).trans (by rw [hconnected]))]
    by_cases hadmin : (book.get Upgrade.adminName).isDeployed = true
    · rw [Recording.bind_of_ok (recordedAdmin_of_deployed hadmin)]
      have hreads := Deployer.reads_prepare (γ := γ) deployer upgrade world
      cases hprepared : deployer.preparation upgrade world.files with
      | error error =>
        rw [hprepared] at hreads
        exact ⟨error, world, Recording.bind_of_error (Recording.ofRun_apply hreads), .refl⟩
      | ok prepared =>
        rw [hprepared] at hreads
        rw [Recording.bind_of_ok (Recording.ofRun_apply hreads)]
        cases hdeploy : deployer.deploy host upgrade.name [] true world with
        | mk outcome after =>
          cases outcome with
          | ok implementation =>
            exact absurd ⟨hconnected, hadmin, hprepared, hdeploy⟩ (h prepared implementation after)
          | error error =>
            refine ⟨error, after, Recording.bind_of_error (deployAndSave_of_error hdeploy), ?_⟩
            have hgrown := Deployer.deploy_within (deploymentSteps_grown host deployer.journal)
              upgrade.name [] true world
            rwa [hdeploy] at hgrown
    · exact ⟨_, world, Recording.bind_of_error (recordedAdmin_of_not_deployed hadmin), .refl⟩

variable {prepared : PreparedUpgrade} {implementation : Deployed} {reached after : World γ φ}

/-- What a run does once its implementation is recorded. -/
def afterImplementation (host : Host γ φ) (deployer : Deployer φ) (upgrade : Upgrade)
    (prepared : PreparedUpgrade) (admin : Address) (implementation : Deployed) :
    Recording γ φ ProxyDeployment := do
  let deployment ← Recording.ofRun
    (deployer.completeFromImplementation host prepared admin implementation)
  Deployer.recordAcceptance host upgrade deployment
  return deployment

section AfterImplementation

variable {admin : Address} {deployment : ProxyDeployment}

theorem afterImplementation_of_error {error : DeployError}
    (h : deployer.completeFromImplementation host prepared admin implementation world =
      (.error error, after)) :
    afterImplementation host deployer upgrade prepared admin implementation book world =
      ((.error error, book), after) :=
  Recording.bind_of_error (Recording.ofRun_apply h)

theorem afterImplementation_of_pending {payload : AcceptPayload}
    (h : deployer.completeFromImplementation host prepared admin implementation world =
      (.ok deployment, after)) (hpending : deployment.acceptance = .pending payload) :
    afterImplementation host deployer upgrade prepared admin implementation book world =
      ((.ok deployment, book), after) := by
  rw [afterImplementation, Recording.bind_of_ok (Recording.ofRun_apply h),
    Deployer.recordAcceptance, hpending]
  rfl

theorem afterImplementation_of_recorded {settled : Book} {last : World γ φ}
    (h : deployer.completeFromImplementation host prepared admin implementation world =
      (.ok deployment, after))
    (hrecorded : Deployer.recordAcceptance host upgrade deployment book after =
      ((.ok (), settled), last)) :
    afterImplementation host deployer upgrade prepared admin implementation book world =
      ((.ok deployment, settled), last) := by
  rw [afterImplementation, Recording.bind_of_ok (Recording.ofRun_apply h),
    Recording.bind_of_ok hrecorded]
  rfl

theorem recordAcceptance_of_accepted {receipt : Receipt}
    (h : deployment.acceptance = .accepted receipt) :
    Deployer.recordAcceptance host upgrade deployment book world =
      Recording.save host upgrade.name
        (Deployer.acceptedRecord upgrade deployment.proxy (book.get upgrade.name)) book world := by
  simp only [Deployer.recordAcceptance, h]
  rw [Recording.bind_of_ok (Recording.get_apply book world)]

/-- An accepted implementation makes way for its proxy. The record of it that is kept is the one in
the book. -/
theorem afterImplementation_of_accepted (upgrade : Upgrade) (book : Book) {receipt : Receipt}
    (h : deployer.completeFromImplementation host prepared admin implementation world =
      (.ok deployment, after)) (haccepted : deployment.acceptance = .accepted receipt) :
    ∃ answer last,
      let settled := book.insert upgrade.name
        (Deployer.acceptedRecord upgrade deployment.proxy (book.get upgrade.name))
      afterImplementation host deployer upgrade prepared admin implementation book world =
        ((.ok deployment, settled), last) ∧
      last.chain = after.chain ∧ BookSaves host.disk deployer.journal book.file
        [(settled.document, answer)] after.files last.files := by
  obtain ⟨answer, last, hsave, hchain, hfile⟩ := Recording.save_apply host deployer.journal
    upgrade.name (Deployer.acceptedRecord upgrade deployment.proxy (book.get upgrade.name)) book
    after
  rw [← recordAcceptance_of_accepted haccepted] at hsave
  exact ⟨answer, last, afterImplementation_of_recorded h hsave, hchain, hfile⟩

end AfterImplementation

/-- The moment of a run at which its implementation is recorded, and what it goes on with. -/
structure ImplementationRecorded (host : Host γ φ) (deployer : Deployer φ) (upgrade : Upgrade)
    (book : Book) (world : World γ φ) (prepared : PreparedUpgrade) (implementation : Deployed)
    (recorded : Book) (answer : Except FileFault Unit) (saved : World γ φ) : Prop where
  implemented : ∃ reached, saved.chain = reached.chain ∧
    deployer.Implements host upgrade book world prepared implementation reached
  memory : book.Replaced upgrade.name (.direct (implementation.toSnapshot [])) recorded
  file : BookSaves host.disk deployer.journal book.file [(recorded.document, answer)] world.files
    saved.files
  /-- The rest of the run starts from here. -/
  onwards : deployer.deployBehindProxyAndSave host upgrade book world =
    afterImplementation host deployer upgrade prepared (book.get Upgrade.adminName).address
      implementation recorded saved

/-- A run with an implementation records it. -/
theorem Deployer.Implements.recorded
    (h : deployer.Implements host upgrade book world prepared implementation reached) :
    ∃ recorded answer saved, ImplementationRecorded host deployer upgrade book world prepared
      implementation recorded answer saved := by
  have hreads := Deployer.reads_prepare (γ := γ) deployer upgrade world
  rw [h.isPrepared] at hreads
  obtain ⟨answer, saved, hsave, hchain, hfile⟩ := deployAndSave_of_ok book h.isDeployed
  refine ⟨_, answer, saved, ⟨reached, hchain, h⟩, book.replaced_insert upgrade.name _, hfile, ?_⟩
  rw [Deployer.deployBehindProxyAndSave,
    Recording.bind_of_ok ((Recording.ofExcept_apply _ _ _).trans (by rw [h.connected])),
    Recording.bind_of_ok (recordedAdmin_of_deployed h.adminRecorded),
    Recording.bind_of_ok (Recording.ofRun_apply hreads), Recording.bind_of_ok hsave]
  rfl

/-- The steps after the implementation only add to the journal. -/
theorem completeFromImplementation_grown {admin : Address}
    {outcome : Except DeployError ProxyDeployment} {after : World γ φ}
    (h : deployer.completeFromImplementation host prepared admin implementation world =
      (outcome, after)) : deployer.journal.Grown host.disk world.files after.files := by
  have hgrown := Deployer.completeFromImplementation_within
    (deploymentSteps_grown host deployer.journal) prepared admin implementation world
  rwa [h] at hgrown

/-- The record of an accepted upgrade has the fields of the implementation that was recorded
before it. -/
theorem acceptedRecord_of_replaced {between : Book} (proxy : Deployed)
    (h : book.Replaced upgrade.name (.direct (implementation.toSnapshot [])) between) :
    Deployer.acceptedRecord upgrade proxy (between.get upgrade.name) =
      .proxied { proxy.toSnapshot [] with initArgs := recordedArgs upgrade.initArgs }
        (implementation.toSnapshot []) := by
  rw [h.get_eq]
  rfl

end Progress

/-! ## The effect on the book -/

section Effect

variable {host : Host γ φ} {deployer : Deployer φ} {upgrade : Upgrade} {book : Book}
  {world : World γ φ}

theorem leavesBook_of_not_implements
    (h : ∀ prepared implementation reached,
      ¬ deployer.Implements host upgrade book world prepared implementation reached) :
    LeavesBook host deployer upgrade book world
      (deployer.deployBehindProxyAndSave host upgrade book world) := by
  obtain ⟨error, after, hrun, hgrown⟩ := deployBehindProxyAndSave_of_not_implements h
  rw [hrun]
  exact ⟨⟨error, rfl⟩, h, rfl, BookSaves.effect hgrown⟩

variable {prepared : PreparedUpgrade} {implementation : Deployed} {recorded : Book}
  {answer : Except FileFault Unit} {saved after : World γ φ} {deployment : ProxyDeployment}

theorem recordsImplementation_of_error {error : DeployError}
    (h : ImplementationRecorded host deployer upgrade book world prepared implementation recorded
      answer saved)
    (hcomplete : deployer.completeFromImplementation host prepared
      (book.get Upgrade.adminName).address implementation saved = (.error error, after)) :
    RecordsImplementation host deployer upgrade book world implementation answer
      (deployer.deployBehindProxyAndSave host upgrade book world) := by
  have hgrown := completeFromImplementation_grown hcomplete
  rw [h.onwards, afterImplementation_of_error hcomplete]
  obtain ⟨reached, -, himplements⟩ := h.implemented
  exact ⟨⟨prepared, reached, himplements⟩, .inl ⟨error, rfl⟩, h.memory,
    (h.file.append_grown hgrown).effect⟩

theorem recordsImplementation_of_pending {payload : AcceptPayload}
    (h : ImplementationRecorded host deployer upgrade book world prepared implementation recorded
      answer saved)
    (hcomplete : deployer.completeFromImplementation host prepared
      (book.get Upgrade.adminName).address implementation saved = (.ok deployment, after))
    (hpending : deployment.acceptance = .pending payload) :
    RecordsImplementation host deployer upgrade book world implementation answer
      (deployer.deployBehindProxyAndSave host upgrade book world) := by
  have hgrown := completeFromImplementation_grown hcomplete
  obtain ⟨middle, hproxy, -, hdeliver⟩ := Deployer.completeFromImplementation_eq_ok hcomplete
  have himplementation : deployment.implementation = implementation := by
    rw [hdeliver]
    rfl
  rw [h.onwards, afterImplementation_of_pending hcomplete hpending]
  obtain ⟨reached, -, himplements⟩ := h.implemented
  exact ⟨⟨prepared, reached, himplements⟩,
    .inr ⟨deployment, payload, rfl, himplementation, hpending⟩, h.memory,
    (h.file.append_grown hgrown).effect⟩

/-- The entry of an accepted upgrade is loaded as the contract that the upgrade gave. -/
theorem load_of_accepted {settled : Book} {snapshot kept : Snapshot} {artifact : Artifact}
    {later : World γ φ}
    (hmemory : book.Replaced upgrade.name (.proxied snapshot kept) settled)
    (haddress : snapshot.address = deployment.contract.address)
    (hinterface : artifact.interface = deployment.contract.interface)
    (hread : deployer.source.read later.files upgrade.name = .ok artifact) (sender : Sender)
    (directory : Option String) :
    ∃ contract, Contract.load deployer.source settled upgrade.name sender directory later =
        (.ok contract, later) ∧
      contract.address = deployment.contract.address ∧
      contract.interface = deployment.contract.interface := by
  refine ⟨_, Contract.load_of_read settled sender directory later hread, ?_, hinterface⟩
  show (settled.get upgrade.name).address = _
  rw [hmemory.get_eq]
  exact haddress

/-- An accepted upgrade has recorded its proxy, with the implementation that was recorded on the
way. -/
theorem recordsProxy_of_accepted {receipt : Receipt}
    (h : ImplementationRecorded host deployer upgrade book world prepared implementation recorded
      answer saved)
    (hcomplete : deployer.completeFromImplementation host prepared
      (book.get Upgrade.adminName).address implementation saved = (.ok deployment, after))
    (haccepted : deployment.acceptance = .accepted receipt) :
    RecordsProxy host deployer upgrade book world deployment receipt
      (deployer.deployBehindProxyAndSave host upgrade book world) := by
  obtain ⟨reached, -, himplements⟩ := h.implemented
  obtain ⟨hupgrade, artifact, hartifact, hinterface⟩ :=
    Deployer.preparation_eq_ok himplements.isPrepared
  obtain ⟨middle, hproxy, -, hdeliver⟩ := Deployer.completeFromImplementation_eq_ok hcomplete
  have himplementation : deployment.implementation = implementation := by
    rw [hdeliver]
    rfl
  obtain ⟨lastAnswer, last, hlast, -, hlastFile⟩ :=
    afterImplementation_of_accepted upgrade recorded hcomplete haccepted
  -- What the second entry keeps is read from the book in the middle of the run, where it is the
  -- implementation of this run whatever was there before.
  have hmemory := h.memory.trans (recorded.replaced_insert upgrade.name
    (Deployer.acceptedRecord upgrade deployment.proxy (recorded.get upgrade.name)))
  have hfile := (h.file.append_grown (completeFromImplementation_grown hcomplete)).append
    (h.memory.file ▸ hlastFile)
  rw [h.onwards, hlast]
  rw [acceptedRecord_of_replaced deployment.proxy h.memory, ← himplementation] at hmemory hfile ⊢
  refine ⟨⟨prepared, reached, ?_⟩, ⟨saved, middle, ?_⟩, rfl, haccepted, hmemory,
    ⟨recorded, answer, lastAnswer, ?_, hfile.effect⟩, ?_⟩
  · rwa [himplementation]
  · rwa [himplementation, ← hupgrade]
  · rw [himplementation]
    exact h.memory
  · intro later sender directory hread
    have hlater := hread.trans hartifact
    refine load_of_accepted hmemory ?_ ?_ hlater sender directory
    · rw [hdeliver]
      rfl
    · rw [hdeliver]
      exact hinterface.symm

theorem exists_effect (host : Host γ φ) (deployer : Deployer φ) (upgrade : Upgrade) (book : Book)
    (world : World γ φ) :
    ∃ effect : BookEffect, effect.Describes host deployer upgrade book world
      (deployer.deployBehindProxyAndSave host upgrade book world) := by
  -- How far the run comes is decided twice: by the implementation, and by the steps after it.
  by_cases himplements : ∃ prepared implementation reached,
      deployer.Implements host upgrade book world prepared implementation reached
  · obtain ⟨prepared, implementation, reached, himplements⟩ := himplements
    obtain ⟨recorded, answer, saved, hrecorded⟩ := himplements.recorded
    cases hcomplete : deployer.completeFromImplementation host prepared
        (book.get Upgrade.adminName).address implementation saved with
    | mk outcome after =>
      cases outcome with
      | error error =>
        exact ⟨.implementation, implementation, answer,
          recordsImplementation_of_error hrecorded hcomplete⟩
      | ok deployment =>
        cases hacceptance : deployment.acceptance with
        | pending payload =>
          exact ⟨.implementation, implementation, answer,
            recordsImplementation_of_pending hrecorded hcomplete hacceptance⟩
        | accepted receipt =>
          exact ⟨.proxy, deployment, receipt,
            recordsProxy_of_accepted hrecorded hcomplete hacceptance⟩
  · refine ⟨.untouched, leavesBook_of_not_implements ?_⟩
    intro prepared implementation reached h
    exact himplements ⟨prepared, implementation, reached, h⟩

/-- A run that succeeded has recorded its implementation and completed its steps, and then has
either left it at that or recorded the proxy. -/
theorem deployBehindProxyAndSave_eq_ok {settled : Book}
    (h : deployer.deployBehindProxyAndSave host upgrade book world =
      ((.ok deployment, settled), after)) :
    ∃ prepared implementation recorded answer saved completed,
      ImplementationRecorded host deployer upgrade book world prepared implementation recorded
        answer saved ∧
      deployer.completeFromImplementation host prepared (book.get Upgrade.adminName).address
        implementation saved = (.ok deployment, completed) ∧
      after.chain = completed.chain ∧
      ((∃ payload, deployment.acceptance = .pending payload ∧ settled = recorded ∧
          BookSaves host.disk deployer.journal book.file [] completed.files after.files) ∨
        ∃ receipt lastAnswer, deployment.acceptance = .accepted receipt ∧
          settled = recorded.insert upgrade.name
            (Deployer.acceptedRecord upgrade deployment.proxy (recorded.get upgrade.name)) ∧
          BookSaves host.disk deployer.journal book.file [(settled.document, lastAnswer)]
            completed.files after.files) := by
  by_cases himplements : ∃ prepared implementation reached,
      deployer.Implements host upgrade book world prepared implementation reached
  · obtain ⟨prepared, implementation, reached, himplements⟩ := himplements
    obtain ⟨recorded, answer, saved, hrecorded⟩ := himplements.recorded
    rw [hrecorded.onwards] at h
    cases hcomplete : deployer.completeFromImplementation host prepared
        (book.get Upgrade.adminName).address implementation saved with
    | mk outcome completed =>
      cases outcome with
      | error error =>
        rw [afterImplementation_of_error hcomplete] at h
        cases h
      | ok found =>
        cases hacceptance : found.acceptance with
        | pending payload =>
          rw [afterImplementation_of_pending hcomplete hacceptance] at h
          cases h
          exact ⟨prepared, implementation, settled, answer, saved, after, hrecorded, hcomplete, rfl,
            .inl ⟨payload, hacceptance, rfl, .refl⟩⟩
        | accepted receipt =>
          obtain ⟨lastAnswer, last, hlast, hchain, hfile⟩ :=
            afterImplementation_of_accepted upgrade recorded hcomplete hacceptance
          rw [hlast] at h
          cases h
          exact ⟨prepared, implementation, recorded, answer, saved, completed, hrecorded, hcomplete,
            hchain, .inr ⟨receipt, lastAnswer, hacceptance, rfl, hrecorded.memory.file ▸ hfile⟩⟩
  · obtain ⟨error, reached, hrun, -⟩ := deployBehindProxyAndSave_of_not_implements
      fun prepared implementation reached himplies =>
        himplements ⟨prepared, implementation, reached, himplies⟩
    rw [hrun] at h
    cases h

variable {result : Recorded γ φ ProxyDeployment} {receipt : Receipt}

theorem LeavesBook.not_recordsImplementation
    (h : LeavesBook host deployer upgrade book world result) :
    ¬ RecordsImplementation host deployer upgrade book world implementation answer result := by
  intro hrecords
  obtain ⟨prepared, reached, himplements⟩ := hrecords.implemented
  exact h.notImplemented prepared implementation reached himplements

theorem LeavesBook.not_recordsProxy (h : LeavesBook host deployer upgrade book world result) :
    ¬ RecordsProxy host deployer upgrade book world deployment receipt result := by
  intro hrecords
  obtain ⟨error, herror⟩ := h.failed
  rw [hrecords.succeeded] at herror
  cases herror

theorem RecordsImplementation.not_recordsProxy
    (h : RecordsImplementation host deployer upgrade book world implementation answer result) :
    ¬ RecordsProxy host deployer upgrade book world deployment receipt result := by
  intro hrecords
  rcases h.notAccepted with ⟨error, herror⟩ | ⟨other, payload, hother, -, hpending⟩
  · rw [hrecords.succeeded] at herror
    cases herror
  · rw [hrecords.succeeded] at hother
    cases hother
    rw [hrecords.accepted] at hpending
    cases hpending

/-- A run does not leave the book in two ways. -/
theorem BookEffect.eq_of_describes {first second : BookEffect}
    (hfirst : first.Describes host deployer upgrade book world result)
    (hsecond : second.Describes host deployer upgrade book world result) : first = second := by
  cases first with
  | untouched =>
    cases second with
    | untouched => rfl
    | implementation =>
      obtain ⟨_, _, hrecords⟩ := hsecond
      exact absurd hrecords hfirst.not_recordsImplementation
    | proxy =>
      obtain ⟨_, _, hrecords⟩ := hsecond
      exact absurd hrecords hfirst.not_recordsProxy
  | implementation =>
    obtain ⟨_, _, hfirst⟩ := hfirst
    cases second with
    | untouched => exact absurd hfirst hsecond.not_recordsImplementation
    | implementation => rfl
    | proxy =>
      obtain ⟨_, _, hrecords⟩ := hsecond
      exact absurd hrecords hfirst.not_recordsProxy
  | proxy =>
    obtain ⟨_, _, hfirst⟩ := hfirst
    cases second with
    | untouched => exact absurd hfirst hsecond.not_recordsProxy
    | implementation =>
      obtain ⟨_, _, hrecords⟩ := hsecond
      exact absurd hfirst hrecords.not_recordsProxy
    | proxy => rfl

end Effect

/-- Deploying behind a proxy and recording leaves the book in exactly one of three ways, whatever
the chain, the disk and the source of artifacts do: as it was, if the run failed before it had an
implementation; with the implementation's entry, if it was not accepted; with the proxy's entry, in
which the implementation of this run is kept, if it was. -/
theorem deployBehindProxyAndSave_effect (host : Host γ φ) (deployer : Deployer φ)
    (upgrade : Upgrade) (book : Book) (world : World γ φ) :
    ∃! effect : BookEffect, effect.Describes host deployer upgrade book world
      (deployer.deployBehindProxyAndSave host upgrade book world) := by
  obtain ⟨effect, heffect⟩ := exists_effect host deployer upgrade book world
  exact ⟨effect, heffect, fun other hother => BookEffect.eq_of_describes hother heffect⟩

end ContractDeploy
