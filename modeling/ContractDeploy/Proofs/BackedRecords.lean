import ContractDeploy.Proofs.ChainDependence
import ContractDeploy.Proofs.Preflight
import Mathlib.Data.List.Nodup

/-!
# Every record is backed by the chain

An entry that a run writes is not a claim of its own: each field of it can be traced to a
transaction that the run handed to the node, and to what the node said of it afterwards. A run that
comes to nothing writes nothing. So after any number of runs, whatever became of them, an entry is
either the one that was there before, or the last one that was written, and then the transactions of
the run that wrote it are found in the history, in their order.

Two things are asked of the node: that a receipt names the transaction it was asked for, and that no
hash was given twice.
-/

namespace ContractDeploy

variable {γ φ : Type}

/-! ## What backs a record -/

/-- What a snapshot says of a contract is what came of an attempt to create it: its address is the
one that the receipt of the success names, its hashes are those of the transaction, of a code that
the transaction begins with, and of the code that was there once it was included. Nothing that is
empty is kept. -/
structure Snapshot.Backed (node : Node γ) (sender : Address) (before after : γ)
    (attempt : Submission) (snapshot : Snapshot) : Prop where
  creates : attempt.CreatesFrom sender
  answered : ∃ hash, attempt.answer = .ok hash ∧ snapshot.txHash = some hash
  included : ∃ receipt included read code, node.Included before included attempt receipt ∧
    receipt.contractAddress = some snapshot.address ∧ node.Reaches included read ∧
    (node.code snapshot.address read).1 = .ok code ∧
    snapshot.runtimeCodeHash = some (keccak256 code) ∧ node.Reaches read after
  creationCode : ∃ code, code <+: attempt.transaction.input ∧
    snapshot.creationCodeHash = some (keccak256 code)
  constructorArgs : snapshot.constructorArgs ≠ some []
  initArgs : snapshot.initArgs ≠ some []
  libraries : snapshot.libraries ≠ some NameMap.empty

/-- A record holds what came of the attempts of a run. That of a proxy holds what came of the last
three: the implementation was created, then the proxy, and then the admin accepted the one for the
other. -/
inductive Record.Backed (node : Node γ) (sender admin : Address) (before after : γ)
    (attempts : List Submission) : Record → Prop
  | direct {snapshot : Snapshot} {attempt : Submission} (handed : attempt ∈ attempts)
      (backed : snapshot.Backed node sender before after attempt) :
      Backed node sender admin before after attempts (.direct snapshot)
  | proxied {proxy implementation : Snapshot} {earlier : List Submission}
      {made created accepted : Submission} {second third : γ} {receipt : Receipt}
      {payload : AcceptPayload} (handed : attempts = earlier ++ [made, created, accepted])
      (implementationBacked : implementation.Backed node sender before second made)
      (proxyBacked : proxy.Backed node sender second third created)
      (acceptIncluded : node.Included third after accepted receipt)
      (acceptCall : accepted.transaction = ⟨sender, some admin, payload.calldata⟩)
      (namesAdmin : payload.admin = admin)
      (namesImplementation : payload.implementation = implementation.address)
      (namesProxy : payload.proxy = proxy.address) :
      Backed node sender admin before after attempts (.proxied proxy implementation)

/-- From some moment on, a receipt names the transaction that it was asked for. -/
def Node.NamesReceipts (node : Node γ) (start : γ) : Prop :=
  ∀ chain, node.Reaches start chain → ∀ hash receipt,
    (node.receipt hash chain).1 = .ok (some receipt) → receipt.txHash = hash

theorem Node.NamesReceipts.later {node : Node γ} {start chain : γ} (h : node.NamesReceipts start)
    (hreaches : node.Reaches start chain) : node.NamesReceipts chain :=
  fun last hlast => h last (hreaches.trans hlast)

/-! ## What a deployment made -/

/-- A deployment is what came of an attempt to create it, the code of which is that attempt's. -/
structure Deployed.MadeBy (deployed : Deployed) (node : Node γ) (sender : Address)
    (before after : γ) (attempt : Submission) : Prop where
  creates : attempt.CreatesFrom sender
  createdBy : deployed.CreatedBy node before after attempt
  creationCode : ∃ code, code <+: attempt.transaction.input ∧
    deployed.creationCodeHash = keccak256 code

theorem Deployed.MadeBy.widen {deployed : Deployed} {node : Node γ} {sender : Address}
    {first before after last : γ} {attempt : Submission}
    (h : deployed.MadeBy node sender before after attempt) (hfirst : node.Reaches first before)
    (hlast : node.Reaches after last) : deployed.MadeBy node sender first last attempt :=
  ⟨h.creates, h.createdBy.widen hfirst hlast, h.creationCode⟩

theorem recordedArgs_ne (args : List String) : recordedArgs args ≠ some [] := by
  unfold recordedArgs
  split
  · exact nofun
  · next hargs =>
    intro h
    cases h
    exact hargs rfl

theorem libraries_toSnapshot_ne (deployed : Deployed) (args : List String) :
    (deployed.toSnapshot args).libraries ≠ some NameMap.empty := by
  intro h
  simp only [Deployed.toSnapshot] at h
  split at h
  · cases h
  · next hnonempty =>
    rw [Option.some.inj h] at hnonempty
    exact hnonempty rfl

/-- The fields that are kept of what was made are backed, whatever arguments are kept with them. -/
theorem Deployed.MadeBy.backed {deployed : Deployed} {node : Node γ} {sender : Address}
    {before after : γ} {attempt : Submission}
    (h : deployed.MadeBy node sender before after attempt)
    (hreceipts : node.NamesReceipts before) (args initArgs : List String) :
    ({ deployed.toSnapshot args with initArgs := recordedArgs initArgs } : Snapshot).Backed node
      sender before after attempt := by
  obtain ⟨receipt, included, read, hincluded, haddress, hhash, hread, ⟨code, hcode, hruntime⟩,
    hafter⟩ := h.createdBy.traced
  obtain ⟨creation, hprefix, hcreation⟩ := h.creationCode
  obtain ⟨start, hash, later, hstart, hanswer, -, hlater, hfound, -⟩ := hincluded.found
  -- The hash that is kept is the receipt's, and so the one that the node gave.
  have hsubmitted : node.Reaches start later := .head (.inl ⟨attempt.transaction, rfl⟩) hlater
  have hnamed : receipt.txHash = hash :=
    hreceipts later (hstart.trans hsubmitted) hash receipt hfound
  exact {
    creates := h.creates
    answered := ⟨hash, hanswer, congrArg some (hhash.symm.trans hnamed)⟩
    included := ⟨receipt, included, read, code, hincluded, haddress, hread, hcode,
      congrArg some hruntime, hafter⟩
    creationCode := ⟨creation, hprefix, congrArg some hcreation⟩
    constructorArgs := recordedArgs_ne args
    initArgs := recordedArgs_ne initArgs
    libraries := libraries_toSnapshot_ne deployed args }

section Made

variable {host : Host γ φ} {deployer : Deployer φ} {name : String} {args : List String}
  {world after : World γ φ} {deployed : Deployed}

theorem CreationEnd.madeBy {sender : Address} {artifact : Artifact} {libraries : Libraries}
    {last : Option Submission}
    (h : CreationEnd host sender artifact args libraries world last (.ok deployed) after) :
    ∃ attempt, after.submissions = world.submissions ++ [attempt] ∧
      deployed.MadeBy host.node sender world.chain after.chain attempt := by
  cases h with
  | @created code encoded attempt _ _ hcode hencoded transaction handed createdBy linked
      creationCode =>
    refine ⟨attempt, handed, ⟨?_, createdBy, code, ?_, creationCode⟩⟩
    · rw [Submission.CreatesFrom, transaction]
      exact ⟨rfl, rfl⟩
    · rw [transaction]
      exact List.prefix_append code encoded

/-- A contract is made by the last attempt of its deployment, and by the only one if it has no
libraries to go with it. -/
theorem deploy_madeBy {autolink : Bool}
    (h : deployer.deploy host name args autolink world = (.ok deployed, after)) :
    deployer.sender.requireConnection = .ok () ∧
      ∃ earlier attempt, after.submissions = world.submissions ++ (earlier ++ [attempt]) ∧
        (autolink = false → earlier = []) ∧
        deployed.MadeBy host.node deployer.sender.address world.chain after.chain attempt := by
  cases Deployer.deployEnd_of_run h with
  | @linked artifact created left last _ _ hconnected hread course =>
    obtain ⟨middle, hmade, hended⟩ := course.ended
    cases hended with
    | contract ended =>
      obtain ⟨attempt, hhanded, hdeployed⟩ := ended.madeBy
      refine ⟨hconnected, created.map (·.attempt), attempt, ?_, nofun,
        hdeployed.widen hmade.reaches .refl⟩
      rw [hhanded, hmade.submissions, List.append_assoc]
  | unlinked hconnected hread ended =>
    obtain ⟨attempt, hhanded, hdeployed⟩ := ended.madeBy
    exact ⟨hconnected, [], attempt, hhanded, fun _ => rfl, hdeployed⟩

/-- An acceptance that was had is a call of the admin that names what was deployed, and that was
included. -/
theorem accept_included {prepared : PreparedUpgrade} {admin : Address}
    {implementation proxy : Deployed} {receipt : Receipt}
    (hconnected : deployer.sender.requireConnection = .ok ())
    (h : deployer.accept host prepared admin implementation proxy world =
      (.ok (.accepted receipt), after)) :
    ∃ attempt, after.submissions = world.submissions ++ [attempt] ∧
      attempt.transaction = ⟨deployer.sender.address, some admin,
        (prepared.payload admin implementation proxy).calldata⟩ ∧
      host.node.Included world.chain after.chain attempt receipt := by
  cases hmanual : prepared.upgrade.manualAccept with
  | true =>
    obtain ⟨last, hrun, -⟩ := Deployer.accept_of_manual host deployer hmanual admin implementation
      proxy world
    rw [hrun] at h
    cases h
  | false =>
    cases hadmin : prepared.adminInterface with
    | none =>
      rw [Deployer.accept, hmanual, if_neg Bool.false_ne_true, Deployer.sendAccept, hadmin] at h
      cases h
    | some interface =>
      have hsent := Endpoint.send_sent host (deployer.adminEndpoint admin) hconnected rfl
        (prepared.payload admin implementation proxy).toCall world
      rw [Deployer.accept_of_direct host deployer hmanual hadmin] at h
      have houtcome := congrArg Prod.fst h
      obtain ⟨found, hfound, haccepted⟩ := Except.map_eq_ok houtcome
      cases haccepted
      have hafter := congrArg Prod.snd h
      subst hafter
      exact ⟨_, hsent.handed, rfl, hsent.included receipt hfound⟩

end Made

/-! ## What is handed over stays -/

/-- One moment comes after another: the chain is reached from what it was, and what was handed to
the node is still in the history. -/
structure World.Onwards (node : Node γ) (before after : World γ φ) : Prop where
  reaches : node.Reaches before.chain after.chain
  handed : before.submissions <+: after.submissions

theorem cumulative_onwards (node : Node γ) :
    Cumulative fun before after : World γ φ => before.Onwards node after where
  refl _ := ⟨.refl, List.prefix_rfl⟩
  trans hfirst hlast :=
    ⟨hfirst.reaches.trans hlast.reaches, hfirst.handed.trans hlast.handed⟩

theorem deploymentSteps_onwards (host : Host γ φ) (journal : Journal) :
    DeploymentSteps host journal fun before after => before.Onwards host.node after where
  toCumulative := cumulative_onwards host.node
  told _ _ := ⟨.refl, List.prefix_rfl⟩
  clockRead _ := ⟨.refl, List.prefix_rfl⟩
  journalKept _ _ _ _ _ := ⟨.refl, List.prefix_rfl⟩
  submitted transaction _ := ⟨.single (.inl ⟨transaction, rfl⟩), List.prefix_append _ _⟩
  awaited hash world := ⟨host.node.reaches_await hash world.chain, List.prefix_rfl⟩
  codeRead address _ := ⟨.single (.inr (.inr ⟨address, rfl⟩)), List.prefix_rfl⟩

theorem World.Onwards.of_alike {node : Node γ} {before after last : World γ φ}
    (h : before.Onwards node after) (halike : last.Alike after) : before.Onwards node last :=
  ⟨halike.chain ▸ h.reaches, halike.submissions ▸ h.handed⟩

/-! ## Runs that record -/

/-- What a run that records is for. -/
inductive RecordingTask where
  | deploy (name : String) (args : List String)
  | upgrade (upgrade : Upgrade)

/-- The name of the entry that it sets. -/
def RecordingTask.name : RecordingTask → String
  | .deploy name _ => name
  | .upgrade planned => planned.name

/-- A run that records: what it is for, and who it is run by. -/
structure RecordingRun (φ : Type) where
  deployer : Deployer φ
  task : RecordingTask

namespace RecordingRun

variable (host : Host γ φ)

/-- Does a run. -/
def perform (run : RecordingRun φ) : Recording γ φ Unit :=
  match run.task with
  | .deploy name args => do
    let _ ← run.deployer.deployAndSave host name args
    return ()
  | .upgrade upgrade => do
    let _ ← run.deployer.deployBehindProxyAndSave host upgrade
    return ()

/-- The address book and the world after several runs, whatever became of each. -/
def performAll : List (RecordingRun φ) → Book → World γ φ → Book × World γ φ
  | [], book, world => (book, world)
  | run :: runs, book, world =>
    let result := run.perform host book world
    performAll runs result.1.2 result.2

variable (run : RecordingRun φ) (book : Book) (world : World γ φ)

/-- The run failed and wrote nothing. -/
structure Idle : Prop where
  failed : ∃ error, (run.perform host book world).1.1 = .error error
  memory : (run.perform host book world).1.2 = book

/-- The run wrote a record, and it is backed by what the run handed to the node. The proxy admin is
the one that the book had when the run started. -/
structure Writes (record : Record) (attempts : List Submission) : Prop where
  memory : book.Replaced run.task.name record (run.perform host book world).1.2
  handed : (run.perform host book world).2.submissions = world.submissions ++ attempts
  backed : record.Backed host.node run.deployer.sender.address (book.get Upgrade.adminName).address
    world.chain (run.perform host book world).2.chain attempts

/-- What a run does. -/
structure Effect : Prop where
  onwards : world.Onwards host.node (run.perform host book world).2
  recorded : run.Idle host book world ∨
    ∃ record attempts, run.Writes host book world record attempts

end RecordingRun

/-! ## What one run does -/

/-- A step after which nothing is given leaves what the step leaves. -/
theorem Recording.forget_apply {α : Type} {recording : Recording γ φ α}
    {book settled : Book} {world after : World γ φ} {outcome : Except DeployError α}
    (h : recording book world = ((outcome, settled), after)) :
    (recording >>= fun _ => pure ()) book world = ((outcome.map fun _ => (), settled), after) := by
  cases outcome with
  | ok value => exact Recording.bind_of_ok h
  | error error => exact Recording.bind_of_error h

namespace RecordingRun

section Effect

variable {host : Host γ φ} {deployer : Deployer φ} {book : Book} {world : World γ φ}

theorem perform_deploy {name : String} {args : List String} {outcome : Except DeployError Deployed}
    {settled : Book} {after : World γ φ}
    (h : deployer.deployAndSave host name args book world = ((outcome, settled), after)) :
    perform host ⟨deployer, .deploy name args⟩ book world =
      ((outcome.map fun _ => (), settled), after) :=
  Recording.forget_apply h

theorem perform_upgrade {upgrade : Upgrade} {outcome : Except DeployError ProxyDeployment}
    {settled : Book} {after : World γ φ}
    (h : deployer.deployBehindProxyAndSave host upgrade book world = ((outcome, settled), after)) :
    perform host ⟨deployer, .upgrade upgrade⟩ book world =
      ((outcome.map fun _ => (), settled), after) :=
  Recording.forget_apply h

theorem effect_of_failed {run : RecordingRun φ} {error : DeployError} {after : World γ φ}
    (h : run.perform host book world = ((.error error, book), after))
    (honwards : world.Onwards host.node after) : run.Effect host book world := by
  refine ⟨by rwa [h], .inl ⟨⟨error, ?_⟩, ?_⟩⟩ <;> rw [h]

theorem effect_of_written {run : RecordingRun φ} {outcome : Except DeployError Unit}
    {settled : Book} {after : World γ φ} {record : Record} {attempts : List Submission}
    (h : run.perform host book world = ((outcome, settled), after))
    (hreaches : host.node.Reaches world.chain after.chain)
    (memory : book.Replaced run.task.name record settled)
    (handed : after.submissions = world.submissions ++ attempts)
    (backed : record.Backed host.node run.deployer.sender.address
      (book.get Upgrade.adminName).address world.chain after.chain attempts) :
    run.Effect host book world := by
  refine ⟨?_, .inr ⟨record, attempts, ?_, ?_, ?_⟩⟩ <;> rw [h]
  · exact ⟨hreaches, handed ▸ List.prefix_append _ _⟩
  · exact memory
  · exact handed
  · exact backed

/-- A deployment that fails writes nothing, and what one that succeeds writes came of its last
attempt. -/
theorem deploy_effect (hreceipts : host.node.NamesReceipts world.chain) (deployer : Deployer φ)
    (name : String) (args : List String) (book : Book) :
    Effect host ⟨deployer, .deploy name args⟩ book world := by
  have honwards := Deployer.deploy_within (deploymentSteps_onwards host deployer.journal) name args
    true world
  cases hdeploy : deployer.deploy host name args true world with
  | mk outcome reached =>
    rw [hdeploy] at honwards
    cases outcome with
    | error error =>
      exact effect_of_failed (perform_deploy (deployAndSave_of_error hdeploy)) honwards
    | ok deployed =>
      obtain ⟨-, earlier, attempt, hhanded, -, hmade⟩ := deploy_madeBy hdeploy
      obtain ⟨saved, hsaved, halike, -⟩ := deployAndSave_alike book hdeploy
      refine effect_of_written (perform_deploy hsaved) ?_ (book.replaced_insert name _)
        (halike.submissions.trans hhanded) ?_
      · rw [halike.chain]
        exact honwards.reaches
      · rw [halike.chain]
        exact .direct (List.mem_append_right _ (List.mem_singleton_self _))
          (hmade.backed hreceipts args [])

/-! ### Upgrades -/

section Upgrade

variable {upgrade : Upgrade} {prepared : PreparedUpgrade} {admin : Address}
  {implementation : Deployed} {reached saved after : World γ φ} {earlier : List Submission}
  {made : Submission}

/-- The record of an accepted upgrade is backed by the last three attempts of the run. -/
theorem proxied_backed {deployment : ProxyDeployment} {receipt : Receipt}
    (hreceipts : host.node.NamesReceipts world.chain)
    (hhanded : saved.submissions = world.submissions ++ (earlier ++ [made]))
    (hreaches : host.node.Reaches world.chain saved.chain)
    (hmade : implementation.MadeBy host.node deployer.sender.address world.chain saved.chain made)
    (hcomplete : deployer.completeFromImplementation host prepared admin implementation saved =
      (.ok deployment, after))
    (haccepted : deployment.acceptance = .accepted receipt) (initArgs : List String) :
    ∃ attempts, after.submissions = world.submissions ++ attempts ∧
      (Record.proxied { deployment.proxy.toSnapshot [] with initArgs := recordedArgs initArgs }
        (implementation.toSnapshot [])).Backed host.node deployer.sender.address admin world.chain
          after.chain attempts := by
  obtain ⟨middle, hproxy, haccept, -⟩ := Deployer.completeFromImplementation_eq_ok hcomplete
  -- The proxy is deployed without libraries, so that its creation comes right after the other.
  obtain ⟨hconnected, before, created, hcreated, hnone, hproxyMade⟩ := deploy_madeBy hproxy
  obtain rfl := hnone rfl
  rw [haccepted] at haccept
  obtain ⟨accepted, hhandedLast, hcall, hincluded⟩ := accept_included hconnected haccept
  refine ⟨earlier ++ [made, created, accepted], ?_, .proxied rfl (hmade.backed hreceipts [] [])
    (hproxyMade.backed (hreceipts.later hreaches) [] initArgs) hincluded hcall rfl rfl rfl⟩
  rw [hhandedLast, hcreated, hhanded]
  simp only [List.append_assoc, List.cons_append, List.nil_append]

/-- What follows on a recorded implementation leaves its record, or puts that of the proxy in its
place. -/
theorem afterImplementation_effect {between : Book}
    (hreceipts : host.node.NamesReceipts world.chain)
    (hrun : deployer.deployBehindProxyAndSave host upgrade book world =
      afterImplementation host deployer upgrade prepared (book.get Upgrade.adminName).address
        implementation between saved)
    (hmemory : book.Replaced upgrade.name (.direct (implementation.toSnapshot [])) between)
    (hhanded : saved.submissions = world.submissions ++ (earlier ++ [made]))
    (hreaches : host.node.Reaches world.chain saved.chain)
    (hmade : implementation.MadeBy host.node deployer.sender.address world.chain saved.chain made) :
    Effect host ⟨deployer, .upgrade upgrade⟩ book world := by
  have honwards := Deployer.completeFromImplementation_within
    (deploymentSteps_onwards host deployer.journal) prepared (book.get Upgrade.adminName).address
    implementation saved
  cases hcomplete : deployer.completeFromImplementation host prepared
      (book.get Upgrade.adminName).address implementation saved with
  | mk outcome after =>
    rw [hcomplete] at honwards
    -- Whatever is handed over after it, the implementation came of its attempt.
    have hdirect : ∃ attempts, after.submissions = world.submissions ++ attempts ∧
        (Record.direct (implementation.toSnapshot [])).Backed host.node deployer.sender.address
          (book.get Upgrade.adminName).address world.chain after.chain attempts := by
      obtain ⟨more, hmore⟩ := honwards.handed
      have hbacked := (hmade.widen .refl honwards.reaches).backed hreceipts [] []
      have hmem : made ∈ earlier ++ [made] ++ more := by simp
      refine ⟨earlier ++ [made] ++ more, ?_, .direct hmem hbacked⟩
      rw [← hmore, hhanded, List.append_assoc]
    have hlast := hreaches.trans honwards.reaches
    cases outcome with
    | error error =>
      obtain ⟨attempts, hattempts, hbacked⟩ := hdirect
      exact effect_of_written
        (perform_upgrade (hrun.trans (afterImplementation_of_error hcomplete)))
        hlast hmemory hattempts hbacked
    | ok deployment =>
      cases hacceptance : deployment.acceptance with
      | pending payload =>
        obtain ⟨attempts, hattempts, hbacked⟩ := hdirect
        exact effect_of_written
          (perform_upgrade (hrun.trans (afterImplementation_of_pending hcomplete hacceptance)))
          hlast hmemory hattempts hbacked
      | accepted receipt =>
        obtain ⟨attempts, hattempts, hbacked⟩ := proxied_backed hreceipts hhanded hreaches
          hmade hcomplete hacceptance upgrade.initArgs
        obtain ⟨last, hsaved, halike, -⟩ := Recording.save_alike host upgrade.name
          (Deployer.acceptedRecord upgrade deployment.proxy (between.get upgrade.name)) between
          after
        rw [← recordAcceptance_of_accepted hacceptance] at hsaved
        have hsettled := hrun.trans (afterImplementation_of_recorded hcomplete hsaved)
        rw [← acceptedRecord_of_replaced deployment.proxy hmemory] at hbacked
        refine effect_of_written (perform_upgrade hsettled) ?_
          (hmemory.trans (between.replaced_insert upgrade.name _))
          (halike.submissions.trans hattempts) ?_ <;> rw [halike.chain]
        · exact hlast
        · exact hbacked

/-- An upgrade that fails before it has an implementation writes nothing, and what any other writes
is backed by what it handed to the node. -/
theorem upgrade_effect (hreceipts : host.node.NamesReceipts world.chain) (deployer : Deployer φ)
    (upgrade : Upgrade) (book : Book) : Effect host ⟨deployer, .upgrade upgrade⟩ book world := by
  have hchecked := deployBehindProxyAndSave_checkedFirst host deployer upgrade book world
  generalize hrun : deployer.deployBehindProxyAndSave host upgrade book world = result at hchecked
  cases hchecked with
  | refused first =>
    exact effect_of_failed (perform_upgrade hrun) ((cumulative_onwards host.node).refl world)
  | passed passes proceeds =>
    obtain ⟨prepared, -, hproceeds⟩ := proceeds
    have honwards := Deployer.deploy_within (deploymentSteps_onwards host deployer.journal)
      upgrade.name [] true world
    rw [hproceeds, Deployer.completeAndSave] at hrun
    cases hdeploy : deployer.deploy host upgrade.name [] true world with
    | mk outcome reached =>
      rw [hdeploy] at honwards
      cases outcome with
      | error error =>
        rw [Recording.bind_of_error (deployAndSave_of_error hdeploy)] at hrun
        exact effect_of_failed (perform_upgrade hrun) honwards
      | ok implementation =>
        obtain ⟨-, earlier, made, hhanded, -, hmade⟩ := deploy_madeBy hdeploy
        obtain ⟨saved, hsaved, halike, -⟩ := deployAndSave_alike book hdeploy
        rw [Recording.bind_of_ok hsaved] at hrun
        rw [← halike.chain] at hmade
        exact afterImplementation_effect hreceipts hrun
          (book.replaced_insert upgrade.name _) (halike.submissions.trans hhanded)
          (honwards.of_alike halike).reaches hmade

end Upgrade

/-- A run either writes nothing and fails, or writes a record that is backed by what it handed to
the node. -/
theorem perform_effect (hreceipts : host.node.NamesReceipts world.chain) (run : RecordingRun φ)
    (book : Book) : run.Effect host book world := by
  obtain ⟨deployer, task⟩ := run
  cases task with
  | deploy name args => exact deploy_effect hreceipts deployer name args book
  | upgrade upgrade => exact upgrade_effect hreceipts deployer upgrade book

end Effect

/-! ## Several runs -/

/-- None of several runs wrote an entry: those that could have come to nothing. -/
inductive NeverWritten (host : Host γ φ) (name : String) :
    List (RecordingRun φ) → Book → World γ φ → Prop
  | none (book : Book) (world : World γ φ) : NeverWritten host name [] book world
  | next {run : RecordingRun φ} {runs : List (RecordingRun φ)} {book : Book} {world : World γ φ}
      (idle : run.task.name = name → run.Idle host book world)
      (rest : NeverWritten host name runs (run.perform host book world).1.2
        (run.perform host book world).2) :
      NeverWritten host name (run :: runs) book world

/-- Of several runs, the last that wrote an entry wrote this record, with these attempts. -/
inductive LastWritten (host : Host γ φ) (name : String) (record : Record)
    (attempts : List Submission) : List (RecordingRun φ) → Book → World γ φ → Prop
  | here {run : RecordingRun φ} {runs : List (RecordingRun φ)} {book : Book} {world : World γ φ}
      (named : run.task.name = name) (writes : run.Writes host book world record attempts)
      (rest : NeverWritten host name runs (run.perform host book world).1.2
        (run.perform host book world).2) :
      LastWritten host name record attempts (run :: runs) book world
  | later {run : RecordingRun φ} {runs : List (RecordingRun φ)} {book : Book} {world : World γ φ}
      (last : LastWritten host name record attempts runs (run.perform host book world).1.2
        (run.perform host book world).2) :
      LastWritten host name record attempts (run :: runs) book world

section Several

variable {host : Host γ φ} {run : RecordingRun φ} {runs : List (RecordingRun φ)} {book : Book}
  {world : World γ φ} {name : String}

/-- A run leaves the entries of other names alone. -/
theorem Effect.entry_eq (h : run.Effect host book world) (hname : run.task.name ≠ name) :
    (run.perform host book world).1.2.entries.get? name = book.entries.get? name := by
  rcases h.recorded with hidle | ⟨record, attempts, hwrites⟩
  · rw [hidle.memory]
  · exact hwrites.memory.others name (Ne.symm hname)

/-- Several runs only go onwards. -/
theorem performAll_onwards (hreceipts : host.node.NamesReceipts world.chain)
    (runs : List (RecordingRun φ)) (book : Book) :
    world.Onwards host.node (performAll host runs book world).2 := by
  induction runs generalizing book world with
  | nil => exact (cumulative_onwards host.node).refl world
  | cons run runs ih =>
    have hfirst := (perform_effect hreceipts run book).onwards
    have hrest := ih (hreceipts.later hfirst.reaches) (run.perform host book world).1.2
    exact (cumulative_onwards host.node).trans hfirst hrest

/-- Several runs leave the other networks of the book alone. -/
theorem performAll_networks (hreceipts : host.node.NamesReceipts world.chain)
    (runs : List (RecordingRun φ)) (book : Book) {network : String}
    (hnetwork : network ≠ book.network) :
    (performAll host runs book world).1.document.get? network = book.document.get? network := by
  induction runs generalizing book world with
  | nil => rfl
  | cons run runs ih =>
    have heffect := perform_effect hreceipts run book
    have hlater := hreceipts.later heffect.onwards.reaches
    rcases heffect.recorded with hidle | ⟨record, attempts, hwrites⟩
    · have hrest := ih hlater (run.perform host book world).1.2 (by rwa [hidle.memory])
      exact hrest.trans (by rw [hidle.memory])
    · have hrest := ih hlater (run.perform host book world).1.2
        (hwrites.memory.network ▸ hnetwork)
      exact hrest.trans (hwrites.memory.networks network hnetwork)

/-- What a run handed over is still in the history after others. -/
theorem Writes.mem_history {record : Record} {attempts : List Submission}
    (h : run.Writes host book world record attempts)
    (hreceipts : host.node.NamesReceipts (run.perform host book world).2.chain)
    (runs : List (RecordingRun φ)) {attempt : Submission} (hattempt : attempt ∈ attempts) :
    attempt ∈ (performAll host (run :: runs) book world).2.submissions := by
  have hrest := (performAll_onwards hreceipts runs (run.perform host book world).1.2).handed
  have hhanded : attempt ∈ (run.perform host book world).2.submissions := by
    rw [h.handed]
    exact List.mem_append_right _ hattempt
  exact hrest.subset hhanded

end Several

end RecordingRun

/-! ### Hashes -/

/-- The hash that the node gave, if it took the transaction in. -/
def Submission.hash? (submission : Submission) : Option Hash := submission.answer.toOption

/-- No hash was given twice. -/
abbrev HashesDistinct (history : List Submission) : Prop :=
  (history.filterMap Submission.hash?).Nodup

/-- An attempt stands in a history, and no other one has its hash. -/
def Submission.Identified (attempt : Submission) (history : List Submission) : Prop :=
  ∃ earlier later, history = earlier ++ attempt :: later ∧
    ∀ other ∈ earlier ++ later, ∀ hash, attempt.answer = .ok hash → other.answer ≠ .ok hash

theorem HashesDistinct.identified {history : List Submission} (h : HashesDistinct history)
    {attempt : Submission} (hattempt : attempt ∈ history) : attempt.Identified history := by
  obtain ⟨earlier, later, rfl⟩ := List.append_of_mem hattempt
  refine ⟨earlier, later, rfl, ?_⟩
  intro other hother hash hanswer hsame
  have hhash : attempt.hash? = some hash := by
    rw [Submission.hash?, hanswer]
    rfl
  have hotherHash : other.hash? = some hash := by
    rw [Submission.hash?, hsame]
    rfl
  rw [HashesDistinct, List.filterMap_append, List.filterMap_cons_some hhash, List.nodup_middle,
    ← List.filterMap_append] at h
  exact (List.nodup_cons.1 h).1 (List.mem_filterMap.2 ⟨other, hother, hotherHash⟩)

/-! ## Records of several runs -/

open RecordingRun

/-- After any runs that record, whatever became of each of them, an entry of the address book is
what it was before all of them, and then each run that was to write it failed; or it is what the
last run wrote that did not, and then it is backed by what that run handed to the node, each
transaction of which the history knows by its hash. -/
theorem recorded_entries_backed (host : Host γ φ) (runs : List (RecordingRun φ)) (book : Book)
    (world : World γ φ) (hreceipts : host.node.NamesReceipts world.chain)
    (hdistinct : HashesDistinct (performAll host runs book world).2.submissions) :
    (∀ network, network ≠ book.network →
      (performAll host runs book world).1.document.get? network = book.document.get? network) ∧
    ∀ name,
      (NeverWritten host name runs book world ∧
        (performAll host runs book world).1.entries.get? name = book.entries.get? name) ∨
      ∃ record attempts, LastWritten host name record attempts runs book world ∧
        (performAll host runs book world).1.entries.get? name = some record ∧
        ∀ attempt ∈ attempts,
          attempt.Identified (performAll host runs book world).2.submissions := by
  refine ⟨fun network hnetwork => performAll_networks hreceipts runs book hnetwork, ?_⟩
  intro name
  induction runs generalizing book world with
  | nil => exact .inl ⟨.none book world, rfl⟩
  | cons run runs ih =>
    have heffect := perform_effect hreceipts run book
    have hlater := hreceipts.later heffect.onwards.reaches
    rcases ih (run.perform host book world).1.2 (run.perform host book world).2 hlater hdistinct
      with ⟨hnever, hentry⟩ | ⟨record, attempts, hlast, hentry, hidentified⟩
    · by_cases hname : run.task.name = name
      · rcases heffect.recorded with hidle | ⟨record, attempts, hwrites⟩
        · have hsame := congrArg (fun book => book.entries.get? name) hidle.memory
          exact .inl ⟨.next (fun _ => hidle) hnever, hentry.trans hsame⟩
        · have hrecord := hwrites.memory.entry
          rw [hname] at hrecord
          refine .inr ⟨record, attempts, .here hname hwrites hnever, hentry.trans hrecord, ?_⟩
          intro attempt hattempt
          exact hdistinct.identified (hwrites.mem_history hlater runs hattempt)
      · exact .inl ⟨.next (fun hsame => absurd hsame hname) hnever,
          hentry.trans (heffect.entry_eq hname)⟩
    · exact .inr ⟨record, attempts, .later hlast, hentry, hidentified⟩

/-- A contract is deployed and then put behind a proxy, so that its entry is set three times. What
it is in the end was written by the upgrade. -/
theorem recorded_entries_backed_token :
    let runs : List (RecordingRun FileTree) :=
      [⟨plainDeployer, .deploy "Token" []⟩, ⟨plainDeployer, .upgrade tokenUpgrade⟩]
    let world : World Nat FileTree := {
      chain := 0
      files := .file "addresses.json" (.text "") .done }
    promptHost.node.NamesReceipts world.chain ∧
      HashesDistinct (performAll promptHost runs adminBook world).2.submissions ∧
      ∃ proxy implementation attempts,
        LastWritten promptHost "Token" (.proxied proxy implementation) attempts runs adminBook
          world ∧
        ∀ attempt ∈ attempts,
          attempt.Identified (performAll promptHost runs adminBook world).2.submissions := by
  intro runs world
  have hreceipts : promptHost.node.NamesReceipts world.chain := by
    intro chain _ hash receipt hanswer
    cases hanswer
    rfl
  have hrun : HashesDistinct (performAll promptHost runs adminBook world).2.submissions ∧
      ((performAll promptHost runs adminBook world).1.get "Token").isProxy = true := by
    decide +kernel
  obtain ⟨hdistinct, hproxied⟩ := hrun
  refine ⟨hreceipts, hdistinct, ?_⟩
  rw [Book.get] at hproxied
  have hbacked := recorded_entries_backed promptHost runs adminBook world hreceipts hdistinct
  rcases hbacked.2 "Token" with ⟨-, hentry⟩ | ⟨record, attempts, hlast, hentry, hidentified⟩
  · have habsent : adminBook.entries.get? "Token" = none := by decide
    rw [hentry, habsent] at hproxied
    cases hproxied
  · rw [hentry] at hproxied
    cases record with
    | direct snapshot => cases hproxied
    | proxied proxy implementation =>
      exact ⟨proxy, implementation, attempts, hlast, hidentified⟩

end ContractDeploy
