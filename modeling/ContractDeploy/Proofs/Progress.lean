import ContractDeploy.Proofs.LinkedCode
import ContractDeploy.Proofs.Preflight

/-!
# Deployments that come to their end

A deployment spends money before it is done, so it had better not fail by itself. On a chain that
takes in every transaction, never reverts one, names the contract of each creation and answers every
question (`Node.Obliging`), a deployment fails only for what its artifacts or arguments are: if the
contract's bytecode is linkable, its libraries can be created as they are and its arguments encode,
it comes to its end, however many libraries there are. So does an upgrade that passed the checks
made beforehand and whose proxy takes two addresses: the last step is accepted, or handed out. The
statements are put together along the run, from waiting for one receipt to the whole.
-/

namespace ContractDeploy

variable {γ φ : Type}

/-! ## Obliging chains -/

/-- A transaction did what it was sent for: it succeeded, and if it was to create a contract, the
receipt names one. -/
structure Receipt.Fulfils (receipt : Receipt) (transaction : Transaction) : Prop where
  succeeded : receipt.succeeded = true
  named : transaction.callee = none → receipt.contractAddress.isSome = true

/-- From a moment on, a transaction is either pending or has done what it was sent for. -/
def Node.Settles (node : Node γ) (transaction : Transaction) (hash : Hash) (chain : γ) : Prop :=
  ∀ later, node.Reaches chain later → (node.receipt hash later).1 = .ok none ∨
    ∃ receipt, (node.receipt hash later).1 = .ok (some receipt) ∧ receipt.Fulfils transaction

/-- From a moment on, a chain rejects and reverts no transaction, withholds no contract's address,
and fails no read. -/
structure Node.Obliging (node : Node γ) (start : γ) : Prop where
  accepts : ∀ transaction chain, node.Reaches start chain →
    ∃ hash, (node.submit transaction chain).1 = .ok hash
  settles : ∀ transaction chain hash, node.Reaches start chain →
    (node.submit transaction chain).1 = .ok hash →
    node.Settles transaction hash (node.submit transaction chain).2
  readable : ∀ address chain, node.Reaches start chain →
    ∃ code, (node.code address chain).1 = .ok code

section Chains

variable {node : Node γ} {start reached : γ} {transaction : Transaction} {hash : Hash}

theorem Node.Settles.later (h : node.Settles transaction hash start)
    (hreached : node.Reaches start reached) : node.Settles transaction hash reached :=
  fun chain hchain => h chain (hreached.trans hchain)

theorem Node.Obliging.later (h : node.Obliging start) (hreached : node.Reaches start reached) :
    node.Obliging reached where
  accepts transaction chain hchain := h.accepts transaction chain (hreached.trans hchain)
  settles transaction chain hash hchain :=
    h.settles transaction chain hash (hreached.trans hchain)
  readable address chain hchain := h.readable address chain (hreached.trans hchain)

/-- Waiting for a transaction that settles gives a receipt. Each read that finds it pending uses up
some of the node's patience, so there is a last one. -/
theorem Node.Settles.await (h : node.Settles transaction hash start) :
    ∃ receipt, (node.await hash start).1.1 = .ok receipt ∧ receipt.Fulfils transaction := by
  fun_induction Node.await node hash start with
  | case1 start receipt next hread =>
    rcases h start .refl with hpending | ⟨found, hfound, hfulfils⟩
    · rw [hread] at hpending
      cases hpending
    · rw [hread] at hfound
      cases hfound
      exact ⟨receipt, rfl, hfulfils⟩
  | case2 start reason next hread =>
    rcases h start .refl with hpending | ⟨found, hfound, -⟩
    · rw [hread] at hpending
      cases hpending
    · rw [hread] at hfound
      cases hfound
  | case3 start next hread hless outcome polls last hawait ih =>
    have hnext : node.Reaches start next := .single (.inr (.inl ⟨hash, by rw [hread]⟩))
    rw [hawait] at ih
    exact ih (h.later hnext)

end Chains

/-! ## Sending -/

namespace Endpoint

variable {host : Host γ φ} {endpoint : Endpoint} {journal : Journal} {transaction : Transaction}
  {world : World γ φ}

theorem wait_of_settles (submitted : Submitted)
    (hconnected : endpoint.sender.requireConnection = .ok ())
    (h : host.node.Settles transaction submitted.txHash world.chain) :
    ∃ receipt after, endpoint.wait host submitted world = (.ok receipt, after) ∧
      receipt.Fulfils transaction := by
  obtain ⟨receipt, hreceipt, hfulfils⟩ := h.await
  refine ⟨receipt, (host.await submitted.txHash world).2, ?_, hfulfils⟩
  rw [wait_of_connected host hconnected]
  refine Prod.ext ?_ rfl
  show (host.node.await submitted.txHash world.chain).1.1.mapError _ = _
  rw [hreceipt]
  rfl

/-- A transaction that settles is recorded, and so is its outcome. -/
theorem afterSubmission_of_settles (journal : Journal) (submitted : Submitted)
    (hconnected : endpoint.sender.requireConnection = .ok ())
    (h : host.node.Settles transaction submitted.txHash world.chain) :
    ∃ after, afterSubmission host endpoint journal submitted world = (.ok submitted, after) := by
  have hrecorded : host.node.Reaches world.chain
      (journal.record host (callLines endpoint.name submitted) world).2.chain :=
    Journal.record_within (deploymentSteps_reaches host journal).toJournalSteps _ world
  obtain ⟨receipt, waited, hwait, -⟩ := wait_of_settles submitted hconnected (h.later hrecorded)
  refine ⟨(recordOutcome host journal receipt waited).2, ?_⟩
  rw [afterSubmission, Run.bind_of_ok (Run.ofAct_apply _ world), Run.bind_of_ok hwait,
    Run.bind_of_ok (Run.ofAct_apply _ waited)]
  rfl

theorem awaitSuccess_of_settles (submitted : Submitted)
    (hconnected : endpoint.sender.requireConnection = .ok ())
    (h : host.node.Settles transaction submitted.txHash world.chain) :
    ∃ receipt after, awaitSuccess host endpoint submitted world = (.ok receipt, after) ∧
      receipt.Fulfils transaction := by
  obtain ⟨receipt, after, hwait, hfulfils⟩ := wait_of_settles submitted hconnected h
  refine ⟨receipt, after, ?_, hfulfils⟩
  rw [awaitSuccess, Run.bind_of_ok hwait, if_pos hfulfils.succeeded]
  rfl

/-- On an obliging chain a call that is sent does what it was sent for. -/
theorem send_of_obliging (endpoint : Endpoint) (h : host.node.Obliging world.chain)
    (hconnected : endpoint.sender.requireConnection = .ok ())
    (hjournal : endpoint.journal = some journal) (call : Call) :
    ∃ receipt after, endpoint.send host call world = (.ok receipt, after) ∧
      receipt.Fulfils (endpoint.transaction call) := by
  obtain ⟨hash, haccepted⟩ := h.accepts (endpoint.transaction call) world.chain .refl
  let handed := host.handed (endpoint.transaction call) world
  have hsettles : host.node.Settles (endpoint.transaction call) hash handed.chain :=
    h.settles _ _ _ .refl haccepted
  have hbare := submitBare_apply host hconnected call world
  rw [haccepted] at hbare
  obtain ⟨recorded, hrecorded⟩ :=
    afterSubmission_of_settles journal (endpoint.submitted call hash) hconnected hsettles
  have hreached := afterSubmission_within (deploymentSteps_reaches host journal).toSurroundingSteps
    endpoint (endpoint.submitted call hash) handed
  rw [hrecorded] at hreached
  obtain ⟨receipt, after, hawait, hfulfils⟩ :=
    awaitSuccess_of_settles (endpoint.submitted call hash) hconnected (hsettles.later hreached)
  refine ⟨receipt, after, ?_, hfulfils⟩
  show (endpoint.submit host call >>= awaitSuccess host endpoint) world = _
  rw [Run.bind_of_ok ((submit_of_submitted hjournal hbare).trans hrecorded)]
  exact hawait

end Endpoint

/-! ## Creating contracts -/

namespace Abi

/-- A word that is no list is a declared type of its own, however deep it stands. -/
theorem scanDeclared_word {word : List Char}
    (hstem : ∀ member, scanStem member word = some (.named word, [])) (room : Nat) :
    scanDeclared room word = some ((.named word, []), []) := by
  have hover : ∀ member, scanDeclaredOver member word = some ((.named word, []), []) := by
    intro member
    rw [scanDeclaredOver, hstem]
    rfl
  cases room <;> exact hover _

/-- A parameter that is declared as an address stands for one. -/
theorem Param.resolve?_address (name : String) :
    (Param.mk name "address" []).resolve? = some .address := by
  unfold Param.resolve? readDeclared
  rw [scanDeclared_word fun _ => rfl]
  rfl

/-- A parameter that is declared as a byte string stands for one. -/
theorem Param.resolve?_bytes (name : String) :
    (Param.mk name "bytes" []).resolve? = some .bytes := by
  unfold Param.resolve? readDeclared
  rw [scanDeclared_word fun _ => rfl]
  rfl

end Abi

/-- A constructor that takes no arguments, whether it is declared or not. -/
def Interface.TakesNothing (interface : Interface) : Prop :=
  interface.constructorInputs.getD [] = []

/-- A constructor that takes two addresses. -/
def Interface.TakesTwoAddresses (interface : Interface) : Prop :=
  ∃ first second, interface.constructorInputs = some [first, second] ∧
    first.resolve? = some .address ∧ second.resolve? = some .address

theorem Interface.TakesNothing.encodeConstructor {interface : Interface}
    (h : interface.TakesNothing) : interface.encodeConstructor [] = .ok [] := by
  unfold TakesNothing at h
  unfold Interface.encodeConstructor
  cases hinputs : interface.constructorInputs with
  | none => rfl
  | some inputs =>
    rw [hinputs, Option.getD_some] at h
    rw [h]
    rfl

/-- Addresses in the form in which they are handed to a constructor are encoded in their order. -/
theorem Interface.TakesTwoAddresses.encodeConstructor {interface : Interface}
    (h : interface.TakesTwoAddresses) (a b : Address) :
    interface.encodeConstructor [a.checksum, b.checksum] =
      .ok (encodeArguments [.address a, .address b]) := by
  obtain ⟨first, second, hinputs, hfirst, hsecond⟩ := h
  have hread : Abi.readArguments constructorName [first, second] [a.checksum, b.checksum] =
      .ok [.address a, .address b] := by
    unfold Abi.readArguments
    rw [if_neg (by simp)]
    simp only [Abi.readPaired, hfirst, hsecond, Abi.readValue?_checksum]
    rfl
  unfold Interface.encodeConstructor
  rw [hinputs]
  show (Abi.readArguments constructorName [first, second] [a.checksum, b.checksum]).map _ = _
  rw [hread]
  rfl

/-- A library that can be created as it is: its bytecode decodes with nothing linked into it, and
its constructor takes nothing. -/
structure Artifact.Standalone (artifact : Artifact) : Prop where
  decodes : ∃ code, artifact.linkedCode NameMap.empty = .ok code
  takesNothing : artifact.interface.TakesNothing

namespace Deployer

variable {host : Host γ φ} {deployer : Deployer φ} {artifact : Artifact} {args : List String}
  {libraries : Libraries} {world : World γ φ}

theorem readBack_of_obliging (contract : String) (code : Bytes) (libraries : Libraries)
    {receipt : Receipt} {transaction : Transaction} (h : host.node.Obliging world.chain)
    (hfulfils : receipt.Fulfils transaction) (hcreation : transaction.callee = none) :
    ∃ deployed after,
      readBack host contract code libraries receipt world = (.ok deployed, after) := by
  obtain ⟨address, haddress⟩ := Option.isSome_iff_exists.1 (hfulfils.named hcreation)
  obtain ⟨runtimeCode, hcode⟩ := h.readable address world.chain .refl
  obtain ⟨told, htell, hchain⟩ : ∃ told : World γ φ,
      Run.tell (.deployIncluded contract receipt.txHash) world = (.ok (), told) ∧
        told.chain = world.chain := ⟨_, rfl, rfl⟩
  have hnamed : (liftM (createdContract receipt) : Run γ φ Address) told = (.ok address, told) := by
    rw [Run.ofExcept_apply, createdContract, haddress]
  have hread : host.codeAt address told = (.ok runtimeCode, (host.codeAt address told).2) := by
    refine Prod.ext ?_ rfl
    show (host.node.code address told.chain).1.mapError _ = _
    rw [hchain, hcode]
    rfl
  rw [readBack, Run.bind_of_ok htell, Run.bind_of_ok hnamed, Run.bind_of_ok hread]
  exact ⟨_, _, rfl⟩

/-- On an obliging chain code and arguments are all that it takes to create a contract. -/
theorem deployArtifact_of_obliging (h : host.node.Obliging world.chain)
    (hconnected : deployer.sender.requireConnection = .ok ()) {code encoded : Bytes}
    (hcode : artifact.linkedCode libraries = .ok code)
    (hencoded : artifact.interface.encodeConstructor args = .ok encoded) :
    ∃ deployed after,
      deployer.deployArtifact host artifact args libraries world = (.ok deployed, after) := by
  have hcall : (liftM ((deployer.creationOf artifact code).call args) : Run γ φ Call) world =
      (.ok (constructorCall code encoded args), world) := by
    rw [Run.ofExcept_apply, call_creationOf, hencoded]
    rfl
  obtain ⟨receipt, sent, hsend, hfulfils⟩ :=
    Endpoint.send_of_obliging (deployer.creationOf artifact code).endpoint h hconnected rfl
      (constructorCall code encoded args)
  have hsent : host.node.Obliging sent.chain := h.later (reaches_send rfl hsend)
  obtain ⟨deployed, after, hback⟩ :=
    readBack_of_obliging artifact.contractName code libraries hsent hfulfils rfl
  refine ⟨deployed, after, ?_⟩
  rw [deployArtifact_of_linked host hconnected hcode args world, Run.bind_of_ok hcall,
    Run.bind_of_ok hsend]
  exact hback

/-- Libraries are there to be created, whatever is added to the journal meanwhile. -/
def LibrariesReady (host : Host γ φ) (deployer : Deployer φ) (names : List String)
    (files : φ) : Prop :=
  ∀ name ∈ names, ∀ later, deployer.journal.Grown host.disk files later →
    ∃ library, deployer.source.read later name = .ok library ∧ library.Standalone

/-- Libraries that are there are created one after the other, and each comes to have an address. -/
theorem deployLibraries_of_obliging (contract : String) {names : List String}
    (h : host.node.Obliging world.chain)
    (hconnected : deployer.sender.requireConnection = .ok ())
    (hready : LibrariesReady host deployer names world.files) (libraries : Libraries) :
    ∃ linked after,
      deployer.deployLibraries host contract names libraries world = (.ok linked, after) ∧
      ∀ name, name ∈ names ∨ (libraries.get? name).isSome → (linked.get? name).isSome := by
  induction names generalizing libraries world with
  | nil =>
    refine ⟨libraries, world, rfl, ?_⟩
    rintro name (hmem | hsome)
    · cases hmem
    · exact hsome
  | cons first names ih =>
    obtain ⟨told, htell, hchain, hfiles⟩ :
        ∃ told : World γ φ, Run.tell (.deployingLibrary first contract) world = (.ok (), told) ∧
          told.chain = world.chain ∧ told.files = world.files := ⟨_, rfl, rfl, rfl⟩
    obtain ⟨library, hread, ⟨code, hcode⟩, htakes⟩ := hready first List.mem_cons_self _ .refl
    rw [← hfiles] at hread hready
    rw [← hchain] at h
    obtain ⟨deployed, created, hcreate⟩ :=
      deployArtifact_of_obliging h hconnected hcode htakes.encodeConstructor
    have hreached := deployArtifact_within (deploymentSteps_reaches host deployer.journal) hread []
      NameMap.empty told
    have hgrown := deployArtifact_within (deploymentSteps_grown host deployer.journal) hread []
      NameMap.empty told
    rw [hcreate] at hreached hgrown
    -- The others are still there, and the chain is still as obliging.
    have hothers : LibrariesReady host deployer names created.files :=
      fun name hname later hlater =>
        hready name (List.mem_cons_of_mem _ hname) later (hgrown.trans hlater)
    obtain ⟨linked, after, hrest, hlinked⟩ :=
      ih (h.later hreached) hothers (libraries.insert first deployed.address)
    refine ⟨linked, after, ?_, ?_⟩
    · rw [deployLibraries, Run.bind_of_ok htell,
        Run.bind_of_ok (ArtifactSource.load_of_read hread), Run.bind_of_ok hcreate]
      exact hrest
    · intro name hname
      apply hlinked
      by_cases hfirst : first = name
      · right
        rw [NameMap.get?_insert, if_pos hfirst]
        rfl
      · rw [NameMap.get?_insert, if_neg hfirst]
        rcases hname with hname | hsome
        · rcases List.mem_cons.1 hname with rfl | hname
          · exact absurd rfl hfirst
          · exact .inl hname
        · exact .inr hsome

/-- What it takes for a contract to be deployed with its libraries. -/
structure Ready (host : Host γ φ) (deployer : Deployer φ) (artifact : Artifact)
    (world : World γ φ) : Prop where
  connected : deployer.sender.requireConnection = .ok ()
  obliging : host.node.Obliging world.chain
  linkable : artifact.Linkable
  libraries : LibrariesReady host deployer artifact.libraryNames world.files

/-- Libraries that have an address each resolve the artifact that names them. -/
theorem resolved_of_libraryNames
    (h : ∀ name, name ∈ artifact.libraryNames → (libraries.get? name).isSome) :
    artifact.Resolved libraries := by
  intro site hsite
  obtain ⟨reference, hreference, hplace⟩ := List.mem_flatMap.1 hsite
  obtain ⟨offset, -, rfl⟩ := List.mem_map.1 hplace
  have hname : reference.1 ∈ artifact.libraryNames :=
    (Artifact.mem_libraryNames artifact _).2 ⟨_, hreference⟩
  exact Option.isSome_iff_exists.1 (h _ hname)

/-- A contract that is ready is deployed with any arguments that encode. -/
theorem deploy_of_ready {name : String}
    (hread : deployer.source.read world.files name = .ok artifact)
    (h : deployer.Ready host artifact world) {encoded : Bytes}
    (hencoded : artifact.interface.encodeConstructor args = .ok encoded) :
    ∃ deployed after, deployer.deploy host name args true world = (.ok deployed, after) := by
  obtain ⟨linked, middle, hlibraries, hlinked⟩ := deployLibraries_of_obliging
    artifact.contractName h.obliging h.connected h.libraries NameMap.empty
  have hresolved : artifact.Resolved linked :=
    resolved_of_libraryNames fun name hname => hlinked name (.inl hname)
  obtain ⟨code, hcode, -⟩ := h.linkable.linkedCode_eq_ok hresolved
  have hmiddle : host.node.Obliging middle.chain :=
    h.obliging.later (reaches_deployLibraries hlibraries)
  obtain ⟨deployed, after, hcreate⟩ :=
    deployArtifact_of_obliging hmiddle h.connected hcode hencoded
  have hconnected : (liftM deployer.sender.requireConnection : Run γ φ Unit) world =
      (.ok (), world) := by
    rw [Run.ofExcept_apply, h.connected]
  refine ⟨deployed, after, ?_⟩
  rw [deploy, Run.bind_of_ok hconnected, Run.bind_of_ok (ArtifactSource.load_of_read hread),
    if_pos rfl, Run.bind_of_ok hlibraries]
  exact hcreate

/-! ## Upgrades -/

/-- A proxy is there to be created once the book was saved, whatever was added to the journal
meanwhile: its bytecode decodes with nothing linked into it, and its constructor takes two
addresses. -/
def ProxyReady (host : Host γ φ) (deployer : Deployer φ) (proxyName : String) (book : Book)
    (files : φ) : Prop :=
  ∀ save later, BookSaves host.disk deployer.journal book.file [save] files later →
    ∃ proxy code, deployer.source.read later proxyName = .ok proxy ∧
      proxy.linkedCode NameMap.empty = .ok code ∧ proxy.interface.TakesTwoAddresses

theorem deployProxy_of_obliging {proxyName : String} {proxy : Artifact} {code : Bytes}
    (h : host.node.Obliging world.chain)
    (hconnected : deployer.sender.requireConnection = .ok ())
    (hread : deployer.source.read world.files proxyName = .ok proxy)
    (hcode : proxy.linkedCode NameMap.empty = .ok code)
    (htakes : proxy.interface.TakesTwoAddresses) (implementation admin : Address) :
    ∃ deployed after, deployer.deployProxy host proxyName implementation admin world =
      (.ok deployed, after) := by
  obtain ⟨deployed, after, hcreate⟩ := deployArtifact_of_obliging h hconnected hcode
    (htakes.encodeConstructor implementation admin)
  refine ⟨deployed, after, ?_⟩
  rw [deployProxy, deploy_unlinked hconnected hread]
  exact hcreate

/-- An acceptance is what the mode asks for: the call that accepts was sent and did what it was sent
for, or it was handed out. -/
def AcceptedAs (manualAccept : Bool) (acceptance : Acceptance) : Prop :=
  (manualAccept = false → ∃ receipt, acceptance = .accepted receipt ∧ receipt.succeeded = true) ∧
    (manualAccept = true → ∃ payload, acceptance = .pending payload)

theorem accept_of_obliging {prepared : PreparedUpgrade} (hloaded : prepared.AdminLoaded)
    (h : host.node.Obliging world.chain)
    (hconnected : deployer.sender.requireConnection = .ok ()) (admin : Address)
    (implementation proxy : Deployed) :
    ∃ acceptance after,
      deployer.accept host prepared admin implementation proxy world = (.ok acceptance, after) ∧
      AcceptedAs prepared.upgrade.manualAccept acceptance := by
  cases hmanual : prepared.upgrade.manualAccept with
  | true =>
    obtain ⟨after, haccept, -⟩ :=
      accept_of_manual host deployer hmanual admin implementation proxy world
    exact ⟨_, after, haccept, nofun, fun _ => ⟨_, rfl⟩⟩
  | false =>
    have hsome : prepared.adminInterface ≠ none := by
      intro hnone
      rw [hloaded.1 hnone] at hmanual
      cases hmanual
    obtain ⟨interface, hinterface⟩ := Option.ne_none_iff_exists'.1 hsome
    obtain ⟨receipt, after, hsend, hfulfils⟩ := Endpoint.send_of_obliging
      (deployer.adminEndpoint admin) h hconnected rfl
      (prepared.payload admin implementation proxy).toCall
    have haccept := accept_of_direct host deployer hmanual hinterface admin implementation proxy
      world
    rw [hsend] at haccept
    exact ⟨_, after, haccept, fun _ => ⟨receipt, rfl, hfulfils.succeeded⟩, nofun⟩

/-- Once the implementation is there, the proxy is created and the implementation accepted. -/
theorem completeFromImplementation_of_obliging {prepared : PreparedUpgrade} {proxy : Artifact}
    {code : Bytes} (hloaded : prepared.AdminLoaded) (h : host.node.Obliging world.chain)
    (hconnected : deployer.sender.requireConnection = .ok ())
    (hread : deployer.source.read world.files prepared.upgrade.proxyName = .ok proxy)
    (hcode : proxy.linkedCode NameMap.empty = .ok code)
    (htakes : proxy.interface.TakesTwoAddresses) (admin : Address) (implementation : Deployed) :
    ∃ deployment after,
      deployer.completeFromImplementation host prepared admin implementation world =
        (.ok deployment, after) ∧
      AcceptedAs prepared.upgrade.manualAccept deployment.acceptance := by
  obtain ⟨created, middle, hproxy⟩ :=
    deployProxy_of_obliging h hconnected hread hcode htakes implementation.address admin
  have hmiddle : host.node.Obliging middle.chain := h.later (reaches_deploy hproxy)
  obtain ⟨acceptance, after, haccept, haccepted⟩ :=
    accept_of_obliging hloaded hmiddle hconnected admin implementation created
  refine ⟨deployer.deliver prepared implementation created acceptance, after, ?_, haccepted⟩
  rw [completeFromImplementation, Run.bind_of_ok hproxy, completeFromProxy, Run.bind_of_ok haccept]
  rfl

/-- An upgrade that has an accepted or a pending end goes on to record it, and ends with it. -/
theorem afterImplementation_of_complete {prepared : PreparedUpgrade} {admin : Address}
    {implementation : Deployed} {deployment : ProxyDeployment} {after : World γ φ}
    (upgrade : Upgrade) (book : Book)
    (h : deployer.completeFromImplementation host prepared admin implementation world =
      (.ok deployment, after)) :
    ∃ settled last,
      afterImplementation host deployer upgrade prepared admin implementation book world =
        ((.ok deployment, settled), last) := by
  cases hacceptance : deployment.acceptance with
  | accepted receipt =>
    obtain ⟨answer, last, hrun, -⟩ := afterImplementation_of_accepted upgrade book h hacceptance
    exact ⟨_, last, hrun⟩
  | pending payload => exact ⟨book, after, afterImplementation_of_pending h hacceptance⟩

/-- An upgrade that passed its checks comes to its end. -/
theorem completeAndSave_of_ready {prepared : PreparedUpgrade} {upgrade : Upgrade} {book : Book}
    (hread : deployer.source.read world.files upgrade.name = .ok artifact)
    (h : deployer.Ready host artifact world) (htakes : artifact.interface.TakesNothing)
    (hproxy : ProxyReady host deployer upgrade.proxyName book world.files)
    (hprepared : deployer.preparation upgrade world.files = .ok prepared) (admin : Address) :
    ∃ deployment settled after,
      deployer.completeAndSave host upgrade prepared admin book world =
        ((.ok deployment, settled), after) ∧
      AcceptedAs upgrade.manualAccept deployment.acceptance := by
  obtain ⟨hupgrade, -⟩ := preparation_eq_ok hprepared
  obtain ⟨implementation, reached, hdeploy⟩ := deploy_of_ready hread h htakes.encodeConstructor
  obtain ⟨answer, saved, hsave, hchain, hsaves⟩ := deployAndSave_of_ok book hdeploy
  obtain ⟨proxy, code, hproxyRead, hcode, hproxyTakes⟩ := hproxy _ _ hsaves
  have hsaved : host.node.Obliging saved.chain := by
    rw [hchain]
    exact h.obliging.later (reaches_deploy hdeploy)
  rw [← hupgrade] at hproxyRead
  obtain ⟨deployment, after, hcomplete, haccepted⟩ := completeFromImplementation_of_obliging
    (adminLoaded_of_preparation hprepared) hsaved h.connected hproxyRead hcode hproxyTakes admin
    implementation
  obtain ⟨settled, last, hend⟩ := afterImplementation_of_complete upgrade
    (book.insert upgrade.name (.direct (implementation.toSnapshot []))) hcomplete
  refine ⟨deployment, settled, last, ?_, hupgrade ▸ haccepted⟩
  rw [completeAndSave, Recording.bind_of_ok hsave]
  exact hend

end Deployer

/-- On an obliging chain deployments come to their end. A contract with linkable bytecode whose
libraries can be created as they are is deployed with any arguments that encode. If it takes none
and is deployed behind a proxy that takes two addresses, and what is checked beforehand is in
order, the last call is sent and succeeds, or is handed out if that was asked for. -/
theorem deployments_come_to_their_end (host : Host γ φ) (deployer : Deployer φ) (name : String)
    (artifact : Artifact) (world : World γ φ)
    (hread : deployer.source.read world.files name = .ok artifact)
    (hready : deployer.Ready host artifact world) :
    (∀ args encoded, artifact.interface.encodeConstructor args = .ok encoded →
      ∃ deployed after, deployer.deploy host name args true world = (.ok deployed, after)) ∧
    ∀ upgrade book, upgrade.name = name → artifact.interface.TakesNothing →
      Deployer.ProxyReady host deployer upgrade.proxyName book world.files →
      AllPass (PreflightCheck.Fails deployer upgrade book world.files)
        upgrade.checksOfRecordingRun →
      ∃ deployment settled after,
        deployer.deployBehindProxyAndSave host upgrade book world =
          ((.ok deployment, settled), after) ∧
        (upgrade.manualAccept = false →
          ∃ receipt, deployment.acceptance = .accepted receipt ∧ receipt.succeeded = true) ∧
        (upgrade.manualAccept = true → ∃ payload, deployment.acceptance = .pending payload) := by
  constructor
  · intro args encoded hencoded
    exact Deployer.deploy_of_ready hread hready hencoded
  · rintro upgrade book rfl htakes hproxy hpass
    obtain ⟨prepared, hprepared, hrun⟩ :=
      (deployBehindProxyAndSave_checkedFirst host deployer upgrade book world).goesOn_of_allPass
        hpass
    obtain ⟨deployment, settled, after, hend, haccepted⟩ :=
      Deployer.completeAndSave_of_ready hread hready htakes hproxy hprepared
        (book.get Upgrade.adminName).address
    exact ⟨deployment, settled, after, hrun.trans hend, haccepted⟩

/-- A node that includes every transaction at once is obliging. -/
theorem promptNode_obliging (start : Nat) : promptNode.Obliging start where
  accepts _ chain _ := ⟨FixedBytes.ofNat chain, rfl⟩
  settles _ _ _ _ _ _ _ := .inr ⟨_, rfl, rfl, fun _ => rfl⟩
  readable _ _ _ := ⟨[0x60, 0x80], rfl⟩

/-- A deployer for a contract with two libraries. All other contracts have code without places. -/
def vaultDeployer : Deployer FileTree where
  sender := plainDeployer.sender
  source := {
    read := fun files name =>
      if name = "Vault" then .ok twoLibraries else plainDeployer.source.read files name }

/-- That contract behind a proxy. -/
def vaultUpgrade (manualAccept : Bool) : Upgrade where
  name := "Vault"
  initArgs := []
  proxyName := Upgrade.defaultProxyName
  manualAccept := manualAccept

/-- A world in which nothing has happened. -/
def freshWorld : World Nat FileTree where
  chain := 0
  files := .done

theorem vaultDeployer_read {name : String} (hname : name ≠ "Vault") (files : FileTree) :
    vaultDeployer.source.read files name = plainDeployer.source.read files name :=
  if_neg hname

theorem vaultDeployer_ready : vaultDeployer.Ready promptHost twoLibraries freshWorld where
  connected := rfl
  obliging := promptNode_obliging 0
  linkable := twoLibraries_linkable
  libraries := by
    have hnames : ∀ name ∈ twoLibraries.libraryNames,
        name ≠ "Vault" ∧ name ≠ Upgrade.defaultProxyName := by
      decide +kernel
    intro name hname later _
    obtain ⟨hvault, hproxy⟩ := hnames name hname
    have hcode : decodeBytecode "6080" = .ok [0x60, 0x80] := by decide +kernel
    refine ⟨_, vaultDeployer_read hvault later,
      ⟨[0x60, 0x80], (Artifact.linkedCode_empty _).trans hcode⟩, ?_⟩
    unfold Interface.TakesNothing
    simp only [if_neg hproxy]
    rfl

theorem vaultDeployer_proxyReady (book : Book) :
    Deployer.ProxyReady promptHost vaultDeployer Upgrade.defaultProxyName book
      freshWorld.files := by
  intro save later _
  refine ⟨_, [0x60, 0x80], vaultDeployer_read (by decide) later, by decide +kernel, ?_⟩
  exact ⟨_, _, rfl, Abi.Param.resolve?_address _, Abi.Param.resolve?_address _⟩

theorem vaultUpgrade_allPass (manualAccept : Bool) :
    AllPass (PreflightCheck.Fails vaultDeployer (vaultUpgrade manualAccept) adminBook
      freshWorld.files) (vaultUpgrade manualAccept).checksOfRecordingRun := by
  have hproxy : vaultDeployer.source.read freshWorld.files Upgrade.defaultProxyName =
      plainDeployer.source.read freshWorld.files Upgrade.defaultProxyName :=
    vaultDeployer_read (by decide) _
  have hresolved : fromPlaceholder "6080".toList = none := by decide
  have hdecoded : Hex.decode "6080" = .ok [0x60, 0x80] := rfl
  intro check _ error hfails
  cases hfails with
  | disconnected hconnected => cases hconnected
  | notRecorded hzero => exact absurd hzero (by decide)
  | @unread _ name _ _ hread =>
    by_cases hname : name = "Vault"
    · subst hname
      cases hread
    · rw [vaultDeployer_read hname] at hread
      cases hread
  | unresolved hread hfound =>
    cases hproxy.symm.trans hread
    cases hresolved.symm.trans hfound
  | undecodable hread hdigits =>
    cases hproxy.symm.trans hread
    cases hdecoded.symm.trans hdigits
  | uncallable _ hargs _ => exact hargs rfl

/-- A contract with two libraries is deployed, and so it is behind a proxy: accepted if the call
that accepts is sent, and otherwise pending. -/
theorem deployments_come_to_their_end_vault :
    (∃ deployed after,
      vaultDeployer.deploy promptHost "Vault" [] true freshWorld = (.ok deployed, after)) ∧
    (∃ deployment settled after receipt,
      vaultDeployer.deployBehindProxyAndSave promptHost (vaultUpgrade false) adminBook freshWorld =
        ((.ok deployment, settled), after) ∧
      deployment.acceptance = .accepted receipt ∧ receipt.succeeded = true) ∧
    ∃ deployment settled after payload,
      vaultDeployer.deployBehindProxyAndSave promptHost (vaultUpgrade true) adminBook freshWorld =
        ((.ok deployment, settled), after) ∧
      deployment.acceptance = .pending payload := by
  obtain ⟨hdeploys, hupgrades⟩ := deployments_come_to_their_end promptHost vaultDeployer "Vault"
    twoLibraries freshWorld rfl vaultDeployer_ready
  refine ⟨hdeploys [] [] rfl, ?_, ?_⟩
  · obtain ⟨deployment, settled, after, hrun, haccepted, -⟩ := hupgrades (vaultUpgrade false)
      adminBook rfl rfl (vaultDeployer_proxyReady adminBook) (vaultUpgrade_allPass false)
    obtain ⟨receipt, hreceipt, hsucceeded⟩ := haccepted rfl
    exact ⟨deployment, settled, after, receipt, hrun, hreceipt, hsucceeded⟩
  · obtain ⟨deployment, settled, after, hrun, -, hpending⟩ := hupgrades (vaultUpgrade true)
      adminBook rfl rfl (vaultDeployer_proxyReady adminBook) (vaultUpgrade_allPass true)
    obtain ⟨payload, hpayload⟩ := hpending rfl
    exact ⟨deployment, settled, after, payload, hrun, hpayload⟩

end ContractDeploy
