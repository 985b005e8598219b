import ContractDeploy.Proofs.UpgradeSteps

/-!
# Handing out the call that accepts, or sending it

An upgrade ends with a call that is either handed out, to be executed by whoever holds the proxy
admin, or sent from the deploying account. Up to that call the two are the same: what is prepared
differs in nothing that the deployments look at. So what is handed out can be compared with what
would have been sent, and it is the same call.
-/

namespace ContractDeploy

variable {γ φ : Type}

/-- The upgrade with its last call handed out. -/
def Upgrade.manual (upgrade : Upgrade) : Upgrade := { upgrade with manualAccept := true }

/-- The upgrade with its last call sent. -/
def Upgrade.direct (upgrade : Upgrade) : Upgrade := { upgrade with manualAccept := false }

/-- Only creations from the deploying account were handed to the node. -/
def Deployer.OnlyCreates (deployer : Deployer φ) (before after : World γ φ) : Prop :=
  ∃ creations, after.submissions = before.submissions ++ creations ∧
    ∀ creation ∈ creations, creation.CreatesFrom deployer.sender.address

namespace Deployer

variable {host : Host γ φ} {deployer : Deployer φ} {upgrade : Upgrade} {admin : Address}
  {world : World γ φ}

/-! ## The deployments -/

/-- The deployments of an upgrade: of its implementation and of a proxy that points at it. -/
def deployParts (host : Host γ φ) (deployer : Deployer φ) (upgrade : Upgrade) (admin : Address) :
    Run γ φ (Deployed × Deployed) := do
  let implementation ← deployer.deploy host upgrade.name [] true
  let proxy ← deployer.deployProxy host upgrade.proxyName implementation.address admin
  return (implementation, proxy)

/-- An upgrade is its deployments with the acceptance behind them. -/
theorem complete_eq_deployParts (prepared : PreparedUpgrade) :
    deployer.complete host prepared admin =
      deployer.deployParts host prepared.upgrade admin >>= fun parts =>
        deployer.completeFromProxy host prepared admin parts.1 parts.2 := by
  simp only [complete, completeFromImplementation, deployParts, bind_assoc, pure_bind]

theorem cumulative_onlyCreates (deployer : Deployer φ) :
    Cumulative fun before after : World γ φ => deployer.OnlyCreates before after where
  refl world := ⟨[], by simp, by simp⟩
  trans := by
    rintro before middle after ⟨first, hfirst, hcreates⟩ ⟨others, hothers, hcreatesToo⟩
    refine ⟨first ++ others, by rw [hothers, hfirst, List.append_assoc], ?_⟩
    intro creation hmem
    rcases List.mem_append.1 hmem with hmem | hmem
    · exact hcreates creation hmem
    · exact hcreatesToo creation hmem

theorem Attempts.onlyCreates {limit : Nat} {after : World γ φ}
    {outcome : Except DeployError Deployed} (h : deployer.Attempts limit world after outcome) :
    deployer.OnlyCreates world after := by
  obtain ⟨attempts, hhanded, -, hcreates⟩ := h.creations
  exact ⟨attempts, hhanded, hcreates⟩

theorem deployParts_onlyCreates (host : Host γ φ) (deployer : Deployer φ) (upgrade : Upgrade)
    (admin : Address) :
    (deployer.deployParts host upgrade admin).Within fun before after =>
      deployer.OnlyCreates before after := by
  have hcumulative := cumulative_onlyCreates (γ := γ) deployer
  refine Run.within_bind hcumulative
    (fun world => (deploy_linked_attempts upgrade.name [] world).onlyCreates)
    fun implementation => ?_
  refine Run.within_bind hcumulative
    (fun world => (deploy_unlinked_attempts upgrade.proxyName _ world).onlyCreates) fun proxy => ?_
  exact Run.within_pure hcumulative _

/-! ## The preparations -/

/-- What is prepared for sending the call is what is prepared for handing it out, with the proxy
admin's interface. -/
theorem preparation_direct (upgrade : Upgrade) {adminArtifact : Artifact} {files : φ}
    (hadmin : deployer.source.read files Upgrade.adminName = .ok adminArtifact) :
    deployer.preparation upgrade.direct files =
      (deployer.preparation upgrade.manual files).map fun prepared =>
        { prepared with
          upgrade := upgrade.direct
          adminInterface := some adminArtifact.interface } := by
  have hmanual : deployer.adminInterfaceIn upgrade.manual files = .ok none := rfl
  have hdirect : deployer.adminInterfaceIn upgrade.direct files =
      .ok (some adminArtifact.interface) := by
    rw [adminInterfaceIn, if_neg (by simp [Upgrade.direct]), hadmin]
    rfl
  have hname : upgrade.direct.name = upgrade.manual.name := rfl
  have hproxyName : upgrade.direct.proxyName = upgrade.manual.proxyName := rfl
  have hinit : ∀ interface, initCall upgrade.direct interface =
    initCall upgrade.manual interface := fun _ => rfl
  simp only [preparation, hmanual, hdirect, hname, hproxyName, hinit, bind, Except.bind, pure,
    Except.pure]
  cases deployer.source.read files upgrade.manual.name with
  | error error => rfl
  | ok implementation =>
    cases deployer.source.read files upgrade.manual.proxyName with
    | error error => rfl
    | ok proxy =>
      dsimp only
      cases (proxy.linkedCode NameMap.empty).mapError DeployError.ofCode with
      | error error => rfl
      | ok code =>
        dsimp only
        cases initCall upgrade.manual implementation.interface with
        | error error => rfl
        | ok initCall => rfl

/-- What is prepared holds the call of the initializer. -/
theorem initCall_of_preparation {files : φ} {prepared : PreparedUpgrade}
    (h : deployer.preparation upgrade files = .ok prepared) :
    ∃ artifact, deployer.source.read files upgrade.name = .ok artifact ∧
      initCall upgrade artifact.interface = .ok prepared.initCall := by
  obtain ⟨artifact, hartifact, h⟩ := Except.bind_eq_ok h
  obtain ⟨proxy, -, h⟩ := Except.bind_eq_ok h
  obtain ⟨code, -, h⟩ := Except.bind_eq_ok h
  obtain ⟨adminInterface, -, h⟩ := Except.bind_eq_ok h
  obtain ⟨call, hcall, h⟩ := Except.bind_eq_ok h
  cases h
  exact ⟨artifact, hartifact, hcall⟩

/-- The initializer is called if there are arguments for it, and only then. -/
theorem initCall_eq_ok {interface : Interface} {call : Option Bytes}
    (h : initCall upgrade interface = .ok call) :
    (upgrade.initArgs = [] ∧ call = none) ∨
      upgrade.initArgs ≠ [] ∧ ∃ data, call = some data ∧
        interface.encodeCall Upgrade.initializerName upgrade.initArgs = .ok data := by
  unfold initCall at h
  split at h
  · next hempty =>
    cases h
    exact .inl ⟨List.isEmpty_iff.1 hempty, rfl⟩
  · next hargs =>
    obtain ⟨data, hdata, h⟩ := Except.bind_eq_ok h
    cases h
    exact .inr ⟨fun hempty => hargs (List.isEmpty_iff.2 hempty), data, rfl, mapError_eq_ok hdata⟩

theorem deployBehindProxy_of_prepared {prepared : PreparedUpgrade}
    (hconnected : deployer.sender.requireConnection = .ok ())
    (hprepared : deployer.preparation upgrade world.files = .ok prepared) :
    deployer.deployBehindProxy host upgrade admin world =
      deployer.complete host prepared admin world := by
  have hreads := reads_prepare (γ := γ) deployer upgrade world
  rw [hprepared] at hreads
  rw [deployBehindProxy, Run.bind_of_ok (by rw [Run.ofExcept_apply, hconnected]),
    Run.bind_of_ok hreads]

theorem deployBehindProxy_of_unprepared {error : DeployError}
    (hconnected : deployer.sender.requireConnection = .ok ())
    (hprepared : deployer.preparation upgrade world.files = .error error) :
    deployer.deployBehindProxy host upgrade admin world = (.error error, world) := by
  have hreads := reads_prepare (γ := γ) deployer upgrade world
  rw [hprepared] at hreads
  rw [deployBehindProxy, Run.bind_of_ok (by rw [Run.ofExcept_apply, hconnected])]
  exact Run.bind_of_error hreads

/-- Where the call is sent, what it comes to is delivered. -/
theorem completeFromProxy_of_direct {prepared : PreparedUpgrade} {interface : Interface}
    {implementation proxy : Deployed} (hmanual : prepared.upgrade.manualAccept = false)
    (hadmin : prepared.adminInterface = some interface) :
    deployer.completeFromProxy host prepared admin implementation proxy world =
      (((deployer.adminEndpoint admin).send host
          (prepared.payload admin implementation proxy).toCall world).1.map fun receipt =>
            deployer.deliver prepared implementation proxy (.accepted receipt),
        ((deployer.adminEndpoint admin).send host
          (prepared.payload admin implementation proxy).toCall world).2) := by
  have haccept := accept_of_direct host deployer hmanual hadmin admin implementation proxy
    world
  have hcomplete : deployer.completeFromProxy host prepared admin implementation proxy world =
      ((deployer.accept host prepared admin implementation proxy world).1.map
          (deployer.deliver prepared implementation proxy),
        (deployer.accept host prepared admin implementation proxy world).2) :=
    Run.bind_pure_apply _ _ world
  rw [hcomplete, haccept]
  cases ((deployer.adminEndpoint admin).send host
      (prepared.payload admin implementation proxy).toCall world).1 <;> rfl

end Deployer

/-! ## The two modes -/

/-- The call by which an admin accepts what was deployed for an upgrade. It goes to the admin and
names the implementation and the proxy. The call of the initializer goes with it exactly if there
are arguments for it. -/
structure AcceptPayload.Accepts (payload : AcceptPayload) (source : ArtifactSource φ)
    (upgrade : Upgrade) (files : φ) (admin : Address) (implementation proxy : Deployed) :
    Prop where
  namesAdmin : payload.admin = admin
  namesImplementation : payload.implementation = implementation.address
  namesProxy : payload.proxy = proxy.address
  callsIff : payload.function = acceptAndCallName ↔ upgrade.initArgs ≠ []
  aloneIff : payload.function = acceptName ↔ upgrade.initArgs = []
  calls : upgrade.initArgs ≠ [] → ∃ artifact data, source.read files upgrade.name = .ok artifact ∧
    artifact.interface.encodeCall Upgrade.initializerName upgrade.initArgs = .ok data ∧
    payload.calldata = Abi.selectorOf (acceptAndCallName ++ "(address,address,bytes)") ++
      encodeArguments [.address implementation.address, .address proxy.address, .bytes data]
  alone : upgrade.initArgs = [] →
    payload.calldata = Abi.selectorOf (acceptName ++ "(address,address)") ++
      encodeArguments [.address implementation.address, .address proxy.address]

/-- Two runs of an upgrade, one that hands out its last call and one that sends it, agree. Either
the same failure stops both at the same moment, or both make the same deployments and the second
sends what the first hands out. -/
inductive ModesAgree (host : Host γ φ) (deployer : Deployer φ) (upgrade : Upgrade)
    (admin : Address) (world : World γ φ) :
    Except DeployError ProxyDeployment × World γ φ →
      Except DeployError ProxyDeployment × World γ φ → Prop
  | stopped {error : DeployError} {after : World γ φ} (creates : deployer.OnlyCreates world after) :
      ModesAgree host deployer upgrade admin world (.error error, after) (.error error, after)
  | deployed {implementation proxy : Deployed} {reached handedOut sent : World γ φ}
      {pending : ProxyDeployment} {payload : AcceptPayload} {attempt : Submission}
      {outcome : Except DeployError ProxyDeployment}
      (parts : deployer.deployParts host upgrade admin world =
        (.ok (implementation, proxy), reached))
      (creates : deployer.OnlyCreates world reached)
      (accepts : payload.Accepts deployer.source upgrade world.files admin implementation proxy)
      (isPending : pending.acceptance = .pending payload)
      (hasImplementation : pending.implementation = implementation)
      (hasProxy : pending.proxy = proxy)
      (quiet : handedOut.submissions = reached.submissions)
      (attempted : sent.submissions = reached.submissions ++ [attempt])
      (same : attempt.transaction =
        ⟨deployer.sender.address, some payload.admin, payload.calldata⟩)
      (accepted : ∀ deployment, outcome = .ok deployment →
        ∃ receipt, receipt.succeeded = true ∧
          deployment = { pending with acceptance := .accepted receipt }) :
      ModesAgree host deployer upgrade admin world (.ok pending, handedOut) (outcome, sent)

/-- The payload of what was prepared is the call that accepts. -/
theorem PreparedUpgrade.payload_accepts {deployer : Deployer φ} {upgrade : Upgrade} {files : φ}
    {prepared : PreparedUpgrade} (h : deployer.preparation upgrade files = .ok prepared)
    (admin : Address) (implementation proxy : Deployed) :
    (prepared.payload admin implementation proxy).Accepts deployer.source upgrade files admin
      implementation proxy := by
  obtain ⟨artifact, hartifact, hcall⟩ := Deployer.initCall_of_preparation h
  have hnames : AcceptPayload.acceptName ≠ AcceptPayload.acceptAndCallName := by
    decide
  rcases Deployer.initCall_eq_ok hcall with ⟨hargs, hnone⟩ | ⟨hargs, data, hdata, hencoded⟩
  · have hfunction : (prepared.payload admin implementation proxy).function =
        AcceptPayload.acceptName := by
      simp [AcceptPayload.function, payload, hnone]
    refine ⟨rfl, rfl, rfl, ?_, ?_, fun hargs' => absurd hargs hargs', fun _ => ?_⟩
    · rw [hfunction]
      exact ⟨fun hsame => absurd hsame hnames, fun hargs' => absurd hargs hargs'⟩
    · rw [hfunction]
      exact ⟨fun _ => hargs, fun _ => rfl⟩
    · simp [AcceptPayload.calldata, AcceptPayload.signature, AcceptPayload.values, payload, hnone]
  · have hfunction : (prepared.payload admin implementation proxy).function =
        AcceptPayload.acceptAndCallName := by
      simp [AcceptPayload.function, payload, hdata]
    refine ⟨rfl, rfl, rfl, ?_, ?_, fun _ => ⟨artifact, data, hartifact, hencoded, ?_⟩,
      fun hargs' => absurd hargs' hargs⟩
    · rw [hfunction]
      exact ⟨fun _ => hargs, fun _ => rfl⟩
    · rw [hfunction]
      exact ⟨fun hsame => absurd hsame.symm hnames, fun hargs' => absurd hargs' hargs⟩
    · simp [AcceptPayload.calldata, AcceptPayload.signature, AcceptPayload.values, payload, hdata]

theorem AcceptPayload.Accepts.of_manual {payload : AcceptPayload} {source : ArtifactSource φ}
    {upgrade : Upgrade} {files : φ} {admin : Address} {implementation proxy : Deployed}
    (h : payload.Accepts source upgrade.manual files admin implementation proxy) :
    payload.Accepts source upgrade files admin implementation proxy :=
  ⟨h.namesAdmin, h.namesImplementation, h.namesProxy, h.callsIff, h.aloneIff, h.calls, h.alone⟩

section Agree

variable {host : Host γ φ} {deployer : Deployer φ} {upgrade : Upgrade} {admin : Address}
  {world : World γ φ} {prepared : PreparedUpgrade}

/-- Only once the parts are deployed do the two runs differ: one hands out the payload, and the
other sends it. -/
theorem ModesAgree.of_deployed (hconnected : deployer.sender.requireConnection = .ok ())
    (hmanual : deployer.preparation upgrade.manual world.files = .ok prepared)
    (interface : Interface) {implementation proxy : Deployed} {reached : World γ φ}
    (hrun : deployer.deployParts host upgrade admin world =
      (.ok (implementation, proxy), reached)) :
    ModesAgree host deployer upgrade admin world
      (deployer.completeFromProxy host prepared admin implementation proxy reached)
      (deployer.completeFromProxy host
        { prepared with upgrade := upgrade.direct, adminInterface := some interface } admin
        implementation proxy reached) := by
  have hupgrade := (Deployer.preparation_eq_ok hmanual).1
  have hmode : prepared.upgrade.manualAccept = true := by
    rw [hupgrade]
    rfl
  have hcreates := Deployer.deployParts_onlyCreates host deployer upgrade admin world
  rw [hrun] at hcreates
  have haccepts :=
    (PreparedUpgrade.payload_accepts hmanual admin implementation proxy).of_manual
  obtain ⟨handedOut, haccept, hquiet, -⟩ := Deployer.accept_of_manual host deployer hmode admin
    implementation proxy reached
  have hpending : deployer.completeFromProxy host prepared admin implementation proxy reached =
      (.ok (deployer.deliver prepared implementation proxy
        (.pending (prepared.payload admin implementation proxy))), handedOut) :=
    Run.bind_of_ok haccept
  have hsent := Endpoint.send_sent host (deployer.adminEndpoint admin) hconnected rfl
    (prepared.payload admin implementation proxy).toCall reached
  rw [hpending, Deployer.completeFromProxy_of_direct rfl rfl]
  refine .deployed hrun hcreates haccepts rfl rfl rfl hquiet hsent.handed rfl ?_
  intro deployment hdeployment
  obtain ⟨receipt, hreceipt, rfl⟩ := Except.map_eq_ok hdeployment
  refine ⟨receipt, (hsent.included receipt hreceipt).succeeded, ?_⟩
  simp only [Deployer.deliver, hupgrade, Upgrade.manual, Upgrade.direct]

/-- What is prepared for the two runs makes them deploy the same parts. -/
theorem ModesAgree.of_prepared (hconnected : deployer.sender.requireConnection = .ok ())
    (hmanual : deployer.preparation upgrade.manual world.files = .ok prepared)
    (interface : Interface) :
    ModesAgree host deployer upgrade admin world
      (deployer.complete host prepared admin world)
      (deployer.complete host
        { prepared with upgrade := upgrade.direct, adminInterface := some interface } admin
        world) := by
  have hparts : deployer.deployParts host prepared.upgrade admin =
      deployer.deployParts host upgrade admin := by
    rw [(Deployer.preparation_eq_ok hmanual).1]
    rfl
  have hpartsDirect : deployer.deployParts host upgrade.direct admin =
      deployer.deployParts host upgrade admin := rfl
  rw [Deployer.complete_eq_deployParts, Deployer.complete_eq_deployParts]
  dsimp only
  rw [hparts, hpartsDirect]
  cases hrun : deployer.deployParts host upgrade admin world with
  | mk outcome reached =>
    cases outcome with
    | error error =>
      have hcreates := Deployer.deployParts_onlyCreates host deployer upgrade admin world
      rw [hrun] at hcreates
      rw [Run.bind_of_error hrun, Run.bind_of_error hrun]
      exact .stopped hcreates
    | ok parts =>
      obtain ⟨implementation, proxy⟩ := parts
      rw [Run.bind_of_ok hrun, Run.bind_of_ok hrun]
      exact .of_deployed hconnected hmanual interface hrun

end Agree

/-- Where the proxy admin's artifact is there, the run that hands out the call that accepts and the
run that sends it agree: they make the same deployments, and what the one hands out is what the
other sends. -/
theorem acceptance_modes_agree (host : Host γ φ) (deployer : Deployer φ) (upgrade : Upgrade)
    (admin : Address) (world : World γ φ) (adminArtifact : Artifact)
    (hadmin : deployer.source.read world.files Upgrade.adminName = .ok adminArtifact) :
    ModesAgree host deployer upgrade admin world
      (deployer.deployBehindProxy host upgrade.manual admin world)
      (deployer.deployBehindProxy host upgrade.direct admin world) := by
  have hnothing := (Deployer.cumulative_onlyCreates (γ := γ) deployer).refl world
  cases hconnected : deployer.sender.requireConnection with
  | error error =>
    have hrun : ∀ upgrade, deployer.deployBehindProxy host upgrade admin world =
        (.error error, world) := fun upgrade =>
      Run.bind_of_error (by rw [Run.ofExcept_apply, hconnected])
    rw [hrun, hrun]
    exact .stopped hnothing
  | ok _ =>
    have hdirect := Deployer.preparation_direct upgrade hadmin
    cases hmanual : deployer.preparation upgrade.manual world.files with
    | error error =>
      rw [hmanual] at hdirect
      rw [Deployer.deployBehindProxy_of_unprepared hconnected hmanual,
        Deployer.deployBehindProxy_of_unprepared hconnected hdirect]
      exact .stopped hnothing
    | ok prepared =>
      rw [hmanual] at hdirect
      rw [Deployer.deployBehindProxy_of_prepared hconnected hmanual,
        Deployer.deployBehindProxy_of_prepared hconnected hdirect]
      exact .of_prepared hconnected hmanual adminArtifact.interface

/-- A deployer whose token refers to a library and has an initializer that takes a number. All other
contracts have code without places. -/
def tokenDeployer : Deployer FileTree where
  sender := plainDeployer.sender
  source := {
    read := fun files name =>
      if name = "Token" then .ok {
        contractName := name
        interface := {
          functions := NameMap.empty.insert Upgrade.initializerName
            [⟨Upgrade.initializerName, [.mk "supply" "uint256" []]⟩] }
        bytecode := "60__$5b2d4f6a8c0e1f3a5b7c9d0e2f4a6b8c0d$__"
        links := NameMap.empty.insert "Math.sol" (NameMap.empty.insert "Math" [⟨1, 20⟩]) }
      else plainDeployer.source.read files name }

/-- Whether a run handed out a call that accepts, with one of the initializer in it, for an
implementation into which a library was linked. -/
def isPendingWithCall (library : String) (outcome : Except DeployError ProxyDeployment) : Bool :=
  match outcome with
  | .ok ⟨_, implementation, _, .pending payload⟩ =>
    payload.initCall.isSome && (implementation.libraries.get? library).isSome
  | _ => false

theorem exists_of_isPendingWithCall {library : String}
    {outcome : Except DeployError ProxyDeployment}
    (h : isPendingWithCall library outcome = true) :
    ∃ deployment payload, outcome = .ok deployment ∧ deployment.acceptance = .pending payload ∧
      payload.initCall.isSome = true ∧
      (deployment.implementation.libraries.get? library).isSome = true := by
  unfold isPendingWithCall at h
  split at h
  · next contract implementation proxy payload =>
    obtain ⟨hcall, hlibrary⟩ := Bool.and_eq_true_iff.1 h
    exact ⟨⟨contract, implementation, proxy, .pending payload⟩, payload, rfl, rfl, hcall, hlibrary⟩
  · cases h

/-- A contract with a library and an initializer is upgraded in both modes. The call that is handed
out has that of the initializer in it. -/
theorem acceptance_modes_agree_token :
    let world : World Nat FileTree := { chain := 0, files := .done }
    let upgrade : Upgrade := { tokenUpgrade with initArgs := ["7"] }
    let admin : Address := FixedBytes.ofNat 2
    let handedOut := tokenDeployer.deployBehindProxy promptHost upgrade.manual admin world
    (∃ artifact, tokenDeployer.source.read world.files Upgrade.adminName = .ok artifact) ∧
      ModesAgree promptHost tokenDeployer upgrade admin world handedOut
        (tokenDeployer.deployBehindProxy promptHost upgrade.direct admin world) ∧
      ∃ deployment payload, handedOut.1 = .ok deployment ∧
        deployment.acceptance = .pending payload ∧ payload.initCall.isSome = true ∧
        (deployment.implementation.libraries.get? "Math").isSome = true := by
  intro world upgrade admin handedOut
  have hpending : isPendingWithCall "Math" handedOut.1 = true := by
    decide +kernel
  exact ⟨⟨_, rfl⟩, acceptance_modes_agree promptHost tokenDeployer upgrade admin world _ rfl,
    exists_of_isPendingWithCall hpending⟩

end ContractDeploy
