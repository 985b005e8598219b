import ContractDeploy.Proofs.DeploymentAttempts
import ContractDeploy.Proofs.Verification

/-!
# The steps of an upgrade

An upgrade goes from nothing to its implementation, from there to its proxy, and from there to its
end, where it stays. `UpgradeState.Next` says which state a step leads to, and
`UpgradeState.MayAttempt` what the step may hand to the node on the way, whether it gets there or
not. Each step brings the end nearer, so that taking steps until the end is reached or one of them
fails takes three at most. That is also what the run without stops does, which has no states in
between.
-/

namespace ContractDeploy

variable {γ φ : Type}

namespace UpgradeState

/-- The states that a step from a state leads to. What is deployed is carried along. -/
inductive Next (prepared : PreparedUpgrade) (admin : Address) : UpgradeState → UpgradeState → Prop
  | implemented (implementation : Deployed) :
      Next prepared admin .start (.implementationDeployed implementation)
  | proxied (implementation proxy : Deployed) :
      Next prepared admin (.implementationDeployed implementation)
        (.proxyDeployed implementation proxy)
  | handedOut {implementation proxy : Deployed} (manual : prepared.upgrade.manualAccept = true) :
      Next prepared admin (.proxyDeployed implementation proxy)
        (.settled implementation proxy
          (.pending (prepared.payload admin implementation proxy)))
  | accepted {implementation proxy : Deployed} {receipt : Receipt}
      (direct : prepared.upgrade.manualAccept = false) (succeeded : receipt.succeeded = true) :
      Next prepared admin (.proxyDeployed implementation proxy)
        (.settled implementation proxy (.accepted receipt))
  | stays (implementation proxy : Deployed) (acceptance : Acceptance) :
      Next prepared admin (.settled implementation proxy acceptance)
        (.settled implementation proxy acceptance)

/-- What a step from a state may hand to the node. -/
def MayAttempt (deployer : Deployer φ) (prepared : PreparedUpgrade) (admin : Address) :
    UpgradeState → Submission → Prop
  | .start, attempt => attempt.CreatesFrom deployer.sender.address
  | .implementationDeployed _, attempt => attempt.CreatesFrom deployer.sender.address
  | .proxyDeployed implementation proxy, attempt =>
    attempt.transaction =
      ⟨deployer.sender.address, some admin, (prepared.payload admin implementation proxy).calldata⟩
  | .settled .., _ => False

/-- How often a step from a state hands something to the node at most. -/
def attemptLimit (deployer : Deployer φ) (prepared : PreparedUpgrade) (files : φ) :
    UpgradeState → Nat
  | .start => deployer.attemptLimit files prepared.upgrade.name
  | .implementationDeployed _ => 1
  | .proxyDeployed .. => if prepared.upgrade.manualAccept then 0 else 1
  | .settled .. => 0

/-- How many steps there are from a state to the end. -/
def distance : UpgradeState → Nat
  | .start => 3
  | .implementationDeployed _ => 2
  | .proxyDeployed .. => 1
  | .settled .. => 0

theorem isSettled_iff_distance (state : UpgradeState) :
    state.isSettled = true ↔ state.distance = 0 := by
  cases state <;> simp [isSettled, distance]

theorem distance_le_three (state : UpgradeState) : state.distance ≤ 3 := by
  cases state <;> simp [distance]

theorem Next.distance_eq {prepared : PreparedUpgrade} {admin : Address}
    {state next : UpgradeState} (h : state.Next prepared admin next)
    (hunsettled : state.isSettled = false) : state.distance = next.distance + 1 := by
  cases h with
  | stays => cases hunsettled
  | _ => rfl

end UpgradeState

/-! ## One step -/

/-- What a step of an upgrade does, whatever it comes to. -/
structure StepEffect (deployer : Deployer φ) (prepared : PreparedUpgrade) (admin : Address)
    (state : UpgradeState) (before : World γ φ) (outcome : Except DeployError UpgradeState)
    (after : World γ φ) : Prop where
  attempted : ∃ attempts, after.submissions = before.submissions ++ attempts ∧
    attempts.length ≤ state.attemptLimit deployer prepared before.files ∧
    ∀ attempt ∈ attempts, state.MayAttempt deployer prepared admin attempt
  moved : ∀ next, outcome = .ok next → state.Next prepared admin next
  /-- Only a source of artifacts says that one is missing, and only where a contract is created. -/
  loaded : ∀ error, outcome = .error error → error.kind = .artifactNotFound →
    2 ≤ state.distance ∧ ∃ files name, deployer.source.read files name = .error error
  stays : state.isSettled = true → outcome = .ok state ∧ after = before

namespace Deployer

variable {host : Host γ φ} {deployer : Deployer φ} {prepared : PreparedUpgrade} {admin : Address}
  {implementation proxy : Deployed} {world : World γ φ}

/-- A step that deploys something is a step to the state with it. -/
theorem Attempts.stepEffect {limit : Nat} {outcome : Except DeployError Deployed}
    {after : World γ φ} {state : UpgradeState} (h : deployer.Attempts limit world after outcome)
    (next : Deployed → UpgradeState) (hdistance : 2 ≤ state.distance)
    (hnext : ∀ deployed, state.Next prepared admin (next deployed))
    (hlimit : state.attemptLimit deployer prepared world.files = limit)
    (hmay : ∀ attempt, attempt.CreatesFrom deployer.sender.address →
      state.MayAttempt deployer prepared admin attempt) :
    StepEffect deployer prepared admin state world (outcome.map next) after := by
  obtain ⟨attempts, hhanded, hcount, hcreations⟩ := h.creations
  refine ⟨⟨attempts, hhanded, hlimit ▸ hcount, fun attempt hmem => hmay _ (hcreations _ hmem)⟩,
    ?_, ?_, ?_⟩
  · intro found hfound
    cases outcome with
    | ok deployed =>
      cases hfound
      exact hnext deployed
    | error error => cases hfound
  · intro error herror hkind
    cases outcome with
    | ok deployed => cases herror
    | error found =>
      cases herror
      exact ⟨hdistance, h.loaded error rfl hkind⟩
  · intro hsettled
    rw [UpgradeState.isSettled_iff_distance] at hsettled
    omega

theorem advance_start (world : World γ φ) :
    StepEffect deployer prepared admin .start world
      (deployer.advance host prepared admin .start world).1
      (deployer.advance host prepared admin .start world).2 := by
  have hrun : deployer.advance host prepared admin .start world =
      ((deployer.deploy host prepared.upgrade.name [] true world).1.map
          UpgradeState.implementationDeployed,
        (deployer.deploy host prepared.upgrade.name [] true world).2) :=
    Run.bind_pure_apply _ _ world
  rw [hrun]
  exact (deploy_linked_attempts prepared.upgrade.name [] world).stepEffect _ (by decide)
    .implemented rfl fun _ hcreates => hcreates

theorem advance_implementationDeployed (implementation : Deployed) (world : World γ φ) :
    StepEffect deployer prepared admin (.implementationDeployed implementation) world
      (deployer.advance host prepared admin (.implementationDeployed implementation) world).1
      (deployer.advance host prepared admin (.implementationDeployed implementation) world).2 := by
  have hrun : deployer.advance host prepared admin (.implementationDeployed implementation) world =
      ((deployer.deployProxy host prepared.upgrade.proxyName implementation.address admin
          world).1.map (UpgradeState.proxyDeployed implementation),
        (deployer.deployProxy host prepared.upgrade.proxyName implementation.address admin
          world).2) :=
    Run.bind_pure_apply _ _ world
  rw [hrun]
  exact (deploy_unlinked_attempts prepared.upgrade.proxyName _ world).stepEffect _
    (Nat.le_refl 2) (.proxied implementation) rfl fun _ hcreates => hcreates

/-! ### Acceptance -/

/-- A call that is handed out is not handed to the node. -/
theorem accept_of_manual (host : Host γ φ) (deployer : Deployer φ)
    (hmanual : prepared.upgrade.manualAccept = true) (admin : Address)
    (implementation proxy : Deployed) (world : World γ φ) :
    ∃ after, deployer.accept host prepared admin implementation proxy world =
        (.ok (.pending (prepared.payload admin implementation proxy)), after) ∧
      after.submissions = world.submissions ∧ after.chain = world.chain ∧
      after.files = world.files := by
  rw [accept, if_pos hmanual]
  exact ⟨_, rfl, rfl, rfl, rfl⟩

/-- A call that is not handed out is sent to the admin. -/
theorem accept_of_direct (host : Host γ φ) (deployer : Deployer φ) {interface : Interface}
    (hmanual : prepared.upgrade.manualAccept = false)
    (hadmin : prepared.adminInterface = some interface) (admin : Address)
    (implementation proxy : Deployed) (world : World γ φ) :
    deployer.accept host prepared admin implementation proxy world =
      (((deployer.adminEndpoint admin).send host
          (prepared.payload admin implementation proxy).toCall world).1.map .accepted,
        ((deployer.adminEndpoint admin).send host
          (prepared.payload admin implementation proxy).toCall world).2) := by
  rw [accept, hmanual, if_neg Bool.false_ne_true, sendAccept, hadmin]
  exact Run.bind_pure_apply _ _ world

/-- A call that the admin accepts succeeded, and any other failed because of the node or for want of
a connection. -/
theorem accept_direct_effect (host : Host γ φ) (deployer : Deployer φ) {interface : Interface}
    (hmanual : prepared.upgrade.manualAccept = false)
    (hadmin : prepared.adminInterface = some interface) (admin : Address)
    (implementation proxy : Deployed) (world : World γ φ) :
    ∃ attempts outcome after,
      deployer.accept host prepared admin implementation proxy world = (outcome, after) ∧
      after.submissions = world.submissions ++ attempts ∧ attempts.length ≤ 1 ∧
      (∀ attempt ∈ attempts, UpgradeState.MayAttempt deployer prepared admin
        (.proxyDeployed implementation proxy) attempt) ∧
      (∀ acceptance, outcome = .ok acceptance →
        ∃ receipt, acceptance = .accepted receipt ∧ receipt.succeeded = true) ∧
      ∀ error, outcome = .error error → error.kind ≠ .artifactNotFound := by
  rw [accept_of_direct host deployer hmanual hadmin]
  cases hconnected : deployer.sender.requireConnection with
  | error error =>
    have hsend := Endpoint.send_of_disconnected host (deployer.adminEndpoint admin) hconnected
      (prepared.payload admin implementation proxy).toCall world
    rw [hsend]
    refine ⟨[], _, world, rfl, by simp, Nat.zero_le _, by simp, nofun, ?_⟩
    intro found hfound hkind
    cases hfound
    rw [kind_of_disconnected hconnected] at hkind
    cases hkind
  | ok _ =>
    have hsent := Endpoint.send_sent host (deployer.adminEndpoint admin) hconnected rfl
      (prepared.payload admin implementation proxy).toCall world
    refine ⟨[_], _, _, rfl, hsent.handed, Nat.le_refl 1, ?_, ?_, ?_⟩
    · intro attempt hattempt
      obtain rfl := List.mem_singleton.1 hattempt
      exact rfl
    · intro acceptance hacceptance
      obtain ⟨receipt, hreceipt, rfl⟩ := Except.map_eq_ok hacceptance
      exact ⟨receipt, rfl, (hsent.included receipt hreceipt).succeeded⟩
    · intro error herror
      exact (hsent.failed error (Except.map_eq_error herror)).kind_ne

end Deployer

/-! ### All steps -/

/-- The proxy admin's interface is there unless the call that accepts is to be handed out. -/
def PreparedUpgrade.AdminLoaded (prepared : PreparedUpgrade) : Prop :=
  prepared.adminInterface = none ↔ prepared.upgrade.manualAccept = true

namespace Deployer

variable {host : Host γ φ} {deployer : Deployer φ} {prepared : PreparedUpgrade}

/-- What an upgrade needs is loaded when it is prepared. -/
theorem adminLoaded_of_preparation {upgrade : Upgrade} {files : φ}
    (h : deployer.preparation upgrade files = .ok prepared) : prepared.AdminLoaded := by
  obtain ⟨implementation, -, h⟩ := Except.bind_eq_ok h
  obtain ⟨proxy, -, h⟩ := Except.bind_eq_ok h
  obtain ⟨code, -, h⟩ := Except.bind_eq_ok h
  obtain ⟨adminInterface, hadmin, h⟩ := Except.bind_eq_ok h
  obtain ⟨initCall, -, h⟩ := Except.bind_eq_ok h
  cases h
  unfold adminInterfaceIn at hadmin
  split at hadmin
  · next hmanual =>
    cases hadmin
    exact ⟨fun _ => hmanual, fun _ => rfl⟩
  · next hdirect =>
    obtain ⟨admin, -, hadmin⟩ := Except.bind_eq_ok hadmin
    cases hadmin
    exact ⟨nofun, fun hmanual => absurd hmanual hdirect⟩

theorem advance_proxyDeployed (hloaded : prepared.AdminLoaded) (admin : Address)
    (implementation proxy : Deployed) (world : World γ φ) :
    StepEffect deployer prepared admin (.proxyDeployed implementation proxy) world
      (deployer.advance host prepared admin (.proxyDeployed implementation proxy) world).1
      (deployer.advance host prepared admin (.proxyDeployed implementation proxy) world).2 := by
  have hrun : deployer.advance host prepared admin (.proxyDeployed implementation proxy) world =
      ((deployer.accept host prepared admin implementation proxy world).1.map
          (UpgradeState.settled implementation proxy),
        (deployer.accept host prepared admin implementation proxy world).2) :=
    Run.bind_pure_apply _ _ world
  rw [hrun]
  cases hmanual : prepared.upgrade.manualAccept with
  | true =>
    obtain ⟨after, haccept, hhanded, -⟩ :=
      accept_of_manual host deployer hmanual admin implementation proxy world
    rw [haccept]
    refine ⟨⟨[], by simpa using hhanded, Nat.zero_le _, by simp⟩, ?_, nofun, nofun⟩
    intro next hnext
    cases hnext
    exact .handedOut hmanual
  | false =>
    obtain ⟨interface, hadmin⟩ : ∃ interface, prepared.adminInterface = some interface := by
      refine Option.ne_none_iff_exists'.1 fun hnone => ?_
      rw [hloaded.1 hnone] at hmanual
      cases hmanual
    obtain ⟨attempts, outcome, after, haccept, hhanded, hcount, hmay, hok, herror⟩ :=
      accept_direct_effect host deployer hmanual hadmin admin implementation proxy world
    rw [haccept]
    have hlimit : UpgradeState.attemptLimit deployer prepared world.files
        (.proxyDeployed implementation proxy) = 1 := by
      rw [UpgradeState.attemptLimit, hmanual]
      exact if_neg Bool.false_ne_true
    refine ⟨⟨attempts, hhanded, hlimit ▸ hcount, hmay⟩, ?_, ?_, nofun⟩
    · intro next hnext
      obtain ⟨acceptance, hacceptance, rfl⟩ := Except.map_eq_ok hnext
      obtain ⟨receipt, rfl, hsucceeded⟩ := hok acceptance hacceptance
      exact .accepted hmanual hsucceeded
    · intro error hfailed hkind
      exact absurd hkind (herror error (Except.map_eq_error hfailed))

/-- Every step does what its state allows, and nothing is done once the end is reached. -/
theorem advance_effect (host : Host γ φ) (deployer : Deployer φ) (hloaded : prepared.AdminLoaded)
    (admin : Address) (state : UpgradeState) (world : World γ φ) :
    StepEffect deployer prepared admin state world
      (deployer.advance host prepared admin state world).1
      (deployer.advance host prepared admin state world).2 := by
  cases state with
  | start => exact advance_start world
  | implementationDeployed implementation =>
    exact advance_implementationDeployed implementation world
  | proxyDeployed implementation proxy =>
    exact advance_proxyDeployed hloaded admin implementation proxy world
  | settled implementation proxy acceptance =>
    refine ⟨⟨[], (List.append_nil _).symm, Nat.zero_le _, by simp⟩, ?_, nofun, fun _ => ⟨rfl, rfl⟩⟩
    intro next hnext
    cases hnext
    exact .stays implementation proxy acceptance

end Deployer

/-! ## Steps until the end -/

/-- Taking steps from a state until the end is reached or a step fails, with the number of steps
that were taken. -/
inductive StepsToEnd (host : Host γ φ) (deployer : Deployer φ) (prepared : PreparedUpgrade)
    (admin : Address) : UpgradeState → World γ φ → Nat → Except DeployError UpgradeState →
      World γ φ → Prop
  | failed {state : UpgradeState} {before after : World γ φ} {error : DeployError}
      (step : deployer.advance host prepared admin state before = (.error error, after)) :
      StepsToEnd host deployer prepared admin state before 1 (.error error) after
  | settled {state last : UpgradeState} {before after : World γ φ}
      (step : deployer.advance host prepared admin state before = (.ok last, after))
      (reached : last.isSettled = true) :
      StepsToEnd host deployer prepared admin state before 1 (.ok last) after
  | further {state next : UpgradeState} {before middle after : World γ φ} {steps : Nat}
      {outcome : Except DeployError UpgradeState}
      (step : deployer.advance host prepared admin state before = (.ok next, middle))
      (unsettled : next.isSettled = false)
      (rest : StepsToEnd host deployer prepared admin next middle steps outcome after) :
      StepsToEnd host deployer prepared admin state before (steps + 1) outcome after

/-- What the end of an upgrade is given as. -/
inductive Delivers (deployer : Deployer φ) (prepared : PreparedUpgrade) :
    Except DeployError UpgradeState → Except DeployError ProxyDeployment → Prop
  | failed (error : DeployError) : Delivers deployer prepared (.error error) (.error error)
  | settled (implementation proxy : Deployed) (acceptance : Acceptance) :
      Delivers deployer prepared (.ok (.settled implementation proxy acceptance))
        (.ok (deployer.deliver prepared implementation proxy acceptance))

/-- The run without stops from a state. -/
def UpgradeState.finish (host : Host γ φ) (deployer : Deployer φ) (prepared : PreparedUpgrade)
    (admin : Address) : UpgradeState → Run γ φ ProxyDeployment
  | .start => deployer.complete host prepared admin
  | .implementationDeployed implementation =>
    deployer.completeFromImplementation host prepared admin implementation
  | .proxyDeployed implementation proxy =>
    deployer.completeFromProxy host prepared admin implementation proxy
  | .settled implementation proxy acceptance =>
    return deployer.deliver prepared implementation proxy acceptance

section StepsToEnd

variable {host : Host γ φ} {deployer : Deployer φ} {prepared : PreparedUpgrade} {admin : Address}
  {state : UpgradeState} {world after : World γ φ} {steps : Nat}
  {outcome : Except DeployError UpgradeState}

/-- Steps are taken one way only. -/
theorem StepsToEnd.unique
    (h : StepsToEnd host deployer prepared admin state world steps outcome after)
    {otherSteps : Nat} {other : Except DeployError UpgradeState} {otherAfter : World γ φ}
    (hother : StepsToEnd host deployer prepared admin state world otherSteps other otherAfter) :
    otherSteps = steps ∧ other = outcome ∧ otherAfter = after := by
  induction h generalizing otherSteps with
  | failed step =>
    cases hother with
    | failed same =>
      rw [step] at same
      cases same
      exact ⟨rfl, rfl, rfl⟩
    | settled same _ =>
      rw [step] at same
      cases same
    | further same _ _ =>
      rw [step] at same
      cases same
  | settled step reached =>
    cases hother with
    | failed same =>
      rw [step] at same
      cases same
    | settled same _ =>
      rw [step] at same
      cases same
      exact ⟨rfl, rfl, rfl⟩
    | further same unsettled _ =>
      rw [step] at same
      cases same
      rw [reached] at unsettled
      cases unsettled
  | further step unsettled rest ih =>
    cases hother with
    | failed same =>
      rw [step] at same
      cases same
    | settled same reached =>
      rw [step] at same
      cases same
      rw [reached] at unsettled
      cases unsettled
    | further same _ others =>
      rw [step] at same
      cases same
      obtain ⟨rfl, rfl, rfl⟩ := ih others
      exact ⟨rfl, rfl, rfl⟩

/-- Steps come to an end, since each brings it nearer. -/
theorem exists_stepsToEnd (host : Host γ φ) (deployer : Deployer φ) (hloaded : prepared.AdminLoaded)
    (admin : Address) (state : UpgradeState) (world : World γ φ)
    (hunsettled : state.isSettled = false) :
    ∃ steps outcome after,
      StepsToEnd host deployer prepared admin state world steps outcome after ∧
      steps ≤ state.distance := by
  induction hdistance : state.distance generalizing state world with
  | zero =>
    rw [(UpgradeState.isSettled_iff_distance state).2 hdistance] at hunsettled
    cases hunsettled
  | succ distance ih =>
    have heffect := Deployer.advance_effect host deployer hloaded admin state world
    cases hstep : deployer.advance host prepared admin state world with
    | mk outcome middle =>
      rw [hstep] at heffect
      cases outcome with
      | error error => exact ⟨1, _, middle, .failed hstep, by omega⟩
      | ok next =>
        cases hnext : next.isSettled with
        | true => exact ⟨1, _, middle, .settled hstep hnext, by omega⟩
        | false =>
          have hnearer := (heffect.moved next rfl).distance_eq hunsettled
          obtain ⟨steps, outcome, after, hrest, hsteps⟩ := ih next middle hnext (by omega)
          exact ⟨steps + 1, outcome, after, .further hstep hnext hrest, by omega⟩

theorem UpgradeState.finish_eq_advance (hunsettled : state.isSettled = false) :
    state.finish host deployer prepared admin =
      deployer.advance host prepared admin state >>=
        UpgradeState.finish host deployer prepared admin := by
  cases state with
  | start => simp only [finish, Deployer.complete, Deployer.advance, bind_assoc, pure_bind]
  | implementationDeployed implementation =>
    simp only [finish, Deployer.completeFromImplementation, Deployer.advance, bind_assoc, pure_bind]
  | proxyDeployed implementation proxy =>
    simp only [finish, Deployer.completeFromProxy, Deployer.advance, bind_assoc, pure_bind]
  | settled implementation proxy acceptance => cases hunsettled

/-- The run without stops comes to what the steps come to. -/
theorem StepsToEnd.delivers
    (h : StepsToEnd host deployer prepared admin state world steps outcome after)
    (hunsettled : state.isSettled = false) :
    ∃ given, state.finish host deployer prepared admin world = (given, after) ∧
      Delivers deployer prepared outcome given := by
  induction h with
  | failed step =>
    rw [UpgradeState.finish_eq_advance hunsettled]
    exact ⟨_, Run.bind_of_error step, .failed _⟩
  | @settled state last before after step reached =>
    rw [UpgradeState.finish_eq_advance hunsettled, Run.bind_of_ok step]
    cases last with
    | settled implementation proxy acceptance =>
      exact ⟨_, rfl, .settled implementation proxy acceptance⟩
    | _ => cases reached
  | further step unsettled rest ih =>
    rw [UpgradeState.finish_eq_advance hunsettled, Run.bind_of_ok step]
    exact ih unsettled

end StepsToEnd

/-- Once an upgrade is prepared, every step from every state leads on as it should, hands to the
node what it should and finds the proxy admin's interface where it needs it. From each state that
is not the end there is one way to go on, at most three steps long, to the end or to the first step
that fails, and the run without stops goes that way. -/
theorem prepared_upgrade_steps (host : Host γ φ) (deployer : Deployer φ) (upgrade : Upgrade)
    (prepared : PreparedUpgrade) (earlier later : World γ φ)
    (hprepared : deployer.prepare upgrade earlier = (.ok prepared, later)) (admin : Address) :
    prepared.upgrade = upgrade ∧
    (∀ (state : UpgradeState) (world : World γ φ), ∃ outcome after,
      deployer.advance host prepared admin state world = (outcome, after) ∧
      StepEffect deployer prepared admin state world outcome after) ∧
    ∀ (state : UpgradeState) (world : World γ φ), state.isSettled = false →
      ∃ steps outcome after given,
        StepsToEnd host deployer prepared admin state world steps outcome after ∧
        steps ≤ 3 ∧
        (∀ otherSteps other otherAfter,
          StepsToEnd host deployer prepared admin state world otherSteps other otherAfter →
            otherSteps = steps ∧ other = outcome ∧ otherAfter = after) ∧
        (∀ last, outcome = .ok last → last.isSettled = true) ∧
        state.finish host deployer prepared admin world = (given, after) ∧
        Delivers deployer prepared outcome given := by
  have hpreparation : deployer.preparation upgrade earlier.files = .ok prepared := by
    rw [Deployer.reads_prepare, Prod.mk.injEq] at hprepared
    exact hprepared.1
  have hloaded := Deployer.adminLoaded_of_preparation hpreparation
  refine ⟨(Deployer.preparation_eq_ok hpreparation).1, ?_, ?_⟩
  · intro state world
    exact ⟨_, _, rfl, Deployer.advance_effect host deployer hloaded admin state world⟩
  · intro state world hunsettled
    obtain ⟨steps, outcome, after, hsteps, hcount⟩ :=
      exists_stepsToEnd host deployer hloaded admin state world hunsettled
    obtain ⟨given, hfinish, hgiven⟩ := hsteps.delivers hunsettled
    have hthree := state.distance_le_three
    refine ⟨steps, outcome, after, given, hsteps, by omega,
      fun _ _ _ hother => hsteps.unique hother, ?_, hfinish, hgiven⟩
    intro last hlast
    subst hlast
    cases hgiven
    rfl

/-- An upgrade is prepared and taken from its start to its end. -/
theorem prepared_upgrade_steps_token :
    let world : World Nat FileTree := { chain := 0, files := .done }
    ∃ prepared, plainDeployer.prepare tokenUpgrade world = (.ok prepared, world) ∧
      ∃ steps outcome after, StepsToEnd promptHost plainDeployer prepared (FixedBytes.ofNat 2)
        .start world steps outcome after ∧ steps ≤ 3 := by
  intro world
  have hprepared : ∃ prepared, plainDeployer.prepare tokenUpgrade world = (.ok prepared, world) :=
    ⟨_, rfl⟩
  obtain ⟨prepared, hprepared⟩ := hprepared
  obtain ⟨-, -, hruns⟩ := prepared_upgrade_steps promptHost plainDeployer tokenUpgrade prepared
    world world hprepared (FixedBytes.ofNat 2)
  obtain ⟨steps, outcome, after, given, hsteps, hcount, -⟩ := hruns .start world rfl
  exact ⟨prepared, hprepared, steps, outcome, after, hsteps, hcount⟩

end ContractDeploy
