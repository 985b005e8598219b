import ContractDeploy.Proofs.ChainDependence
import ContractDeploy.Proofs.Preflight

/-!
# Failing for want of calldata

The arguments of a constructor are encoded just before its creation is sent. What fails there has
handed nothing to the node, but what came before it has: a contract whose arguments make no call is
found out only when its libraries are created, and a proxy that takes other arguments than an
implementation and an admin only when the implementation is created and recorded. Of an upgrade only
the initializer is encoded beforehand.
-/

namespace ContractDeploy

variable {γ φ α : Type}

/-- Why a deployment fails for want of calldata, with the names of the libraries that it has created
until then. -/
inductive CalldataCause (disk : Disk φ) (deployer : Deployer φ) (name : String)
    (args : List String) (autolink : Bool) (files : φ) : List String → DeployError → Prop
  /-- The source gives this failure for the contract itself. -/
  | unloaded {error : DeployError} (hread : deployer.source.read files name = .error error) :
      CalldataCause disk deployer name args autolink files [] error
  /-- The source gives this failure for a library. -/
  | unloadedLibrary {artifact : Artifact} {created left : List String} {library : String}
      {later : φ} {error : DeployError} (hautolink : autolink = true)
      (hread : deployer.source.read files name = .ok artifact)
      (hnames : artifact.libraryNames = created ++ library :: left)
      (hgrown : deployer.journal.Grown disk files later)
      (hlibrary : deployer.source.read later library = .error error) :
      CalldataCause disk deployer name args autolink files created error
  /-- A library has a constructor that takes arguments. -/
  | library {artifact code : Artifact} {created left : List String} {library : String}
      {later : φ} {fault : CalldataFault} (hautolink : autolink = true)
      (hread : deployer.source.read files name = .ok artifact)
      (hnames : artifact.libraryNames = created ++ library :: left)
      (hgrown : deployer.journal.Grown disk files later)
      (hlibrary : deployer.source.read later library = .ok code)
      (hencoded : code.interface.encodeConstructor [] = .error fault) :
      CalldataCause disk deployer name args autolink files created (.calldata fault)
  /-- The arguments are none of the contract's constructor. All its libraries are created. -/
  | contract {artifact : Artifact} {fault : CalldataFault}
      (hread : deployer.source.read files name = .ok artifact)
      (hencoded : artifact.interface.encodeConstructor args = .error fault) :
      CalldataCause disk deployer name args autolink files
        (if autolink then artifact.libraryNames else []) (.calldata fault)

/-- A deployment fails for want of calldata. It has created some libraries until then and has handed
nothing else to the node, and of the files it has written the journal alone. -/
structure FailsForCalldata (host : Host γ φ) (deployer : Deployer φ) (name : String)
    (args : List String) (autolink : Bool) (world : World γ φ) (created : List LibraryCreation)
    (error : DeployError) (after : World γ φ) : Prop where
  made : ∃ middle, LibrariesMade host deployer world created middle
  handed : after.submissions = world.submissions ++ created.map (·.attempt)
  grown : deployer.journal.Grown host.disk world.files after.files
  cause : CalldataCause host.disk deployer name args autolink world.files (created.map (·.name))
    error

/-! ## Where it fails -/

theorem DeployError.FromNode.kind_ne_calldata {error : DeployError} (h : error.FromNode) :
    error.kind ≠ .calldata := by
  rcases h with h | h <;> rw [h] <;> exact nofun

/-- A creation that fails for want of calldata was not handed to the node. -/
theorem CreationEnd.of_calldata {host : Host γ φ} {sender : Address} {artifact : Artifact}
    {args : List String} {libraries : Libraries} {before after : World γ φ}
    {last : Option Submission} {error : DeployError}
    (h : CreationEnd host sender artifact args libraries before last (.error error) after)
    (hkind : error.kind = .calldata) :
    last = none ∧ ∃ fault, error = .calldata fault ∧
      artifact.interface.encodeConstructor args = .error fault := by
  cases h with
  | @unlinked fault _ hcode handed => cases fault <;> cases hkind
  | uncallable hcode hencoded handed => exact ⟨rfl, _, rfl, hencoded⟩
  | failed hcode hencoded transaction handed fromNode =>
    exact absurd hkind fromNode.kind_ne_calldata

section Course

variable {host : Host γ φ} {deployer : Deployer φ} {name : String} {args : List String}
  {autolink : Bool} {world after : World γ φ} {error : DeployError}

/-- Whichever creation fails for want of calldata, it is the one that comes next. -/
theorem DeploymentCourse.failsForCalldata {artifact : Artifact} {created : List LibraryCreation}
    {left : List String} {last : Option Submission}
    (h : DeploymentCourse host deployer artifact args world created left last (.error error) after)
    (hread : deployer.source.read world.files name = .ok artifact)
    (hkind : error.kind = .calldata) :
    last = none ∧
      CalldataCause host.disk deployer name args true world.files (created.map (·.name))
        error := by
  obtain ⟨middle, hmade, hended⟩ := h.ended
  have hnames := h.names
  cases hended with
  | library stop =>
    cases stop with
    | unloaded hlibrary handed =>
      exact ⟨rfl, .unloadedLibrary rfl hread hnames hmade.grown hlibrary⟩
    | refused hlibrary ended =>
      obtain ⟨hlast, fault, rfl, hencoded⟩ := ended.of_calldata hkind
      exact ⟨hlast, .library rfl hread hnames hmade.grown hlibrary hencoded⟩
  | contract ended =>
    obtain ⟨hlast, fault, rfl, hencoded⟩ := ended.of_calldata hkind
    have hall : created.map (·.name) = if true then artifact.libraryNames else [] := by
      rw [if_pos rfl, hnames, List.append_nil]
    rw [hall]
    exact ⟨hlast, .contract hread hencoded⟩

/-- A deployment that fails for want of calldata has created some of its libraries. -/
theorem deploy_failsForCalldata
    (h : deployer.deploy host name args autolink world = (.error error, after))
    (hkind : error.kind = .calldata) :
    ∃ created, FailsForCalldata host deployer name args autolink world created error after := by
  have hgrown := Deployer.deploy_within (deploymentSteps_grown host deployer.journal) name args
    autolink world
  rw [h] at hgrown
  cases Deployer.deployEnd_of_run h with
  | disconnected hconnected =>
    rw [Deployer.kind_of_disconnected hconnected] at hkind
    cases hkind
  | unread hread => exact ⟨[], ⟨world, .none world⟩, by simp, hgrown, .unloaded hread⟩
  | @linked artifact created left last _ _ hconnected hread course =>
    obtain ⟨rfl, hcause⟩ := course.failsForCalldata hread hkind
    obtain ⟨hhanded, -⟩ := course.submissions
    obtain ⟨middle, hmade, -⟩ := course.ended
    refine ⟨created, ⟨middle, hmade⟩, ?_, hgrown, hcause⟩
    rw [hhanded, DeploymentCourse.attempts, Option.toList_none, List.append_nil]
  | unlinked hconnected hread ended =>
    obtain ⟨rfl, fault, rfl, hencoded⟩ := ended.of_calldata hkind
    obtain ⟨hhanded, -⟩ := ended.submissions
    exact ⟨[], ⟨world, .none world⟩, hhanded, hgrown, .contract hread hencoded⟩

/-- Nothing was handed to the node where no library comes before the contract. -/
theorem FailsForCalldata.submissions_eq {created : List LibraryCreation}
    (h : FailsForCalldata host deployer name args autolink world created error after)
    (halone : autolink = false ∨ ∀ artifact, deployer.source.read world.files name = .ok artifact →
      artifact.libraryNames = []) :
    after.submissions = world.submissions := by
  have hnone : created.map (·.name) = [] := by
    have hcause := h.cause
    generalize created.map (·.name) = names at hcause
    -- A library that comes before the failure would be one that the artifact refers to.
    have hno : ∀ artifact library left, autolink = true →
        deployer.source.read world.files name = .ok artifact →
        artifact.libraryNames ≠ names ++ library :: left := by
      intro artifact library left hautolink hread hnames
      rcases halone with hunlinked | hfree
      · rw [hautolink] at hunlinked
        cases hunlinked
      · rw [hfree artifact hread] at hnames
        simp at hnames
    cases hcause with
    | unloaded hread => rfl
    | unloadedLibrary hautolink hread hnames hgrown hlibrary =>
      exact absurd hnames (hno _ _ _ hautolink hread)
    | library hautolink hread hnames hgrown hlibrary hencoded =>
      exact absurd hnames (hno _ _ _ hautolink hread)
    | contract hread hencoded =>
      rcases halone with hunlinked | hfree
      · rw [hunlinked]
        rfl
      · rw [hfree _ hread, ite_self]
  rw [h.handed, List.map_eq_nil_iff.1 hnone, List.map_nil, List.append_nil]

end Course

/-! ## Upgrades -/

section Upgrades

variable {host : Host γ φ} {deployer : Deployer φ} {upgrade : Upgrade} {book : Book}
  {world after : World γ φ} {error : DeployError}

/-- A call that is sent is encoded already. -/
theorem Endpoint.send_failsWith {endpoint : Endpoint} {journal : Journal}
    (hjournal : endpoint.journal = some journal) (call : Call) :
    (endpoint.send host call).FailsWith fun error => error.kind ≠ .calldata := by
  intro world error after h
  cases hconnected : endpoint.sender.requireConnection with
  | error found =>
    rw [send_of_disconnected host endpoint hconnected] at h
    cases h
    rw [Deployer.kind_of_disconnected hconnected]
    exact nofun
  | ok _ =>
    have hsent := send_sent host endpoint hconnected hjournal call world
    rw [h] at hsent
    exact (hsent.failed error rfl).kind_ne_calldata

/-- The call that accepts is put together from what was deployed, and always makes one. -/
theorem accept_failsWith (host : Host γ φ) (deployer : Deployer φ) (prepared : PreparedUpgrade)
    (admin : Address) (implementation proxy : Deployed) :
    (deployer.accept host prepared admin implementation proxy).FailsWith
      fun error => error.kind ≠ .calldata := by
  rw [Deployer.accept]
  split
  · exact Run.failsWith_bind (Run.failsWith_ofAct _ _) fun _ => Run.failsWith_pure _ _
  · refine Run.failsWith_bind ?_ fun receipt => Run.failsWith_pure _ _
    rw [Deployer.sendAccept]
    split
    · exact Endpoint.send_failsWith rfl _
    · refine Run.failsWith_throw fun hkind => ?_
      cases hkind

/-- After the implementation, only the proxy can fail for want of calldata, and has then handed
nothing to the node. -/
theorem completeFromImplementation_failsForCalldata {prepared : PreparedUpgrade} {admin : Address}
    {implementation : Deployed}
    (h : deployer.completeFromImplementation host prepared admin implementation world =
      (.error error, after)) (hkind : error.kind = .calldata) :
    ∃ created, FailsForCalldata host deployer prepared.upgrade.proxyName
      [implementation.address.checksum, admin.checksum] false world created error after := by
  rw [Deployer.completeFromImplementation] at h
  cases hproxy : deployer.deployProxy host prepared.upgrade.proxyName implementation.address admin
      world with
  | mk outcome middle =>
    cases outcome with
    | error found =>
      rw [Run.bind_of_error hproxy] at h
      cases h
      exact deploy_failsForCalldata hproxy hkind
    | ok proxy =>
      rw [Run.bind_of_ok hproxy] at h
      have hfails := Run.failsWith_bind
        (accept_failsWith host deployer prepared admin implementation proxy)
        (fun acceptance => Run.failsWith_pure _
          (deployer.deliver prepared implementation proxy acceptance))
      exact absurd hkind (hfails middle error after h)

/-- How far an upgrade that records came that failed for want of calldata. -/
inductive UpgradeFailsForCalldata (host : Host γ φ) (deployer : Deployer φ) (upgrade : Upgrade)
    (book : Book) (world : World γ φ) (error : DeployError) : Recorded γ φ ProxyDeployment → Prop
  /-- A check beforehand failed: the source gave this failure, or the arguments are none of the
  initializer. Nothing was done. -/
  | beforehand
      (first : FirstFailure (PreflightCheck.Fails deployer upgrade book world.files)
        upgrade.checksOfRecordingRun error) :
      UpgradeFailsForCalldata host deployer upgrade book world error ((.error error, book), world)
  /-- The implementation was not created. Some of its libraries were. -/
  | implementation {created : List LibraryCreation} {after : World γ φ}
      (failed : FailsForCalldata host deployer upgrade.name [] true world created error after) :
      UpgradeFailsForCalldata host deployer upgrade book world error ((.error error, book), after)
  /-- The proxy was not created. The implementation was, and is recorded. -/
  | proxy {implementation : Deployed} {reached saved after : World γ φ}
      (isDeployed : deployer.deploy host upgrade.name [] true world =
        (.ok implementation, reached))
      (recorded : deployer.deployAndSave host upgrade.name [] book world =
        ((.ok implementation, book.insert upgrade.name
          (.direct (implementation.toSnapshot []))), saved))
      (failed : FailsForCalldata host deployer upgrade.proxyName
        [implementation.address.checksum, (book.get Upgrade.adminName).address.checksum] false
        saved [] error after)
      (handed : after.submissions = reached.submissions) :
      UpgradeFailsForCalldata host deployer upgrade book world error
        ((.error error, book.insert upgrade.name (.direct (implementation.toSnapshot []))), after)

/-- A deployment without libraries that fails for want of calldata has created none. -/
theorem FailsForCalldata.created_eq_nil {name : String} {args : List String}
    {created : List LibraryCreation}
    (h : FailsForCalldata host deployer name args false world created error after) :
    created = [] := by
  have hsubmissions := h.submissions_eq (.inl rfl)
  rw [h.handed] at hsubmissions
  exact List.map_eq_nil_iff.1 (List.append_right_eq_self.1 hsubmissions)

theorem afterImplementation_eq_error {prepared : PreparedUpgrade} {admin : Address}
    {implementation : Deployed} {settled : Book}
    (h : afterImplementation host deployer upgrade prepared admin implementation book world =
      ((.error error, settled), after)) :
    settled = book ∧ deployer.completeFromImplementation host prepared admin implementation world =
      (.error error, after) := by
  cases hcomplete : deployer.completeFromImplementation host prepared admin implementation
      world with
  | mk outcome middle =>
    cases outcome with
    | error found =>
      rw [afterImplementation_of_error hcomplete] at h
      cases h
      exact ⟨rfl, rfl⟩
    | ok deployment =>
      obtain ⟨last, completed, hrecord, -⟩ := recordAcceptance_alike host upgrade deployment book
        middle
      rw [afterImplementation_of_recorded hcomplete hrecord] at h
      cases h

/-- An upgrade that records fails for want of calldata beforehand, at its implementation, or at its
proxy. -/
theorem deployBehindProxyAndSave_failsForCalldata {settled : Book}
    (h : deployer.deployBehindProxyAndSave host upgrade book world =
      ((.error error, settled), after)) (hkind : error.kind = .calldata) :
    UpgradeFailsForCalldata host deployer upgrade book world error
      ((.error error, settled), after) := by
  have hchecked := deployBehindProxyAndSave_checkedFirst host deployer upgrade book world
  rw [h] at hchecked
  cases hchecked with
  | refused first => exact .beforehand first
  | passed passes onwards =>
    obtain ⟨prepared, hprepared, hresult⟩ := onwards
    have hupgrade := (Deployer.preparation_eq_ok hprepared).1
    rw [Deployer.completeAndSave] at hresult
    cases hdeploy : deployer.deploy host upgrade.name [] true world with
    | mk outcome reached =>
      cases outcome with
      | error found =>
        rw [Recording.bind_of_error (deployAndSave_of_error hdeploy)] at hresult
        cases hresult
        obtain ⟨created, hfails⟩ := deploy_failsForCalldata hdeploy hkind
        exact .implementation hfails
      | ok implementation =>
        obtain ⟨saved, hsaved, halike, -⟩ := deployAndSave_alike book hdeploy
        rw [Recording.bind_of_ok hsaved] at hresult
        obtain ⟨rfl, hcomplete⟩ := afterImplementation_eq_error hresult.symm
        obtain ⟨created, hfails⟩ := completeFromImplementation_failsForCalldata hcomplete hkind
        have hnone := hfails.created_eq_nil
        subst hnone
        rw [hupgrade] at hfails
        have hhanded := (hfails.submissions_eq (.inl rfl)).trans halike.submissions
        exact .proxy hdeploy hsaved hfails hhanded

end Upgrades

/-- What fails for want of calldata has not been handed to the node, but what comes before it has: a
deployment has then created those of its libraries that come before the failure, and an upgrade that
records may have its implementation created and recorded. Without libraries before it a deployment
has done nothing, and one that records has in no case set an entry. -/
theorem calldata_failure_extent (host : Host γ φ) (deployer : Deployer φ) (book : Book)
    (world : World γ φ) :
    (∀ name args autolink error after,
      deployer.deploy host name args autolink world = (.error error, after) →
      error.kind = .calldata →
      (∃ created, FailsForCalldata host deployer name args autolink world created error after) ∧
        ((autolink = false ∨ ∀ artifact,
            deployer.source.read world.files name = .ok artifact → artifact.libraryNames = []) →
          after.submissions = world.submissions)) ∧
    (∀ name args error settled after,
      deployer.deployAndSave host name args book world = ((.error error, settled), after) →
      error.kind = .calldata →
      settled = book ∧
        ∃ created, FailsForCalldata host deployer name args true world created error after) ∧
    ∀ upgrade error settled after,
      deployer.deployBehindProxyAndSave host upgrade book world =
        ((.error error, settled), after) →
      error.kind = .calldata →
      UpgradeFailsForCalldata host deployer upgrade book world error
        ((.error error, settled), after) := by
  refine ⟨?_, ?_, ?_⟩
  · intro name args autolink error after h hkind
    obtain ⟨created, hfails⟩ := deploy_failsForCalldata h hkind
    exact ⟨⟨created, hfails⟩, hfails.submissions_eq⟩
  · intro name args error settled after h hkind
    cases hdeploy : deployer.deploy host name args true world with
    | mk outcome reached =>
      cases outcome with
      | error found =>
        rw [deployAndSave_of_error hdeploy] at h
        cases h
        exact ⟨rfl, deploy_failsForCalldata hdeploy hkind⟩
      | ok deployed =>
        obtain ⟨saved, hsaved, -⟩ := deployAndSave_alike book hdeploy
        rw [hsaved] at h
        cases h
  · intro upgrade error settled after h hkind
    exact deployBehindProxyAndSave_failsForCalldata h hkind

/-! ## Late failures -/

/-- A deployer with a contract that refers to a library. No contract has a constructor. -/
def libraryUser : Deployer FileTree where
  sender := { address := FixedBytes.ofNat 1 }
  source := {
    read := fun _ name => .ok {
      contractName := name
      interface := {}
      bytecode :=
        if name = "UsesLib" then "60__$5b2d4f6a8c0e1f3a5b7c9d0e2f4a6b8c0d$__" else "6080"
      links :=
        if name = "UsesLib" then
          NameMap.empty.insert "LinkedLib.sol" (NameMap.empty.insert "LinkedLib" [⟨1, 20⟩])
        else NameMap.empty } }

/-- The world of a run that is the first one. -/
def firstWorld : World Nat FileTree where
  chain := 0
  files := .done

/-- Whether a run failed for want of calldata once something was handed to the node. -/
def isLateCalldataFailure (outcome : Except DeployError α) (after : World γ φ) : Bool :=
  match outcome with
  | .error (.calldata _) => !after.submissions.isEmpty
  | _ => false

theorem isLateCalldataFailure_iff {outcome : Except DeployError α} {after : World γ φ} :
    isLateCalldataFailure outcome after = true ↔
      (∃ fault, outcome = .error (.calldata fault)) ∧ after.submissions ≠ [] := by
  unfold isLateCalldataFailure
  split
  · next fault => simp
  · next hother =>
    constructor
    · intro h
      cases h
    · rintro ⟨⟨fault, houtcome⟩, -⟩
      exact absurd houtcome (hother fault)

theorem libraryUser_deploy_late :
    ∃ fault after, libraryUser.deploy promptHost "UsesLib" ["1"] true firstWorld =
        (.error (.calldata fault), after) ∧ after.submissions ≠ [] := by
  have hlate : isLateCalldataFailure
      (libraryUser.deploy promptHost "UsesLib" ["1"] true firstWorld).1
      (libraryUser.deploy promptHost "UsesLib" ["1"] true firstWorld).2 = true := by
    decide +kernel
  obtain ⟨⟨fault, houtcome⟩, hsubmissions⟩ := isLateCalldataFailure_iff.1 hlate
  exact ⟨fault, _, Prod.ext houtcome rfl, hsubmissions⟩

theorem libraryUser_upgrade_late :
    ∃ fault settled after,
      libraryUser.deployBehindProxyAndSave promptHost tokenUpgrade adminBook firstWorld =
        ((.error (.calldata fault), settled), after) ∧ after.submissions ≠ [] ∧
      (settled.get tokenUpgrade.name).isDeployed = true := by
  have hlate : isLateCalldataFailure
      (libraryUser.deployBehindProxyAndSave promptHost tokenUpgrade adminBook firstWorld).1.1
      (libraryUser.deployBehindProxyAndSave promptHost tokenUpgrade adminBook firstWorld).2 =
        true := by
    decide +kernel
  have hrecorded : ((libraryUser.deployBehindProxyAndSave promptHost tokenUpgrade adminBook
      firstWorld).1.2.get tokenUpgrade.name).isDeployed = true := by
    decide +kernel
  obtain ⟨⟨fault, houtcome⟩, hsubmissions⟩ := isLateCalldataFailure_iff.1 hlate
  exact ⟨fault, _, _, Prod.ext (Prod.ext houtcome rfl) rfl, hsubmissions, hrecorded⟩

/-- A constructor's arguments are found to make no call only after something was handed to the node:
the creation of a library, in a deployment, or that of the implementation, in an upgrade, which then
stays in the address book. -/
theorem calldata_failure_after_submission :
    (∃ fault after, libraryUser.deploy promptHost "UsesLib" ["1"] true firstWorld =
        (.error (.calldata fault), after) ∧ after.submissions ≠ firstWorld.submissions) ∧
      ∃ fault settled after,
        libraryUser.deployBehindProxyAndSave promptHost tokenUpgrade adminBook firstWorld =
          ((.error (.calldata fault), settled), after) ∧
        after.submissions ≠ firstWorld.submissions ∧ settled ≠ adminBook := by
  obtain ⟨fault, settled, after, hrun, hsubmissions, hrecorded⟩ := libraryUser_upgrade_late
  refine ⟨libraryUser_deploy_late, fault, settled, after, hrun, hsubmissions, ?_⟩
  rintro rfl
  exact absurd hrecorded (by decide)

/-- The library is what such a deployment has created. -/
theorem calldata_failure_extent_libraryUser :
    ∃ error after created,
      libraryUser.deploy promptHost "UsesLib" ["1"] true firstWorld = (.error error, after) ∧
      error.kind = .calldata ∧ created ≠ [] ∧
      FailsForCalldata promptHost libraryUser "UsesLib" ["1"] true firstWorld created error
        after := by
  obtain ⟨fault, after, hrun, hsubmissions⟩ := libraryUser_deploy_late
  obtain ⟨⟨created, hfails⟩, -⟩ := (calldata_failure_extent promptHost libraryUser adminBook
    firstWorld).1 "UsesLib" ["1"] true _ after hrun rfl
  refine ⟨_, after, created, hrun, rfl, ?_, hfails⟩
  rintro rfl
  exact hsubmissions hfails.handed

end ContractDeploy
