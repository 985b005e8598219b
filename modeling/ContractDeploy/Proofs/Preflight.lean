import ContractDeploy.Proofs.AcceptanceModes

/-!
# What is checked before an upgrade begins

An upgrade is refused before its first step if the account is not connected, if an artifact that it
needs is missing or unusable, or if the arguments of its initializer make no call; one that records
is refused too if there is no proxy admin in the address book. The checks come in a fixed order, and
the first that fails decides the error. A run that is refused has done nothing at all: the world and
the address book are those it started with. The proxy admin's artifact is asked for only where the
call that accepts is to be sent.

Each check is stated here on its own, without regard to the others. What a sequence of checks
decides is put together one check at a time.
-/

namespace ContractDeploy

variable {γ φ α β ρ : Type}

/-! ## The checks -/

/-- What is checked before the first step of an upgrade. -/
inductive PreflightCheck where
  /-- The account is connected. -/
  | connection
  /-- The proxy admin is recorded. -/
  | recordedAdmin
  /-- The implementation has an artifact. -/
  | implementationArtifact
  /-- The proxy has an artifact. -/
  | proxyArtifact
  /-- No placeholder is left in the proxy's bytecode. -/
  | proxyPlaceholders
  /-- The proxy's bytecode is hexadecimal. -/
  | proxyDigits
  /-- The proxy admin has an artifact. -/
  | adminArtifact
  /-- The initializer takes the arguments, if there are any. -/
  | initializer
deriving DecidableEq

/-- The artifact that a check is about, if it is about loading one. -/
def PreflightCheck.artifact? (upgrade : Upgrade) : PreflightCheck → Option String
  | implementationArtifact => some upgrade.name
  | proxyArtifact => some upgrade.proxyName
  | adminArtifact => some Upgrade.adminName
  | _ => none

/-- A check fails, and this is the error that it gives. -/
inductive PreflightCheck.Fails (deployer : Deployer φ) (upgrade : Upgrade) (book : Book)
    (files : φ) : PreflightCheck → DeployError → Prop
  | disconnected (hconnected : deployer.sender.connected = false) :
      Fails deployer upgrade book files .connection (.notConnected deployer.sender.address)
  | notRecorded (hzero : (book.get Upgrade.adminName).address.isZero = true) :
      Fails deployer upgrade book files .recordedAdmin (.missingDeployment Upgrade.adminName)
  | unread {check : PreflightCheck} {name : String} {error : DeployError}
      (hname : check.artifact? upgrade = some name)
      (hread : deployer.source.read files name = .error error) :
      Fails deployer upgrade book files check error
  | unresolved {proxy : Artifact} {placeholder : List Char}
      (hread : deployer.source.read files upgrade.proxyName = .ok proxy)
      (hfound : fromPlaceholder proxy.bytecode.toList = some placeholder) :
      Fails deployer upgrade book files .proxyPlaceholders
        (.linking (.unresolved (String.ofList (placeholder.take 40))))
  | undecodable {proxy : Artifact} {fault : Hex.Fault}
      (hread : deployer.source.read files upgrade.proxyName = .ok proxy)
      (hdigits : Hex.decode proxy.bytecode = .error fault) :
      Fails deployer upgrade book files .proxyDigits (.artifactParsing (.hex fault))
  | uncallable {implementation : Artifact} {fault : CalldataFault}
      (hread : deployer.source.read files upgrade.name = .ok implementation)
      (hargs : upgrade.initArgs ≠ [])
      (hencoded : implementation.interface.encodeCall Upgrade.initializerName upgrade.initArgs =
        .error fault) :
      Fails deployer upgrade book files .initializer (.calldata fault)

/-- What is checked of an upgrade itself, in this order. -/
def Upgrade.checks (upgrade : Upgrade) : List PreflightCheck :=
  [.implementationArtifact, .proxyArtifact, .proxyPlaceholders, .proxyDigits] ++
    (if upgrade.manualAccept then [] else [.adminArtifact]) ++ [.initializer]

/-- No check of a list fails. -/
def AllPass (fails : PreflightCheck → DeployError → Prop) (checks : List PreflightCheck) : Prop :=
  ∀ check ∈ checks, ∀ error, ¬ fails check error

/-- The error of the first check of a list that fails. -/
inductive FirstFailure (fails : PreflightCheck → DeployError → Prop) :
    List PreflightCheck → DeployError → Prop
  | here {check : PreflightCheck} {checks : List PreflightCheck} {error : DeployError}
      (failed : fails check error) : FirstFailure fails (check :: checks) error
  | later {check : PreflightCheck} {checks : List PreflightCheck} {error : DeployError}
      (passes : ∀ found, ¬ fails check found) (first : FirstFailure fails checks error) :
      FirstFailure fails (check :: checks) error

/-- What comes after checks: a refusal with the error of the first that fails, or, if none does,
whatever there is to go on with. -/
inductive CheckedFirst (fails : PreflightCheck → DeployError → Prop)
    (checks : List PreflightCheck) (refusal : DeployError → ρ) (goesOn : ρ → Prop) : ρ → Prop
  | refused {error : DeployError} (first : FirstFailure fails checks error) :
      CheckedFirst fails checks refusal goesOn (refusal error)
  | passed {result : ρ} (passes : AllPass fails checks) (onwards : goesOn result) :
      CheckedFirst fails checks refusal goesOn result

section Checks

variable {fails : PreflightCheck → DeployError → Prop} {check : PreflightCheck}
  {checks : List PreflightCheck} {refusal : DeployError → ρ} {goesOn : ρ → Prop} {result : ρ}

/-- A check that passes leaves the decision to those behind it. -/
theorem CheckedFirst.later (hpasses : ∀ error, ¬ fails check error)
    (h : CheckedFirst fails checks refusal goesOn result) :
    CheckedFirst fails (check :: checks) refusal goesOn result := by
  cases h with
  | refused first => exact .refused (.later hpasses first)
  | passed passes onwards => exact .passed (List.forall_mem_cons.2 ⟨hpasses, passes⟩) onwards

/-- Checks that do not all pass have one among them that fails first. -/
theorem allPass_or_firstFailure (fails : PreflightCheck → DeployError → Prop)
    (checks : List PreflightCheck) :
    AllPass fails checks ∨ ∃ error, FirstFailure fails checks error := by
  induction checks with
  | nil => exact .inl (List.forall_mem_nil _)
  | cons check checks ih =>
    by_cases hfails : ∃ error, fails check error
    · obtain ⟨error, hfailed⟩ := hfails
      exact .inr ⟨error, .here hfailed⟩
    · have hpasses : ∀ error, ¬ fails check error := fun error hfailed => hfails ⟨error, hfailed⟩
      rcases ih with hpass | ⟨error, hfirst⟩
      · exact .inl (List.forall_mem_cons.2 ⟨hpasses, hpass⟩)
      · exact .inr ⟨error, .later hpasses hfirst⟩

/-- What fails first is one of the checks. -/
theorem FirstFailure.not_allPass {error : DeployError} (h : FirstFailure fails checks error) :
    ¬ AllPass fails checks := by
  intro hpass
  induction h with
  | here failed => exact hpass _ List.mem_cons_self _ failed
  | later passes first ih => exact ih fun check hmem => hpass check (List.mem_cons_of_mem _ hmem)

/-- Where all checks pass there is no refusal. -/
theorem CheckedFirst.goesOn_of_allPass (h : CheckedFirst fails checks refusal goesOn result)
    (hpass : AllPass fails checks) : goesOn result := by
  cases h with
  | refused first => exact absurd hpass first.not_allPass
  | passed passes onwards => exact onwards

/-- Where checks fail in one way each, there is one error that comes first. -/
theorem FirstFailure.unique
    (hunique : ∀ check error found, fails check error → fails check found → error = found)
    {error found : DeployError} (hfirst : FirstFailure fails checks error)
    (hother : FirstFailure fails checks found) : error = found := by
  induction hfirst with
  | here failed =>
    cases hother with
    | here failedToo => exact hunique _ _ _ failed failedToo
    | later passes first => exact absurd failed (passes _)
  | later passes first ih =>
    cases hother with
    | here failed => exact absurd failed (passes _)
    | later passesToo firstToo => exact ih firstToo

/-- A check that fails makes for the refusal with the error of the first that does. -/
theorem CheckedFirst.eq_refusal (h : CheckedFirst fails checks refusal goesOn result)
    (hunique : ∀ check error found, fails check error → fails check found → error = found)
    {error : DeployError} (hfirst : FirstFailure fails checks error) : result = refusal error := by
  cases h with
  | refused first => rw [first.unique hunique hfirst]
  | passed passes onwards => exact absurd passes hfirst.not_allPass

/-- A step that fails exactly as a check does, and goes on with what the checks behind it decide. -/
theorem CheckedFirst.bind {outcome : Except DeployError α} {next : α → Except DeployError β}
    {goesOn : Except DeployError β → Prop}
    (hstep : ∀ error, outcome = .error error ↔ fails check error)
    (hnext : ∀ value, outcome = .ok value → CheckedFirst fails checks .error goesOn (next value)) :
    CheckedFirst fails (check :: checks) .error goesOn (outcome >>= next) := by
  cases outcome with
  | error error => exact .refused (.here ((hstep error).1 rfl))
  | ok value =>
    refine .later (fun error hfails => ?_) (hnext value rfl)
    have hfailed := (hstep error).2 hfails
    cases hfailed

end Checks

/-! ## Each step is a check -/

section Steps

variable {deployer : Deployer φ} {upgrade : Upgrade} {book : Book} {files : φ}

open PreflightCheck

theorem requireConnection_eq_error (error : DeployError) :
    deployer.sender.requireConnection = .error error ↔
      connection.Fails deployer upgrade book files error := by
  unfold Sender.requireConnection
  constructor
  · intro h
    split at h
    · cases h
    · next hconnected =>
      cases h
      exact .disconnected (Bool.eq_false_iff.2 hconnected)
  · intro h
    cases h with
    | disconnected hconnected => simp [hconnected]
    | unread hname hread => cases hname

theorem read_eq_error {check : PreflightCheck} {name : String}
    (hname : check.artifact? upgrade = some name) (error : DeployError) :
    deployer.source.read files name = .error error ↔
      check.Fails deployer upgrade book files error := by
  constructor
  · exact .unread hname
  · intro h
    cases h with
    | unread hsame hread =>
      rw [hname] at hsame
      cases hsame
      exact hread
    | disconnected hconnected => cases hname
    | notRecorded hzero => cases hname
    | unresolved hread hfound => cases hname
    | undecodable hread hdigits => cases hname
    | uncallable hread hargs hencoded => cases hname

/-- Fails if a placeholder is left in a bytecode text. -/
def requireResolved (text : String) : Except DeployError Unit :=
  match fromPlaceholder text.toList with
  | some found => .error (.linking (.unresolved (String.ofList (found.take 40))))
  | none => .ok ()

/-- The bytes that the digits of a bytecode text spell. -/
def decodeDigits (text : String) : Except DeployError Bytes :=
  (Hex.decode text).mapError fun fault => .artifactParsing (.hex fault)

/-- Code with nothing linked is read in two steps: its text is looked through for placeholders, and
then its digits are decoded. -/
theorem linkedCode_empty_eq_bind (artifact : Artifact) :
    (artifact.linkedCode NameMap.empty).mapError DeployError.ofCode =
      (requireResolved artifact.bytecode >>= fun _ => decodeDigits artifact.bytecode) := by
  rw [Artifact.linkedCode_empty, decodeBytecode, requireResolved, decodeDigits]
  cases fromPlaceholder artifact.bytecode.toList with
  | some found => rfl
  | none =>
    cases Hex.decode artifact.bytecode with
    | ok bytes => rfl
    | error fault => rfl

theorem requireResolved_eq_error {proxy : Artifact}
    (hread : deployer.source.read files upgrade.proxyName = .ok proxy) (error : DeployError) :
    requireResolved proxy.bytecode = .error error ↔
      proxyPlaceholders.Fails deployer upgrade book files error := by
  unfold requireResolved
  constructor
  · intro h
    split at h
    · next found hfound =>
      cases h
      exact .unresolved hread hfound
    · cases h
  · intro h
    cases h with
    | unresolved hsame hfound =>
      rw [hread] at hsame
      cases hsame
      rw [hfound]
    | unread hname _ => cases hname

theorem decodeDigits_eq_error {proxy : Artifact}
    (hread : deployer.source.read files upgrade.proxyName = .ok proxy) (error : DeployError) :
    decodeDigits proxy.bytecode = .error error ↔
      proxyDigits.Fails deployer upgrade book files error := by
  unfold decodeDigits
  constructor
  · intro h
    cases hdigits : Hex.decode proxy.bytecode with
    | ok bytes =>
      rw [hdigits] at h
      cases h
    | error fault =>
      rw [hdigits] at h
      cases h
      exact .undecodable hread hdigits
  · intro h
    cases h with
    | undecodable hsame hdigits =>
      rw [hread] at hsame
      cases hsame
      rw [hdigits]
      rfl
    | unread hname _ => cases hname

theorem initCall_eq_error {implementation : Artifact}
    (hread : deployer.source.read files upgrade.name = .ok implementation) (error : DeployError) :
    Deployer.initCall upgrade implementation.interface = .error error ↔
      initializer.Fails deployer upgrade book files error := by
  unfold Deployer.initCall
  constructor
  · intro h
    split at h
    · cases h
    · next hargs =>
      have hnonempty : upgrade.initArgs ≠ [] := fun hempty => hargs (List.isEmpty_iff.2 hempty)
      cases hencoded : implementation.interface.encodeCall Upgrade.initializerName
          upgrade.initArgs with
      | ok call =>
        rw [hencoded] at h
        cases h
      | error fault =>
        rw [hencoded] at h
        cases h
        exact .uncallable hread hnonempty hencoded
  · intro h
    cases h with
    | uncallable hsame hargs hencoded =>
      rw [hread] at hsame
      cases hsame
      rw [if_neg fun hempty => hargs (List.isEmpty_iff.1 hempty), hencoded]
      rfl
    | unread hname _ => cases hname

/-- A check fails in one way. -/
theorem PreflightCheck.Fails.unique {check : PreflightCheck} {error found : DeployError}
    (h : check.Fails deployer upgrade book files error)
    (hother : check.Fails deployer upgrade book files found) : error = found := by
  cases h with
  | disconnected _ =>
    cases hother with
    | disconnected _ => rfl
    | unread hname _ => cases hname
  | notRecorded _ =>
    cases hother with
    | notRecorded _ => rfl
    | unread hname _ => cases hname
  | unread hname hread =>
    have hsame := hread.symm.trans ((read_eq_error hname found).2 hother)
    exact Except.error.inj hsame
  | unresolved hread hfound =>
    have hsame := (requireResolved_eq_error hread found).2 hother
    rw [requireResolved, hfound] at hsame
    exact Except.error.inj hsame
  | undecodable hread hdigits =>
    have hsame := (decodeDigits_eq_error hread found).2 hother
    rw [decodeDigits, hdigits] at hsame
    exact Except.error.inj hsame
  | uncallable hread hargs hencoded =>
    have hsame := (initCall_eq_error hread found).2 hother
    rw [Deployer.initCall, if_neg fun hempty => hargs (List.isEmpty_iff.1 hempty), hencoded]
      at hsame
    exact Except.error.inj hsame

/-- The initializer is what an upgrade is checked for last. -/
theorem initCall_checkedFirst {implementation : Artifact}
    (hread : deployer.source.read files upgrade.name = .ok implementation)
    (adminInterface : Option Interface) :
    CheckedFirst (Fails deployer upgrade book files) [initializer] .error
      (fun outcome => ∃ prepared, outcome = .ok prepared)
      (do
        let initCall ← Deployer.initCall upgrade implementation.interface
        return ({ upgrade, interface := implementation.interface, adminInterface, initCall } :
          PreparedUpgrade)) := by
  refine .bind (initCall_eq_error hread) fun initCall _ => ?_
  exact .passed (by simp [AllPass]) ⟨_, rfl⟩

/-- What preparing an upgrade comes to is decided by the checks of the upgrade. -/
theorem preparation_checkedFirst (deployer : Deployer φ) (upgrade : Upgrade) (book : Book)
    (files : φ) :
    CheckedFirst (Fails deployer upgrade book files) upgrade.checks .error
      (fun outcome => ∃ prepared, outcome = .ok prepared) (deployer.preparation upgrade files) := by
  unfold Deployer.preparation Upgrade.checks
  simp only [linkedCode_empty_eq_bind, bind_assoc]
  refine .bind (read_eq_error rfl) fun implementation hread => ?_
  refine .bind (read_eq_error rfl) fun proxy hproxy => ?_
  refine .bind (requireResolved_eq_error hproxy) fun _ _ => ?_
  refine .bind (decodeDigits_eq_error hproxy) fun code _ => ?_
  -- Only a call that is to be sent asks for one more artifact.
  unfold Deployer.adminInterfaceIn
  cases upgrade.manualAccept with
  | true => exact initCall_checkedFirst hread none
  | false =>
    simp only [Bool.false_eq_true, if_false, bind_assoc, pure_bind]
    refine .bind (read_eq_error rfl) fun admin _ => ?_
    exact initCall_checkedFirst hread (some admin.interface)

end Steps

/-! ## Going on -/

/-- The steps of an upgrade that records: the implementation is deployed and recorded, and then come
the others. -/
def Deployer.completeAndSave (host : Host γ φ) (deployer : Deployer φ) (upgrade : Upgrade)
    (prepared : PreparedUpgrade) (admin : Address) : Recording γ φ ProxyDeployment := do
  let implementation ← deployer.deployAndSave host upgrade.name []
  afterImplementation host deployer upgrade prepared admin implementation

section Onwards

variable {host : Host γ φ} {deployer : Deployer φ} {upgrade : Upgrade} {book : Book}
  {world : World γ φ} {error : DeployError}

theorem deployBehindProxy_of_disconnected
    (hconnected : deployer.sender.requireConnection = .error error) (upgrade : Upgrade)
    (admin : Address) (world : World γ φ) :
    deployer.deployBehindProxy host upgrade admin world = (.error error, world) :=
  Run.bind_of_error (by rw [Run.ofExcept_apply, hconnected])

theorem deployBehindProxyAndSave_of_disconnected
    (hconnected : deployer.sender.requireConnection = .error error) (upgrade : Upgrade)
    (book : Book) (world : World γ φ) :
    deployer.deployBehindProxyAndSave host upgrade book world = ((.error error, book), world) :=
  Recording.bind_of_error (by rw [Recording.ofExcept_apply, hconnected])

theorem deployBehindProxyAndSave_of_not_recorded
    (hconnected : deployer.sender.requireConnection = .ok ())
    (hadmin : ¬ (book.get Upgrade.adminName).isDeployed = true) :
    deployer.deployBehindProxyAndSave host upgrade book world =
      ((.error (.missingDeployment Upgrade.adminName), book), world) := by
  rw [Deployer.deployBehindProxyAndSave,
    Recording.bind_of_ok ((Recording.ofExcept_apply _ _ _).trans (by rw [hconnected]))]
  exact Recording.bind_of_error (recordedAdmin_of_not_deployed hadmin)

theorem deployBehindProxyAndSave_of_unprepared
    (hconnected : deployer.sender.requireConnection = .ok ())
    (hadmin : (book.get Upgrade.adminName).isDeployed = true)
    (hprepared : deployer.preparation upgrade world.files = .error error) :
    deployer.deployBehindProxyAndSave host upgrade book world = ((.error error, book), world) := by
  have hreads := Deployer.reads_prepare (γ := γ) deployer upgrade world
  rw [hprepared] at hreads
  rw [Deployer.deployBehindProxyAndSave,
    Recording.bind_of_ok ((Recording.ofExcept_apply _ _ _).trans (by rw [hconnected])),
    Recording.bind_of_ok (recordedAdmin_of_deployed hadmin)]
  exact Recording.bind_of_error (Recording.ofRun_apply hreads)

theorem deployBehindProxyAndSave_of_prepared {prepared : PreparedUpgrade}
    (hconnected : deployer.sender.requireConnection = .ok ())
    (hadmin : (book.get Upgrade.adminName).isDeployed = true)
    (hprepared : deployer.preparation upgrade world.files = .ok prepared) :
    deployer.deployBehindProxyAndSave host upgrade book world =
      deployer.completeAndSave host upgrade prepared (book.get Upgrade.adminName).address book
        world := by
  have hreads := Deployer.reads_prepare (γ := γ) deployer upgrade world
  rw [hprepared] at hreads
  rw [Deployer.deployBehindProxyAndSave,
    Recording.bind_of_ok ((Recording.ofExcept_apply _ _ _).trans (by rw [hconnected])),
    Recording.bind_of_ok (recordedAdmin_of_deployed hadmin),
    Recording.bind_of_ok (Recording.ofRun_apply hreads)]
  rfl

end Onwards

/-! ## The checks of a run -/

namespace Upgrade

/-- What is checked before an upgrade. -/
def checksOfRun (upgrade : Upgrade) : List PreflightCheck :=
  .connection :: upgrade.checks

/-- What is checked before an upgrade that records. -/
def checksOfRecordingRun (upgrade : Upgrade) : List PreflightCheck :=
  .connection :: .recordedAdmin :: upgrade.checks

end Upgrade

section Runs

variable (host : Host γ φ) (deployer : Deployer φ) (upgrade : Upgrade) (admin : Address)
  (book : Book) (world : World γ φ)

open PreflightCheck

/-- A run of an upgrade takes its first step, with what was prepared for it. -/
def Deployer.Proceeds (result : Except DeployError ProxyDeployment × World γ φ) : Prop :=
  ∃ prepared, deployer.preparation upgrade world.files = .ok prepared ∧
    result = deployer.complete host prepared admin world

/-- A run of an upgrade that records takes its first step, with what was prepared for it and for
the recorded proxy admin. -/
def Deployer.ProceedsRecording (result : Recorded γ φ ProxyDeployment) : Prop :=
  ∃ prepared, deployer.preparation upgrade world.files = .ok prepared ∧
    result = deployer.completeAndSave host upgrade prepared (book.get Upgrade.adminName).address
      book world

theorem deployBehindProxy_checkedFirst :
    CheckedFirst (Fails deployer upgrade book world.files) upgrade.checksOfRun
      (fun error => (.error error, world)) (deployer.Proceeds host upgrade admin world)
      (deployer.deployBehindProxy host upgrade admin world) := by
  cases hconnected : deployer.sender.requireConnection with
  | error error =>
    rw [deployBehindProxy_of_disconnected hconnected]
    exact .refused (.here ((requireConnection_eq_error error).1 hconnected))
  | ok _ =>
    refine .later (fun error hfails => ?_) ?_
    · rw [(requireConnection_eq_error error).2 hfails] at hconnected
      cases hconnected
    · have hchecked := preparation_checkedFirst deployer upgrade book world.files
      generalize hprepared : deployer.preparation upgrade world.files = outcome at hchecked
      cases hchecked with
      | refused first =>
        rw [Deployer.deployBehindProxy_of_unprepared hconnected hprepared]
        exact .refused first
      | passed passes onwards =>
        obtain ⟨prepared, rfl⟩ := onwards
        exact .passed passes
          ⟨prepared, hprepared, Deployer.deployBehindProxy_of_prepared hconnected hprepared⟩

theorem deployBehindProxyAndSave_checkedFirst :
    CheckedFirst (Fails deployer upgrade book world.files) upgrade.checksOfRecordingRun
      (fun error => ((.error error, book), world))
      (deployer.ProceedsRecording host upgrade book world)
      (deployer.deployBehindProxyAndSave host upgrade book world) := by
  cases hconnected : deployer.sender.requireConnection with
  | error error =>
    rw [deployBehindProxyAndSave_of_disconnected hconnected]
    exact .refused (.here ((requireConnection_eq_error error).1 hconnected))
  | ok _ =>
    refine .later (fun error hfails => ?_) ?_
    · rw [(requireConnection_eq_error error).2 hfails] at hconnected
      cases hconnected
    · by_cases hadmin : (book.get Upgrade.adminName).isDeployed = true
      · refine .later (fun error hfails => ?_) ?_
        · cases hfails with
          | notRecorded hzero => simp [Record.isDeployed, hzero] at hadmin
          | unread hname hread => cases hname
        · have hchecked := preparation_checkedFirst deployer upgrade book world.files
          generalize hprepared : deployer.preparation upgrade world.files = outcome at hchecked
          cases hchecked with
          | refused first =>
            rw [deployBehindProxyAndSave_of_unprepared hconnected hadmin hprepared]
            exact .refused first
          | passed passes onwards =>
            obtain ⟨prepared, rfl⟩ := onwards
            exact .passed passes ⟨prepared, hprepared,
              deployBehindProxyAndSave_of_prepared hconnected hadmin hprepared⟩
      · rw [deployBehindProxyAndSave_of_not_recorded hconnected hadmin]
        refine .refused (.here (.notRecorded ?_))
        simpa [Record.isDeployed] using hadmin

/-- An upgrade is checked before its first step. The first check that fails decides the error, and
a run that it stops has done nothing: the world is the one it started in, and so is the address
book. A run that no check stops takes its first step; whichever checks there are, either all of them
pass or one fails first. Where the call that accepts is handed out, nothing depends on the proxy
admin's artifact. -/
theorem upgrade_checked_beforehand :
    (∀ error, FirstFailure (Fails deployer upgrade book world.files) upgrade.checksOfRun error →
      deployer.deployBehindProxy host upgrade admin world = (.error error, world)) ∧
    (∀ error,
      FirstFailure (Fails deployer upgrade book world.files) upgrade.checksOfRecordingRun error →
      deployer.deployBehindProxyAndSave host upgrade book world =
        ((.error error, book), world)) ∧
    (AllPass (Fails deployer upgrade book world.files) upgrade.checksOfRun →
      deployer.Proceeds host upgrade admin world
        (deployer.deployBehindProxy host upgrade admin world)) ∧
    (AllPass (Fails deployer upgrade book world.files) upgrade.checksOfRecordingRun →
      deployer.ProceedsRecording host upgrade book world
        (deployer.deployBehindProxyAndSave host upgrade book world)) ∧
    (upgrade.manualAccept = true →
      (∀ check : PreflightCheck, check ≠ .adminArtifact → ∀ error,
        ¬ check.Fails deployer upgrade book world.files error) →
      deployer.Proceeds host upgrade admin world
          (deployer.deployBehindProxy host upgrade admin world) ∧
        deployer.ProceedsRecording host upgrade book world
          (deployer.deployBehindProxyAndSave host upgrade book world)) ∧
    ∀ checks, AllPass (Fails deployer upgrade book world.files) checks ∨
      ∃ error, FirstFailure (Fails deployer upgrade book world.files) checks error := by
  have hrun := deployBehindProxy_checkedFirst host deployer upgrade admin book world
  have hrecording := deployBehindProxyAndSave_checkedFirst host deployer upgrade book world
  refine ⟨fun error hfirst => hrun.eq_refusal (fun _ _ _ => Fails.unique) hfirst,
    fun error hfirst => hrecording.eq_refusal (fun _ _ _ => Fails.unique) hfirst,
    hrun.goesOn_of_allPass, hrecording.goesOn_of_allPass, fun hmanual hpass => ⟨?_, ?_⟩,
    allPass_or_firstFailure _⟩
  · refine hrun.goesOn_of_allPass fun check hmem => hpass check ?_
    rintro rfl
    simp [Upgrade.checksOfRun, Upgrade.checks, hmanual] at hmem
  · refine hrecording.goesOn_of_allPass fun check hmem => hpass check ?_
    rintro rfl
    simp [Upgrade.checksOfRecordingRun, Upgrade.checks, hmanual] at hmem

end Runs

/-- A deployer for which there is no artifact of the proxy admin. -/
def adminlessDeployer : Deployer FileTree where
  sender := plainDeployer.sender
  source := {
    read := fun files name =>
      if name = Upgrade.adminName then .error (.artifactNotFound (.unknown name))
      else plainDeployer.source.read files name }

/-- Without an artifact of the proxy admin an upgrade that sends its last call is stopped by that
check, which is the fifth of its own, and one that hands it out goes on. -/
theorem upgrade_checked_beforehand_adminless :
    let world : World Nat FileTree := { chain := 0, files := .done }
    adminlessDeployer.deployBehindProxy promptHost tokenUpgrade (FixedBytes.ofNat 2) world =
        (.error (.artifactNotFound (.unknown Upgrade.adminName)), world) ∧
      adminlessDeployer.Proceeds promptHost tokenUpgrade.manual (FixedBytes.ofNat 2) world
        (adminlessDeployer.deployBehindProxy promptHost tokenUpgrade.manual (FixedBytes.ofNat 2)
          world) := by
  intro world
  have hread : ∀ name, name ≠ Upgrade.adminName → adminlessDeployer.source.read world.files name =
      plainDeployer.source.read world.files name := fun name hname => if_neg hname
  have hmissing : adminlessDeployer.source.read world.files Upgrade.adminName =
      .error (.artifactNotFound (.unknown Upgrade.adminName)) := by
    simp [adminlessDeployer]
  have htoken := hread tokenUpgrade.name (by decide)
  have hproxy := hread tokenUpgrade.proxyName (by decide)
  have hresolved : fromPlaceholder "6080".toList = none := by decide
  have hdecoded : Hex.decode "6080" = .ok [0x60, 0x80] := rfl
  -- All other checks pass in both modes.
  have hpass : ∀ manualAccept, ∀ check : PreflightCheck, check ≠ .adminArtifact → ∀ error,
      ¬ check.Fails adminlessDeployer { tokenUpgrade with manualAccept } adminBook world.files
        error := by
    intro manualAccept check hcheck error hfails
    cases hfails with
    | disconnected hconnected => cases hconnected
    | notRecorded hzero => exact absurd hzero (by decide)
    | @unread _ name _ hname hfailed =>
      have hname : name = tokenUpgrade.name ∨ name = tokenUpgrade.proxyName := by
        cases check with
        | implementationArtifact => exact .inl (Option.some.inj hname).symm
        | proxyArtifact => exact .inr (Option.some.inj hname).symm
        | adminArtifact => exact absurd rfl hcheck
        | _ => cases hname
      rcases hname with rfl | rfl
      · cases htoken.symm.trans hfailed
      · cases hproxy.symm.trans hfailed
    | unresolved hfound hplaceholder =>
      cases hproxy.symm.trans hfound
      cases hresolved.symm.trans hplaceholder
    | undecodable hfound hdigits =>
      cases hproxy.symm.trans hfound
      cases hdecoded.symm.trans hdigits
    | uncallable hfound hargs hencoded => exact hargs rfl
  constructor
  · refine (upgrade_checked_beforehand promptHost adminlessDeployer tokenUpgrade _ adminBook
      world).1 _ ?_
    refine .later (hpass false _ (by decide)) (.later (hpass false _ (by decide)) ?_)
    refine .later (hpass false _ (by decide)) (.later (hpass false _ (by decide)) ?_)
    exact .later (hpass false _ (by decide)) (.here (.unread rfl hmissing))
  · exact ((upgrade_checked_beforehand promptHost adminlessDeployer tokenUpgrade.manual _ adminBook
      world).2.2.2.2.1 rfl (hpass true)).1

end ContractDeploy
