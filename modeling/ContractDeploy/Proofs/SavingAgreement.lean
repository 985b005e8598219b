import ContractDeploy.Proofs.ChainDependence
import ContractDeploy.Proofs.Preflight

/-!
# Upgrading with and without recording

An upgrade that records does what one that does not record does, and sets entries of the address
book on the way. The proxy admin is read from the book before the first step, so that it makes no
difference if its own entry is the one that is set. Recording the implementation changes the files
in the middle of the run; as long as that does not change the artifact of the proxy, which is loaded
afterwards, the chain cannot tell the two runs apart.
-/

namespace ContractDeploy

variable {γ φ : Type}

/-- What a source gives for a name does not depend on what is written to a file. -/
def ArtifactSource.Ignores (source : ArtifactSource φ) (disk : Disk φ) (file name : String) :
    Prop :=
  ∀ text files, source.read (disk.write file text files).2 name = source.read files name

/-- A source that holds its artifacts does not look at the files. -/
theorem ArtifactSource.inMemory_ignores (texts : NameMap String) (disk : Disk φ)
    (file name : String) : (inMemory texts : ArtifactSource φ).Ignores disk file name :=
  fun _ _ => rfl

/-! ## Recording changes nothing that a run goes by -/

section Recording

variable {host : Host γ φ} {deployer : Deployer φ} {upgrade : Upgrade} {book : Book}
  {world other : World γ φ} {prepared : PreparedUpgrade} {implementation : Deployed}
  {admin : Address}

/-- A run that recorded and one that did not ended with the same outcome, in worlds alike. -/
abbrev RecordedAlike (result : Recorded γ φ ProxyDeployment)
    (plain : Except DeployError ProxyDeployment × World γ φ) : Prop :=
  SameCourse (result.1.1, result.2) plain

/-- What follows on a recorded implementation takes the course of the steps alone. -/
theorem afterImplementation_alike (halike : world.Alike other)
    (hread : deployer.source.read world.files prepared.upgrade.proxyName =
      deployer.source.read other.files prepared.upgrade.proxyName) :
    RecordedAlike
      (afterImplementation host deployer upgrade prepared admin implementation book world)
      (deployer.completeFromImplementation host prepared admin implementation other) := by
  have hsteps := Deployer.completeFromImplementation_sameCourse host halike hread admin
    implementation
  cases hrun : deployer.completeFromImplementation host prepared admin implementation world with
  | mk outcome middle =>
    rw [hrun] at hsteps
    cases outcome with
    | error error =>
      rw [afterImplementation_of_error hrun]
      exact hsteps
    | ok deployment =>
      obtain ⟨settled, after, hrecord, hafter⟩ := recordAcceptance_alike host upgrade deployment
        book middle
      rw [afterImplementation_of_recorded hrun hrecord]
      exact ⟨hsteps.outcome, hafter.trans hsteps.alike⟩

/-- The steps of an upgrade take the same course with and without recording. -/
theorem completeAndSave_alike (hupgrade : prepared.upgrade = upgrade)
    (hsource : deployer.source.Ignores host.disk book.file upgrade.proxyName) (admin : Address)
    (world : World γ φ) :
    RecordedAlike (deployer.completeAndSave host upgrade prepared admin book world)
      (deployer.complete host prepared admin world) := by
  subst hupgrade
  rw [Deployer.complete, Deployer.completeAndSave]
  cases hdeploy : deployer.deploy host prepared.upgrade.name [] true world with
  | mk outcome reached =>
    cases outcome with
    | error error =>
      rw [Run.bind_of_error hdeploy, Recording.bind_of_error (deployAndSave_of_error hdeploy)]
      exact ⟨rfl, .refl reached⟩
    | ok implementation =>
      -- The implementation is recorded between its deployment and the rest.
      obtain ⟨saved, hrecorded, halike, hfiles⟩ := deployAndSave_alike book hdeploy
      rw [Run.bind_of_ok hdeploy, Recording.bind_of_ok hrecorded]
      refine afterImplementation_alike halike ?_
      rw [hfiles]
      exact hsource _ _

end Recording

/-! ## Agreement -/

/-- An upgrade that records and one that does not, for the proxy admin that the address book has,
agree: they hand the same transactions to the node, which answers them alike, and end with the same
error or the same deployment, whatever fails on the way. This holds too if the contract that is
upgraded has the proxy admin's name, so that recording it replaces the entry that the admin was
read from. -/
theorem recording_upgrade_agrees (host : Host γ φ) (deployer : Deployer φ) (upgrade : Upgrade)
    (book : Book) (world : World γ φ)
    (hadmin : (book.get Upgrade.adminName).isDeployed = true)
    (hsource : deployer.source.Ignores host.disk book.file upgrade.proxyName) :
    ∃ outcome settled recording plain,
      deployer.deployBehindProxyAndSave host upgrade book world = ((outcome, settled), recording) ∧
      deployer.deployBehindProxy host upgrade (book.get Upgrade.adminName).address world =
        (outcome, plain) ∧
      recording.submissions = plain.submissions ∧ recording.chain = plain.chain := by
  have hagree : RecordedAlike (deployer.deployBehindProxyAndSave host upgrade book world)
      (deployer.deployBehindProxy host upgrade (book.get Upgrade.adminName).address world) := by
    cases hconnected : deployer.sender.requireConnection with
    | error error =>
      rw [deployBehindProxyAndSave_of_disconnected hconnected,
        deployBehindProxy_of_disconnected hconnected]
      exact ⟨rfl, .refl world⟩
    | ok _ =>
      cases hprepared : deployer.preparation upgrade world.files with
      | error error =>
        rw [deployBehindProxyAndSave_of_unprepared hconnected hadmin hprepared,
          Deployer.deployBehindProxy_of_unprepared hconnected hprepared]
        exact ⟨rfl, .refl world⟩
      | ok prepared =>
        rw [deployBehindProxyAndSave_of_prepared hconnected hadmin hprepared,
          Deployer.deployBehindProxy_of_prepared hconnected hprepared]
        exact completeAndSave_alike (Deployer.preparation_eq_ok hprepared).1 hsource _ world
  cases hrecording : deployer.deployBehindProxyAndSave host upgrade book world with
  | mk result recording =>
    cases hplain : deployer.deployBehindProxy host upgrade (book.get Upgrade.adminName).address
        world with
    | mk found plain =>
      rw [hrecording, hplain] at hagree
      obtain ⟨houtcome, halike⟩ := hagree
      obtain ⟨outcome, settled⟩ := result
      dsimp only at houtcome
      subst houtcome
      exact ⟨outcome, settled, recording, plain, rfl, rfl, halike.submissions, halike.chain⟩

/-- The proxy admin itself is upgraded, and its entry in the address book is replaced on the way. -/
theorem recording_upgrade_agrees_admin :
    let world : World Nat FileTree := {
      chain := 0
      files := .file "addresses.json" (.text "") .done }
    let upgrade : Upgrade := { tokenUpgrade with name := Upgrade.adminName }
    (adminBook.get Upgrade.adminName).isDeployed = true ∧
      plainDeployer.source.Ignores promptHost.disk adminBook.file upgrade.proxyName ∧
      ∃ outcome settled recording plain,
        plainDeployer.deployBehindProxyAndSave promptHost upgrade adminBook world =
          ((outcome, settled), recording) ∧
        plainDeployer.deployBehindProxy promptHost upgrade
          (adminBook.get Upgrade.adminName).address world = (outcome, plain) ∧
        recording.submissions = plain.submissions ∧ recording.chain = plain.chain := by
  intro world upgrade
  have hadmin : (adminBook.get Upgrade.adminName).isDeployed = true := by decide
  have hsource : plainDeployer.source.Ignores promptHost.disk adminBook.file upgrade.proxyName :=
    fun _ _ => rfl
  exact ⟨hadmin, hsource, recording_upgrade_agrees promptHost plainDeployer upgrade adminBook world
    hadmin hsource⟩

end ContractDeploy
