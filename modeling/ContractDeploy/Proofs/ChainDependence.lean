import ContractDeploy.Proofs.TwoRuns

/-!
# Runs that go by the chain alone

A deployment writes files and tells notices, but looks at neither: once its artifacts are loaded,
what it comes to depends on the chain. So two runs of it, from worlds with the same chain, hand over
the same transactions, end with the same outcome, and leave the same chain behind, whatever else is
different in the two worlds. Loading an artifact is the one step that looks at the files. Setting
entries of an address book is no concern of the chain.
-/

namespace ContractDeploy

variable {γ φ α β : Type}

/-- Two worlds have the same chain, and the same was handed to the node in both. -/
structure World.Alike (world other : World γ φ) : Prop where
  chain : world.chain = other.chain
  submissions : world.submissions = other.submissions

namespace World.Alike

variable {world other third : World γ φ}

theorem refl (world : World γ φ) : world.Alike world := ⟨rfl, rfl⟩

theorem symm (h : world.Alike other) : other.Alike world := ⟨h.chain.symm, h.submissions.symm⟩

theorem trans (h : world.Alike other) (hthird : other.Alike third) : world.Alike third :=
  ⟨h.chain.trans hthird.chain, h.submissions.trans hthird.submissions⟩

end World.Alike

/-- Two runs ended with the same outcome, in worlds alike. -/
structure SameCourse (result other : Except DeployError α × World γ φ) : Prop where
  outcome : result.1 = other.1
  alike : result.2.Alike other.2

/-- A run that takes the same course in worlds alike. -/
def Run.ByChain (run : Run γ φ α) : Prop :=
  ∀ world other : World γ φ, world.Alike other → SameCourse (run world) (run other)

/-- An act that leaves the chain alone and hands nothing over. -/
def Act.Quiet (act : Act γ φ α) : Prop :=
  ∀ world : World γ φ, (act world).2.Alike world

/-! ## Putting runs together -/

/-- Two runs that take the same course do so when the same steps follow on both. -/
theorem SameCourse.bind {run other : Run γ φ α} {next : α → Run γ φ β} {world middle : World γ φ}
    (hfirst : SameCourse (run world) (other middle)) (hnext : ∀ value, (next value).ByChain) :
    SameCourse ((run >>= next) world) ((other >>= next) middle) := by
  obtain ⟨houtcome, halike⟩ := hfirst
  cases hrun : run world with
  | mk outcome after =>
    cases hother : other middle with
    | mk found last =>
      rw [hrun, hother] at houtcome halike
      dsimp only at houtcome halike
      subst houtcome
      cases outcome with
      | ok value =>
        rw [Run.bind_of_ok hrun, Run.bind_of_ok hother]
        exact hnext value after last halike
      | error error =>
        rw [Run.bind_of_error hrun, Run.bind_of_error hother]
        exact ⟨rfl, halike⟩

namespace Run

/-- A run that is related to itself over worlds alike goes by the chain. -/
theorem byChain_of_related {run : Run γ φ α} (h : Run.Related World.Alike run run) :
    run.ByChain := by
  intro world other halike
  obtain ⟨houtcome, hafter⟩ := h world other halike
  exact ⟨houtcome, hafter⟩

theorem byChain_bind {run : Run γ φ α} {next : α → Run γ φ β} (hrun : run.ByChain)
    (hnext : ∀ value, (next value).ByChain) : (run >>= next).ByChain :=
  fun world other halike => (hrun world other halike).bind hnext

theorem byChain_pure (value : α) : (pure value : Run γ φ α).ByChain :=
  fun _ _ halike => ⟨rfl, halike⟩

end Run

/-! ## What is no concern of the chain -/

/-- Telling, reading the clock and adding to a journal are no concern of the chain. -/
theorem journalSteps_alike (host : Host γ φ) (journal : Journal) :
    JournalSteps host journal fun before after => after.Alike before where
  refl := .refl
  trans hfirst hlast := hlast.trans hfirst
  told _ _ := ⟨rfl, rfl⟩
  clockRead _ := ⟨rfl, rfl⟩
  journalKept _ _ _ _ _ := ⟨rfl, rfl⟩

theorem Journal.record_quiet (host : Host γ φ) (journal : Journal) (lines : List String) :
    (journal.record host lines).Quiet :=
  Journal.record_within (journalSteps_alike host journal) lines

theorem Endpoint.recordOutcome_quiet (host : Host γ φ) (journal : Journal) (receipt : Receipt) :
    (recordOutcome host journal receipt).Quiet :=
  recordOutcome_within (journalSteps_alike host journal) receipt

/-- On hosts with the same node, whatever else they have, worlds alike remain so. -/
theorem relatedSteps_alike {host other : Host γ φ} (hnode : other.node = host.node)
    (journal : Journal) : RelatedSteps host other journal World.Alike := by
  obtain ⟨node, disk, clock⟩ := other
  obtain rfl : node = host.node := hnode
  exact {
    left := {
      toCumulative := cumulative_unseenLeft _
      told := fun _ _ _ h => ⟨h.chain, h.submissions⟩
      clockRead := fun _ _ h => ⟨h.chain, h.submissions⟩
      journalKept := fun _ _ _ _ _ _ h => ⟨h.chain, h.submissions⟩ }
    right := {
      toCumulative := cumulative_unseenRight _
      told := fun _ _ _ h => ⟨h.chain, h.submissions⟩
      clockRead := fun _ _ h => ⟨h.chain, h.submissions⟩
      journalKept := fun _ _ _ _ _ _ h => ⟨h.chain, h.submissions⟩ }
    submitted := by
      rintro transaction ⟨chain, files, readings, submissions, notices⟩ middle ⟨rfl, rfl⟩
      exact ⟨rfl, rfl, rfl⟩
    awaited := by
      rintro hash ⟨chain, files, readings, submissions, notices⟩ middle ⟨rfl, rfl⟩
      exact ⟨rfl, rfl, rfl⟩
    codeRead := by
      rintro address ⟨chain, files, readings, submissions, notices⟩ middle ⟨rfl, rfl⟩
      exact ⟨rfl, rfl, rfl⟩ }

/-! ## Calls and deployments -/

theorem Endpoint.wait_byChain (host : Host γ φ) (endpoint : Endpoint) (submitted : Submitted) :
    (endpoint.wait host submitted).ByChain :=
  Run.byChain_of_related ((relatedSteps_alike rfl ⟨none⟩).wait endpoint submitted)

namespace Deployer

variable (host : Host γ φ) (deployer : Deployer φ)

theorem deployArtifact_byChain (artifact : Artifact) (args : List String) (libraries : Libraries) :
    (deployer.deployArtifact host artifact args libraries).ByChain :=
  Run.byChain_of_related
    ((relatedSteps_alike rfl deployer.journal).deployArtifact artifact args libraries)

theorem accept_byChain (prepared : PreparedUpgrade) (admin : Address)
    (implementation proxy : Deployed) :
    (deployer.accept host prepared admin implementation proxy).ByChain :=
  Run.byChain_of_related
    ((relatedSteps_alike rfl deployer.journal).accept prepared admin implementation proxy)

variable {host deployer} {world other : World γ φ} {name : String}

/-- An artifact is loaded alike where the files give the same. -/
theorem load_sameCourse (halike : world.Alike other)
    (hread : deployer.source.read world.files name = deployer.source.read other.files name) :
    SameCourse ((deployer.source.load name : Run γ φ Artifact) world)
      ((deployer.source.load name : Run γ φ Artifact) other) := by
  rw [ArtifactSource.reads_load, ArtifactSource.reads_load]
  exact ⟨hread, halike⟩

/-- A deployment without libraries takes the same course in worlds alike that have the same artifact
of the contract. -/
theorem deploy_sameCourse (halike : world.Alike other)
    (hread : deployer.source.read world.files name = deployer.source.read other.files name)
    (args : List String) :
    SameCourse (deployer.deploy host name args false world)
      (deployer.deploy host name args false other) := by
  rw [deploy]
  cases hconnected : deployer.sender.requireConnection with
  | error error =>
    rw [Run.bind_of_error (Run.ofExcept_apply _ world),
      Run.bind_of_error (Run.ofExcept_apply _ other)]
    exact ⟨rfl, halike⟩
  | ok _ =>
    rw [Run.bind_of_ok (Run.ofExcept_apply _ world), Run.bind_of_ok (Run.ofExcept_apply _ other)]
    exact (load_sameCourse halike hread).bind
      fun artifact => deployArtifact_byChain host deployer artifact args NameMap.empty

/-- The steps after the implementation take the same course in worlds alike that have the same
artifact of the proxy. -/
theorem completeFromImplementation_sameCourse (host : Host γ φ) {prepared : PreparedUpgrade}
    (halike : world.Alike other)
    (hread : deployer.source.read world.files prepared.upgrade.proxyName =
      deployer.source.read other.files prepared.upgrade.proxyName)
    (admin : Address) (implementation : Deployed) :
    SameCourse (deployer.completeFromImplementation host prepared admin implementation world)
      (deployer.completeFromImplementation host prepared admin implementation other) := by
  refine (deploy_sameCourse halike hread _).bind fun proxy => ?_
  refine Run.byChain_bind (accept_byChain host deployer prepared admin implementation proxy)
    fun acceptance => ?_
  exact Run.byChain_pure _

end Deployer

/-! ## Recording -/

section Recording

variable {host : Host γ φ} {deployer : Deployer φ} {name : String} {args : List String}
  {world reached : World γ φ}

/-- Setting an entry changes the files and nothing that a run goes by. -/
theorem Recording.save_alike (host : Host γ φ) (name : String) (record : Record) (book : Book)
    (world : World γ φ) :
    ∃ after, Recording.save host name record book world =
        ((.ok (), book.insert name record), after) ∧
      after.Alike world ∧ after.files =
        (host.disk.write book.file (book.insert name record).document.print world.files).2 := by
  obtain ⟨notices, hsave⟩ := Recording.save_world host name record book world
  exact ⟨_, hsave, ⟨rfl, rfl⟩, rfl⟩

theorem deployAndSave_alike (book : Book) {deployed : Deployed}
    (h : deployer.deploy host name args true world = (.ok deployed, reached)) :
    ∃ saved, deployer.deployAndSave host name args book world =
        ((.ok deployed, book.insert name (.direct (deployed.toSnapshot args))), saved) ∧
      saved.Alike reached ∧ saved.files =
        (host.disk.write book.file
          (book.insert name (.direct (deployed.toSnapshot args))).document.print
          reached.files).2 := by
  obtain ⟨saved, hsave, halike, hfiles⟩ := Recording.save_alike host name
    (.direct (deployed.toSnapshot args)) book reached
  refine ⟨saved, ?_, halike, hfiles⟩
  rw [Deployer.deployAndSave, Recording.bind_of_ok (Recording.ofRun_apply h),
    Recording.bind_of_ok hsave]
  rfl

/-- Setting the entry of an accepted upgrade comes after everything else. -/
theorem recordAcceptance_alike (host : Host γ φ) (upgrade : Upgrade) (deployment : ProxyDeployment)
    (book : Book) (world : World γ φ) :
    ∃ settled after, Deployer.recordAcceptance host upgrade deployment book world =
        ((.ok (), settled), after) ∧ after.Alike world := by
  cases hacceptance : deployment.acceptance with
  | accepted receipt =>
    rw [recordAcceptance_of_accepted hacceptance]
    obtain ⟨after, hsave, halike, -⟩ := Recording.save_alike host upgrade.name
      (Deployer.acceptedRecord upgrade deployment.proxy (book.get upgrade.name)) book world
    exact ⟨_, after, hsave, halike⟩
  | pending payload =>
    refine ⟨book, world, ?_, .refl world⟩
    rw [Deployer.recordAcceptance, hacceptance]
    rfl

end Recording

end ContractDeploy
