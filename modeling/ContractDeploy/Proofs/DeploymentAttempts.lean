import ContractDeploy.Proofs.Creations

/-!
# The transactions of a deployment

A deployment creates the libraries of a contract in turn and then the contract, and the first step
that fails ends it. `DeploymentCourse` tells how far it came: the libraries that were created, those
that were not, and what became of the one creation that came next. The number, the order and the
inputs of the transactions are read off from there. Libraries that refer to each other make no
difference, since each is created with nothing linked.
-/

namespace ContractDeploy

variable {γ φ : Type}

/-! ## Libraries -/

/-- A library that a deployment created. -/
structure LibraryCreation where
  /-- The name of the library. -/
  name : String
  /-- The transaction that created it. -/
  attempt : Submission
  /-- What was created. -/
  deployed : Deployed

/-- What is linked for a created library. -/
def LibraryCreation.entry (creation : LibraryCreation) : String × Address :=
  (creation.name, creation.deployed.address)

/-- A library was created between two moments, from the code of its artifact with nothing linked and
no arguments behind it. -/
structure LibraryCreation.Made (host : Host γ φ) (deployer : Deployer φ) (before after : World γ φ)
    (creation : LibraryCreation) : Prop where
  fromArtifact : ∃ library code, deployer.source.read before.files creation.name = .ok library ∧
    library.linkedCode NameMap.empty = .ok code ∧
    creation.attempt.transaction = ⟨deployer.sender.address, none, code⟩
  createdBy : creation.deployed.CreatedBy host.node before.chain after.chain creation.attempt
  handed : after.submissions = before.submissions ++ [creation.attempt]
  grown : deployer.journal.Grown host.disk before.files after.files

/-- Libraries were created one after the other, and nothing else was handed to the node. -/
inductive LibrariesMade (host : Host γ φ) (deployer : Deployer φ) :
    World γ φ → List LibraryCreation → World γ φ → Prop
  | none (world : World γ φ) : LibrariesMade host deployer world [] world
  | next {creation : LibraryCreation} {others : List LibraryCreation}
      {before middle after : World γ φ} (made : creation.Made host deployer before middle)
      (rest : LibrariesMade host deployer middle others after) :
      LibrariesMade host deployer before (creation :: others) after

/-- Why a deployment goes no further than to a library, with the attempt to create it, if one was
made. -/
inductive LibraryStop (host : Host γ φ) (deployer : Deployer φ) (before : World γ φ)
    (name : String) : Option Submission → DeployError → World γ φ → Prop
  /-- The artifact cannot be loaded. -/
  | unloaded {error : DeployError} {after : World γ φ}
      (hread : deployer.source.read before.files name = .error error)
      (handed : after.submissions = before.submissions) :
      LibraryStop host deployer before name none error after
  /-- The library cannot be created. -/
  | refused {library : Artifact} {last : Option Submission} {error : DeployError}
      {after : World γ φ} (hread : deployer.source.read before.files name = .ok library)
      (ended : CreationEnd host deployer.sender.address library [] NameMap.empty before last
        (.error error) after) :
      LibraryStop host deployer before name last error after

/-- The addresses of created libraries, to be linked. -/
def linkTable (created : List LibraryCreation) : Libraries :=
  NameMap.ofList (created.map LibraryCreation.entry)

/-- Libraries with the addresses of further ones that were created. -/
def Libraries.extend (libraries : Libraries) (created : List LibraryCreation) : Libraries :=
  (created.map LibraryCreation.entry).foldl (fun map pair => map.insert pair.1 pair.2) libraries

/-- Nothing is written into bytecode when nothing is linked. -/
theorem linkAll_empty (contract : String) (origin : Nat)
    (references : List (String × List LinkOffset)) (text : List Char) :
    linkAll contract NameMap.empty origin references text = .ok text := by
  induction references with
  | nil => rfl
  | cons reference references ih => exact ih

/-- Code with nothing linked is what the bytecode spells. -/
theorem Artifact.linkedCode_empty (artifact : Artifact) :
    artifact.linkedCode NameMap.empty = decodeBytecode artifact.bytecode := by
  have hlink : artifact.link NameMap.empty = .ok artifact.bytecode := by
    unfold link
    simp only [linkAll_empty]
    show Except.ok (String.ofList artifact.bytecode.toList) = _
    rw [String.ofList_toList]
  unfold linkedCode
  rw [hlink]
  rfl

/-- A constructor call without arguments adds nothing to the code. -/
theorem Interface.encodeConstructor_nil {interface : Interface} {encoded : Bytes}
    (h : interface.encodeConstructor [] = .ok encoded) : encoded = [] := by
  unfold encodeConstructor at h
  split at h
  · next inputs hinputs =>
    cases inputs with
    | nil =>
      cases h
      rfl
    | cons param params => cases h
  · cases h
    rfl

section LibrariesMade

variable {host : Host γ φ} {deployer : Deployer φ} {before after : World γ φ}
  {created : List LibraryCreation}

theorem LibrariesMade.submissions (h : LibrariesMade host deployer before created after) :
    after.submissions = before.submissions ++ created.map (·.attempt) := by
  induction h with
  | none world => simp
  | next made rest ih =>
    rw [ih, made.handed, List.map_cons, List.append_assoc, List.singleton_append]

theorem LibrariesMade.grown (h : LibrariesMade host deployer before created after) :
    deployer.journal.Grown host.disk before.files after.files := by
  induction h with
  | none world => exact .refl
  | next made rest ih => exact made.grown.trans ih

theorem LibrariesMade.reaches (h : LibrariesMade host deployer before created after) :
    host.node.Reaches before.chain after.chain := by
  induction h with
  | none world => exact .refl
  | next made rest ih => exact made.createdBy.reaches.trans ih

/-- Every one of the libraries was made between two moments of the whole. -/
theorem LibrariesMade.of_mem (h : LibrariesMade host deployer before created after)
    {creation : LibraryCreation} (hmem : creation ∈ created) :
    ∃ start stop, creation.Made host deployer start stop ∧
      deployer.journal.Grown host.disk before.files start.files ∧
      host.node.Reaches before.chain start.chain ∧ host.node.Reaches stop.chain after.chain := by
  induction h with
  | none world => cases hmem
  | @next first others before middle after made rest ih =>
    rcases List.mem_cons.1 hmem with rfl | hmem
    · exact ⟨before, middle, made, .refl, .refl, rest.reaches⟩
    · obtain ⟨start, stop, hmade, hgrown, hstart, hstop⟩ := ih hmem
      exact ⟨start, stop, hmade, made.grown.trans hgrown, made.createdBy.reaches.trans hstart,
        hstop⟩

end LibrariesMade

/-! ## The course of a deployment -/

/-- What becomes of a deployment that has created some libraries: one of those that are left stops
it, or none is left and it comes to the contract. -/
inductive DeploymentEnd (host : Host γ φ) (deployer : Deployer φ) (artifact : Artifact)
    (args : List String) (created : List LibraryCreation) (before : World γ φ) :
    List String → Option Submission → Except DeployError Deployed → World γ φ → Prop
  | library {name : String} {left : List String} {last : Option Submission} {error : DeployError}
      {after : World γ φ} (stop : LibraryStop host deployer before name last error after) :
      DeploymentEnd host deployer artifact args created before (name :: left) last (.error error)
        after
  | contract {last : Option Submission} {outcome : Except DeployError Deployed} {after : World γ φ}
      (ended : CreationEnd host deployer.sender.address artifact args (linkTable created) before
        last outcome after) :
      DeploymentEnd host deployer artifact args created before [] last outcome after

/-- How far a deployment of an artifact came: these libraries were created, those were not, and this
was the attempt that came next, if one did. -/
structure DeploymentCourse (host : Host γ φ) (deployer : Deployer φ) (artifact : Artifact)
    (args : List String) (world : World γ φ) (created : List LibraryCreation) (left : List String)
    (last : Option Submission) (outcome : Except DeployError Deployed) (after : World γ φ) :
    Prop where
  names : artifact.libraryNames = created.map (·.name) ++ left
  ended : ∃ middle, LibrariesMade host deployer world created middle ∧
    DeploymentEnd host deployer artifact args created middle left last outcome after

/-- What comes of the libraries alone. -/
inductive LibrariesEnd (host : Host γ φ) (deployer : Deployer φ) (libraries : Libraries)
    (created : List LibraryCreation) (before : World γ φ) :
    List String → Option Submission → Except DeployError Libraries → World γ φ → Prop
  | stopped {name : String} {left : List String} {last : Option Submission} {error : DeployError}
      {after : World γ φ} (stop : LibraryStop host deployer before name last error after) :
      LibrariesEnd host deployer libraries created before (name :: left) last (.error error) after
  | complete :
      LibrariesEnd host deployer libraries created before [] none
        (.ok (libraries.extend created)) before

namespace Deployer

variable {host : Host γ φ} {deployer : Deployer φ}

/-- Deploying one of the libraries makes it and goes on with the others, or stops there. -/
theorem deployLibraries_cons (host : Host γ φ)
    (hconnected : deployer.sender.requireConnection = .ok ()) (contract name : String)
    (names : List String) (libraries : Libraries) (before : World γ φ) :
    (∃ (creation : LibraryCreation) (after : World γ φ), creation.name = name ∧
        creation.Made host deployer before after ∧
        deployer.deployLibraries host contract (name :: names) libraries before =
          deployer.deployLibraries host contract names
            (libraries.insert name creation.deployed.address) after) ∨
      ∃ last error after, LibraryStop host deployer before name last error after ∧
        deployer.deployLibraries host contract (name :: names) libraries before =
          (.error error, after) := by
  -- Telling which library comes next leaves the chain, the files and the submissions alone.
  obtain ⟨told, htell, hchain, hfiles, hsubmissions⟩ :
      ∃ told : World γ φ, Run.tell (.deployingLibrary name contract) before = (.ok (), told) ∧
        told.chain = before.chain ∧ told.files = before.files ∧
        told.submissions = before.submissions := ⟨_, rfl, rfl, rfl, rfl⟩
  rw [deployLibraries, Run.bind_of_ok htell]
  have hsame := congrArg (deployer.source.read · name) hfiles
  cases hread : deployer.source.read told.files name with
  | error error =>
    exact .inr ⟨none, error, told, .unloaded (hsame.symm.trans hread) hsubmissions,
      Run.bind_of_error (ArtifactSource.load_of_read hread)⟩
  | ok library =>
    rw [Run.bind_of_ok (ArtifactSource.load_of_read hread)]
    replace hread := hsame.symm.trans hread
    obtain ⟨last, outcome, after, hrun, hended⟩ := deployArtifact_creationEnd host
      hconnected library [] NameMap.empty told
    have hgrown := deployArtifact_within (deploymentSteps_grown host deployer.journal) hread []
      NameMap.empty told
    rw [hrun, hfiles] at hgrown
    have hback := hended.of_same hchain hsubmissions
    cases outcome with
    | error error =>
      exact .inr ⟨last, error, after, .refused hread hback, Run.bind_of_error hrun⟩
    | ok deployed =>
      cases hback with
      | @created code encoded attempt _ _ hcode hencoded transaction handed createdBy linked _ =>
        refine .inl ⟨⟨name, attempt, deployed⟩, after, rfl, ⟨⟨library, code, hread, hcode, ?_⟩,
          createdBy, handed, hgrown⟩, Run.bind_of_ok hrun⟩
        rw [transaction, Interface.encodeConstructor_nil hencoded, List.append_nil]

/-- Deploying libraries makes them in turn, up to the first that stops it. -/
theorem deployLibraries_course (host : Host γ φ)
    (hconnected : deployer.sender.requireConnection = .ok ()) (contract : String)
    (names : List String) (libraries : Libraries) (world : World γ φ) :
    ∃ created left last middle outcome after,
      deployer.deployLibraries host contract names libraries world = (outcome, after) ∧
      names = created.map (·.name) ++ left ∧ LibrariesMade host deployer world created middle ∧
      LibrariesEnd host deployer libraries created middle left last outcome after := by
  induction names generalizing libraries world with
  | nil => exact ⟨[], [], none, world, _, world, rfl, rfl, .none world, .complete⟩
  | cons name names ih =>
    rcases deployLibraries_cons host hconnected contract name names libraries world with
      ⟨creation, next, rfl, hmade, hrun⟩ | ⟨last, error, after, hstop, hrun⟩
    · obtain ⟨created, left, last, middle, outcome, after, hrest, hnames, hothers, hended⟩ :=
        ih (libraries.insert creation.name creation.deployed.address) next
      refine ⟨creation :: created, left, last, middle, outcome, after, hrun.trans hrest, ?_,
        .next hmade hothers, ?_⟩
      · rw [hnames, List.map_cons, List.cons_append]
      · cases hended with
        | stopped stop => exact .stopped stop
        | complete => exact .complete
    · exact ⟨[], name :: names, last, world, _, after, hrun, rfl, .none world, .stopped hstop⟩

theorem deploy_of_disconnected {error : DeployError}
    (h : deployer.sender.requireConnection = .error error) (name : String) (args : List String)
    (autolink : Bool) (world : World γ φ) :
    deployer.deploy host name args autolink world = (.error error, world) :=
  Run.bind_of_error (by rw [Run.ofExcept_apply, h])

theorem deploy_of_unread (hconnected : deployer.sender.requireConnection = .ok ()) {name : String}
    {error : DeployError} {world : World γ φ}
    (hread : deployer.source.read world.files name = .error error) (args : List String)
    (autolink : Bool) :
    deployer.deploy host name args autolink world = (.error error, world) := by
  rw [deploy, Run.bind_of_ok (by rw [Run.ofExcept_apply, hconnected])]
  exact Run.bind_of_error (ArtifactSource.load_of_read hread)

/-- A deployment without libraries is one creation. -/
theorem deploy_unlinked (hconnected : deployer.sender.requireConnection = .ok ()) {name : String}
    {artifact : Artifact} {world : World γ φ}
    (hread : deployer.source.read world.files name = .ok artifact) (args : List String) :
    deployer.deploy host name args false world =
      deployer.deployArtifact host artifact args NameMap.empty world := by
  rw [deploy, Run.bind_of_ok (by rw [Run.ofExcept_apply, hconnected]),
    Run.bind_of_ok (ArtifactSource.load_of_read hread)]
  rfl

/-- A deployment with libraries runs its course. -/
theorem deploy_course (host : Host γ φ)
    (hconnected : deployer.sender.requireConnection = .ok ()) {name : String} {artifact : Artifact}
    {world : World γ φ}
    (hread : deployer.source.read world.files name = .ok artifact) (args : List String) :
    ∃ created left last outcome after,
      deployer.deploy host name args true world = (outcome, after) ∧
      DeploymentCourse host deployer artifact args world created left last outcome after := by
  rw [deploy, Run.bind_of_ok (by rw [Run.ofExcept_apply, hconnected]),
    Run.bind_of_ok (ArtifactSource.load_of_read hread), if_pos rfl]
  obtain ⟨created, left, last, middle, outcome, after, hrun, hnames, hmade, hended⟩ :=
    deployLibraries_course host hconnected artifact.contractName artifact.libraryNames
      NameMap.empty world
  cases hended with
  | stopped stop =>
    exact ⟨created, _, last, _, after, Run.bind_of_error hrun, hnames, middle, hmade, .library stop⟩
  | complete =>
    obtain ⟨last, outcome, after, hcreate, hcontract⟩ := deployArtifact_creationEnd host
      hconnected artifact args (linkTable created) middle
    exact ⟨created, [], last, outcome, after, (Run.bind_of_ok hrun).trans hcreate, hnames, middle,
      hmade, .contract hcontract⟩

/-- What a deployment comes to, with libraries and without. -/
inductive DeployEnd (host : Host γ φ) (deployer : Deployer φ) (name : String) (args : List String)
    (world : World γ φ) : Bool → Except DeployError Deployed → World γ φ → Prop
  /-- The account is not connected. Nothing is done. -/
  | disconnected {autolink : Bool} {error : DeployError}
      (hconnected : deployer.sender.requireConnection = .error error) :
      DeployEnd host deployer name args world autolink (.error error) world
  /-- The artifact is not there. Nothing is done. -/
  | unread {autolink : Bool} {error : DeployError}
      (hread : deployer.source.read world.files name = .error error) :
      DeployEnd host deployer name args world autolink (.error error) world
  /-- The libraries are created in turn and then the contract. -/
  | linked {artifact : Artifact} {created : List LibraryCreation} {left : List String}
      {last : Option Submission} {outcome : Except DeployError Deployed} {after : World γ φ}
      (hconnected : deployer.sender.requireConnection = .ok ())
      (hread : deployer.source.read world.files name = .ok artifact)
      (course : DeploymentCourse host deployer artifact args world created left last outcome
        after) :
      DeployEnd host deployer name args world true outcome after
  /-- The contract alone is created. -/
  | unlinked {artifact : Artifact} {last : Option Submission}
      {outcome : Except DeployError Deployed} {after : World γ φ}
      (hconnected : deployer.sender.requireConnection = .ok ())
      (hread : deployer.source.read world.files name = .ok artifact)
      (ended : CreationEnd host deployer.sender.address artifact args NameMap.empty world last
        outcome after) :
      DeployEnd host deployer name args world false outcome after

theorem deployEnd_of_run {name : String} {args : List String} {autolink : Bool}
    {world after : World γ φ} {outcome : Except DeployError Deployed}
    (h : deployer.deploy host name args autolink world = (outcome, after)) :
    DeployEnd host deployer name args world autolink outcome after := by
  cases hconnected : deployer.sender.requireConnection with
  | error error =>
    rw [deploy_of_disconnected hconnected] at h
    cases h
    exact .disconnected hconnected
  | ok _ =>
    cases hread : deployer.source.read world.files name with
    | error error =>
      rw [deploy_of_unread hconnected hread] at h
      cases h
      exact .unread hread
    | ok artifact =>
      cases autolink with
      | true =>
        obtain ⟨created, left, last, found, reached, hrun, hcourse⟩ :=
          deploy_course host hconnected hread args
        rw [hrun] at h
        cases h
        exact .linked hconnected hread hcourse
      | false =>
        obtain ⟨last, found, reached, hrun, hended⟩ := deployArtifact_creationEnd host hconnected
          artifact args NameMap.empty world
        rw [deploy_unlinked hconnected hread, hrun] at h
        cases h
        exact .unlinked hconnected hread hended

end Deployer

/-! ## What the course says -/

/-- A transaction that creates a contract from an account. -/
def Submission.CreatesFrom (submission : Submission) (sender : Address) : Prop :=
  submission.transaction.sender = sender ∧ submission.transaction.callee = none

/-- No library can be created under a name: there is no artifact, or a placeholder is left in its
own bytecode. -/
inductive ArtifactSource.Unusable (source : ArtifactSource φ) (files : φ) (name : String) :
    DeployError → Prop
  | unloaded {error : DeployError} (hread : source.read files name = .error error) :
      source.Unusable files name error
  | unresolved {library : Artifact} {placeholder : List Char}
      (hread : source.read files name = .ok library)
      (hfound : fromPlaceholder library.bytecode.toList = some placeholder) :
      source.Unusable files name (.linking (.unresolved (String.ofList (placeholder.take 40))))

/-- The attempts of a creation: none or one, and it creates. -/
theorem CreationEnd.submissions {host : Host γ φ} {sender : Address} {artifact : Artifact}
    {args : List String} {libraries : Libraries} {before after : World γ φ}
    {last : Option Submission} {outcome : Except DeployError Deployed}
    (h : CreationEnd host sender artifact args libraries before last outcome after) :
    after.submissions = before.submissions ++ last.toList ∧
      ∀ attempt ∈ last, attempt.CreatesFrom sender := by
  cases h with
  | unlinked hcode handed => exact ⟨by simp [handed], by simp⟩
  | uncallable hcode hencoded handed => exact ⟨by simp [handed], by simp⟩
  | failed hcode hencoded transaction handed fromNode =>
    refine ⟨handed, ?_⟩
    simp [Submission.CreatesFrom, transaction]
  | created hcode hencoded transaction handed createdBy linked creationCode =>
    refine ⟨handed, ?_⟩
    simp [Submission.CreatesFrom, transaction]

theorem LibraryStop.submissions {host : Host γ φ} {deployer : Deployer φ}
    {before after : World γ φ} {name : String} {last : Option Submission} {error : DeployError}
    (h : LibraryStop host deployer before name last error after) :
    after.submissions = before.submissions ++ last.toList ∧
      ∀ attempt ∈ last, attempt.CreatesFrom deployer.sender.address := by
  cases h with
  | unloaded hread handed => exact ⟨by simp [handed], by simp⟩
  | refused hread ended => exact ended.submissions

/-- A library that cannot be created is never handed to the node. -/
theorem LibraryStop.of_unusable {host : Host γ φ} {deployer : Deployer φ}
    {before after : World γ φ} {name : String} {last : Option Submission}
    {error found : DeployError} (h : LibraryStop host deployer before name last found after)
    (hunusable : deployer.source.Unusable before.files name error) :
    last = none ∧ found = error := by
  cases hunusable with
  | unloaded hread =>
    cases h with
    | unloaded hsame handed =>
      rw [hread] at hsame
      cases hsame
      exact ⟨rfl, rfl⟩
    | refused hsame ended =>
      rw [hread] at hsame
      cases hsame
  | @unresolved library placeholder hread hfound =>
    have hcode : library.linkedCode NameMap.empty =
        .error (.link (.unresolved (String.ofList (placeholder.take 40)))) := by
      rw [Artifact.linkedCode_empty, decodeBytecode, hfound]
    cases h with
    | unloaded hsame handed =>
      rw [hread] at hsame
      cases hsame
    | refused hsame ended =>
      rw [hread] at hsame
      cases hsame
      cases ended with
      | unlinked hfault handed =>
        rw [hcode] at hfault
        cases hfault
        exact ⟨rfl, rfl⟩
      | uncallable hlinked hencoded handed =>
        rw [hcode] at hlinked
        cases hlinked
      | failed hlinked hencoded transaction handed fromNode =>
        rw [hcode] at hlinked
        cases hlinked

theorem LibraryCreation.Made.not_unusable {host : Host γ φ} {deployer : Deployer φ}
    {before after : World γ φ} {creation : LibraryCreation}
    (h : creation.Made host deployer before after) (error : DeployError) :
    ¬ deployer.source.Unusable before.files creation.name error := by
  obtain ⟨library, code, hread, hcode, -⟩ := h.fromArtifact
  intro hunusable
  cases hunusable with
  | unloaded hsame =>
    rw [hread] at hsame
    cases hsame
  | unresolved hsame hfound =>
    rw [hread] at hsame
    cases hsame
    rw [Artifact.linkedCode_empty, decodeBytecode, hfound] at hcode
    cases hcode

namespace DeploymentCourse

variable {host : Host γ φ} {deployer : Deployer φ} {artifact : Artifact} {args : List String}
  {world : World γ φ} {created : List LibraryCreation} {left : List String}
  {last : Option Submission} {outcome : Except DeployError Deployed} {stopped : World γ φ}

/-- The attempts of a deployment in their order. -/
def attempts (created : List LibraryCreation) (last : Option Submission) : List Submission :=
  created.map (·.attempt) ++ last.toList

theorem submissions
    (h : DeploymentCourse host deployer artifact args world created left last outcome stopped) :
    stopped.submissions = world.submissions ++ attempts created last ∧
      ∀ attempt ∈ attempts created last, attempt.CreatesFrom deployer.sender.address := by
  obtain ⟨middle, hmade, hended⟩ := h.ended
  have hlast : stopped.submissions = middle.submissions ++ last.toList ∧
      ∀ attempt ∈ last, attempt.CreatesFrom deployer.sender.address := by
    cases hended with
    | library stop => exact stop.submissions
    | contract ended => exact ended.submissions
  obtain ⟨hsubmissions, hcreates⟩ := hlast
  constructor
  · rw [hsubmissions, hmade.submissions, attempts, List.append_assoc]
  · intro attempt hattempt
    rcases List.mem_append.1 hattempt with hattempt | hattempt
    · obtain ⟨creation, hcreation, rfl⟩ := List.mem_map.1 hattempt
      obtain ⟨start, stop, hmade, -⟩ := hmade.of_mem hcreation
      obtain ⟨library, code, -, -, htransaction⟩ := hmade.fromArtifact
      rw [Submission.CreatesFrom, htransaction]
      exact ⟨rfl, rfl⟩
    · exact hcreates attempt (Option.mem_toList.1 hattempt)

theorem length_attempts_le
    (h : DeploymentCourse host deployer artifact args world created left last outcome stopped) :
    (attempts created last).length ≤ artifact.libraryNames.length + 1 := by
  have hlast : last.toList.length ≤ 1 := by
    cases last <;> simp
  have hnames := congrArg List.length h.names
  rw [List.length_append, List.length_map] at hnames
  rw [attempts, List.length_append, List.length_map]
  omega

/-- A deployment does not get past a library that cannot be created. -/
theorem blocked
    (h : DeploymentCourse host deployer artifact args world created left last outcome stopped)
    {before after : List String} {name : String} {error : DeployError}
    (hnames : artifact.libraryNames = before ++ name :: after)
    (hunusable : ∀ files, deployer.journal.Grown host.disk world.files files →
      deployer.source.Unusable files name error) :
    (attempts created last).length ≤ before.length ∧ (∃ found, outcome = .error found) ∧
      (created.length = before.length → last = none ∧ outcome = .error error) := by
  obtain ⟨middle, hmade, hended⟩ := h.ended
  have hsame : created.map (·.name) ++ left = before ++ name :: after := h.names.symm.trans hnames
  have hlength : created.length ≤ before.length := by
    refine Nat.le_of_not_lt fun hlonger => ?_
    -- The library would be one of those that were created.
    have hname : name ∈ created.map (·.name) := by
      have hat := congrArg (fun names => names[before.length]?) hsame
      have hlt : before.length < (created.map (·.name)).length := by
        rw [List.length_map]
        omega
      simp only [List.getElem?_append_left hlt, List.getElem?_append_right (Nat.le_refl _),
        Nat.sub_self, List.getElem?_cons_zero] at hat
      exact List.mem_of_getElem? hat
    obtain ⟨creation, hcreation, rfl⟩ := List.mem_map.1 hname
    obtain ⟨start, stop, hcreated, hgrown, -⟩ := hmade.of_mem hcreation
    exact hcreated.not_unusable error (hunusable start.files hgrown)
  have hlast : last.toList.length ≤ 1 := by
    cases last <;> simp
  rw [attempts, List.length_append, List.length_map]
  cases hended with
  | contract ended =>
    have hlengths := congrArg List.length hsame
    simp at hlengths
    omega
  | @library next left last found stopped stop =>
    by_cases hall : created.length = before.length
    · have hnext : next = name := by
        have htail := List.append_inj_right hsame (by rw [List.length_map, hall])
        exact (List.cons.inj htail).1
      obtain ⟨rfl, rfl⟩ := stop.of_unusable (hnext ▸ hunusable middle.files hmade.grown)
      exact ⟨by simp [hall], ⟨_, rfl⟩, fun _ => ⟨rfl, rfl⟩⟩
    · refine ⟨by omega, ⟨_, rfl⟩, fun hcontra => absurd hcontra hall⟩

/-- A deployment that fails for want of an artifact fails as its source does. -/
theorem artifactNotFound {error : DeployError}
    (h : DeploymentCourse host deployer artifact args world created left last (.error error)
      stopped) (hkind : error.kind = .artifactNotFound) :
    ∃ files name, deployer.source.read files name = .error error := by
  obtain ⟨middle, hmade, hended⟩ := h.ended
  cases hended with
  | library stop =>
    cases stop with
    | unloaded hread handed => exact ⟨middle.files, _, hread⟩
    | refused hread ended => exact absurd hkind ended.kind_ne
  | contract ended => exact absurd hkind ended.kind_ne

/-- A deployment that succeeds has created every library, and the contract with the last attempt. -/
theorem completed {deployed : Deployed} {after : World γ φ}
    (h : DeploymentCourse host deployer artifact args world created left last (.ok deployed)
      after) :
    left = [] ∧
      (∀ attempt ∈ attempts created last,
        ∃ receipt, host.node.Included world.chain after.chain attempt receipt) ∧
      ∃ attempt code encoded, last = some attempt ∧
        artifact.linkedCode (linkTable created) = .ok code ∧
        artifact.interface.encodeConstructor args = .ok encoded ∧
        attempt.transaction = ⟨deployer.sender.address, none, code ++ encoded⟩ ∧
        deployed.CreatedBy host.node world.chain after.chain attempt ∧
        deployed.creationCodeHash = keccak256 code ∧ deployed.libraries = linkTable created := by
  obtain ⟨middle, hmade, hended⟩ := h.ended
  cases hended with
  | contract ended =>
    cases ended with
    | @created code encoded attempt _ _ hcode hencoded transaction handed createdBy linked hash =>
      refine ⟨rfl, ?_, attempt, code, encoded, rfl, hcode, hencoded, transaction,
        createdBy.widen hmade.reaches .refl, hash, linked⟩
      intro found hfound
      rcases List.mem_append.1 hfound with hfound | hfound
      · obtain ⟨creation, hcreation, rfl⟩ := List.mem_map.1 hfound
        obtain ⟨start, stop, hcreated, -, hstart, hstop⟩ := hmade.of_mem hcreation
        have hreached := hstop.trans createdBy.reaches
        exact (hcreated.createdBy.widen hstart hreached).included
      · obtain rfl := List.mem_singleton.1 hfound
        exact (createdBy.widen hmade.reaches .refl).included

end DeploymentCourse

/-! ## How much a deployment attempts -/

/-- How often a deployment with libraries hands something to the node at most. -/
def Deployer.attemptLimit (deployer : Deployer φ) (files : φ) (name : String) : Nat :=
  match deployer.source.read files name with
  | .ok artifact => artifact.libraryNames.length + 1
  | .error _ => 0

/-- What a deployment hands to the node are creations, not more than a number of them, and if it
fails for want of an artifact then its source says so. -/
structure Deployer.Attempts (deployer : Deployer φ) (limit : Nat) (before after : World γ φ)
    (outcome : Except DeployError Deployed) : Prop where
  creations : ∃ attempts, after.submissions = before.submissions ++ attempts ∧
    attempts.length ≤ limit ∧
    ∀ attempt ∈ attempts, attempt.CreatesFrom deployer.sender.address
  loaded : ∀ error, outcome = .error error → error.kind = .artifactNotFound →
    ∃ files name, deployer.source.read files name = .error error

namespace Deployer

variable {host : Host γ φ} {deployer : Deployer φ}

theorem Attempts.none {limit : Nat} {world : World γ φ} {error : DeployError}
    (hloaded : error.kind = .artifactNotFound →
      ∃ files name, deployer.source.read files name = .error error) :
    deployer.Attempts limit world world (.error error) := by
  refine ⟨⟨[], by simp, Nat.zero_le _, by simp⟩, ?_⟩
  intro found hfound hkind
  cases hfound
  exact hloaded hkind

theorem kind_of_disconnected {sender : Sender} {error : DeployError}
    (h : sender.requireConnection = .error error) : error.kind = .notConnected := by
  unfold Sender.requireConnection at h
  split at h
  · cases h
  · cases h
    rfl

theorem Attempts.of_disconnected {limit : Nat} {world : World γ φ} {error : DeployError}
    (h : deployer.sender.requireConnection = .error error) :
    deployer.Attempts limit world world (.error error) := by
  refine .none fun hkind => ?_
  rw [kind_of_disconnected h] at hkind
  cases hkind

/-- A deployment with libraries attempts a creation for each of them and one more at most. -/
theorem deploy_linked_attempts (name : String) (args : List String) (world : World γ φ) :
    deployer.Attempts (deployer.attemptLimit world.files name) world
      (deployer.deploy host name args true world).2
      (deployer.deploy host name args true world).1 := by
  generalize hrun : deployer.deploy host name args true world = result
  obtain ⟨outcome, after⟩ := result
  cases deployEnd_of_run hrun with
  | disconnected hconnected => exact .of_disconnected hconnected
  | unread hread => exact .none fun _ => ⟨world.files, name, hread⟩
  | @linked artifact created left last _ _ hconnected hread course =>
    obtain ⟨hhanded, hcreations⟩ := course.submissions
    have hlimit : deployer.attemptLimit world.files name = artifact.libraryNames.length + 1 := by
      rw [attemptLimit, hread]
    rw [hlimit]
    refine ⟨⟨_, hhanded, course.length_attempts_le, hcreations⟩, ?_⟩
    intro error herror hkind
    cases herror
    exact course.artifactNotFound hkind

/-- A deployment without libraries attempts one creation at most. -/
theorem deploy_unlinked_attempts (name : String) (args : List String) (world : World γ φ) :
    deployer.Attempts 1 world (deployer.deploy host name args false world).2
      (deployer.deploy host name args false world).1 := by
  generalize hrun : deployer.deploy host name args false world = result
  obtain ⟨outcome, after⟩ := result
  cases deployEnd_of_run hrun with
  | disconnected hconnected => exact .of_disconnected hconnected
  | unread hread => exact .none fun _ => ⟨world.files, name, hread⟩
  | @unlinked artifact last _ _ hconnected hread ended =>
    obtain ⟨hhanded, hcreations⟩ := ended.submissions
    refine ⟨⟨last.toList, hhanded, ?_, fun attempt hattempt =>
      hcreations attempt (Option.mem_toList.1 hattempt)⟩, ?_⟩
    · cases last <;> simp
    · intro error herror hkind
      cases herror
      exact absurd hkind ended.kind_ne

end Deployer

/-! ## What a deployment attempts -/

/-- What a deployment of an artifact with its libraries attempts: the creation of each library that
the artifact refers to, with nothing linked, and then that of the contract, linked with those. -/
structure AttemptsCreations (host : Host γ φ) (deployer : Deployer φ) (artifact : Artifact)
    (args : List String) (world : World γ φ) (created : List LibraryCreation) (left : List String)
    (last : Option Submission) (outcome : Except DeployError Deployed) (after : World γ φ) :
    Prop where
  /-- Each library comes once. -/
  distinct : artifact.libraryNames.Nodup
  named : ∀ library, library ∈ artifact.libraryNames ↔
    ∃ offsets, (library, offsets) ∈ artifact.references
  course : DeploymentCourse host deployer artifact args world created left last outcome after
  handed : after.submissions = world.submissions ++ DeploymentCourse.attempts created last
  creations : ∀ attempt ∈ DeploymentCourse.attempts created last,
    attempt.CreatesFrom deployer.sender.address
  bounded : (DeploymentCourse.attempts created last).length ≤ artifact.libraryNames.length + 1
  /-- A library that cannot be created stops the deployment, unless something did before. -/
  blocked : ∀ before library rest error, artifact.libraryNames = before ++ library :: rest →
    (∀ files, deployer.journal.Grown host.disk world.files files →
      deployer.source.Unusable files library error) →
    (DeploymentCourse.attempts created last).length ≤ before.length ∧
      (∃ found, outcome = .error found) ∧
      (created.length = before.length → last = none ∧ outcome = .error error)
  /-- If all goes well the contract is the one that the last attempt created. -/
  completed : ∀ deployed, outcome = .ok deployed →
    left = [] ∧
      (∀ attempt ∈ DeploymentCourse.attempts created last,
        ∃ receipt, host.node.Included world.chain after.chain attempt receipt) ∧
      ∃ attempt code encoded, last = some attempt ∧
        artifact.linkedCode (linkTable created) = .ok code ∧
        artifact.interface.encodeConstructor args = .ok encoded ∧
        attempt.transaction = ⟨deployer.sender.address, none, code ++ encoded⟩ ∧
        deployed.CreatedBy host.node world.chain after.chain attempt ∧
        deployed.creationCodeHash = keccak256 code ∧ deployed.libraries = linkTable created

theorem Artifact.mem_firstOccurrences (name : String) (names : List String) :
    name ∈ firstOccurrences names ↔ name ∈ names := by
  induction names with
  | nil => rfl
  | cons first rest ih =>
    rw [firstOccurrences, List.mem_cons, List.mem_cons, List.mem_filter, ih]
    by_cases hname : name = first <;> simp [hname]

theorem Artifact.mem_libraryNames (artifact : Artifact) (name : String) :
    name ∈ artifact.libraryNames ↔ ∃ offsets, (name, offsets) ∈ artifact.references := by
  rw [libraryNames, mem_firstOccurrences, List.mem_map]
  constructor
  · rintro ⟨⟨_, offsets⟩, hmem, rfl⟩
    exact ⟨offsets, hmem⟩
  · rintro ⟨offsets, hmem⟩
    exact ⟨(name, offsets), hmem, rfl⟩

/-- A deployment with libraries attempts nothing, because the account is not connected or there is
no artifact, or it attempts creations: of each library in turn and then of the contract. -/
theorem deploy_attempts_creations (host : Host γ φ) (deployer : Deployer φ) (name : String)
    (args : List String) (world : World γ φ) :
    (∃ error, deployer.deploy host name args true world = (.error error, world) ∧
      (deployer.sender.requireConnection = .error error ∨
        deployer.sender.requireConnection = .ok () ∧
          deployer.source.read world.files name = .error error)) ∨
    deployer.sender.requireConnection = .ok () ∧
      ∃ artifact created left last outcome after,
        deployer.source.read world.files name = .ok artifact ∧
        deployer.deploy host name args true world = (outcome, after) ∧
        AttemptsCreations host deployer artifact args world created left last outcome after := by
  cases hconnected : deployer.sender.requireConnection with
  | error error =>
    exact .inl ⟨error, Deployer.deploy_of_disconnected hconnected name args true world, .inl rfl⟩
  | ok _ =>
    cases hread : deployer.source.read world.files name with
    | error error =>
      exact .inl ⟨error, Deployer.deploy_of_unread hconnected hread args true, .inr ⟨rfl, rfl⟩⟩
    | ok artifact =>
      obtain ⟨created, left, last, outcome, after, hrun, hcourse⟩ :=
        Deployer.deploy_course host hconnected hread args
      obtain ⟨hhanded, hcreations⟩ := hcourse.submissions
      refine .inr ⟨rfl, artifact, created, left, last, outcome, after, rfl, hrun, ?_⟩
      exact {
        distinct := artifact.nodup_libraryNames
        named := artifact.mem_libraryNames
        course := hcourse
        handed := hhanded
        creations := hcreations
        bounded := hcourse.length_attempts_le
        blocked := fun before library rest error hnames => hcourse.blocked hnames
        completed := by
          intro deployed houtcome
          subst houtcome
          exact hcourse.completed }

end ContractDeploy
