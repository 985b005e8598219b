import ContractDeploy.Chain.Rehearsal
import ContractDeploy.Proofs.BookHistory
import ContractDeploy.Proofs.SavingAgreement
import ContractDeploy.Proofs.TreeJournals
import Mathlib.Data.List.Basic

/-!
# Sinks that fail

The file of the address book and the daily files of the journal are written to and never read once
the book is open. So which of these writes fail makes no difference to a run, as long as artifacts
do not stand in those files: on any two disks, the same steps on the same book give the same
answers, hand the same transactions to the node, and leave the same chain and the same book in
memory. What the disk makes of the documents that it is handed shows in the file alone. The file
holds the last of them if the disk took it, and the last that was taken if the disk leaves alone
what it refuses to write; a full disk does not.
-/

namespace ContractDeploy

variable {γ φ α β : Type}

/-! ## Sessions -/

/-- Something that is done with an opened address book. -/
inductive SessionStep (φ : Type) where
  /-- Deploys a contract and records it. -/
  | deploy (deployer : Deployer φ) (name : String) (args : List String)
  /-- Deploys a contract behind a proxy and records both. -/
  | upgrade (deployer : Deployer φ) (upgrade : Upgrade)
  /-- Loads a recorded contract, which keeps a journal, and sends it a call. -/
  | callRecorded (source : ArtifactSource φ) (sender : Sender) (directory : Option String)
      (name function : String) (args : List String)
  /-- Sends a call through a handle. -/
  | call (contract : Contract) (function : String) (args : List String)
  /-- Sets an entry. -/
  | set (name : String) (record : Record)
  /-- Gets an entry. -/
  | get (name : String)
  /-- Lists the entries. -/
  | list

/-- What comes back, be it a value or an error. -/
inductive SessionAnswer where
  | deployed (outcome : Except DeployError Deployed)
  | upgraded (outcome : Except DeployError ProxyDeployment)
  | called (outcome : Except DeployError Receipt)
  | done
  | record (record : Record)
  | names (names : List String)

namespace Recording

/-- A step with whatever it came to as its value. -/
def attempt (recording : Recording γ φ α) : Recording γ φ (Except DeployError α) := fun book => do
  let (outcome, settled) ← recording.run book
  return (.ok outcome, settled)

/-- Sets an entry of the book, without telling so. -/
def setEntry (host : Host γ φ) (name : String) (record : Record) : Recording γ φ Unit :=
  fun book => do return (.ok (), ← book.set host name record)

end Recording

namespace SessionStep

/-- Takes a step. -/
def perform (host : Host γ φ) : SessionStep φ → Recording γ φ SessionAnswer
  | .deploy deployer name args =>
    return .deployed (← (deployer.deployAndSave host name args).attempt)
  | .upgrade deployer asked =>
    return .upgraded (← (deployer.deployBehindProxyAndSave host asked).attempt)
  | .callRecorded source sender directory name function args => do
    let book ← MonadState.get
    let called : Recording γ φ Receipt :=
      .ofRun (Contract.loadAndCall host source book sender directory name function args)
    return .called (← called.attempt)
  | .call contract function args => do
    let called : Recording γ φ Receipt := .ofRun (contract.sendCall host function args)
    return .called (← called.attempt)
  | .set name record => do
    Recording.setEntry host name record
    return .done
  | .get name => return .record ((← MonadState.get).get name)
  | .list => return .names (← MonadState.get).list

/-- Takes several steps, one after the other, whatever comes of each. -/
def performAll (host : Host γ φ) : List (SessionStep φ) → Recording γ φ (List SessionAnswer)
  | [] => return []
  | step :: steps => do
    let answer ← step.perform host
    let answers ← performAll host steps
    return answer :: answers

/-- A step never fails as a whole: an error is an answer. -/
theorem perform_ok (host : Host γ φ) (step : SessionStep φ) (book : Book) (world : World γ φ) :
    ∃ answer, (step.perform host book world).1.1 = .ok answer := by
  cases step <;> exact ⟨_, rfl⟩

/-- Where a step gets artifacts from, if it needs any. -/
def source? : SessionStep φ → Option (ArtifactSource φ)
  | .deploy deployer _ _ => some deployer.source
  | .upgrade deployer _ => some deployer.source
  | .callRecorded source _ _ _ _ _ => some source
  | .call _ _ _ | .set _ _ | .get _ | .list => none

/-- The journal that a step keeps. -/
def journal : SessionStep φ → Journal
  | .deploy deployer _ _ => deployer.journal
  | .upgrade deployer _ => deployer.journal
  | .callRecorded _ _ directory _ _ _ => ⟨directory⟩
  | .call contract _ _ => contract.journal.getD ⟨none⟩
  | .set _ _ | .get _ | .list => ⟨none⟩

/-- A handle that is called keeps the journal of the step, or none. -/
theorem keepsOnly_call (contract : Contract) (function : String) (args : List String) :
    contract.endpoint.KeepsOnly
      (SessionStep.call contract function args : SessionStep φ).journal := by
  intro kept hkept
  have hcontract : contract.journal = some kept := hkept
  rw [journal, hcontract, Option.getD_some]

end SessionStep

/-! ## What a session does to the file -/

section History

variable {host : Host γ φ} {names : String → Prop}

theorem Recording.attempt_apply (recording : Recording γ φ α) (book : Book) (world : World γ φ) :
    recording.attempt book world =
      ((.ok (recording book world).1.1, (recording book world).1.2), (recording book world).2) :=
  rfl

theorem Recording.within_attempt {R : Book × World γ φ → Book × World γ φ → Prop}
    {recording : Recording γ φ α} (h : recording.Within R) : recording.attempt.Within R :=
  h

theorem Recording.related_attempt {file : String} {R : World γ φ → World γ φ → Prop}
    {recording other : Recording γ φ α} (h : Recording.Related file R recording other) :
    Recording.Related file R recording.attempt other.attempt := by
  intro book world middle hfile hrelated
  obtain ⟨hresult, hkept, hafter⟩ := h book world middle hfile hrelated
  rw [attempt_apply, attempt_apply, hresult]
  rw [hresult] at hkept
  exact ⟨rfl, hkept, hafter⟩

theorem RelatedSteps.sendCall {other : Host γ φ} {journal : Journal}
    {R : World γ φ → World γ φ → Prop} (h : RelatedSteps host other journal R)
    {contract : Contract} (hjournal : contract.endpoint.KeepsOnly journal) (function : String)
    (args : List String) :
    Run.Related R (contract.sendCall host function args) (contract.sendCall other function args) :=
  Run.related_bind (Run.related_ofExcept _) fun call => h.send contract.endpoint hjournal call

/-- Recording a deployment sets its entry and tells so. -/
theorem Recording.save_eq (host : Host γ φ) (name : String) (record : Record) :
    Recording.save host name record = (do
      Recording.setEntry host name record
      Recording.ofRun (Run.tell .saved)) :=
  rfl

theorem Recording.setEntry_world (host : Host γ φ) (name : String) (record : Record) (book : Book)
    (world : World γ φ) :
    ∃ notices, Recording.setEntry host name record book world =
      ((.ok (), book.insert name record), { world with
        files := (host.disk.write book.file (book.insert name record).document.print world.files).2
        notices := world.notices ++ notices }) := by
  obtain ⟨notices, hset⟩ := Book.set_world host book name world record
  refine ⟨notices, ?_⟩
  simp only [Recording.setEntry, bind, StateT.bind, hset]
  rfl

theorem Recording.setEntry_bookRecorded (host : Host γ φ) (journal : Journal) {name : String}
    (hname : names name) (record : Record) :
    (Recording.setEntry host name record).Within (BookRecorded host journal names) := by
  intro book world
  obtain ⟨notices, hset⟩ := Recording.setEntry_world host name record book world
  rw [hset]
  exact ⟨_, .next hname (.none _), BookSaves.single host.disk journal book.file
    (book.insert name record).document world.files⟩

theorem Contract.sendCall_grown {contract : Contract} {journal : Journal}
    (hjournal : contract.endpoint.KeepsOnly journal) (function : String) (args : List String) :
    (contract.sendCall host function args).Within fun before after =>
      journal.Grown host.disk before.files after.files := by
  have hsteps := deploymentSteps_grown host journal
  refine Run.within_bind hsteps.toCumulative (Run.within_ofExcept hsteps.toCumulative _)
    fun call => ?_
  exact Endpoint.send_within_kept hsteps hjournal call

theorem Contract.loadAndCall_grown (source : ArtifactSource φ) (book : Book) (sender : Sender)
    (directory : Option String) (name function : String) (args : List String) :
    (Contract.loadAndCall host source book sender directory name function args).Within
      fun before after => (⟨directory⟩ : Journal).Grown host.disk before.files after.files := by
  have hsteps := deploymentSteps_grown host ⟨directory⟩
  intro world
  refine Run.within_bind_at hsteps.toCumulative
    (Contract.load_within hsteps.toCumulative hsteps.told source book name sender directory world)
    fun contract loaded hload => ?_
  obtain ⟨artifact, -, rfl, rfl⟩ := Contract.load_eq_ok hload
  exact Contract.sendCall_grown (Endpoint.keepsOnly_of_eq rfl) function args loaded

/-- A step adds to its journal, and hands the documents that the book goes through to the disk. -/
theorem SessionStep.perform_bookRecorded (host : Host γ φ) (step : SessionStep φ) :
    (step.perform host).Within (BookRecorded host step.journal fun _ => True) := by
  have hR := cumulative_bookRecorded host step.journal fun _ => True
  cases step with
  | deploy deployer name args =>
    have hsteps := recordingSteps_bookRecorded host deployer fun _ => True
    refine Recording.within_bind hR (Recording.within_attempt ?_) fun _ =>
      Recording.within_pure hR _
    exact hsteps.deployAndSave trivial args
  | upgrade deployer asked =>
    have hsteps := recordingSteps_bookRecorded host deployer fun _ => True
    refine Recording.within_bind hR (Recording.within_attempt ?_) fun _ =>
      Recording.within_pure hR _
    exact hsteps.deployBehindProxyAndSave trivial fun _ => trivial
  | callRecorded source sender directory name function args =>
    refine Recording.within_bind hR (Recording.within_get hR) fun book => ?_
    refine Recording.within_bind hR (Recording.within_attempt ?_) fun _ =>
      Recording.within_pure hR _
    exact Recording.within_ofRun fun _ world => .of_grown
      (Contract.loadAndCall_grown source book sender directory name function args world)
  | call contract function args =>
    refine Recording.within_bind hR (Recording.within_attempt ?_) fun _ =>
      Recording.within_pure hR _
    exact Recording.within_ofRun fun _ world => .of_grown
      (Contract.sendCall_grown (SessionStep.keepsOnly_call contract function args) function args
        world)
  | set name record =>
    refine Recording.within_bind hR ?_ fun _ => Recording.within_pure hR _
    exact Recording.setEntry_bookRecorded host ⟨none⟩ trivial record
  | get name =>
    exact Recording.within_bind hR (Recording.within_get hR) fun _ => Recording.within_pure hR _
  | list =>
    exact Recording.within_bind hR (Recording.within_get hR) fun _ => Recording.within_pure hR _

end History

/-- The history of a file over a session: what each step handed to the disk for it, and added to its
journal. -/
inductive SessionSaves (disk : Disk φ) (file : String) :
    List (SessionStep φ) → List BookSave → φ → φ → Prop
  | done (files : φ) : SessionSaves disk file [] [] files files
  | step {step : SessionStep φ} {steps : List (SessionStep φ)} {saves more : List BookSave}
      {before middle after : φ} (taken : BookSaves disk step.journal file saves before middle)
      (rest : SessionSaves disk file steps more middle after) :
      SessionSaves disk file (step :: steps) (saves ++ more) before after

section SessionSaves

variable {disk : Disk φ} {file : String} {steps : List (SessionStep φ)} {saves : List BookSave}
  {before after : φ}

/-- A session that hands over no document leaves the file as it was. -/
theorem SessionSaves.read_of_nil (h : SessionSaves disk file steps [] before after)
    (hapart : ∀ step ∈ steps, step.journal.Apart disk file) :
    disk.read after file = disk.read before file := by
  generalize hsaves : ([] : List BookSave) = saves at h
  induction h with
  | done files => rfl
  | @step step steps first more before middle after taken rest ih =>
    obtain ⟨rfl, rfl⟩ := List.append_eq_nil_iff.1 hsaves.symm
    have hrest := ih (fun later hlater => hapart later (List.mem_cons_of_mem step hlater)) rfl
    exact hrest.trans (Journal.Grown.read_eq taken (hapart step List.mem_cons_self))

/-- If the last document of a session was taken, the file holds it. -/
theorem SessionSaves.read_taken {document : BookDocument}
    (h : SessionSaves disk file steps (saves ++ [(document, .ok ())]) before after)
    (hback : disk.GivesBack file) (hapart : ∀ step ∈ steps, step.journal.Apart disk file) :
    disk.read after file = .ok document.print := by
  generalize hsaves : saves ++ [(document, .ok ())] = handed at h
  induction h generalizing saves with
  | done files => simp at hsaves
  | @step step steps first more before middle after taken rest ih =>
    have hlater : ∀ later ∈ steps, later.journal.Apart disk file :=
      fun later hmem => hapart later (List.mem_cons_of_mem step hmem)
    -- The last document is the last of the later steps, or of this one if they have none.
    rcases List.eq_nil_or_concat' more with rfl | ⟨earlier, last, rfl⟩
    · rw [List.append_nil] at hsaves
      subst hsaves
      exact (rest.read_of_nil hlater).trans
        (taken.read_taken hback (hapart step List.mem_cons_self))
    · rw [← List.append_assoc] at hsaves
      obtain ⟨-, hlast⟩ := List.append_inj' hsaves rfl
      exact ih hlater (by rw [hlast])

/-- Where refused writes change nothing, the file holds the last document that was taken. -/
theorem SessionSaves.read_eq (h : SessionSaves disk file steps saves before after)
    (hback : disk.GivesBack file) (hleaves : disk.LeavesRefused file)
    (hapart : ∀ step ∈ steps, step.journal.Apart disk file) :
    disk.read after file = heldAfter (disk.read before file) saves := by
  induction h with
  | done files => rfl
  | @step step steps saves more before middle after taken rest ih =>
    have hfirst := taken.read_eq hback hleaves (hapart step List.mem_cons_self)
    have hrest := ih fun later hlater => hapart later (List.mem_cons_of_mem step hlater)
    rw [hrest, hfirst, heldAfter_append]

end SessionSaves

/-- What a session did to the book and to its file: the book went through documents, each of which
was handed to the disk, and nothing else was handed to it for the file. -/
structure SessionRecorded (disk : Disk φ) (steps : List (SessionStep φ)) (book settled : Book)
    (saves : List BookSave) (before after : φ) : Prop where
  memory : book.Sets (fun _ => True) (saves.map Prod.fst) settled
  handed : SessionSaves disk book.file steps saves before after

/-- What the file holds after documents were handed to the disk for it, if the journals are kept
elsewhere. -/
structure SessionLeaves (disk : Disk φ) (steps : List (SessionStep φ)) (file : String)
    (saves : List BookSave) (before after : φ) : Prop where
  /-- Without any, it is what it was. -/
  untouched : (∀ step ∈ steps, step.journal.Apart disk file) → saves = [] →
    disk.read after file = disk.read before file
  /-- If the last of them was taken, the file holds it, whatever became of the others. -/
  taken : (∀ step ∈ steps, step.journal.Apart disk file) → disk.GivesBack file →
    ∀ earlier document, saves = earlier ++ [(document, .ok ())] →
      disk.read after file = .ok document.print
  /-- Where refused writes change nothing, the file holds the last of them that was taken, or what
  it held before. -/
  held : (∀ step ∈ steps, step.journal.Apart disk file) → disk.GivesBack file →
    disk.LeavesRefused file → disk.read after file = heldAfter (disk.read before file) saves

/-- What the file holds follows from what was handed over. -/
theorem SessionSaves.leaves {disk : Disk φ} {steps : List (SessionStep φ)} {file : String}
    {saves : List BookSave} {before after : φ}
    (h : SessionSaves disk file steps saves before after) :
    SessionLeaves disk steps file saves before after where
  untouched hapart hnone := by
    rw [hnone] at h
    exact h.read_of_nil hapart
  taken hapart hback earlier document hlast := by
    rw [hlast] at h
    exact h.read_taken hback hapart
  held hapart hback hleaves := h.read_eq hback hleaves hapart

/-- A session never fails as a whole, and leaves a history of the file. -/
theorem SessionStep.performAll_recorded (host : Host γ φ) (steps : List (SessionStep φ))
    (book : Book) (world : World γ φ) :
    ∃ answers settled after saves,
      performAll host steps book world = ((.ok answers, settled), after) ∧
        SessionRecorded host.disk steps book settled saves world.files after.files := by
  induction steps generalizing book world with
  | nil => exact ⟨[], book, world, [], rfl, .none book, .done world.files⟩
  | cons step steps ih =>
    obtain ⟨answer, hanswer⟩ := step.perform_ok host book world
    obtain ⟨saves, hsets, hsaves⟩ := step.perform_bookRecorded host book world
    cases hstep : step.perform host book world with
    | mk result middle =>
      obtain ⟨outcome, between⟩ := result
      rw [hstep] at hanswer hsets hsaves
      obtain rfl : outcome = .ok answer := hanswer
      obtain ⟨answers, settled, after, more, hrest, hmore, hlast⟩ := ih between middle
      rw [hsets.file_eq] at hlast
      refine ⟨answer :: answers, settled, after, saves ++ more, ?_, ?_, .step hsaves hlast⟩
      · rw [performAll, Recording.bind_of_ok hstep, Recording.bind_of_ok hrest]
        rfl
      · rw [List.map_append]
        exact hsets.append hmore

/-! ## Two disks -/

/-- The artifacts of a session do not stand in the files that it writes: neither in the file of the
address book nor in those of its journals. -/
structure ArtifactsApart (disk : Disk φ) (file : String) (steps : List (SessionStep φ)) :
    Prop where
  written : ∀ step ∈ steps, ∀ source, step.source? = some source → ∀ name,
    source.Ignores disk file name
  added : ∀ step ∈ steps, ∀ source, step.source? = some source →
    ∀ later ∈ steps, ∀ directory, later.journal.directory = some directory →
      ∀ now name text files,
        source.read (disk.append (Journal.path directory now) text files).2 name =
          source.read files name

/-- Two worlds have the same chain and the same submissions, and their files the same artifacts of a
session. -/
structure Matched (steps : List (SessionStep φ)) (world other : World γ φ) : Prop
    extends world.Alike other where
  artifacts : ∀ step ∈ steps, ∀ source, step.source? = some source → ∀ name,
    source.read world.files name = source.read other.files name

theorem Matched.refl (steps : List (SessionStep φ)) (world : World γ φ) :
    Matched steps world world where
  toAlike := .refl world
  artifacts _ _ _ _ _ := rfl

theorem Matched.symm {steps : List (SessionStep φ)} {world other : World γ φ}
    (h : Matched steps world other) : Matched steps other world where
  toAlike := h.toAlike.symm
  artifacts step hstep source hsource name := (h.artifacts step hstep source hsource name).symm

section Matched

variable {host other : Host γ φ} {file : String} {steps : List (SessionStep φ)}
  {step : SessionStep φ}

/-- Worlds remain matched if one of them changes in what only matters to its own host. -/
theorem journalSteps_matched (h : ArtifactsApart host.disk file steps) (hstep : step ∈ steps) :
    JournalSteps host step.journal (UnseenLeft (Matched steps : World γ φ → World γ φ → Prop)) where
  toCumulative := cumulative_unseenLeft _
  told _ _ _ hmatched := ⟨⟨hmatched.chain, hmatched.submissions⟩, hmatched.artifacts⟩
  clockRead _ _ hmatched := ⟨⟨hmatched.chain, hmatched.submissions⟩, hmatched.artifacts⟩
  journalKept directory now text world hdirectory other hmatched := by
    refine ⟨⟨hmatched.chain, hmatched.submissions⟩, fun found hfound source hsource name => ?_⟩
    rw [← hmatched.artifacts found hfound source hsource name]
    exact h.added found hfound source hsource step hstep directory hdirectory now name text _

theorem unseenRight_of_left {before after : World γ φ}
    (h : UnseenLeft (Matched steps) before after) : UnseenRight (Matched steps) before after :=
  fun world hmatched => (h world hmatched.symm).symm

/-- Setting an entry on either host leaves matched worlds matched. -/
theorem unseenLeft_written (h : ArtifactsApart host.disk file steps) (text : String)
    (notices : List Notice) (world : World γ φ) :
    UnseenLeft (Matched steps) world { world with
      files := (host.disk.write file text world.files).2
      notices := world.notices ++ notices } := by
  intro other hmatched
  refine ⟨⟨hmatched.chain, hmatched.submissions⟩, fun found hfound source hsource name => ?_⟩
  rw [← hmatched.artifacts found hfound source hsource name]
  exact h.written found hfound source hsource name text world.files

theorem Recording.setEntry_matched (hfirst : ArtifactsApart host.disk file steps)
    (hsecond : ArtifactsApart other.disk file steps) (name : String) (record : Record) :
    Recording.Related file (Matched steps : World γ φ → World γ φ → Prop)
      (Recording.setEntry host name record) (Recording.setEntry other name record) := by
  intro book world middle hfile hmatched
  subst hfile
  obtain ⟨notices, hset⟩ := Recording.setEntry_world host name record book world
  obtain ⟨others, hother⟩ := Recording.setEntry_world other name record book middle
  rw [hset, hother]
  refine ⟨rfl, rfl, ?_⟩
  have hleft := unseenLeft_written hfirst (book.insert name record).document.print notices world
  have hright := unseenLeft_written hsecond (book.insert name record).document.print others middle
  exact unseenRight_of_left hright _ (hleft _ hmatched)

/-- Matched worlds have the same artifacts. -/
theorem load_matched {source : ArtifactSource φ} (hstep : step ∈ steps)
    (hsource : step.source? = some source) (name : String) :
    Run.Related (Matched steps) (source.load name : Run γ φ Artifact) (source.load name) := by
  intro world middle hmatched
  rw [ArtifactSource.reads_load, ArtifactSource.reads_load]
  exact ⟨hmatched.artifacts step hstep source hsource name, hmatched⟩

variable (hnode : other.node = host.node) (hfirst : ArtifactsApart host.disk file steps)
  (hsecond : ArtifactsApart other.disk file steps)

include hnode hfirst hsecond

theorem relatedSteps_matched (hstep : step ∈ steps) :
    RelatedSteps host other step.journal (Matched steps : World γ φ → World γ φ → Prop) := by
  have halike := relatedSteps_alike hnode step.journal
  have hright := journalSteps_matched (γ := γ) hsecond hstep
  refine ⟨journalSteps_matched hfirst hstep, ?_, ?_, ?_, ?_⟩
  · exact {
      toCumulative := cumulative_unseenRight _
      told := fun notices world => unseenRight_of_left (hright.told notices world)
      clockRead := fun world => unseenRight_of_left (hright.clockRead world)
      journalKept := fun directory now text world hdirectory =>
        unseenRight_of_left (hright.journalKept directory now text world hdirectory) }
  · intro transaction world middle hmatched
    obtain ⟨houtcome, hafter⟩ := halike.submitted transaction world middle hmatched.toAlike
    exact ⟨houtcome, hafter, hmatched.artifacts⟩
  · intro hash world middle hmatched
    obtain ⟨houtcome, hafter⟩ := halike.awaited hash world middle hmatched.toAlike
    exact ⟨houtcome, hafter, hmatched.artifacts⟩
  · intro address world middle hmatched
    obtain ⟨houtcome, hafter⟩ := halike.codeRead address world middle hmatched.toAlike
    exact ⟨houtcome, hafter, hmatched.artifacts⟩

theorem relatedRecording_matched (hstep : step ∈ steps) :
    RelatedRecording host other step.journal file
      (Matched steps : World γ φ → World γ φ → Prop) := by
  have hsteps := relatedSteps_matched (γ := γ) hnode hfirst hsecond hstep
  refine ⟨hsteps, fun name record => ?_⟩
  rw [Recording.save_eq, Recording.save_eq]
  refine Recording.related_bind ?_ fun _ => Recording.related_ofRun (hsteps.tellAll _)
  exact Recording.setEntry_matched hfirst hsecond name record

/-- A recorded contract is loaded and called alike. -/
theorem Contract.loadAndCall_matched {source : ArtifactSource φ} {directory : Option String}
    (hstep : step ∈ steps) (hsource : step.source? = some source)
    (hjournal : step.journal = ⟨directory⟩) (book : Book) (sender : Sender)
    (name function : String) (args : List String) :
    Run.Related (Matched steps)
      (Contract.loadAndCall host source book sender directory name function args)
      (Contract.loadAndCall other source book sender directory name function args) := by
  have hsteps := relatedSteps_matched (γ := γ) hnode hfirst hsecond hstep
  rw [hjournal] at hsteps
  intro world middle hmatched
  have hread := hmatched.artifacts step hstep source hsource name
  cases hartifact : source.read world.files name with
  | ok artifact =>
    rw [loadAndCall, loadAndCall,
      Run.bind_of_ok (load_of_read book sender directory world hartifact),
      Run.bind_of_ok (load_of_read book sender directory middle (hread.symm.trans hartifact))]
    exact hsteps.sendCall (Endpoint.keepsOnly_of_eq rfl) function args world middle hmatched
  | error error =>
    rw [loadAndCall, loadAndCall,
      Run.bind_of_error (load_of_unread book sender directory hartifact),
      Run.bind_of_error (load_of_unread book sender directory (hread.symm.trans hartifact))]
    exact ⟨rfl, (hsteps.tellAll [.notLoaded name error] world middle hmatched).2⟩

/-- A step of a session is taken alike in matched worlds. -/
theorem SessionStep.perform_matched (hstep : step ∈ steps) :
    Recording.Related file (Matched steps) (step.perform host) (step.perform other) := by
  have hsteps := relatedSteps_matched (γ := γ) hnode hfirst hsecond hstep
  have hrecording := relatedRecording_matched (γ := γ) hnode hfirst hsecond hstep
  cases step with
  | deploy deployer name args =>
    refine Recording.related_bind (Recording.related_attempt ?_) fun _ => Recording.related_pure _
    exact RelatedRecording.deployAndSave hrecording (load_matched hstep rfl) name args
  | upgrade deployer asked =>
    refine Recording.related_bind (Recording.related_attempt ?_) fun _ => Recording.related_pure _
    exact RelatedRecording.deployBehindProxyAndSave hrecording (load_matched hstep rfl) asked
  | callRecorded source sender directory name function args =>
    refine Recording.related_bind Recording.related_get fun book => ?_
    refine Recording.related_bind (Recording.related_attempt ?_) fun _ => Recording.related_pure _
    exact Recording.related_ofRun (Contract.loadAndCall_matched hnode hfirst hsecond hstep rfl rfl
      book sender name function args)
  | call contract function args =>
    refine Recording.related_bind (Recording.related_attempt ?_) fun _ => Recording.related_pure _
    exact Recording.related_ofRun
      (hsteps.sendCall (SessionStep.keepsOnly_call contract function args) function args)
  | set name record =>
    refine Recording.related_bind ?_ fun _ => Recording.related_pure _
    exact Recording.setEntry_matched hfirst hsecond name record
  | get name => exact Recording.related_bind Recording.related_get fun _ => Recording.related_pure _
  | list => exact Recording.related_bind Recording.related_get fun _ => Recording.related_pure _

/-- So are several steps, one after the other. -/
theorem SessionStep.performAll_matched {some : List (SessionStep φ)}
    (hsome : ∀ step ∈ some, step ∈ steps) :
    Recording.Related file (Matched steps) (performAll host some) (performAll other some) := by
  induction some with
  | nil => exact Recording.related_pure []
  | cons step rest ih =>
    have hstep := hsome step List.mem_cons_self
    refine Recording.related_bind (step.perform_matched hnode hfirst hsecond hstep) fun answer => ?_
    refine Recording.related_bind (ih fun later hlater => ?_) fun answers => ?_
    · exact hsome later (List.mem_cons_of_mem step hlater)
    · exact Recording.related_pure _

end Matched

/-- Sinks that fail never influence a session. On any two disks, whichever writes to the address
book and additions to the journals fail on each of them, the same steps on the same book give the
same answers, hand over the same transactions, and leave the same chain and the same book in memory,
as long as no artifact stands in the files that are written. On each disk the file ends up with the
last document if the disk took it; on one that leaves files alone which it refuses to write, it
ends up with the last document that was taken, or with what it held before. -/
theorem failing_sinks_never_matter (host : Host γ φ) (disk : Disk φ) (clock : Nat → Instant)
    (steps : List (SessionStep φ)) (book : Book) (world : World γ φ)
    (hfirst : ArtifactsApart host.disk book.file steps)
    (hsecond : ArtifactsApart disk book.file steps) :
    ∃ answers settled after last saves others,
      SessionStep.performAll host steps book world = ((.ok answers, settled), after) ∧
      SessionStep.performAll { host with disk, clock } steps book world =
        ((.ok answers, settled), last) ∧
      after.submissions = last.submissions ∧ after.chain = last.chain ∧
      SessionRecorded host.disk steps book settled saves world.files after.files ∧
      SessionLeaves host.disk steps book.file saves world.files after.files ∧
      SessionRecorded disk steps book settled others world.files last.files ∧
      SessionLeaves disk steps book.file others world.files last.files := by
  obtain ⟨answers, settled, after, saves, hperform, hrecorded⟩ :=
    SessionStep.performAll_recorded host steps book world
  obtain ⟨otherAnswers, arrived, last, others, hother, hlast⟩ :=
    SessionStep.performAll_recorded { host with disk, clock } steps book world
  have hnode : ({ host with disk, clock } : Host γ φ).node = host.node := rfl
  have hrelated := SessionStep.performAll_matched hnode hfirst hsecond
    (fun step hstep => hstep) book world world rfl (.refl steps world)
  rw [hperform, hother] at hrelated
  obtain ⟨hresult, -, hmatched⟩ := hrelated
  cases hresult
  exact ⟨answers, settled, after, last, saves, others, hperform, hother, hmatched.submissions,
    hmatched.chain, hrecorded, hrecorded.handed.leaves, hlast, hlast.handed.leaves⟩

/-! ## Disks that fail now and then -/

/-- Which writes and which additions fail, by their number from the start, and why. -/
structure SinkFaults where
  writes : Nat → Option FileFault
  additions : Nat → Option FileFault

/-- Files with the number of writes and of additions that there were. -/
structure Counted (φ : Type) where
  files : φ
  writes : Nat := 0
  additions : Nat := 0

/-- A disk on which some writes and some additions fail, and leave the files as they are. -/
def Disk.failing (disk : Disk φ) (faults : SinkFaults) : Disk (Counted φ) where
  read counted path := disk.read counted.files path
  write path text counted :=
    match faults.writes counted.writes with
    | some fault => (.error fault, { counted with writes := counted.writes + 1 })
    | none =>
      ((disk.write path text counted.files).1, { counted with
        files := (disk.write path text counted.files).2
        writes := counted.writes + 1 })
  append path text counted :=
    match faults.additions counted.additions with
    | some fault => (.error fault, { counted with additions := counted.additions + 1 })
    | none =>
      ((disk.append path text counted.files).1, { counted with
        files := (disk.append path text counted.files).2
        additions := counted.additions + 1 })
  list counted path := disk.list counted.files path

/-- Failing now and then does not keep a disk from giving back what it took. -/
theorem Disk.GivesBack.failing {disk : Disk φ} {path : String} (h : disk.GivesBack path)
    (faults : SinkFaults) : (disk.failing faults).GivesBack path := by
  intro text before after hwrite
  simp only [Disk.failing] at hwrite
  split at hwrite
  · cases hwrite
  · obtain ⟨houtcome, rfl⟩ := Prod.mk.inj hwrite
    exact h text before.files _ (Prod.ext houtcome rfl)

theorem Disk.LeavesRefused.failing {disk : Disk φ} {path : String} (h : disk.LeavesRefused path)
    (faults : SinkFaults) : (disk.failing faults).LeavesRefused path := by
  intro text fault before after hwrite
  simp only [Disk.failing] at hwrite
  split at hwrite
  · cases hwrite
    rfl
  · obtain ⟨houtcome, rfl⟩ := Prod.mk.inj hwrite
    exact h text fault before.files _ (Prod.ext houtcome rfl)

theorem Journal.Apart.failing {disk : Disk φ} {journal : Journal} {path : String}
    (h : journal.Apart disk path) (faults : SinkFaults) :
    journal.Apart (disk.failing faults) path := by
  intro directory now text counted hdirectory
  simp only [Disk.failing]
  split
  · rfl
  · exact h directory now text counted.files hdirectory

/-- Artifacts that are held in memory stand in no file. -/
theorem ArtifactsApart.of_inMemory {disk : Disk φ} {file : String} {steps : List (SessionStep φ)}
    (h : ∀ step ∈ steps, ∀ source, step.source? = some source → ∃ texts, source = .inMemory texts) :
    ArtifactsApart disk file steps where
  written step hstep source hsource name := by
    obtain ⟨texts, rfl⟩ := h step hstep source hsource
    exact ArtifactSource.inMemory_ignores texts disk file name
  added step hstep source hsource later hlater directory hdirectory now name text files := by
    obtain ⟨texts, rfl⟩ := h step hstep source hsource
    rfl

/-- The steps of a session with one contract, whose artifact is held in memory. -/
def tokenSession : List (SessionStep (Counted FileTree)) :=
  let token := "\x7b\"contractName\":\"Token\",\"abi\":[],\"bytecode\":\"0x6080\"\x7d"
  let source := ArtifactSource.inMemory (NameMap.empty.insert "Token" token)
  let deployer : Deployer (Counted FileTree) :=
    { sender := { address := FixedBytes.ofNat 1 }, source, journalDirectory := some "tx-logs" }
  [.deploy deployer "Token" [],
    .upgrade deployer
      { name := "Token", initArgs := [], proxyName := "GraphProxy", manualAccept := true },
    .callRecorded source deployer.sender (some "tx-logs") "Token" "pause" [],
    .set "Token" Record.missing, .get "Token", .list]

theorem tokenSession_apart (disk : Disk (Counted FileTree)) (file : String) :
    ArtifactsApart disk file tokenSession := by
  refine .of_inMemory fun step hstep source hsource => ?_
  simp only [tokenSession, List.mem_cons, List.not_mem_nil, or_false] at hstep
  rcases hstep with rfl | rfl | rfl | rfl | rfl | rfl <;> cases hsource <;> exact ⟨_, rfl⟩

/-- The journals of the session are no address book, on whichever disk. -/
theorem tokenSession_journals (faults : SinkFaults) :
    ∀ step ∈ tokenSession, step.journal.Apart (FileTree.disk.failing faults) "addresses.json" := by
  have hlogs : (⟨some "tx-logs"⟩ : Journal).Apart FileTree.disk "addresses.json" := by
    refine FileTree.journal_apart ⟨?_, ?_, ?_, ?_, ?_⟩ ⟨?_, ?_, ?_, ?_, ?_⟩ <;> decide
  have hnone : (⟨none⟩ : Journal).Apart (FileTree.disk.failing faults) "addresses.json" := by
    intro directory now text files hdirectory
    cases hdirectory
  intro step hstep
  simp only [tokenSession, List.mem_cons, List.not_mem_nil, or_false] at hstep
  rcases hstep with rfl | rfl | rfl | rfl | rfl | rfl
  · exact hlogs.failing faults
  · exact hlogs.failing faults
  · exact hlogs.failing faults
  all_goals exact hnone

/-- A session on a disk that fails the first write, and on one that fails every addition. Both of
them give back what they took, and leave the file alone where they fail. -/
theorem failing_sinks_never_matter_token :
    let first := FileTree.disk.failing
      { writes := fun number => if number = 0 then some .notDirectory else none
        additions := fun _ => none }
    let second := FileTree.disk.failing
      { writes := fun _ => none, additions := fun _ => some .notFound }
    let host : Host Rehearsal (Counted FileTree) :=
      { node := Rehearsal.node, disk := first, clock := fun _ => ⟨0⟩ }
    let book : Book := { file := "addresses.json", network := "1337", document := NameMap.empty }
    let world : World Rehearsal (Counted FileTree) :=
      { chain := {}
        files := { files := .directory "tx-logs" .done (.file "addresses.json" (.text "") .done) } }
    ArtifactsApart first book.file tokenSession ∧ ArtifactsApart second book.file tokenSession ∧
      ∃ answers settled after last saves others,
        SessionStep.performAll host tokenSession book world = ((.ok answers, settled), after) ∧
        SessionStep.performAll { host with disk := second } tokenSession book world =
          ((.ok answers, settled), last) ∧
        after.submissions = last.submissions ∧ after.chain = last.chain ∧
        SessionRecorded first tokenSession book settled saves world.files after.files ∧
        first.read after.files book.file =
          heldAfter (first.read world.files book.file) saves ∧
        SessionRecorded second tokenSession book settled others world.files last.files ∧
        second.read last.files book.file =
          heldAfter (second.read world.files book.file) others := by
  intro first second host book world
  have hfirst := tokenSession_apart first book.file
  have hsecond := tokenSession_apart second book.file
  have hback (faults : SinkFaults) : (FileTree.disk.failing faults).GivesBack book.file :=
    (FileTree.givesBack book.file).failing faults
  have hleaves (faults : SinkFaults) : (FileTree.disk.failing faults).LeavesRefused book.file :=
    (FileTree.leavesRefused book.file).failing faults
  obtain ⟨answers, settled, after, last, saves, others, hrun, hother, hsubmissions, hchain,
    hrecorded, hheld, hotherRecorded, hotherHeld⟩ :=
    failing_sinks_never_matter host second host.clock tokenSession book world hfirst hsecond
  exact ⟨hfirst, hsecond, answers, settled, after, last, saves, others, hrun, hother, hsubmissions,
    hchain, hrecorded, hheld.held (tokenSession_journals _) (hback _) (hleaves _),
    hotherRecorded, hotherHeld.held (tokenSession_journals _) (hback _) (hleaves _)⟩

/-! ## A full disk -/

/-- A host of which the disk is full. -/
def fullHost : Host Rehearsal FileTree where
  node := Rehearsal.node
  disk := FileTree.disk.full
  clock _ := ⟨0⟩

/-- A book without entries, in the file of which there is no more than a pair of braces. -/
def bareBook : Book where
  file := "addresses.json"
  network := "1337"
  document := NameMap.empty

def bareWorld : World Rehearsal FileTree where
  chain := {}
  files := .file "addresses.json" (.text "\x7b\x7d") .done

theorem write_on_fullHost (text : String) :
    fullHost.disk.write bareBook.file text bareWorld.files =
      (.error .noSpace, .file "addresses.json" (.text "") .done) :=
  rfl

/-- On a full disk the file of a book is empty after an entry was set. So it is not what it was,
although no document was taken. -/
theorem session_empties_book_on_full_disk :
    let steps : List (SessionStep FileTree) := [.set "Token" Record.missing]
    ∃ answers settled after saves,
      SessionStep.performAll fullHost steps bareBook bareWorld = ((.ok answers, settled), after) ∧
      SessionRecorded fullHost.disk steps bareBook settled saves bareWorld.files after.files ∧
      (∀ save ∈ saves, save.2 ≠ .ok ()) ∧
      fullHost.disk.read bareWorld.files bareBook.file = .ok "\x7b\x7d" ∧
      fullHost.disk.read after.files bareBook.file = .ok "" := by
  intro steps
  obtain ⟨notices, hset⟩ := Recording.setEntry_world fullHost "Token" Record.missing bareBook
    bareWorld
  have hwritten := BookSaves.single fullHost.disk ⟨none⟩ bareBook.file
    (bareBook.insert "Token" Record.missing).document bareWorld.files
  rw [write_on_fullHost] at hset hwritten
  have hrun : SessionStep.performAll fullHost steps bareBook bareWorld =
      ((.ok [.done], bareBook.insert "Token" Record.missing), { bareWorld with
        files := .file "addresses.json" (.text "") .done
        notices := bareWorld.notices ++ notices }) := by
    rw [SessionStep.performAll, SessionStep.perform]
    rw [Recording.bind_of_ok (Recording.bind_of_ok hset)]
    rfl
  refine ⟨_, _, _, _, hrun, ⟨.next trivial (.none _), .step hwritten (.done _)⟩, ?_, rfl, rfl⟩
  intro save hsave
  obtain rfl := List.mem_singleton.1 hsave
  nofun

end ContractDeploy
