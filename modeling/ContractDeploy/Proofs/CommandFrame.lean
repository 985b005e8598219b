import ContractDeploy.Chain.Rehearsal
import ContractDeploy.Proofs.BookHistory
import ContractDeploy.Proofs.Commands
import ContractDeploy.Proofs.TreeJournals
import ContractDeploy.Proofs.Verification
import Mathlib.Data.List.Basic

/-!
# What a command leaves alone

A command opens the address book, and sets one entry of it if it deploys something. Every other
network and every other name passes through the documents that it hands over unchanged, however many
there are and wherever the command fails. What the file holds in the end is up to the disk where it
refuses the last of them: a full one leaves nothing. Commands that list, check or look at the chain
write nothing and hand nothing to the node, and neither does a command that does not come to open
its book.
-/

namespace ContractDeploy

variable {γ φ α β ε : Type}

/-! ## Steps within a relation -/

/-- A step of a command stays within a relation from any world, whether it gives a value or
fails. -/
def Command.Within (R : World γ φ → World γ φ → Prop) (step : ExceptT ε (Act γ φ) α) : Prop :=
  ∀ world, R world (step world).2

namespace Command

variable {R : World γ φ → World γ φ → Prop}

theorem within_bind_at (hR : Cumulative R) {step : ExceptT ε (Act γ φ) α}
    {next : α → ExceptT ε (Act γ φ) β} {world : World γ φ} (hstep : R world (step world).2)
    (hnext : ∀ value middle, step world = (.ok value, middle) → R middle (next value middle).2) :
    R world ((step >>= next) world).2 := by
  cases h : step world with
  | mk outcome middle =>
    rw [h] at hstep
    cases outcome with
    | ok value =>
      rw [bind_of_ok h]
      exact hR.trans hstep (hnext value middle h)
    | error error =>
      rw [bind_of_error h]
      exact hstep

theorem within_bind (hR : Cumulative R) {step : ExceptT ε (Act γ φ) α}
    {next : α → ExceptT ε (Act γ φ) β} (hstep : Command.Within R step)
    (hnext : ∀ value, Command.Within R (next value)) : Command.Within R (step >>= next) :=
  fun world => within_bind_at hR (hstep world) fun value middle _ => hnext value middle

theorem within_throw (hR : Cumulative R) (error : ε) :
    Command.Within R (throw error : ExceptT ε (Act γ φ) α) :=
  hR.refl

theorem within_ofAct {act : Act γ φ α} (h : act.Within R) :
    Command.Within R (liftM act : ExceptT ε (Act γ φ) α) :=
  h

theorem within_liftRun {run : Run γ φ α} (h : run.Within R) :
    Command.Within R (Context.liftRun run) := by
  intro world
  rw [liftRun_apply]
  exact h world

end Command

/-! ## Looking -/

/-- Nothing was written, and nothing was handed to the node. -/
structure World.Undisturbed (before after : World γ φ) : Prop where
  files : after.files = before.files
  submissions : after.submissions = before.submissions

theorem cumulative_undisturbed :
    Cumulative (World.Undisturbed : World γ φ → World γ φ → Prop) where
  refl _ := ⟨rfl, rfl⟩
  trans hfirst hlast :=
    ⟨hlast.files.trans hfirst.files, hlast.submissions.trans hfirst.submissions⟩

section Looking

theorem tellAll_undisturbed (notices : List Notice) :
    (Run.tellAll notices : Run γ φ Unit).Within World.Undisturbed :=
  fun _ => ⟨rfl, rfl⟩

theorem query_undisturbed (ask : γ → Except String α × γ) :
    (Host.query ask : Run γ φ α).Within World.Undisturbed :=
  fun _ => ⟨rfl, rfl⟩

theorem ofExcept_undisturbed (outcome : Except DeployError α) :
    (liftM outcome : Run γ φ α).Within World.Undisturbed :=
  Run.within_ofExcept cumulative_undisturbed outcome

theorem Book.openFile_undisturbed (host : Host γ φ) (file network : String) :
    (Book.openFile host file network).Within World.Undisturbed := by
  refine Run.within_bind cumulative_undisturbed (fun _ => ⟨rfl, rfl⟩) fun outcome => ?_
  split
  · exact Run.within_throw cumulative_undisturbed _
  · split
    · exact Run.within_throw cumulative_undisturbed _
    · refine Run.within_bind cumulative_undisturbed (tellAll_undisturbed _) fun _ => ?_
      exact Run.within_pure cumulative_undisturbed _

namespace Context

theorem make_undisturbed (host : Host γ φ) (sender : Sender) (locations : Locations) :
    (Context.make host sender locations).Within World.Undisturbed := by
  refine Run.within_bind cumulative_undisturbed (ofExcept_undisturbed _) fun _ => ?_
  refine Run.within_bind cumulative_undisturbed (query_undisturbed _) fun id => ?_
  refine Run.within_bind cumulative_undisturbed (tellAll_undisturbed _) fun _ => ?_
  refine Run.within_bind cumulative_undisturbed (Book.openFile_undisturbed host _ _) fun book => ?_
  exact Run.within_pure cumulative_undisturbed _

theorem list_undisturbed (context : Context φ) :
    (context.list : Run γ φ Unit).Within World.Undisturbed :=
  Run.within_bind cumulative_undisturbed (tellAll_undisturbed _) fun _ => tellAll_undisturbed _

theorem block_undisturbed (host : Host γ φ) (context : Context φ) :
    (context.block host).Within World.Undisturbed := by
  refine Run.within_bind cumulative_undisturbed (ofExcept_undisturbed _) fun _ => ?_
  refine Run.within_bind cumulative_undisturbed (query_undisturbed _) fun number => ?_
  exact Run.within_bind cumulative_undisturbed (query_undisturbed _) fun baseFee =>
    tellAll_undisturbed _

end Context

end Looking

/-! ## Checking -/

namespace Verifier

variable (host : Host γ φ)

theorem checkRuntime_undisturbed (record : Record) :
    (checkRuntime host record).Within World.Undisturbed := by
  refine Act.within_bind cumulative_undisturbed (query_undisturbed _) fun outcome => ?_
  cases outcome <;> exact Act.within_pure cumulative_undisturbed _

theorem check_undisturbed (verifier : Verifier φ) (name : String) (record : Record)
    (withCreation : Bool) :
    (verifier.check host name record withCreation).Within World.Undisturbed := by
  refine Act.within_bind cumulative_undisturbed (fun world => ⟨rfl, rfl⟩) fun world => ?_
  dsimp only
  split
  · exact Act.within_pure cumulative_undisturbed _
  · split
    · exact Act.within_pure cumulative_undisturbed _
    · exact checkRuntime_undisturbed host record

theorem verify_undisturbed (verifier : Verifier φ) (name : String) (record : Record)
    (withCreation : Bool) :
    (verifier.verify host name record withCreation).Within World.Undisturbed := by
  refine Act.within_bind cumulative_undisturbed (fun world => ⟨rfl, rfl⟩) fun _ => ?_
  refine Act.within_bind cumulative_undisturbed
    (check_undisturbed host verifier name record withCreation) fun outcome => ?_
  cases outcome with
  | ok _ => exact Act.within_pure cumulative_undisturbed true
  | error mismatch =>
    exact Act.within_bind cumulative_undisturbed (fun world => ⟨rfl, rfl⟩) fun _ =>
      Act.within_pure cumulative_undisturbed false

end Verifier

namespace Context

variable (host : Host γ φ) (context : Context φ)

theorem failing_undisturbed (withCreation : Bool) (names : List String) :
    (context.failing host withCreation names).Within World.Undisturbed := by
  induction names with
  | nil => exact Act.within_pure cumulative_undisturbed []
  | cons name names ih =>
    refine Act.within_bind cumulative_undisturbed
      (Verifier.verify_undisturbed host context.verifier name _ withCreation) fun sound => ?_
    refine Act.within_bind cumulative_undisturbed ih fun others => ?_
    exact Act.within_pure cumulative_undisturbed _

theorem verify_undisturbed (contract : Option String) (withCreation : Bool) :
    Command.Within World.Undisturbed (context.verify host contract withCreation) := by
  refine Command.within_bind cumulative_undisturbed
    (Command.within_liftRun (ofExcept_undisturbed _)) fun _ => ?_
  refine Command.within_bind cumulative_undisturbed
    (Command.within_ofAct (failing_undisturbed host context withCreation _)) fun failed => ?_
  split
  · exact Command.within_liftRun (tellAll_undisturbed _)
  · exact Command.within_throw cumulative_undisturbed _

end Context

/-! ## After the book is opened -/

/-- The contract whose entry a command sets, if it is one that records. -/
def Command.recorded? : Command → Option String
  | .deploy contract _ => some contract
  | .deployProxy upgrade => some upgrade.name
  | .list | .verify _ _ | .call _ _ _ | .block => none

/-- Whether a command only looks at what is there. -/
def Command.onlyLooks : Command → Bool
  | .list | .verify _ _ | .block => true
  | .deploy _ _ | .deployProxy _ | .call _ _ _ => false

/-- What a command does once its context is made. -/
def Command.steps (host : Host γ φ) (command : Command) (context : Context φ) :
    ExceptT CommandError (Act γ φ) Unit :=
  match command with
  | .list => Context.liftRun context.list
  | .deploy contract args =>
    Context.liftRun (context.recordIn (context.deploy host contract args))
  | .deployProxy upgrade => Context.liftRun (context.recordIn (context.deployProxy host upgrade))
  | .verify contract withCreation => context.verify host contract withCreation
  | .call contract function args => context.call host contract function args
  | .block => Context.liftRun (context.block host)

theorem Command.run_eq (host : Host γ φ) (command : Command) (sender : Sender)
    (locations : Locations) :
    command.run host sender locations =
      Context.liftRun (Context.make host sender locations) >>= command.steps host := by
  cases command <;> rfl

/-- A command whose context is not made fails with the reason. -/
theorem Command.run_of_unmade {host : Host γ φ} {sender : Sender} {locations : Locations}
    {world opened : World γ φ} {error : DeployError} (command : Command)
    (h : Context.make host sender locations world = (.error error, opened)) :
    command.run host sender locations world = (.error (.failed error), opened) := by
  have hmake : Context.liftRun (Context.make host sender locations) world =
      (.error (.failed error), opened) := by
    rw [Command.liftRun_apply, h]
    rfl
  rw [Command.run_eq, Command.bind_of_error hmake]

section Steps

variable (host : Host γ φ) (context : Context φ)

theorem Command.steps_undisturbed {command : Command} (h : command.onlyLooks = true) :
    Command.Within World.Undisturbed (command.steps host context) := by
  cases command with
  | list => exact within_liftRun context.list_undisturbed
  | verify contract withCreation => exact context.verify_undisturbed host contract withCreation
  | block => exact within_liftRun (context.block_undisturbed host)
  | deploy contract args => cases h
  | deployProxy upgrade => cases h
  | call contract function args => cases h

/-- A call adds to the journal and to nothing else. -/
theorem Context.call_grown (contract function : String) (args : List String) :
    Command.Within (fun before after =>
        context.deployer.journal.Grown host.disk before.files after.files)
      (context.call host contract function args) := by
  have hsteps := deploymentSteps_grown host context.deployer.journal
  have hR := hsteps.toCumulative
  have hloaded := Command.within_liftRun (Contract.load_within hR hsteps.told context.source
    context.book contract context.sender (some context.journalDirectory))
  intro world
  refine Command.within_bind_at hR (hloaded world) fun handle loaded hload => ?_
  -- The handle that was loaded keeps the journal of the context.
  obtain ⟨artifact, -, rfl, rfl⟩ := Contract.load_eq_ok (Command.liftRun_eq_ok hload)
  have hcall (handle : Contract)
      (hjournal : handle.endpoint.journal = some context.deployer.journal) (call : Call) :=
    Endpoint.send_within hsteps hjournal call
  have hsent (handle : Contract) (hjournal : handle.journal = some context.deployer.journal) :=
    Command.within_liftRun (Run.within_bind hR (Run.within_ofExcept hR (handle.call function args))
      fun call => Run.within_bind hR (hcall handle hjournal call)
        fun receipt => Run.tellAll_within hsteps.toSurroundingSteps (inclusionNotices receipt))
  dsimp only
  split
  · exact Command.within_bind hR (Command.within_throw hR _) (fun _ => hsent _ rfl) loaded
  · exact hsent _ rfl loaded

/-- Steps that record leave a history of the context's book. -/
theorem Context.recordIn_bookRecorded {names : String → Prop} {recording : Recording γ φ Unit}
    (h : recording.Within (BookRecorded host context.deployer.journal names))
    (world : World γ φ) :
    ∃ settled, BookRecorded host context.deployer.journal names (context.book, world)
      (settled, (Context.liftRun (context.recordIn recording) world).2) := by
  rw [Command.liftRun_apply, Command.recordIn_apply]
  exact ⟨_, h context.book world⟩

/-- What a command does to its book and to the files, with the one name whose entry it may set. -/
theorem Command.steps_bookRecorded (command : Command) (world : World γ φ) :
    ∃ settled, BookRecorded host context.deployer.journal
      (fun name => command.recorded? = some name) (context.book, world)
      (settled, (command.steps host context world).2) := by
  -- A command that looks writes nothing, so that its history is empty.
  have hlooks (h : command.onlyLooks = true) : ∃ settled, BookRecorded host
      context.deployer.journal (fun name => command.recorded? = some name) (context.book, world)
      (settled, (command.steps host context world).2) := by
    refine ⟨context.book, .of_grown ?_⟩
    rw [(Command.steps_undisturbed host context h world).files]
  have hsteps := recordingSteps_bookRecorded host context.deployer
    fun name => command.recorded? = some name
  have htell (notices : List Notice) :
      (Recording.ofRun (Run.tellAll notices : Run γ φ Unit)).Within (BookRecorded host
        context.deployer.journal fun name => command.recorded? = some name) :=
    Recording.within_ofRun fun book => (hsteps.sending book).tellAll notices
  cases command with
  | list => exact hlooks rfl
  | verify contract withCreation => exact hlooks rfl
  | block => exact hlooks rfl
  | call contract function args =>
    exact ⟨context.book, .of_grown (context.call_grown host contract function args world)⟩
  | deploy contract args =>
    refine context.recordIn_bookRecorded host ?_ world
    exact Recording.within_bind hsteps.toCumulative (hsteps.deployAndSave rfl args)
      fun deployed => htell _
  | deployProxy upgrade =>
    refine context.recordIn_bookRecorded host ?_ world
    exact Recording.within_bind hsteps.toCumulative
      (hsteps.deployBehindProxyAndSave rfl fun _ => trivial) fun deployment => htell _

end Steps

/-! ## The whole command -/

/-- A document that a command may hand to the disk for its book: the one that it read there, with
one entry replaced, that of the contract which the command records, on the network which the node
names. -/
def Command.Replaces (command : Command) (host : Host γ φ) (locations : Locations)
    (before : World γ φ) (document : BookDocument) : Prop :=
  ∃ contract id original record, command.recorded? = some contract ∧
    locations.Finds host before id original ∧
    document = original.replace (toString id) contract record

/-- What a command makes of the file of the address book, on a disk that gives back what it took. -/
inductive Command.LeavesBook (command : Command) (host : Host γ φ) (locations : Locations)
    (before after : World γ φ) : Prop
  /-- The file holds what it held. -/
  | same (hread : host.disk.read after.files locations.addressBook =
        host.disk.read before.files locations.addressBook)
  /-- The file holds the document that it held, with one entry replaced. -/
  | replaced {document : BookDocument}
      (hreplaces : command.Replaces host locations before document)
      (hread : host.disk.read after.files locations.addressBook = .ok document.print)
  /-- The last such document was refused, and the file holds what the refused write left of it. -/
  | refused {earlier : List BookSave} {document : BookDocument} {fault : FileFault}
      {reached saved : φ}
      (hreplaces : ∀ save ∈ earlier ++ [(document, .error fault)],
        command.Replaces host locations before save.1)
      (hearlier : BookSaves host.disk ⟨some locations.journal⟩ locations.addressBook earlier
        before.files reached)
      (hwrite : host.disk.write locations.addressBook document.print reached =
        (.error fault, saved))
      (hread : host.disk.read after.files locations.addressBook =
        host.disk.read saved locations.addressBook)

/-- What a command leaves of the address book, of the files and of the chain. -/
structure CommandFrame (host : Host γ φ) (locations : Locations) (command : Command)
    (before : World γ φ) (result : Except CommandError Unit × World γ φ) : Prop where
  /-- The disk is handed such documents alone for the file of the book, and is asked besides to add
  to the journal. -/
  handed : ∃ saves, (∀ save ∈ saves, command.Replaces host locations before save.1) ∧
    BookSaves host.disk ⟨some locations.journal⟩ locations.addressBook saves before.files
      result.2.files
  /-- With the journal elsewhere, the file is as it was, or one entry of it is replaced, or it is
  what a refused write left. -/
  book : (⟨some locations.journal⟩ : Journal).Apart host.disk locations.addressBook →
    host.disk.GivesBack locations.addressBook → command.LeavesBook host locations before result.2
  /-- Where refused writes change nothing, there are the first two ways only. -/
  undamaged : (⟨some locations.journal⟩ : Journal).Apart host.disk locations.addressBook →
    host.disk.GivesBack locations.addressBook → host.disk.LeavesRefused locations.addressBook →
    host.disk.read result.2.files locations.addressBook =
        host.disk.read before.files locations.addressBook ∨
      ∃ document, command.Replaces host locations before document ∧
        host.disk.read result.2.files locations.addressBook = .ok document.print
  /-- A command that does not record leaves the file as it is. -/
  kept : command.recorded? = none →
    (⟨some locations.journal⟩ : Journal).Apart host.disk locations.addressBook →
    host.disk.read result.2.files locations.addressBook =
      host.disk.read before.files locations.addressBook
  /-- One that only looks writes no file and hands nothing to the node. -/
  looked : command.onlyLooks = true → before.Undisturbed result.2
  /-- So does any that cannot find its network or its book, and it fails. -/
  unopened : (∀ id document, ¬ locations.Finds host before id document) →
    (∃ error, result.1 = .error error) ∧ before.Undisturbed result.2

section Handed

variable {host : Host γ φ} {locations : Locations} {command : Command} {before after : World γ φ}
  {saves : List BookSave}

/-- The last document decides what the file holds. -/
theorem Command.leavesBook_of_saves
    (hreplaces : ∀ save ∈ saves, command.Replaces host locations before save.1)
    (hsaves : BookSaves host.disk ⟨some locations.journal⟩ locations.addressBook saves before.files
      after.files)
    (hapart : (⟨some locations.journal⟩ : Journal).Apart host.disk locations.addressBook)
    (hback : host.disk.GivesBack locations.addressBook) :
    command.LeavesBook host locations before after := by
  rcases List.eq_nil_or_concat' saves with rfl | ⟨earlier, ⟨document, answer⟩, rfl⟩
  · exact .same (Journal.Grown.read_eq hsaves hapart)
  · cases answer with
    | ok _ =>
      have hlast := hreplaces (document, .ok ()) (List.mem_append_right _ List.mem_cons_self)
      exact .replaced hlast (hsaves.read_taken hback hapart)
    | error fault =>
      obtain ⟨reached, saved, hearlier, hwrite, hread⟩ := hsaves.read_last hapart
      exact .refused hreplaces hearlier hwrite hread

theorem Command.saves_eq_nil (hnone : command.recorded? = none)
    (hreplaces : ∀ save ∈ saves, command.Replaces host locations before save.1) : saves = [] := by
  refine List.eq_nil_iff_forall_not_mem.2 fun save hsave => ?_
  obtain ⟨contract, id, original, record, hcontract, -⟩ := hreplaces save hsave
  rw [hnone] at hcontract
  cases hcontract

/-- What becomes of the file follows from what was handed to the disk. -/
theorem commandFrame_of_saves {outcome : Except CommandError Unit}
    (hreplaces : ∀ save ∈ saves, command.Replaces host locations before save.1)
    (hsaves : BookSaves host.disk ⟨some locations.journal⟩ locations.addressBook saves before.files
      after.files)
    (hlooked : command.onlyLooks = true → before.Undisturbed after)
    (hunopened : (∀ id document, ¬ locations.Finds host before id document) →
      (∃ error, outcome = .error error) ∧ before.Undisturbed after) :
    CommandFrame host locations command before (outcome, after) where
  handed := ⟨saves, hreplaces, hsaves⟩
  book := Command.leavesBook_of_saves hreplaces hsaves
  undamaged hapart hback hleaves := by
    have hread := hsaves.read_eq hback hleaves hapart
    rcases heldAfter_eq (host.disk.read before.files locations.addressBook) saves with
      hheld | ⟨document, hmem, hheld⟩
    · exact .inl (hread.trans hheld)
    · obtain ⟨save, hsave, rfl⟩ := List.mem_map.1 hmem
      exact .inr ⟨save.1, hreplaces save hsave, hread.trans hheld⟩
  kept hnone hapart := by
    rw [Command.saves_eq_nil hnone hreplaces] at hsaves
    exact Journal.Grown.read_eq hsaves hapart
  looked := hlooked
  unopened := hunopened

end Handed

section Frame

variable {host : Host γ φ} {sender : Sender} {locations : Locations} {command : Command}
  {world opened : World γ φ}

/-- A command whose context is not made has changed nothing. -/
theorem commandFrame_of_unopened {error : DeployError}
    (h : Context.make host sender locations world = (.error error, opened)) :
    CommandFrame host locations command world (command.run host sender locations world) := by
  have hundisturbed := Context.make_undisturbed host sender locations world
  rw [h] at hundisturbed
  have hnothing : BookSaves host.disk ⟨some locations.journal⟩ locations.addressBook []
      world.files opened.files := by
    rw [hundisturbed.files]
    exact .refl
  rw [command.run_of_unmade h]
  exact commandFrame_of_saves (fun save hsave => absurd hsave List.not_mem_nil) hnothing
    (fun _ => hundisturbed) fun _ => ⟨⟨_, rfl⟩, hundisturbed⟩

/-- The history of a book that was just opened consists of documents with one entry replaced. -/
theorem BookRecorded.replaces {id : Nat} {document : BookDocument} {settled : Book}
    {after : World γ φ} (hfinds : locations.Finds host world id document)
    (h : BookRecorded host ⟨some locations.journal⟩ (fun name => command.recorded? = some name)
      (locations.bookOf id document, opened) (settled, after)) :
    ∃ saves, (∀ save ∈ saves, command.Replaces host locations world save.1) ∧
      BookSaves host.disk ⟨some locations.journal⟩ locations.addressBook saves opened.files
        after.files := by
  obtain ⟨saves, hsets, hsaves⟩ := h
  refine ⟨saves, fun save hsave => ?_, hsaves⟩
  obtain ⟨contract, record, hcontract, hlast⟩ := hsets.replaced
    (fun hfirst hsecond => Option.some.inj (hfirst.symm.trans hsecond)) save.1
    (List.mem_map_of_mem hsave)
  refine ⟨contract, id, document, record, hcontract, hfinds, ?_⟩
  rw [← document.replace_withNetwork (toString id) contract record]
  exact hlast

theorem commandFrame_of_opened {context : Context φ}
    (h : Context.make host sender locations world = (.ok context, opened)) :
    CommandFrame host locations command world (command.run host sender locations world) := by
  obtain ⟨id, document, hfinds, rfl, hfiles, -⟩ := Context.make_finds h
  have hopened := Context.make_undisturbed host sender locations world
  rw [h] at hopened
  rw [Command.run_eq, Command.bind_of_ok (Command.liftRun_of_ok h)]
  obtain ⟨settled, hrecorded⟩ := command.steps_bookRecorded host
    (Context.of host sender locations (locations.bookOf id document)) opened
  obtain ⟨saves, hreplaces, hsaves⟩ := BookRecorded.replaces hfinds hrecorded
  rw [hfiles] at hsaves
  refine commandFrame_of_saves hreplaces hsaves (fun hlooks => ?_) fun hnot => ?_
  · exact cumulative_undisturbed.trans hopened (Command.steps_undisturbed host _ hlooks opened)
  · exact absurd hfinds (hnot id document)

end Frame

/-- A command changes at most one entry of the address book, whatever the chain and the disk do and
wherever the command fails. The documents that it hands over for the file are what it read there,
with the entry of the contract replaced that it was to deploy. So the file is left as it was, or
that entry is replaced, unless the disk refused the last document and left something else. Commands
that list, check or look at the chain leave everything as it is; and so does a command that cannot
find out its network or read its book, which fails. -/
theorem command_changes_one_entry (host : Host γ φ) (command : Command) (sender : Sender)
    (locations : Locations) (world : World γ φ) :
    CommandFrame host locations command world (command.run host sender locations world) := by
  cases h : Context.make host sender locations world with
  | mk outcome opened =>
    cases outcome with
    | ok context => exact commandFrame_of_opened h
    | error error => exact commandFrame_of_unopened h

/-- Where the tool finds what it works on, with the address book in the working directory. -/
def treeLocations : Locations where
  addressBook := "addresses.json"
  artifacts := "build"
  journal := "tx-logs"

/-- A chain, a blank address book, a directory for the journal, and an artifact. -/
def treeWorld : World Rehearsal FileTree where
  chain := {}
  files := .file "addresses.json" (.text "") <| .directory "tx-logs" .done <|
    .directory "build" (.file "Token.json" (.text (
      "\x7b\"contractName\":\"Token\",\"abi\":[],\"bytecode\":\"0x6080\"\x7d")) .done) .done

theorem treeLocations_apart :
    (⟨some treeLocations.journal⟩ : Journal).Apart FileTree.disk treeLocations.addressBook := by
  refine FileTree.journal_apart ⟨?_, ?_, ?_, ?_, ?_⟩ ⟨?_, ?_, ?_, ?_, ?_⟩ <;> decide

/-- In a file tree, with the journal in a directory of its own, nothing changes in the book but the
entry of the contract that is deployed. -/
theorem command_changes_one_entry_token :
    let command := Command.deploy "Token" []
    let result := command.run rehearsalHost ⟨FixedBytes.ofNat 1, true⟩ treeLocations treeWorld
    rehearsalHost.disk.read result.2.files treeLocations.addressBook =
        rehearsalHost.disk.read treeWorld.files treeLocations.addressBook ∨
      ∃ document, command.Replaces rehearsalHost treeLocations treeWorld document ∧
        rehearsalHost.disk.read result.2.files treeLocations.addressBook = .ok document.print :=
  (command_changes_one_entry rehearsalHost _ _ treeLocations treeWorld).undamaged
    treeLocations_apart (FileTree.givesBack _) (FileTree.leavesRefused _)

/-! ## A full disk -/

/-- A document with an entry replaced has a text. -/
theorem Command.Replaces.print_ne {command : Command} {host : Host γ φ} {locations : Locations}
    {before : World γ φ} {document : BookDocument}
    (h : command.Replaces host locations before document) : document.print ≠ "" := by
  intro hempty
  have hparse := BookDocument.parse_print document
  rw [hempty] at hparse
  have hblank : BookDocument.parse "" = .ok NameMap.empty := rfl
  obtain rfl : NameMap.empty = document := Except.ok.inj (hblank.symm.trans hparse)
  obtain ⟨contract, id, original, record, -, -, hreplaced⟩ := h
  have hnetwork := congrArg (NameMap.get? · (toString id)) hreplaced
  simp [BookDocument.replace, NameMap.get?_insert] at hnetwork

/-- A book with a contract on another network. Its record has no flag, so that the implementation
which stands there is none of the record. -/
def vaultBook : String :=
  "\x7b\"5\":\x7b\"Vault\":\x7b\"address\":\"0x00000000000000000000000000000000000000a1\"," ++
    "\"implementation\":\x7b\"address\":\"0x00000000000000000000000000000000000000a2\"\x7d\x7d" ++
    "\x7d\x7d"

def vaultWorld : World Nat FileTree where
  chain := 0
  files := .file "addresses.json" (.text vaultBook) <| .directory "tx-logs" .done <|
    .directory "build" (.file "Token.json" (.text (
      "\x7b\"contractName\":\"Token\",\"abi\":[],\"bytecode\":\"0x6080\"\x7d")) .done) .done

/-- The implementation that stands in the book is not read, so that no text which a command writes
has it. On a full disk a deployment succeeds and leaves the file of the book empty: it is neither
what it was, nor the document that it held with one entry replaced. -/
theorem deployment_empties_book_on_full_disk :
    let host : Host Nat FileTree := { promptHost with disk := FileTree.disk.full }
    let command := Command.deploy "Token" []
    let result := command.run host ⟨FixedBytes.ofNat 1, true⟩ treeLocations vaultWorld
    BookDocument.parse vaultBook = .ok (NameMap.empty.insert "5"
        (NameMap.empty.insert "Vault" (.direct (Snapshot.at (FixedBytes.ofNat 0xa1))))) ∧
      result.1 = .ok () ∧
      host.disk.read result.2.files treeLocations.addressBook = .ok "" ∧
      ¬ (host.disk.read result.2.files treeLocations.addressBook =
          host.disk.read vaultWorld.files treeLocations.addressBook ∨
        ∃ document, command.Replaces host treeLocations vaultWorld document ∧
          host.disk.read result.2.files treeLocations.addressBook = .ok document.print) := by
  intro host command result
  have hparse : BookDocument.parse vaultBook = .ok (NameMap.empty.insert "5"
      (NameMap.empty.insert "Vault" (.direct (Snapshot.at (FixedBytes.ofNat 0xa1))))) := by
    decide +kernel
  have hresult : (result.1, host.disk.read result.2.files treeLocations.addressBook) =
      (.ok (), .ok "") := by
    decide +kernel
  obtain ⟨hgave, hempty⟩ := Prod.mk.inj hresult
  refine ⟨hparse, hgave, hempty, ?_⟩
  rintro (hsame | ⟨document, hreplaces, hprinted⟩)
  · have hbook : host.disk.read vaultWorld.files treeLocations.addressBook = .ok vaultBook := rfl
    have hblank : "" = vaultBook := Except.ok.inj (hempty.symm.trans (hsame.trans hbook))
    revert hblank
    decide
  · exact hreplaces.print_ne (Except.ok.inj (hempty.symm.trans hprinted)).symm

end ContractDeploy
