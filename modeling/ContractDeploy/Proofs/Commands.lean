import ContractDeploy.Command
import ContractDeploy.Proofs.Deployments
import ContractDeploy.Proofs.Recordings

/-!
# Commands step by step

A command opens the address book of the network that the node names and goes on from there. Its
steps are runs whose failure is wrapped, or steps that record on the book that was opened; what a
command comes to is what those come to.
-/

namespace ContractDeploy

variable {γ φ α β ε : Type}

/-! ## Steps of a command -/

namespace Command

variable {world middle after : World γ φ}

theorem bind_of_ok {step : ExceptT ε (Act γ φ) α} {next : α → ExceptT ε (Act γ φ) β} {value : α}
    (h : step world = (.ok value, middle)) : (step >>= next) world = next value middle := by
  simp only [bind, ExceptT.bind, ExceptT.mk, StateT.bind, h]
  rfl

theorem bind_of_error {step : ExceptT ε (Act γ φ) α} {next : α → ExceptT ε (Act γ φ) β} {error : ε}
    (h : step world = (.error error, middle)) : (step >>= next) world = (.error error, middle) := by
  simp only [bind, ExceptT.bind, ExceptT.mk, StateT.bind, h]
  rfl

theorem bind_eq_ok {step : ExceptT ε (Act γ φ) α} {next : α → ExceptT ε (Act γ φ) β} {value : β}
    (h : (step >>= next) world = (.ok value, after)) :
    ∃ first middle, step world = (.ok first, middle) ∧ next first middle = (.ok value, after) := by
  cases hstep : step world with
  | mk outcome middle =>
    cases outcome with
    | ok first => exact ⟨first, middle, rfl, by rwa [bind_of_ok hstep] at h⟩
    | error error =>
      rw [bind_of_error hstep] at h
      cases h

theorem ofAct_of_eq {act : Act γ φ α} {value : α} (h : act world = (value, after)) :
    (liftM act : ExceptT ε (Act γ φ) α) world = (.ok value, after) := by
  have hact : (liftM act : ExceptT ε (Act γ φ) α) world = (.ok (act world).1, (act world).2) := rfl
  rw [hact, h]

theorem liftRun_apply (run : Run γ φ α) (world : World γ φ) :
    Context.liftRun run world = ((run world).1.mapError .failed, (run world).2) := by
  cases hrun : run world with
  | mk outcome after =>
    have hact : run.run world = (outcome, after) := hrun
    rw [Context.liftRun, bind_of_ok (ofAct_of_eq hact)]
    cases outcome <;> rfl

theorem liftRun_of_ok {run : Run γ φ α} {value : α} (h : run world = (.ok value, after)) :
    Context.liftRun run world = (.ok value, after) := by
  rw [liftRun_apply, h]
  rfl

theorem liftRun_eq_ok {run : Run γ φ α} {value : α}
    (h : Context.liftRun run world = (.ok value, after)) : run world = (.ok value, after) := by
  rw [liftRun_apply, Prod.mk.injEq] at h
  exact Prod.ext (mapError_eq_ok h.1) h.2

/-- A command's steps that record come to what they come to on the context's book. -/
theorem recordIn_apply (context : Context φ) (recording : Recording γ φ α) (world : World γ φ) :
    context.recordIn recording world =
      ((recording context.book world).1.1, (recording context.book world).2) := by
  cases hrun : recording context.book world with
  | mk result after =>
    obtain ⟨outcome, book⟩ := result
    have hact : (recording.run.run context.book : StateM (World γ φ) _) world =
        ((outcome, book), after) := hrun
    rw [Context.recordIn, bind_of_ok (ofAct_of_eq hact)]
    cases outcome <;> rfl

end Command

/-! ## Opening the context -/

/-- Where the artifacts of a run come from. -/
def Locations.source (locations : Locations) (disk : Disk φ) : ArtifactSource φ :=
  ArtifactSource.inDirectory disk locations.artifacts

/-- The context of an account that is connected to a network. -/
def Context.of (host : Host γ φ) (sender : Sender) (locations : Locations) (book : Book) :
    Context φ where
  sender := sender
  book := book
  source := locations.source host.disk
  journalDirectory := locations.journal

/-- A command begins by opening the book of the network that the node names. -/
structure OpensBook (host : Host γ φ) (locations : Locations) (world : World γ φ) (id : Nat)
    (book : Book) (opened : World γ φ) : Prop where
  named : (host.node.chainId world.chain).1 = .ok id
  file : book.file = locations.addressBook
  network : book.network = toString id
  files : opened.files = world.files
  chain : opened.chain = (host.node.chainId world.chain).2

section Make

variable {host : Host γ φ} {sender : Sender} {locations : Locations} {world opened : World γ φ}

/-- A book that was opened holds the document that its file spells, with a list of entries for the
network. Opening it changes neither the files nor the chain. -/
theorem openFile_document {file network : String} {book : Book}
    (h : Book.openFile host file network world = (.ok book, opened)) :
    ∃ text document, host.disk.read world.files file = .ok text ∧
      BookDocument.parse text = .ok document ∧
      book = { file, network, document := document.withNetwork network } ∧
      opened.files = world.files ∧ opened.chain = world.chain := by
  obtain ⟨outcome, read, hread, h⟩ := Run.bind_eq_ok h
  obtain rfl : read = world := (congrArg Prod.snd hread).symm
  have houtcome : host.disk.read read.files file = outcome :=
    Except.ok.inj (congrArg Prod.fst hread)
  cases outcome with
  | error fault => cases h
  | ok text =>
    cases hparse : BookDocument.parse text with
    | error fault =>
      simp only [hparse] at h
      cases h
    | ok document =>
      simp only [hparse] at h
      obtain ⟨_, told, htold, h⟩ := Run.bind_eq_ok h
      cases htold
      cases h
      exact ⟨text, document, houtcome, hparse, rfl, rfl, rfl⟩

/-- A book that was opened is of the file and the network that were asked for. Opening it changes
neither the files nor the chain. -/
theorem openFile_eq_ok {file network : String} {book : Book}
    (h : Book.openFile host file network world = (.ok book, opened)) :
    book.file = file ∧ book.network = network ∧ opened.files = world.files ∧
      opened.chain = world.chain := by
  obtain ⟨text, document, -, -, rfl, hfiles, hchain⟩ := openFile_document h
  exact ⟨rfl, rfl, hfiles, hchain⟩

theorem query_of_ok {ask : γ → Except String α × γ} {value : α}
    (h : (ask world.chain).1 = .ok value) :
    (Host.query ask : Run γ φ α) world =
      (.ok value, { world with chain := (ask world.chain).2 }) := by
  show ((ask world.chain).1.mapError _, _) = _
  rw [h]
  rfl

/-- What every command needs to begin: the node names the network, and the file of the address book
holds a text that spells a document. -/
structure Locations.Finds (locations : Locations) (host : Host γ φ) (world : World γ φ) (id : Nat)
    (document : BookDocument) : Prop where
  named : (host.node.chainId world.chain).1 = .ok id
  spelled : ∃ text, host.disk.read world.files locations.addressBook = .ok text ∧
    BookDocument.parse text = .ok document

/-- The book of a network as a command opens it. -/
def Locations.bookOf (locations : Locations) (id : Nat) (document : BookDocument) : Book where
  file := locations.addressBook
  network := toString id
  document := document.withNetwork (toString id)

/-- A context is made only for an account that is connected. -/
theorem Context.make_connected {context : Context φ}
    (h : Context.make host sender locations world = (.ok context, opened)) :
    sender.requireConnection = .ok () := by
  obtain ⟨_, _, hconnected, -⟩ := Run.bind_eq_ok h
  exact (Run.ofExcept_eq_ok hconnected).1

/-- A context that was opened has the book that the file spells, opened for the network that the
node names. -/
theorem Context.make_finds {context : Context φ}
    (h : Context.make host sender locations world = (.ok context, opened)) :
    ∃ id document, locations.Finds host world id document ∧
      context = Context.of host sender locations (locations.bookOf id document) ∧
      opened.files = world.files ∧ opened.chain = (host.node.chainId world.chain).2 := by
  obtain ⟨_, first, hconnected, h⟩ := Run.bind_eq_ok h
  obtain ⟨-, rfl⟩ := Run.ofExcept_eq_ok hconnected
  obtain ⟨id, asked, hask, h⟩ := Run.bind_eq_ok h
  have hid : (host.node.chainId world.chain).1 = .ok id := mapError_eq_ok (congrArg Prod.fst hask)
  rw [query_of_ok hid] at hask
  cases hask
  obtain ⟨_, told, htold, h⟩ := Run.bind_eq_ok h
  cases htold
  obtain ⟨book, last, hopen, h⟩ := Run.bind_eq_ok h
  cases h
  obtain ⟨text, document, hread, hparse, rfl, hfiles, hchain⟩ := openFile_document hopen
  exact ⟨id, document, ⟨hid, text, hread, hparse⟩, rfl, hfiles, hchain⟩

/-- A context that was opened has the book of the network that the account is connected to. -/
theorem Context.make_eq_ok {context : Context φ}
    (h : Context.make host sender locations world = (.ok context, opened)) :
    ∃ id book, context = Context.of host sender locations book ∧
      OpensBook host locations world id book opened := by
  obtain ⟨id, document, hfinds, rfl, hfiles, hchain⟩ := Context.make_finds h
  exact ⟨id, locations.bookOf id document, rfl, hfinds.named, rfl, rfl, hfiles, hchain⟩

/-- A connected account whose network is known opens the context if the book is opened. -/
theorem Context.make_of_opened {id : Nat} {book : Book}
    (hconnected : sender.requireConnection = .ok ())
    (hid : (host.node.chainId world.chain).1 = .ok id)
    (hopen : Book.openFile host locations.addressBook (toString id)
      { world with
        chain := (host.node.chainId world.chain).2
        notices := world.notices ++ [Context.networkNotice id] } = (.ok book, opened)) :
    Context.make host sender locations world =
      (.ok (Context.of host sender locations book), opened) := by
  rw [make, Run.bind_of_ok (by rw [Run.ofExcept_apply, hconnected]),
    Run.bind_of_ok (query_of_ok hid), Run.bind_of_ok (Run.tell_apply _ _)]
  exact Run.bind_of_ok hopen

end Make

/-! ## Commands that record -/

section Record

variable {host : Host γ φ} {sender : Sender} {locations : Locations} {world after : World γ φ}

/-- A command that records is its steps on the context's book. -/
theorem run_recording_eq_ok (recording : Context φ → Recording γ φ Unit)
    (h : (Context.liftRun (Context.make host sender locations) >>= fun context =>
      Context.liftRun (context.recordIn (recording context))) world = (.ok (), after)) :
    ∃ id book opened settled, OpensBook host locations world id book opened ∧
      recording (Context.of host sender locations book) book opened =
        ((.ok (), settled), after) := by
  obtain ⟨context, opened, hmake, h⟩ := Command.bind_eq_ok h
  obtain ⟨id, book, rfl, hopens⟩ := Context.make_eq_ok (Command.liftRun_eq_ok hmake)
  have hrecord := Command.liftRun_eq_ok h
  rw [Command.recordIn_apply, Prod.mk.injEq] at hrecord
  obtain ⟨houtcome, hafter⟩ := hrecord
  exact ⟨id, book, opened, _, hopens, Prod.ext (Prod.ext houtcome rfl) hafter⟩

theorem run_recording_of_ok {recording : Context φ → Recording γ φ Unit} {context : Context φ}
    {opened : World γ φ} {settled : Book}
    (hmake : Context.make host sender locations world = (.ok context, opened))
    (h : recording context context.book opened = ((.ok (), settled), after)) :
    (Context.liftRun (Context.make host sender locations) >>= fun context =>
      Context.liftRun (context.recordIn (recording context))) world = (.ok (), after) := by
  rw [Command.bind_of_ok (Command.liftRun_of_ok hmake)]
  refine Command.liftRun_of_ok ?_
  rw [Command.recordIn_apply, h]

end Record

end ContractDeploy
