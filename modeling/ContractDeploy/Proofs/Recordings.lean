import ContractDeploy.Proofs.FileHistory

/-!
# Steps that record

A step that records works on an address book as well as on the world, and what it set stays set
when a later step fails. Here is what its parts do to both: a step that records nothing leaves the
book alone, and setting an entry replaces that entry in the book and hands the whole document to
the disk once, whatever the disk makes of it.
-/

namespace ContractDeploy

variable {γ φ α β : Type}

/-! ## Setting an entry -/

/-- The book after an entry was set: the entry is this record, and all others are what they were,
on every network. -/
structure Book.Replaced (before : Book) (name : String) (record : Record) (after : Book) :
    Prop where
  file : after.file = before.file
  network : after.network = before.network
  entry : after.entries.get? name = some record
  others : ∀ other, other ≠ name → after.entries.get? other = before.entries.get? other
  networks : ∀ network, network ≠ before.network →
    after.document.get? network = before.document.get? network

theorem Book.replaced_insert (book : Book) (name : String) (record : Record) :
    book.Replaced name record (book.insert name record) where
  file := rfl
  network := rfl
  entry := by rw [entries_insert, NameMap.get?_insert, if_pos rfl]
  others other hother := by rw [entries_insert, NameMap.get?_insert, if_neg (Ne.symm hother)]
  networks network hnetwork := by rw [get?_document_insert, if_neg (Ne.symm hnetwork)]

/-- Of the records that one entry was set to, only the last is seen. -/
theorem Book.Replaced.trans {before middle after : Book} {name : String} {first last : Record}
    (hfirst : before.Replaced name first middle) (hlast : middle.Replaced name last after) :
    before.Replaced name last after where
  file := hlast.file.trans hfirst.file
  network := hlast.network.trans hfirst.network
  entry := hlast.entry
  others other hother := (hlast.others other hother).trans (hfirst.others other hother)
  networks network hnetwork :=
    (hlast.networks network (hfirst.network ▸ hnetwork)).trans (hfirst.networks network hnetwork)

theorem Book.Replaced.get_eq {before after : Book} {name : String} {record : Record}
    (h : before.Replaced name record after) : after.get name = record := by
  rw [get, h.entry]
  rfl

section Save

variable (host : Host γ φ) (book : Book) (name : String) (world : World γ φ)

/-- Writing the book hands its document to the disk, and tells it if that fails. -/
theorem Book.save_apply :
    ∃ notices, book.save host name world = ((), { world with
      files := (host.disk.write book.file book.document.print world.files).2
      notices := world.notices ++ notices }) ∧
      (notices = [] ↔ (host.disk.write book.file book.document.print world.files).1 = .ok ()) := by
  cases hwrite : host.disk.write book.file book.document.print world.files with
  | mk answer files =>
    cases answer with
    | ok _ =>
      refine ⟨[], ?_, by simp⟩
      rw [List.append_nil]
      simp only [Book.save, Host.writeFile, bind, StateT.bind, modifyGet, MonadStateOf.modifyGet,
        StateT.modifyGet, hwrite]
      rfl
    | error fault =>
      refine ⟨[.bookNotSaved name (.writeBook book.file fault)], ?_, by simp⟩
      simp only [Book.save, Host.writeFile, bind, StateT.bind, modifyGet, MonadStateOf.modifyGet,
        StateT.modifyGet, hwrite]
      rfl

/-- Setting an entry replaces it in the book, hands the new document to the disk and may tell
something; that is all it does. -/
theorem Book.set_world (record : Record) :
    ∃ notices, book.set host name record world = (book.insert name record, { world with
      files := (host.disk.write book.file (book.insert name record).document.print world.files).2
      notices := world.notices ++ notices }) := by
  obtain ⟨notices, hsave, -⟩ := Book.save_apply host (book.insert name record) name world
  refine ⟨notices, ?_⟩
  simp only [Book.set, bind, StateT.bind, hsave]
  rfl

/-- Setting an entry replaces it in the book and hands the new document to the disk. -/
theorem Book.set_apply (record : Record) :
    ∃ after, book.set host name record world = (book.insert name record, after) ∧
      after.chain = world.chain ∧ after.files =
        (host.disk.write book.file (book.insert name record).document.print world.files).2 := by
  obtain ⟨notices, hset⟩ := Book.set_world host book name world record
  exact ⟨_, hset, rfl, rfl⟩

end Save

namespace Recording

variable {host : Host γ φ} {book middleBook : Book} {world middle after : World γ φ}

theorem ofRun_apply {run : Run γ φ α} {outcome : Except DeployError α}
    (h : run world = (outcome, middle)) :
    Recording.ofRun run book world = ((outcome, book), middle) := by
  simp only [ofRun, ExceptT.run, bind, StateT.bind, h]
  rfl

theorem ofExcept_apply (outcome : Except DeployError α) (book : Book) (world : World γ φ) :
    (liftM outcome : Recording γ φ α) book world = ((outcome, book), world) := rfl

theorem get_apply (book : Book) (world : World γ φ) :
    (get : Recording γ φ Book) book world = ((.ok book, book), world) := rfl

theorem bind_of_ok {recording : Recording γ φ α} {next : α → Recording γ φ β} {value : α}
    (h : recording book world = ((.ok value, middleBook), middle)) :
    (recording >>= next) book world = next value middleBook middle := by
  simp only [bind, ExceptT.bind, ExceptT.mk, StateT.bind, h]
  rfl

theorem bind_of_error {recording : Recording γ φ α} {next : α → Recording γ φ β}
    {error : DeployError} (h : recording book world = ((.error error, middleBook), middle)) :
    (recording >>= next) book world = ((.error error, middleBook), middle) := by
  simp only [bind, ExceptT.bind, ExceptT.mk, StateT.bind, h]
  rfl

theorem bind_eq_ok {recording : Recording γ φ α} {next : α → Recording γ φ β}
    {settled : Book} {value : β}
    (h : (recording >>= next) book world = ((.ok value, settled), after)) :
    ∃ first between middle, recording book world = ((.ok first, between), middle) ∧
      next first between middle = ((.ok value, settled), after) := by
  cases hrecording : recording book world with
  | mk result middle =>
    obtain ⟨outcome, between⟩ := result
    cases outcome with
    | ok first => exact ⟨first, between, middle, rfl, by rwa [bind_of_ok hrecording] at h⟩
    | error error =>
      rw [bind_of_error hrecording] at h
      cases h

theorem ofRun_eq_ok {run : Run γ φ α} {settled : Book} {value : α}
    (h : Recording.ofRun run book world = ((.ok value, settled), after)) :
    run world = (.ok value, after) ∧ settled = book := by
  cases hrun : run world with
  | mk outcome middle =>
    rw [ofRun_apply hrun] at h
    cases h
    exact ⟨rfl, rfl⟩

/-- Setting an entry cannot fail. It hands the new document to the disk and tells notices, and that
is all it does. -/
theorem save_world (host : Host γ φ) (name : String) (record : Record) (book : Book)
    (world : World γ φ) :
    ∃ notices, Recording.save host name record book world =
      ((.ok (), book.insert name record), { world with
        files := (host.disk.write book.file (book.insert name record).document.print world.files).2
        notices := world.notices ++ notices }) := by
  obtain ⟨notices, hset⟩ := Book.set_world host book name world record
  refine ⟨notices ++ [.saved], ?_⟩
  rw [← List.append_assoc]
  simp only [Recording.save, bind, StateT.bind, hset]
  rfl

/-- Setting an entry cannot fail, and changes the files by handing the new document to the disk. -/
theorem save_files (host : Host γ φ) (name : String) (record : Record) (book : Book)
    (world : World γ φ) :
    ∃ after,
      Recording.save host name record book world = ((.ok (), book.insert name record), after) ∧
      after.chain = world.chain ∧ after.files =
        (host.disk.write book.file (book.insert name record).document.print world.files).2 := by
  obtain ⟨notices, hsave⟩ := save_world host name record book world
  exact ⟨_, hsave, rfl, rfl⟩

/-- Setting an entry cannot fail, whatever the disk does: the book has the entry, and its document
was handed to the disk once. -/
theorem save_apply (host : Host γ φ) (journal : Journal) (name : String) (record : Record)
    (book : Book) (world : World γ φ) :
    ∃ answer after,
      Recording.save host name record book world = ((.ok (), book.insert name record), after) ∧
      after.chain = world.chain ∧ BookSaves host.disk journal book.file
        [((book.insert name record).document, answer)] world.files after.files := by
  obtain ⟨after, hsave, hchain, hfiles⟩ := save_files host name record book world
  have hwrite := BookSaves.single host.disk journal book.file
    (book.insert name record).document world.files
  rw [← hfiles] at hwrite
  exact ⟨_, after, hsave, hchain, hwrite⟩

end Recording

/-! ## Deploying and recording -/

section DeployAndSave

variable {host : Host γ φ} {deployer : Deployer φ} {name : String} {args : List String}
  {book : Book} {world middle : World γ φ}

/-- A deployment that fails is not recorded. -/
theorem deployAndSave_of_error {error : DeployError}
    (h : deployer.deploy host name args true world = (.error error, middle)) :
    deployer.deployAndSave host name args book world = ((.error error, book), middle) :=
  Recording.bind_of_error (Recording.ofRun_apply h)

/-- A deployment that is complete is recorded as a direct one, and the document with its entry is
handed to the disk. -/
theorem deployAndSave_of_ok (book : Book) {deployed : Deployed}
    (h : deployer.deploy host name args true world = (.ok deployed, middle)) :
    ∃ answer after,
      let recorded := book.insert name (.direct (deployed.toSnapshot args))
      deployer.deployAndSave host name args book world = ((.ok deployed, recorded), after) ∧
      after.chain = middle.chain ∧ BookSaves host.disk deployer.journal book.file
        [(recorded.document, answer)] world.files after.files := by
  obtain ⟨answer, after, hsave, hchain, hfile⟩ := Recording.save_apply host deployer.journal name
    (.direct (deployed.toSnapshot args)) book middle
  have hgrown := Deployer.deploy_within (deploymentSteps_grown host deployer.journal) name args
    true world
  rw [h] at hgrown
  refine ⟨answer, after, ?_, hchain, hfile.of_grown hgrown⟩
  rw [Deployer.deployAndSave, Recording.bind_of_ok (Recording.ofRun_apply h),
    Recording.bind_of_ok hsave]
  rfl

end DeployAndSave

end ContractDeploy
