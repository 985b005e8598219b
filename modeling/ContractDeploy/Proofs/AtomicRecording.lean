import ContractDeploy.Proofs.CalldataFailures
import ContractDeploy.Proofs.RecordDocument

/-!
# All of a deployment is recorded, or nothing

A deployment may fail late, with libraries or the contract itself already created. Then the address
book has no trace of it, neither in memory nor in its file. One that is complete replaces one entry,
whatever that was, and writes one document. What was created on the way is on the chain in both
cases.
-/

namespace ContractDeploy

variable {γ φ : Type}

/-- A run left no trace in the address book, nor in any file but those of the journal. -/
structure Book.LeftAlone (host : Host γ φ) (journal : Journal) (book : Book) (world : World γ φ)
    (settled : Book) (after : World γ φ) : Prop where
  memory : settled = book
  grown : journal.Grown host.disk world.files after.files
  files : ∀ path, journal.Apart host.disk path →
    host.disk.read after.files path = host.disk.read world.files path

/-- A run replaced one entry of the address book and handed the document that came of it to the
disk, once. If the disk took it, its file says so from then on; if not, and the refused write
changed nothing, it holds what it held before. -/
structure Book.Entered (host : Host γ φ) (journal : Journal) (book : Book) (world : World γ φ)
    (name : String) (record : Record) (settled : Book) (after : World γ φ) : Prop where
  memory : book.Replaced name record settled
  file : ∃ answer, BookSaves host.disk journal book.file [(settled.document, answer)] world.files
      after.files ∧
    (host.disk.GivesBack book.file → journal.Apart host.disk book.file → answer = .ok () →
      ∃ text, host.disk.read after.files book.file = .ok text ∧
        BookDocument.parse text = .ok settled.document) ∧
    (host.disk.LeavesRefused book.file → journal.Apart host.disk book.file →
      ∀ fault, answer = .error fault →
        host.disk.read after.files book.file = host.disk.read world.files book.file)

section DeployAndSave

variable {host : Host γ φ} {deployer : Deployer φ} {name : String} {args : List String}
  {book : Book} {world after : World γ φ}

/-- Whatever a deployment did before it failed, it did to the chain and to the journal. -/
theorem leftAlone_of_error {error : DeployError}
    (h : deployer.deploy host name args true world = (.error error, after)) :
    book.LeftAlone host deployer.journal world book after := by
  have hgrown := Deployer.deploy_within (deploymentSteps_grown host deployer.journal) name args
    true world
  rw [h] at hgrown
  exact ⟨rfl, hgrown, fun path hapart => hgrown.read_eq hapart⟩

/-- A history of one document says what the file holds. -/
theorem Book.entered_insert {journal : Journal} (record : Record) {answer : Except FileFault Unit}
    (h : BookSaves host.disk journal book.file [((book.insert name record).document, answer)]
      world.files after.files) :
    book.Entered host journal world name record (book.insert name record) after where
  memory := book.replaced_insert name record
  file := by
    have honly : BookSaves host.disk journal book.file
        ([] ++ [((book.insert name record).document, answer)]) world.files after.files := h
    refine ⟨answer, h, fun hback hapart htaken => ?_, fun hleaves hapart fault hrefused => ?_⟩
    · rw [htaken] at honly
      exact ⟨_, honly.read_taken hback hapart, BookDocument.parse_print _⟩
    · rw [hrefused] at honly
      obtain ⟨reached, hnone, hread⟩ := honly.read_refused hleaves hapart
      exact hread.trans (Journal.Grown.read_eq hnone hapart)

end DeployAndSave

/-- A deployment that is to be recorded fails exactly if the deployment itself does. Then, whatever
was created before, the address book and its file are what they were, and the world is the one that
the failed deployment left. Else the one entry of its name on the book's network is replaced by the
direct record of what was deployed, whatever record there was, and no other, and the document with
it is handed to the disk. -/
theorem deployAndSave_atomic (host : Host γ φ) (deployer : Deployer φ) (name : String)
    (args : List String) (book : Book) (world : World γ φ) :
    let deployment := deployer.deploy host name args true world
    let result := deployer.deployAndSave host name args book world
    result.1.1 = deployment.1 ∧
      (∀ error, result.1.1 = .error error → result.2 = deployment.2 ∧
        book.LeftAlone host deployer.journal world result.1.2 result.2) ∧
      ∀ deployed, result.1.1 = .ok deployed →
        book.Entered host deployer.journal world name (.direct (deployed.toSnapshot args))
          result.1.2 result.2 := by
  intro deployment result
  cases hdeploy : deployer.deploy host name args true world with
  | mk outcome reached =>
    have hdeployment : deployment = (outcome, reached) := hdeploy
    cases outcome with
    | error error =>
      have hresult : result = ((.error error, book), reached) := deployAndSave_of_error hdeploy
      rw [hresult, hdeployment]
      exact ⟨rfl, fun _ _ => ⟨rfl, leftAlone_of_error hdeploy⟩, nofun⟩
    | ok deployed =>
      obtain ⟨answer, after, hsaved, -, hfile⟩ := deployAndSave_of_ok book hdeploy
      have hresult : result = ((.ok deployed,
        book.insert name (.direct (deployed.toSnapshot args))), after) := hsaved
      rw [hresult, hdeployment]
      refine ⟨rfl, nofun, ?_⟩
      rintro _ ⟨⟩
      exact Book.entered_insert _ hfile

/-- A contract whose library was created before its arguments were refused is not recorded. -/
theorem deployAndSave_atomic_late :
    let result := libraryUser.deployAndSave promptHost "UsesLib" ["1"] adminBook firstWorld
    (∃ fault, result.1.1 = .error (.calldata fault)) ∧ result.2.submissions ≠ [] ∧
      adminBook.LeftAlone promptHost libraryUser.journal firstWorld result.1.2 result.2 := by
  intro result
  obtain ⟨fault, after, hdeploy, hsubmissions⟩ := libraryUser_deploy_late
  obtain ⟨houtcome, hfailed, -⟩ :=
    deployAndSave_atomic promptHost libraryUser "UsesLib" ["1"] adminBook firstWorld
  rw [hdeploy] at houtcome hfailed
  obtain ⟨hworld, halone⟩ := hfailed _ houtcome
  refine ⟨⟨fault, houtcome⟩, ?_, halone⟩
  show result.2.submissions ≠ []
  rw [show result.2 = after from hworld]
  exact hsubmissions

end ContractDeploy
