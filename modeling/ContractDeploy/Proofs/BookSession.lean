import ContractDeploy.Chain.Rehearsal
import ContractDeploy.Proofs.Recordings
import ContractDeploy.Proofs.RecordDocument
import ContractDeploy.Proofs.TreeFiles
import ContractDeploy.Proofs.Utf8Order

/-!
# An address book as a map

To those who use it, an address book is a map from networks and names to records, with one network
chosen. Opening the book chooses the network, setting an entry changes the map in one place, and
nothing else changes it. The book in memory and the text of its file both hold that map, and they
differ in one point only: the opened book has a list of entries for its network, which the file has
only once an entry was set. What ties them together is that a document is read back from the text
that is written of it.
-/

namespace ContractDeploy

variable {γ φ : Type}

/-! ## Persisting -/

/-- The document that is written when a book is saved is read back from its text, whatever names,
records and arguments it holds. -/
theorem saved_document_reads_back (host : Host γ φ) (book : Book) (name : String)
    (world : World γ φ) :
    ∃ text, (book.save host name world).2.files = (host.disk.write book.file text world.files).2 ∧
      BookDocument.parse text = .ok book.document := by
  obtain ⟨notices, hsave, -⟩ := Book.save_apply host book name world
  refine ⟨book.document.print, ?_, BookDocument.parse_print book.document⟩
  rw [hsave]

/-! ## The map -/

/-- The record that a document has under a name of a network. -/
def BookDocument.find? (document : BookDocument) (network name : String) : Option Record :=
  (document.get? network).bind fun entries => entries.get? name

/-- What an address book is to those who use it. -/
structure BookView where
  network : String
  recorded : (network name : String) → Option Record
  /-- Whether the file has a network. -/
  stored : (network : String) → Prop

/-- Something that is done with an address book. -/
inductive BookStep where
  | reopen (network : String)
  | get (name : String)
  | list
  | set (name : String) (record : Record)

/-- What comes back. -/
inductive BookAnswer where
  | done
  | record (record : Record)
  | names (names : List String)

namespace BookView

/-- The map of a document, opened for a network. -/
def ofDocument (document : BookDocument) (network : String) : BookView where
  network := network
  recorded := document.find?
  stored network := (document.get? network).isSome

/-- The map after a step. -/
def update (view : BookView) : BookStep → BookView
  | .reopen network => { view with network }
  | .get _ => view
  | .list => view
  | .set name record => { view with
      recorded := fun network other =>
        if network = view.network ∧ other = name then some record
        else view.recorded network other
      stored := fun network => network = view.network ∨ view.stored network }

/-- The map after several steps. -/
def after (view : BookView) (steps : List BookStep) : BookView := steps.foldl update view

/-- Whether an answer is right for a step. -/
def Answers (view : BookView) : BookStep → BookAnswer → Prop
  | .get name, .record record =>
    record = (view.recorded view.network name).getD Record.missing
  | .list, .names names =>
    names.Pairwise (fun a b => Bytes.ofString a < Bytes.ofString b) ∧
      ∀ name, name ∈ names ↔ (view.recorded view.network name).isSome
  | .reopen _, .done => True
  | .set _ _, .done => True
  | _, _ => False

/-- Whether answers are right for steps, each for the map that there is by then. -/
def AnswersAll : BookView → List BookStep → List BookAnswer → Prop
  | _, [], answers => answers = []
  | _, _ :: _, [] => False
  | view, step :: steps, answer :: answers =>
    view.Answers step answer ∧ (view.update step).AnswersAll steps answers

/-- A map is what a book in memory holds, and what the text of its file does. -/
structure Shown (view : BookView) (disk : Disk φ) (book : Book) (files : φ) : Prop where
  /-- The book is open for the network. -/
  network : book.network = view.network
  /-- The book holds the records. -/
  memory : ∀ network name, book.document.find? network name = view.recorded network name
  /-- So does the text of its file, which has the networks that it should have. -/
  file : ∃ text document, disk.read files book.file = .ok text ∧
    BookDocument.parse text = .ok document ∧
    book.document = document.withNetwork book.network ∧
    (∀ network name, document.find? network name = view.recorded network name) ∧
    ∀ network, (document.get? network).isSome = true ↔ view.stored network

end BookView

/-! ## What documents and books hold -/

section Documents

variable {network other name : String}

theorem find?_withNetwork (document : BookDocument) (network other name : String) :
    (document.withNetwork network).find? other name = document.find? other name := by
  rw [BookDocument.find?, BookDocument.find?, BookDocument.get?_withNetwork]
  split
  · next heq =>
    subst heq
    cases document.get? network <;> rfl
  · rfl

theorem isSome_get?_withNetwork (document : BookDocument) (network other : String) :
    ((document.withNetwork network).get? other).isSome = true ↔
      other = network ∨ (document.get? other).isSome = true := by
  rw [BookDocument.get?_withNetwork]
  split
  · next heq => simp [heq]
  · next hne => simp [Ne.symm hne]

/-- A network that a document has is not added to it. -/
theorem withNetwork_of_isSome {document : BookDocument}
    (h : (document.get? network).isSome = true) : document.withNetwork network = document := by
  obtain ⟨entries, hentries⟩ := Option.isSome_iff_exists.1 h
  refine NameMap.ext_get? fun other => ?_
  rw [BookDocument.get?_withNetwork]
  split
  · next heq => rw [← heq, hentries, Option.getD_some]
  · rfl

theorem entries_get? (book : Book) (name : String) :
    book.entries.get? name = book.document.find? book.network name := by
  rw [Book.entries, BookDocument.find?]
  cases book.document.get? book.network <;> rfl

theorem find?_insert (book : Book) (name network other : String) (record : Record) :
    (book.insert name record).document.find? network other =
      if network = book.network ∧ other = name then some record
      else book.document.find? network other := by
  rw [BookDocument.find?, Book.get?_document_insert]
  by_cases hnetwork : book.network = network
  · subst hnetwork
    rw [if_pos rfl, Option.bind_some, NameMap.get?_insert, entries_get?]
    by_cases hname : name = other
    · rw [if_pos hname, if_pos ⟨rfl, hname.symm⟩]
    · rw [if_neg hname, if_neg fun h => hname h.2.symm]
  · rw [if_neg hnetwork, if_neg fun h => hnetwork h.1.symm]
    rfl

theorem isSome_get?_insert (book : Book) (name network : String) (record : Record) :
    ((book.insert name record).document.get? network).isSome = true ↔
      network = book.network ∨ (book.document.get? network).isSome = true := by
  rw [Book.get?_document_insert]
  split
  · next heq => simp [heq]
  · next hne => simp [Ne.symm hne]

theorem mem_names {α : Type} (map : NameMap α) (name : String) :
    name ∈ map.names ↔ (map.get? name).isSome = true := by
  rw [Option.isSome_iff_exists]
  constructor
  · intro hmem
    obtain ⟨⟨found, value⟩, hpair, rfl⟩ := List.mem_map.1 hmem
    exact ⟨value, (map.get?_eq_some_iff found value).2 hpair⟩
  · rintro ⟨value, hvalue⟩
    exact List.mem_map_of_mem ((map.get?_eq_some_iff name value).1 hvalue)

/-- The listed names are in increasing order of their bytes, so that each is listed once. -/
theorem pairwise_list (book : Book) :
    book.list.Pairwise fun a b => Bytes.ofString a < Bytes.ofString b := by
  refine List.pairwise_map.2 ?_
  exact book.entries.sorted.imp fun hlt => Bytes.ofString_lt hlt

end Documents

/-! ## Runs -/

section Runs

variable (host : Host γ φ)

/-- Takes a step with a book. -/
def BookStep.run (book : Book) : BookStep → Run γ φ (BookAnswer × Book)
  | .reopen network => do
    let book ← Book.openFile host book.file network
    return (.done, book)
  | .get name => return (.record (book.get name), book)
  | .list => return (.names book.list, book)
  | .set name record => do
    let book ← (book.set host name record : Act γ φ Book)
    return (.done, book)

/-- Takes several steps, each with the book that the last one left. -/
def Book.perform (book : Book) : List BookStep → Run γ φ (List BookAnswer × Book)
  | [] => return ([], book)
  | step :: steps => do
    let (answer, book) ← step.run host book
    let (answers, book) ← book.perform steps
    return (answer :: answers, book)

/-- Opens an address book and takes several steps with it. -/
def Book.session (file network : String) (steps : List BookStep) :
    Run γ φ (List BookAnswer × Book) := do
  let book ← Book.openFile host file network
  book.perform host steps

/-- The disk takes what a step writes, if it writes. -/
def BookStep.IsTaken (book : Book) (world : World γ φ) : BookStep → Prop
  | .set name record =>
    (host.disk.write book.file (book.insert name record).document.print world.files).1 = .ok ()
  | _ => True

/-- The disk takes everything that several steps write. -/
def Book.AllTaken (book : Book) (world : World γ φ) : List BookStep → Prop
  | [] => True
  | step :: steps => step.IsTaken host book world ∧
    ∀ answer next after, step.run host book world = (.ok (answer, next), after) →
      next.AllTaken after steps

end Runs

/-! ## Opening -/

section Opening

variable {host : Host γ φ} {file text : String} {document : BookDocument}

theorem openFile_of_read (network : String) (world : World γ φ)
    (hread : host.disk.read world.files file = .ok text)
    (hparse : BookDocument.parse text = .ok document) :
    ∃ opened, Book.openFile host file network world =
        (.ok { file, network, document := document.withNetwork network }, opened) ∧
      opened.files = world.files := by
  have hfile : (liftM (host.readFile file) : Run γ φ (Except FileFault String)) world =
      (.ok (.ok text), world) := by
    rw [Run.ofAct_apply, ← hread]
    rfl
  refine ⟨{ world with notices := world.notices ++ [.openedBook file network] }, ?_, rfl⟩
  rw [Book.openFile, Run.bind_of_ok hfile]
  simp only [hparse]
  rfl

/-- Opening a book never changes the files, whether it succeeds or not. -/
theorem openFile_files (host : Host γ φ) (file network : String) (world : World γ φ) :
    (Book.openFile host file network world).2.files = world.files := by
  have hfile : (liftM (host.readFile file) : Run γ φ (Except FileFault String)) world =
      (.ok (host.disk.read world.files file), world) := rfl
  rw [Book.openFile, Run.bind_of_ok hfile]
  cases host.disk.read world.files file with
  | error fault => rfl
  | ok text =>
    cases hparse : BookDocument.parse text with
    | error fault => simp only [hparse, Run.throw_apply]
    | ok document => simp only [hparse, Run.bind_of_ok (Run.tell_apply _ _), Run.pure_apply]

end Opening

/-! ## Steps and runs keep the map -/

section Refinement

variable {host : Host γ φ} {view : BookView} {book : Book} {world : World γ φ}

/-- A book that was just opened shows the map of its file. -/
theorem shown_of_opened {text : String} {document : BookDocument} {file : String} {files : φ}
    (network : String) (hread : host.disk.read files file = .ok text)
    (hparse : BookDocument.parse text = .ok document) :
    (BookView.ofDocument document network).Shown host.disk
      { file, network, document := document.withNetwork network } files where
  network := rfl
  memory other name := find?_withNetwork document network other name
  file := ⟨text, document, hread, hparse, rfl, fun _ _ => rfl, fun _ => Iff.rfl⟩

theorem answers_get (h : view.Shown host.disk book world.files) (name : String) :
    view.Answers (.get name) (.record (book.get name)) := by
  show book.get name = _
  rw [Book.get, entries_get?, h.memory, h.network]

theorem answers_list (h : view.Shown host.disk book world.files) :
    view.Answers .list (.names book.list) := by
  refine ⟨pairwise_list book, fun name => ?_⟩
  rw [Book.list, mem_names, entries_get?, h.memory, h.network]

/-- Opening the file again, for any network, shows the same map for that network. -/
theorem shown_reopen (h : view.Shown host.disk book world.files) (network : String) :
    ∃ next after, Book.openFile host book.file network world = (.ok next, after) ∧
      next.file = book.file ∧ (view.update (.reopen network)).Shown host.disk next after.files := by
  obtain ⟨text, document, hread, hparse, -, hfind, hstored⟩ := h.file
  obtain ⟨opened, hopen, hfiles⟩ := openFile_of_read network world hread hparse
  refine ⟨_, opened, hopen, rfl, rfl, fun other name => ?_, text, document, ?_, hparse, rfl, hfind,
    hstored⟩
  · exact (find?_withNetwork document network other name).trans (hfind other name)
  · rw [hfiles]
    exact hread

/-- Setting an entry changes the map there, in memory as in the file. -/
theorem shown_set {name : String} {record : Record} {after : World γ φ}
    (hback : host.disk.GivesBack book.file)
    (h : view.Shown host.disk book world.files)
    (htaken : (host.disk.write book.file (book.insert name record).document.print
      world.files).1 = .ok ())
    (hafter : after.files = (host.disk.write book.file
      (book.insert name record).document.print world.files).2) :
    (view.update (.set name record)).Shown host.disk (book.insert name record) after.files := by
  obtain ⟨text, document, hread, hparse, hdocument, hfind, hstored⟩ := h.file
  have hrecorded : ∀ network other, (book.insert name record).document.find? network other =
      (view.update (.set name record)).recorded network other := by
    intro network other
    rw [find?_insert, h.memory, h.network]
    rfl
  have hnetworks : ∀ network,
      ((book.insert name record).document.get? network).isSome = true ↔
        (view.update (.set name record)).stored network := by
    intro network
    rw [isSome_get?_insert, hdocument, isSome_get?_withNetwork, hstored, h.network]
    show _ ↔ network = view.network ∨ view.stored network
    rw [← or_assoc, or_self]
  -- What is written is the document in memory, which has its network already.
  refine ⟨h.network, hrecorded, _, _, ?_, BookDocument.parse_print _, ?_, hrecorded, hnetworks⟩
  · rw [hafter]
    exact hback _ _ _ (Prod.ext htaken rfl)
  · refine (withNetwork_of_isSome ?_).symm
    exact (isSome_get?_insert book name _ record).2 (.inl rfl)

/-- A step answers as the map does, and the map that it leaves is the one that the book then
holds. -/
theorem shown_step {step : BookStep}
    (hback : host.disk.GivesBack book.file)
    (h : view.Shown host.disk book world.files) (htaken : step.IsTaken host book world) :
    ∃ answer next after, step.run host book world = (.ok (answer, next), after) ∧
      next.file = book.file ∧ view.Answers step answer ∧
      (view.update step).Shown host.disk next after.files := by
  cases step with
  | reopen network =>
    obtain ⟨next, after, hopen, hfile, hshown⟩ := shown_reopen h network
    exact ⟨.done, next, after, Run.bind_of_ok hopen, hfile, trivial, hshown⟩
  | get name => exact ⟨_, book, world, rfl, rfl, answers_get h name, h⟩
  | list => exact ⟨_, book, world, rfl, rfl, answers_list h, h⟩
  | set name record =>
    obtain ⟨after, hset, -, hfiles⟩ := Book.set_apply host book name world record
    refine ⟨.done, book.insert name record, after, Run.bind_of_ok ?_, rfl, trivial,
      shown_set hback h htaken hfiles⟩
    rw [Run.ofAct_apply, hset]

/-- So do several steps, each with the book and the files that the last one left. -/
theorem shown_perform {steps : List BookStep}
    (hback : host.disk.GivesBack book.file)
    (h : view.Shown host.disk book world.files) (htaken : book.AllTaken host world steps) :
    ∃ answers next after, book.perform host steps world = (.ok (answers, next), after) ∧
      view.AnswersAll steps answers ∧
      (view.after steps).Shown host.disk next after.files := by
  induction steps generalizing view book world with
  | nil => exact ⟨[], book, world, rfl, rfl, h⟩
  | cons step steps ih =>
    obtain ⟨hfirst, hothers⟩ := htaken
    obtain ⟨answer, next, middle, hrun, hfile, hanswer, hshown⟩ := shown_step hback h hfirst
    obtain ⟨answers, last, after, hperform, hanswers, hlast⟩ :=
      ih (hfile ▸ hback) hshown (hothers answer next middle hrun)
    refine ⟨answer :: answers, last, after, ?_, ⟨hanswer, hanswers⟩, hlast⟩
    rw [Book.perform, Run.bind_of_ok hrun]
    exact Run.bind_of_ok hperform

/-- A file tree takes everything that is written to a file which it has. -/
theorem allTaken_of_shown (node : Node γ) (clock : Nat → Instant) (steps : List BookStep)
    {world : World γ FileTree} (h : view.Shown FileTree.disk book world.files) :
    book.AllTaken ⟨node, FileTree.disk, clock⟩ world steps := by
  induction steps generalizing view book world with
  | nil => trivial
  | cons step steps ih =>
    have htaken : step.IsTaken ⟨node, FileTree.disk, clock⟩ book world := by
      obtain ⟨text, document, hread, -⟩ := h.file
      cases step with
      | set name record => exact FileTree.write_of_read hread _
      | _ => trivial
    -- After a step there is a file again, which is what the next step needs.
    refine ⟨htaken, fun answer next after hrun => ?_⟩
    obtain ⟨_, _, _, hstep, -, -, hshown⟩ := shown_step (FileTree.givesBack book.file) h htaken
    rw [hstep] at hrun
    cases hrun
    exact ih hshown

end Refinement

/-- An address book behaves as a map from networks and names to records. On a disk that gives back
what it took, opening the file and any steps after that succeed, every answer is that of the map,
and the book and its file hold the map that the steps come to. Opening changes no file, so that
a network is in the file only if it was there or had an entry set. -/
theorem session_refines_map (host : Host γ φ) (file network : String) (steps : List BookStep)
    (world : World γ φ) (text : String) (document : BookDocument)
    (hback : host.disk.GivesBack file)
    (hread : host.disk.read world.files file = .ok text)
    (hparse : BookDocument.parse text = .ok document)
    (htaken : ∀ book opened, Book.openFile host file network world = (.ok book, opened) →
      book.AllTaken host opened steps) :
    (∃ answers book after,
      Book.session host file network steps world = (.ok (answers, book), after) ∧
      (BookView.ofDocument document network).AnswersAll steps answers ∧
      ((BookView.ofDocument document network).after steps).Shown host.disk book after.files) ∧
    ∀ other later, (Book.openFile host file other later).2.files = later.files := by
  refine ⟨?_, openFile_files host file⟩
  obtain ⟨opened, hopen, hfiles⟩ := openFile_of_read network world hread hparse
  rw [← hfiles] at hread
  have hshown := shown_of_opened network hread hparse
  obtain ⟨answers, book, after, hperform, hanswers, hlast⟩ :=
    shown_perform hback hshown (htaken _ _ hopen)
  exact ⟨answers, book, after, (Run.bind_of_ok hopen).trans hperform, hanswers, hlast⟩

/-- A world with an address book in which nothing is recorded. -/
def blankBookWorld : World Rehearsal FileTree where
  chain := {}
  files := .file "addresses.json" (.text "") .done

/-- An entry is set in a blank book, which is then opened for another network. -/
theorem session_refines_map_blank_book :
    let view := BookView.ofDocument NameMap.empty "goerli"
    let steps := [.set "Token" Record.missing, .reopen "mainnet", .get "Token", .list]
    (∃ answers book after,
      Book.session rehearsalHost "addresses.json" "goerli" steps blankBookWorld =
        (.ok (answers, book), after) ∧
      view.AnswersAll steps answers ∧ (view.after steps).Shown FileTree.disk book after.files) ∧
    ∀ other (later : World Rehearsal FileTree),
      (Book.openFile rehearsalHost "addresses.json" other later).2.files = later.files := by
  have hread : rehearsalHost.disk.read blankBookWorld.files "addresses.json" = .ok "" := rfl
  refine session_refines_map rehearsalHost "addresses.json" "goerli" _ _ "" NameMap.empty
    (FileTree.givesBack "addresses.json") hread rfl ?_
  intro book opened hopen
  obtain ⟨_, hopened, hfiles⟩ := openFile_of_read "goerli" blankBookWorld hread rfl
  rw [hopened] at hopen
  cases hopen
  rw [← hfiles] at hread
  exact allTaken_of_shown _ _ _ (shown_of_opened "goerli" hread rfl)

end ContractDeploy
