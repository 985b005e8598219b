import ContractDeploy.Proofs.Footprint
import Mathlib.Logic.Relation

/-!
# What a run leaves in the files

A run that records deployments adds to its journal and hands whole texts to the disk for the file
of the address book, and leaves the files alone otherwise. `BookSaves` is that history for any
disk, with the documents in order and with the disk's answer to each. With the journal kept apart
from the book, the last document decides what the file holds: if the disk took it, the file holds
it, and if not, what the refused write left. Only on a disk that leaves files alone where it refuses
to write them can one look further back, to the last document that was taken.
-/

namespace ContractDeploy

variable {γ φ : Type}

/-- A disk gives back what it took for a path. -/
def Disk.GivesBack (disk : Disk φ) (path : String) : Prop :=
  ∀ text before after, disk.write path text before = (.ok (), after) →
    disk.read after path = .ok text

/-- A disk leaves a path as it was where it refuses to write it. Not every disk does: one that
empties a file before it writes it may run out of room in between. -/
def Disk.LeavesRefused (disk : Disk φ) (path : String) : Prop :=
  ∀ text fault before after, disk.write path text before = (.error fault, after) →
    disk.read after path = disk.read before path

/-- What a full disk says. -/
def FileFault.noSpace : FileFault := .other "No space left on device (os error 28)"

/-- A disk that is full. A file that is to be written is emptied first, and then nothing more of it
can be written. -/
def Disk.full (disk : Disk φ) : Disk φ where
  read := disk.read
  write path _ files :=
    match disk.write path "" files with
    | (.ok (), emptied) => (.error .noSpace, emptied)
    | (.error fault, untouched) => (.error fault, untouched)
  append path _ files :=
    match disk.append path "" files with
    | (.ok (), opened) => (.error .noSpace, opened)
    | (.error fault, untouched) => (.error fault, untouched)
  list := disk.list

/-- A journal of which no file is the one at a path. -/
def Journal.Apart (journal : Journal) (disk : Disk φ) (path : String) : Prop :=
  ∀ directory now text files, journal.directory = some directory →
    disk.read (disk.append (Journal.path directory now) text files).2 path = disk.read files path

/-- Something was added to a file of the journal. -/
def Journal.Added (journal : Journal) (disk : Disk φ) (before after : φ) : Prop :=
  ∃ directory now text, journal.directory = some directory ∧
    after = (disk.append (Journal.path directory now) text before).2

/-- Nothing happened to the files but additions to the journal. -/
abbrev Journal.Grown (journal : Journal) (disk : Disk φ) : φ → φ → Prop :=
  Relation.ReflTransGen (journal.Added disk)

/-- A document that was handed to the disk, and what the disk answered. -/
abbrev BookSave := BookDocument × Except FileFault Unit

/-- The files changed by additions to the journal and by handing these documents to the disk for a
file, one after the other. -/
def BookSaves (disk : Disk φ) (journal : Journal) (path : String) : List BookSave → φ → φ → Prop
  | [], before, after => journal.Grown disk before after
  | (document, answer) :: saves, before, after => ∃ reached saved,
    journal.Grown disk before reached ∧ disk.write path document.print reached = (answer, saved) ∧
      BookSaves disk journal path saves saved after

/-- What a file holds after documents were handed to the disk for it, if those that were refused
changed nothing: the last one that was taken, or what it held before. -/
def heldAfter (held : Except FileFault String) : List BookSave → Except FileFault String
  | [] => held
  | (document, .ok ()) :: saves => heldAfter (.ok document.print) saves
  | (_, .error _) :: saves => heldAfter held saves

/-- Documents that are handed over later go on from what the earlier ones left. -/
theorem heldAfter_append (held : Except FileFault String) (saves more : List BookSave) :
    heldAfter held (saves ++ more) = heldAfter (heldAfter held saves) more := by
  induction saves generalizing held with
  | nil => rfl
  | cons save saves ih =>
    obtain ⟨document, answer⟩ := save
    cases answer with
    | ok _ => exact ih _
    | error fault => exact ih held

/-- A file holds what it held before, or one of the documents that were handed to the disk. -/
theorem heldAfter_eq (held : Except FileFault String) (saves : List BookSave) :
    heldAfter held saves = held ∨
      ∃ document ∈ saves.map Prod.fst, heldAfter held saves = .ok document.print := by
  induction saves generalizing held with
  | nil => exact .inl rfl
  | cons save saves ih =>
    obtain ⟨document, answer⟩ := save
    rw [List.map_cons]
    cases answer with
    | ok _ =>
      right
      rcases ih (.ok document.print) with h | ⟨later, hlater, h⟩
      · exact ⟨document, List.mem_cons_self, h⟩
      · exact ⟨later, List.mem_cons_of_mem _ hlater, h⟩
    | error fault =>
      rcases ih held with h | ⟨later, hlater, h⟩
      · exact .inl h
      · exact .inr ⟨later, List.mem_cons_of_mem _ hlater, h⟩

section Saves

variable {disk : Disk φ} {journal : Journal} {path : String} {before middle after : φ}
  {saves : List BookSave}

theorem Journal.Grown.read_eq (h : journal.Grown disk before after)
    (hapart : journal.Apart disk path) : disk.read after path = disk.read before path := by
  induction h with
  | refl => rfl
  | tail _ hadded ih =>
    obtain ⟨directory, now, text, hdirectory, rfl⟩ := hadded
    rw [hapart directory now text _ hdirectory, ih]

/-- A history ends with its last document, on files that the ones before it left. -/
theorem BookSaves.exists_last {document : BookDocument} {answer : Except FileFault Unit}
    (h : BookSaves disk journal path (saves ++ [(document, answer)]) before after) :
    ∃ reached saved, BookSaves disk journal path saves before reached ∧
      disk.write path document.print reached = (answer, saved) ∧
      journal.Grown disk saved after := by
  induction saves generalizing before with
  | nil => exact h
  | cons save saves ih =>
    obtain ⟨first, middle, hgrown, hwrite, hrest⟩ := h
    obtain ⟨reached, saved, hsaves, hlast, hafter⟩ := ih hrest
    exact ⟨reached, saved, ⟨first, middle, hgrown, hwrite, hsaves⟩, hlast, hafter⟩

/-- The file holds what the last write left of it, be it taken or refused. -/
theorem BookSaves.read_last {document : BookDocument} {answer : Except FileFault Unit}
    (h : BookSaves disk journal path (saves ++ [(document, answer)]) before after)
    (hapart : journal.Apart disk path) :
    ∃ reached saved, BookSaves disk journal path saves before reached ∧
      disk.write path document.print reached = (answer, saved) ∧
      disk.read after path = disk.read saved path := by
  obtain ⟨reached, saved, hsaves, hlast, hgrown⟩ := h.exists_last
  exact ⟨reached, saved, hsaves, hlast, hgrown.read_eq hapart⟩

/-- If the last document was taken, the file holds it, whatever became of the others. -/
theorem BookSaves.read_taken {document : BookDocument}
    (h : BookSaves disk journal path (saves ++ [(document, .ok ())]) before after)
    (hback : disk.GivesBack path) (hapart : journal.Apart disk path) :
    disk.read after path = .ok document.print := by
  obtain ⟨reached, saved, -, hlast, hread⟩ := h.read_last hapart
  exact hread.trans (hback _ _ _ hlast)

/-- If it was refused, and refused writes change nothing, the file holds what the others left. -/
theorem BookSaves.read_refused {document : BookDocument} {fault : FileFault}
    (h : BookSaves disk journal path (saves ++ [(document, .error fault)]) before after)
    (hleaves : disk.LeavesRefused path) (hapart : journal.Apart disk path) :
    ∃ reached, BookSaves disk journal path saves before reached ∧
      disk.read after path = disk.read reached path := by
  obtain ⟨reached, saved, hsaves, hlast, hread⟩ := h.read_last hapart
  exact ⟨reached, hsaves, hread.trans (hleaves _ _ _ _ hlast)⟩

/-- Where refused writes change nothing, the history says what the file holds. -/
theorem BookSaves.read_eq (h : BookSaves disk journal path saves before after)
    (hback : disk.GivesBack path) (hleaves : disk.LeavesRefused path)
    (hapart : journal.Apart disk path) :
    disk.read after path = heldAfter (disk.read before path) saves := by
  induction saves generalizing before with
  | nil => exact Journal.Grown.read_eq h hapart
  | cons save saves ih =>
    obtain ⟨document, answer⟩ := save
    obtain ⟨reached, saved, hgrown, hwrite, hrest⟩ := h
    cases answer with
    | ok _ => rw [ih hrest, heldAfter, hback _ _ _ hwrite]
    | error fault =>
      rw [ih hrest, heldAfter, hleaves _ _ _ _ hwrite, hgrown.read_eq hapart]

/-- The files after these documents were handed to the disk for a file, with what that file holds
if the disk gives back what it took and the journal is elsewhere. -/
structure FileEffect (disk : Disk φ) (journal : Journal) (path : String) (saves : List BookSave)
    (before after : φ) : Prop where
  /-- The documents were handed over, and only the journal was written besides. -/
  saved : BookSaves disk journal path saves before after
  /-- If the last of them was taken, the file holds it. -/
  taken : disk.GivesBack path → journal.Apart disk path → ∀ earlier document,
    saves = earlier ++ [(document, .ok ())] → disk.read after path = .ok document.print
  /-- Where refused writes change nothing, the file holds the last of them that was taken, or what
  it held before. -/
  held : disk.GivesBack path → disk.LeavesRefused path → journal.Apart disk path →
    disk.read after path = heldAfter (disk.read before path) saves

theorem BookSaves.effect (h : BookSaves disk journal path saves before after) :
    FileEffect disk journal path saves before after where
  saved := h
  taken hback hapart earlier document hlast := by
    rw [hlast] at h
    exact h.read_taken hback hapart
  held := h.read_eq

/-- What was added to the journal first belongs to the history as well. -/
theorem BookSaves.of_grown (hgrown : journal.Grown disk before middle)
    (h : BookSaves disk journal path saves middle after) :
    BookSaves disk journal path saves before after := by
  cases saves with
  | nil => exact hgrown.trans h
  | cons save saves =>
    obtain ⟨reached, saved, hreached, hrest⟩ := h
    exact ⟨reached, saved, hgrown.trans hreached, hrest⟩

/-- A history goes on with a later one. -/
theorem BookSaves.append {more : List BookSave}
    (h : BookSaves disk journal path saves before middle)
    (hmore : BookSaves disk journal path more middle after) :
    BookSaves disk journal path (saves ++ more) before after := by
  induction saves generalizing before with
  | nil => exact hmore.of_grown h
  | cons save saves ih =>
    obtain ⟨reached, saved, hreached, hwrite, hrest⟩ := h
    exact ⟨reached, saved, hreached, hwrite, ih hrest⟩

/-- What is added to the journal afterwards belongs to the history as well. -/
theorem BookSaves.append_grown (h : BookSaves disk journal path saves before middle)
    (hgrown : journal.Grown disk middle after) :
    BookSaves disk journal path saves before after := by
  have hnone : BookSaves disk journal path [] middle after := hgrown
  have happend := h.append hnone
  rwa [List.append_nil] at happend

/-- Handing one document to the disk is a history. -/
theorem BookSaves.single (disk : Disk φ) (journal : Journal) (path : String)
    (document : BookDocument) (files : φ) :
    BookSaves disk journal path [(document, (disk.write path document.print files).1)] files
      (disk.write path document.print files).2 :=
  ⟨files, _, .refl, rfl, .refl⟩

end Saves

/-- A deployment only adds to the journal. -/
theorem deploymentSteps_grown (host : Host γ φ) (journal : Journal) :
    DeploymentSteps host journal fun before after =>
      journal.Grown host.disk before.files after.files where
  refl _ := .refl
  trans := .trans
  told _ _ := .refl
  clockRead _ := .refl
  journalKept directory now text _ hdirectory := .single ⟨directory, now, text, hdirectory, rfl⟩
  submitted _ _ := .refl
  awaited _ _ := .refl
  codeRead _ _ := .refl

end ContractDeploy
