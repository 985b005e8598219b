import ContractDeploy.Proofs.BookHistory
import ContractDeploy.Proofs.OpenHandles
import ContractDeploy.Proofs.RecordValidation
import Mathlib.Data.List.Forall2
import Mathlib.Data.List.Nodup

/-!
# Entries in any order, texts of any form

Each time that an entry is to be set, the address book may be opened anew, for the network of that
entry. Its file is then read, changed in one place and written as a whole. Entries of different
contracts do not meet in this: whichever is set first, the file ends up with the same text. Nor does
it matter how the text that was there at first was spaced and ordered. What is written is the
text of the document alone, and there is one document for what a text says.
-/

namespace ContractDeploy

variable {α β κ γ φ : Type}

/-! ## Maps and documents -/

/-- What is done once for each of several keys comes to the same in any order, if doing it for one
key does not depend on what was done for another. -/
theorem foldl_eq_of_perm {step : β → α → β} {key : α → κ} {items others : List α}
    (hperm : items.Perm others) (hkeys : (items.map key).Nodup)
    (hstep : ∀ state first last, key first ≠ key last →
      step (step state first) last = step (step state last) first) (state : β) :
    items.foldl step state = others.foldl step state := by
  refine hperm.foldl_eq' (fun first hfirst last hlast middle => ?_) state
  by_cases hkey : key first = key last
  · rw [List.inj_on_of_nodup_map hkeys hfirst hlast hkey]
  · exact hstep middle first last hkey

namespace NameMap

variable {pairs others : List (String × α)}

theorem insert_comm (map : NameMap α) {name other : String} (h : name ≠ other)
    (value last : α) :
    (map.insert name value).insert other last = (map.insert other last).insert name value := by
  refine ext_get? fun found => ?_
  simp only [get?_insert]
  by_cases hname : name = found
  · have hother : other ≠ found := fun heq => h (hname.trans heq.symm)
    rw [if_neg hother, if_pos hname, if_pos hname]
  · rw [if_neg hname, if_neg hname]

/-- Pairs of different names make the same map in any order. -/
theorem ofList_eq_of_perm (hperm : pairs.Perm others) (hnames : (pairs.map (·.1)).Nodup) :
    ofList pairs = ofList others :=
  foldl_eq_of_perm hperm hnames (fun map first last hne => map.insert_comm hne first.2 last.2)
    empty

end NameMap

namespace BookDocument

/-- Two documents have the same networks, and the same records on each of them. -/
structure SameContent (document other : BookDocument) : Prop where
  networks : ∀ network, (document.get? network).isSome = (other.get? network).isSome
  records : ∀ network name, document.find? network name = other.find? network name

/-- A document is determined by its content. -/
theorem SameContent.eq {document other : BookDocument} (h : document.SameContent other) :
    document = other := by
  refine NameMap.ext_get? fun network => ?_
  have hnetwork := h.networks network
  have hrecords := h.records network
  simp only [find?] at hrecords
  cases hentries : document.get? network with
  | none =>
    rw [hentries] at hnetwork
    exact (Option.isNone_iff_eq_none.1 (Option.isSome_eq_false_iff.1 hnetwork.symm)).symm
  | some entries =>
    rw [hentries] at hnetwork hrecords
    obtain ⟨found, hfound⟩ := Option.isSome_iff_exists.1 hnetwork.symm
    rw [hfound] at hrecords
    rw [hfound, NameMap.ext_get? hrecords]

/-- Entries of different contracts are replaced in any order. -/
theorem replace_comm (document : BookDocument) {network other name entry : String}
    (h : (network, name) ≠ (other, entry)) (record last : Record) :
    (document.replace network name record).replace other entry last =
      (document.replace other entry last).replace network name record := by
  by_cases hnetwork : network = other
  · subst hnetwork
    have hname : name ≠ entry := fun heq => h (congrArg (Prod.mk network) heq)
    refine NameMap.ext_get? fun found => ?_
    simp only [replace, NameMap.get?_insert, if_true, Option.getD_some,
      NameMap.insert_comm _ hname]
    split <;> rfl
  · have hother : other ≠ network := Ne.symm hnetwork
    simp only [replace, NameMap.get?_insert, if_neg hnetwork, if_neg hother]
    exact document.insert_comm hnetwork _ _

/-! ## Texts -/

/-- A text lists each network once, and each contract once on its network. -/
structure ListsOnce (listing : Listing) : Prop where
  networks : (listing.map (·.1)).Nodup
  entries : ∀ network ∈ listing, (network.2.map (·.1)).Nodup

/-- A network is listed twice with the same records of contracts, in any order. -/
def SameEntries (network found : String × List (String × RecordForm)) : Prop :=
  network.1 = found.1 ∧ network.2.Perm found.2

/-- Two texts list the same, in any order of the networks and of the contracts on each. -/
def Reordered (listing other : Listing) : Prop :=
  ∃ between : Listing, List.Forall₂ SameEntries listing between ∧ between.Perm other

theorem recordsOf_eq_of_perm {entries others : List (String × RecordForm)}
    (hperm : entries.Perm others) (hnames : (entries.map (·.1)).Nodup) :
    recordsOf entries = recordsOf others := by
  refine NameMap.ofList_eq_of_perm (hperm.map _) ?_
  rw [List.map_map]
  exact hnames

/-- The order in which the contracts of each network are listed does not matter. -/
theorem map_recordsOf_eq_of_forall₂ {listing between : Listing}
    (hentries : ∀ network ∈ listing, (network.2.map (·.1)).Nodup)
    (h : List.Forall₂ SameEntries listing between) :
    listing.map (fun network => (network.1, recordsOf network.2)) =
      between.map fun network => (network.1, recordsOf network.2) := by
  induction h with
  | nil => rfl
  | cons hhead hrest ih =>
    obtain ⟨hnodup, hentries⟩ := List.forall_mem_cons.1 hentries
    rw [List.map_cons, List.map_cons, ih hentries, hhead.1, recordsOf_eq_of_perm hhead.2 hnodup]

theorem ofListing_eq_of_reordered {listing other : Listing} (honce : ListsOnce listing)
    (h : Reordered listing other) : ofListing listing = ofListing other := by
  obtain ⟨between, hforall, hperm⟩ := h
  have hpairs := map_recordsOf_eq_of_forall₂ honce.entries hforall
  have hnames : ((listing.map fun network => (network.1, recordsOf network.2)).map
      (·.1)).Nodup := by
    rw [List.map_map]
    exact honce.networks
  rw [hpairs] at hnames
  rw [ofListing, hpairs]
  exact NameMap.ofList_eq_of_perm (hperm.map _) hnames

/-- An accepted text says what its listing does. -/
theorem Lists.eq_ofListing {text : String} {listing : Listing} {document : BookDocument}
    (h : Lists text listing) (hparse : parse text = .ok document) :
    document = ofListing listing := by
  rcases allRecords_or_firstViolation listing with hall | ⟨fault, hfirst⟩
  · rw [h.parse_of_allRecords hall] at hparse
    exact (Except.ok.inj hparse).symm
  · rw [h.parse_of_firstViolation hfirst] at hparse
    cases hparse

end BookDocument

/-! ## Writes -/

/-- An entry that is to be set. -/
structure EntryWrite where
  network : String
  name : String
  record : Record

/-- The document with several entries set. -/
def BookDocument.written (document : BookDocument) (writes : List EntryWrite) : BookDocument :=
  writes.foldl (fun document write => document.replace write.network write.name write.record)
    document

namespace EntryWrite

/-- The contract whose entry is set. -/
def contract (write : EntryWrite) : String × String := (write.network, write.name)

section Runs

variable (host : Host γ φ) (file : String)

/-- Opens the book for the network of the entry and sets it. -/
def run (write : EntryWrite) : Run γ φ Book := do
  let book ← Book.openFile host file write.network
  (book.set host write.name write.record : Act γ φ Book)

/-- Sets several entries, one after the other. -/
def runAll : List EntryWrite → Run γ φ Unit
  | [] => return ()
  | write :: writes => do
    let _ ← write.run host file
    runAll writes

/-- The disk takes what is written for an entry. -/
def IsTaken (write : EntryWrite) (world : World γ φ) : Prop :=
  ∀ book opened, Book.openFile host file write.network world = (.ok book, opened) →
    (host.disk.write file (book.insert write.name write.record).document.print opened.files).1 =
      .ok ()

/-- The disk takes what is written for each of several entries. -/
def AllTaken (world : World γ φ) : List EntryWrite → Prop
  | [] => True
  | write :: writes => write.IsTaken host file world ∧
    ∀ book after, write.run host file world = (.ok book, after) → AllTaken after writes

end Runs

section Writes

variable {host : Host γ φ} {file : String} {world : World γ φ} {document : BookDocument}
  {write : EntryWrite} {writes others : List EntryWrite}

/-- Setting an entry makes the file the text of its document with that entry replaced. -/
theorem run_of_holdsBook (hback : host.disk.GivesBack file)
    (hholds : host.HoldsBook file world document) (htaken : write.IsTaken host file world) :
    ∃ book after, write.run host file world = (.ok book, after) ∧
      host.disk.read after.files file =
        .ok (document.replace write.network write.name write.record).print := by
  obtain ⟨text, hread, hparse⟩ := hholds
  obtain ⟨opened, hopen, -⟩ := openFile_of_read write.network world hread hparse
  let book := Book.opened file write.network document
  have hwrite := htaken book opened hopen
  obtain ⟨after, hset, -, hfiles⟩ := Book.set_apply host book write.name opened write.record
  have hrun : (book.set host write.name write.record : Run γ φ Book) opened =
      (.ok (book.insert write.name write.record), after) := by
    rw [Run.ofAct_apply, hset]
  have hdocument : (book.insert write.name write.record).document =
      document.replace write.network write.name write.record :=
    document.replace_withNetwork write.network write.name write.record
  refine ⟨_, after, (Run.bind_of_ok hopen).trans hrun, ?_⟩
  rw [hfiles, ← hdocument]
  exact hback _ _ _ (Prod.ext hwrite rfl)

/-- Setting entries, at least one, makes the file the text of its document with these entries
replaced. -/
theorem runAll_of_holdsBook (hback : host.disk.GivesBack file)
    (hholds : host.HoldsBook file world document)
    (htaken : AllTaken host file world (write :: writes)) :
    ∃ after, runAll host file (write :: writes) world = (.ok (), after) ∧
      host.disk.read after.files file = .ok (document.written (write :: writes)).print := by
  induction writes generalizing write world document with
  | nil =>
    obtain ⟨book, after, hrun, hread⟩ := run_of_holdsBook hback hholds htaken.1
    exact ⟨after, Run.bind_of_ok hrun, hread⟩
  | cons next writes ih =>
    obtain ⟨book, middle, hrun, hread⟩ := run_of_holdsBook hback hholds htaken.1
    have hmiddle : host.HoldsBook file middle
        (document.replace write.network write.name write.record) :=
      ⟨_, hread, BookDocument.parse_print _⟩
    obtain ⟨after, hrest, hlast⟩ := ih hmiddle (htaken.2 book middle hrun)
    exact ⟨after, (Run.bind_of_ok hrun).trans hrest, hlast⟩

/-- Entries of different contracts are set in any order. -/
theorem written_eq_of_perm (document : BookDocument) (hperm : writes.Perm others)
    (hcontracts : (writes.map contract).Nodup) :
    document.written writes = document.written others :=
  foldl_eq_of_perm hperm hcontracts
    (fun document first last hne => document.replace_comm hne first.record last.record) document

/-- A file tree takes everything that is written to a file which it has. -/
theorem allTaken_of_holdsBook (node : Node γ) (clock : Nat → Instant) {world : World γ FileTree}
    (hholds : Host.HoldsBook ⟨node, FileTree.disk, clock⟩ file world document) :
    AllTaken ⟨node, FileTree.disk, clock⟩ file world writes := by
  induction writes generalizing world document with
  | nil => trivial
  | cons write writes ih =>
    have htaken : write.IsTaken ⟨node, FileTree.disk, clock⟩ file world := by
      intro book opened hopen
      obtain ⟨text, hread, -⟩ := hholds
      have hfiles := openFile_files ⟨node, FileTree.disk, clock⟩ file write.network world
      rw [hopen] at hfiles
      rw [← hfiles] at hread
      exact FileTree.write_of_read hread _
    refine ⟨htaken, fun book after hrun => ?_⟩
    obtain ⟨_, _, hset, hread⟩ := run_of_holdsBook (FileTree.givesBack file) hholds htaken
    rw [hset] at hrun
    cases hrun
    exact ih ⟨_, hread, BookDocument.parse_print _⟩

end Writes

end EntryWrite

/-- Two runs from two worlds succeed and leave the same text, each in the file that it is about: a
text of the document. -/
def LeaveSameText (host : Host γ φ) (run other : Run γ φ Unit) (file path : String)
    (world start : World γ φ) (document : BookDocument) : Prop :=
  ∃ after last text, run world = (.ok (), after) ∧ other start = (.ok (), last) ∧
    host.disk.read after.files file = .ok text ∧ host.disk.read last.files path = .ok text ∧
    BookDocument.parse text = .ok document

/-- Entries of different contracts may be set in any order. On a disk that gives back what it took,
setting them succeeds, each in a book that is opened for its network just then, and the text of the
file afterwards is the same for all orders. Nor does that text depend on how the text of the file
was written before: if two files say the same, then the same entries, at least one, leave the same
text in both. Files say the same that list the same records in any order. -/
theorem independent_writes_commute (host : Host γ φ) (file : String)
    (hback : host.disk.GivesBack file) :
    (∀ world document writes others, host.HoldsBook file world document →
      (writes.map EntryWrite.contract).Nodup → writes.Perm others →
      EntryWrite.AllTaken host file world writes → EntryWrite.AllTaken host file world others →
      LeaveSameText host (EntryWrite.runAll host file writes) (EntryWrite.runAll host file others)
        file file world world (document.written writes)) ∧
    (∀ path world start document another writes, host.disk.GivesBack path →
      host.HoldsBook file world document → host.HoldsBook path start another →
      document.SameContent another → writes ≠ [] →
      EntryWrite.AllTaken host file world writes → EntryWrite.AllTaken host path start writes →
      LeaveSameText host (EntryWrite.runAll host file writes) (EntryWrite.runAll host path writes)
        file path world start (document.written writes)) ∧
    ∀ text other document another listing reordered, BookDocument.parse text = .ok document →
      BookDocument.parse other = .ok another → BookDocument.Lists text listing →
      BookDocument.Lists other reordered → BookDocument.ListsOnce listing →
      BookDocument.Reordered listing reordered → document.SameContent another := by
  refine ⟨?_, ?_, ?_⟩
  · intro world document writes others hholds hcontracts hperm htaken hothers
    cases writes with
    | nil =>
      obtain rfl := hperm.nil_eq
      obtain ⟨text, hread, hparse⟩ := hholds
      exact ⟨world, world, text, rfl, rfl, hread, hread, hparse⟩
    | cons write writes =>
      have hwritten := EntryWrite.written_eq_of_perm document hperm hcontracts
      obtain ⟨after, hrun, hread⟩ := EntryWrite.runAll_of_holdsBook hback hholds htaken
      obtain ⟨first, rest, rfl⟩ : ∃ first rest, others = first :: rest :=
        List.exists_cons_of_ne_nil fun hnil => List.cons_ne_nil _ _ (hnil ▸ hperm).eq_nil
      obtain ⟨last, hlast, hreads⟩ := EntryWrite.runAll_of_holdsBook hback hholds hothers
      rw [← hwritten] at hreads
      exact ⟨after, last, _, hrun, hlast, hread, hreads, BookDocument.parse_print _⟩
  · intro path world start document another writes hpath hholds hstart hsame hne htaken hothers
    obtain ⟨write, writes, rfl⟩ := List.exists_cons_of_ne_nil hne
    obtain rfl := hsame.eq
    obtain ⟨after, hrun, hread⟩ := EntryWrite.runAll_of_holdsBook hback hholds htaken
    obtain ⟨last, hlast, hreads⟩ := EntryWrite.runAll_of_holdsBook hpath hstart hothers
    exact ⟨after, last, _, hrun, hlast, hread, hreads, BookDocument.parse_print _⟩
  · intro text other document another listing reordered hparse hother hlists hreordered honce hsame
    have heq : document = another := by
      rw [hlists.eq_ofListing hparse, hreordered.eq_ofListing hother,
        BookDocument.ofListing_eq_of_reordered honce hsame]
    rw [heq]
    exact ⟨fun _ => rfl, fun _ _ => rfl⟩

/-- A text of an address book, with spaces and with its networks out of order. -/
def spacedBook : String :=
  "\x7b\"5\": \x7b\x7d, \"1\": \x7b\"Vault\": \x7b\"address\": \"\"\x7d\x7d\x7d"

/-- A text that says the same, without spaces and in order. -/
def plainBook : String :=
  "\x7b\"1\":\x7b\"Vault\":\x7b\"address\":\"\"\x7d\x7d,\"5\":\x7b\x7d\x7d"

/-- The document of both texts. -/
def vaultDocument : BookDocument :=
  BookDocument.replace (NameMap.empty.insert "5" NameMap.empty) "1" "Vault" Record.missing

/-- A world with the text of an address book. -/
def bookWorld (text : String) : World Rehearsal FileTree :=
  { blankBookWorld with files := .file "addresses.json" (.text text) .done }

theorem bookWorld_holdsBook {text : String} {document : BookDocument}
    (h : BookDocument.parse text = .ok document) :
    rehearsalHost.HoldsBook "addresses.json" (bookWorld text) document :=
  ⟨text, rfl, h⟩

/-- Entries of two networks, one of them new, are set in both orders and for both texts. -/
theorem independent_writes_commute_two_texts :
    let writes : List EntryWrite :=
      [⟨"1", "Token", Record.missing⟩, ⟨"7", "Token", Record.missing⟩]
    let runAll := EntryWrite.runAll rehearsalHost "addresses.json"
    LeaveSameText rehearsalHost (runAll writes) (runAll writes.reverse) "addresses.json"
        "addresses.json" (bookWorld spacedBook) (bookWorld spacedBook)
        (vaultDocument.written writes) ∧
      LeaveSameText rehearsalHost (runAll writes) (runAll writes) "addresses.json"
        "addresses.json" (bookWorld spacedBook) (bookWorld plainBook)
        (vaultDocument.written writes) := by
  intro writes runAll
  have hspaced : rehearsalHost.HoldsBook "addresses.json" (bookWorld spacedBook) vaultDocument :=
    bookWorld_holdsBook (by decide +kernel)
  have hplain : rehearsalHost.HoldsBook "addresses.json" (bookWorld plainBook) vaultDocument :=
    bookWorld_holdsBook (by decide +kernel)
  have htaken (writes : List EntryWrite) : EntryWrite.AllTaken rehearsalHost "addresses.json"
      (bookWorld spacedBook) writes :=
    EntryWrite.allTaken_of_holdsBook _ _ hspaced
  have hback := FileTree.givesBack "addresses.json"
  obtain ⟨hperm, hsame, -⟩ := independent_writes_commute rehearsalHost "addresses.json" hback
  constructor
  · exact hperm _ _ writes writes.reverse hspaced (by decide) (List.reverse_perm writes).symm
      (htaken writes) (htaken writes.reverse)
  · exact hsame _ _ _ _ _ writes hback hspaced hplain ⟨fun _ => rfl, fun _ _ => rfl⟩
      (List.cons_ne_nil _ _) (htaken writes) (EntryWrite.allTaken_of_holdsBook _ _ hplain)

end ContractDeploy
