import ContractDeploy.Proofs.BookSession

/-!
# Several books open on one file

An address book is read when it is opened, and written as a whole whenever an entry is set. Books
that are open on the same file therefore know nothing of each other: each goes on from the document
that it read, changed by its own writes only, and each write puts this document, with the entries of
all networks, in the place of whatever another book has written meanwhile. A run opens books and
sets entries of them in any order; the books are numbered in the order in which they are opened.
What is said of a run is said of every moment of it, since what was done up to a moment is a run
too.
-/

namespace ContractDeploy

variable {γ φ : Type}

/-! ## Runs -/

/-- Something that is done with the books that are open on a file. -/
inductive HandleStep where
  /-- Opens one more book. -/
  | openFile (network : String)
  /-- Sets an entry of an open book. -/
  | set (handle : Nat) (name : String) (record : Record)

namespace HandleStep

/-- Whether a step opens a book. -/
def Opens : HandleStep → Prop
  | openFile _ => True
  | set _ _ _ => False

section Runs

variable (host : Host γ φ)

/-- Takes a step. There is nothing to be done with a book that is not open. -/
def run (file : String) (books : List Book) : HandleStep → Run γ φ (List Book)
  | openFile network => do
    let book ← Book.openFile host file network
    return books ++ [book]
  | set handle name record =>
    match books[handle]? with
    | none => return books
    | some book => do
      let book ← (book.set host name record : Act γ φ Book)
      return books.set handle book

/-- Takes several steps, one after the other. -/
def runAll (file : String) : List HandleStep → List Book → Run γ φ (List Book)
  | [], books => return books
  | step :: steps, books => do
    let books ← step.run host file books
    runAll file steps books

/-- The disk takes what a step writes, if it writes. -/
def IsTaken (books : List Book) (world : World γ φ) : HandleStep → Prop
  | openFile _ => True
  | set handle name record => ∀ book, books[handle]? = some book →
    (host.disk.write book.file (book.insert name record).document.print world.files).1 = .ok ()

/-- The disk takes everything that several steps write. -/
def AllTaken (file : String) (books : List Book) (world : World γ φ) : List HandleStep → Prop
  | [] => True
  | step :: steps => step.IsTaken host books world ∧
    ∀ next after, step.run host file books world = (.ok next, after) →
      AllTaken file next after steps

end Runs

end HandleStep

/-- The text of a file is that of a document. -/
def Host.HoldsBook (host : Host γ φ) (file : String) (world : World γ φ)
    (document : BookDocument) : Prop :=
  ∃ text, host.disk.read world.files file = .ok text ∧ BookDocument.parse text = .ok document

/-- A book as it is when it is opened. -/
def Book.opened (file network : String) (document : BookDocument) : Book :=
  { file, network, document := document.withNetwork network }

/-- A book after several of its entries were set. -/
def Book.updated (book : Book) (writes : List (String × Record)) : Book :=
  writes.foldl (fun book write => book.insert write.1 write.2) book

/-- What is set in one of the books. -/
def ownWrites (handle : Nat) : List HandleStep → List (String × Record)
  | [] => []
  | .openFile _ :: steps => ownWrites handle steps
  | .set other name record :: steps =>
    if other = handle then (name, record) :: ownWrites handle steps else ownWrites handle steps

theorem ownWrites_append (handle : Nat) (steps others : List HandleStep) :
    ownWrites handle (steps ++ others) = ownWrites handle steps ++ ownWrites handle others := by
  induction steps with
  | nil => rfl
  | cons step steps ih =>
    cases step with
    | openFile network => exact ih
    | set other name record =>
      show (if other = handle then (name, record) :: ownWrites handle (steps ++ others)
        else ownWrites handle (steps ++ others)) = _
      rw [ih, ownWrites]
      by_cases hown : other = handle
      · rw [if_pos hown, if_pos hown, List.cons_append]
      · rw [if_neg hown, if_neg hown]

theorem ownWrites_of_opens {handle : Nat} {steps : List HandleStep}
    (h : ∀ step ∈ steps, step.Opens) : ownWrites handle steps = [] := by
  induction steps with
  | nil => rfl
  | cons step steps ih =>
    obtain ⟨hstep, hsteps⟩ := List.forall_mem_cons.1 h
    cases step with
    | openFile network => exact ih hsteps
    | set other name record => exact hstep.elim

theorem Book.updated_append (book : Book) (writes others : List (String × Record)) :
    book.updated (writes ++ others) = (book.updated writes).updated others :=
  List.foldl_append

/-- What is set in a book leaves the other networks alone, and the names that are not set. -/
theorem Book.find?_updated_of_unset (book : Book) {writes : List (String × Record)}
    {network name : String} (h : network = book.network → name ∉ writes.map (·.1)) :
    (book.updated writes).document.find? network name = book.document.find? network name := by
  induction writes generalizing book with
  | nil => rfl
  | cons write writes ih =>
    have hrest : network = (book.insert write.1 write.2).network → name ∉ writes.map (·.1) :=
      fun hnetwork hmem => h hnetwork (List.mem_cons_of_mem _ hmem)
    show ((book.insert write.1 write.2).updated writes).document.find? network name = _
    rw [ih _ hrest, find?_insert]
    apply if_neg
    rintro ⟨hnetwork, rfl⟩
    exact h hnetwork List.mem_cons_self

/-! ## What steps leave -/

namespace HandleStep

section Steps

variable {host : Host γ φ} {file : String} {books : List Book} {world : World γ φ}
  {document : BookDocument} {steps others : List HandleStep}

theorem runAll_append (host : Host γ φ) (file : String) (steps others : List HandleStep)
    (books : List Book) :
    runAll host file (steps ++ others) books =
      runAll host file steps books >>= runAll host file others := by
  induction steps generalizing books with
  | nil => rfl
  | cons step steps ih =>
    rw [List.cons_append, runAll, runAll, bind_assoc]
    congr 1
    funext next
    exact ih next

theorem AllTaken.append (h : AllTaken host file books world (steps ++ others)) :
    AllTaken host file books world steps ∧
      ∀ next after, runAll host file steps books world = (.ok next, after) →
        AllTaken host file next after others := by
  induction steps generalizing books world with
  | nil =>
    refine ⟨trivial, ?_⟩
    rintro next after hrun
    cases hrun
    exact h
  | cons step steps ih =>
    obtain ⟨hstep, hrest⟩ := h
    refine ⟨⟨hstep, fun next after hrun => (ih (hrest next after hrun)).1⟩, ?_⟩
    intro last after hrun
    obtain ⟨next, middle, hfirst, hlast⟩ := Run.bind_eq_ok hrun
    exact (ih (hrest next middle hfirst)).2 last after hlast

theorem run_openFile (books : List Book) (network : String)
    (hholds : host.HoldsBook file world document) :
    ∃ after, (openFile network).run host file books world =
        (.ok (books ++ [Book.opened file network document]), after) ∧
      after.files = world.files := by
  obtain ⟨text, hread, hparse⟩ := hholds
  obtain ⟨after, hopen, hfiles⟩ := openFile_of_read network world hread hparse
  refine ⟨after, ?_, hfiles⟩
  rw [run, Run.bind_of_ok hopen]
  rfl

/-- What steps leave: the books of the file, each changed by its own writes only, and a file that
holds a document, the one that it held if no entry was set. -/
structure Leaves (host : Host γ φ) (file : String) (steps : List HandleStep) (books : List Book)
    (world : World γ φ) (next : List Book) (after : World γ φ) : Prop where
  files : ∀ book ∈ next, book.file = file
  own : ∀ (handle : Nat) (book : Book), books[handle]? = some book →
    next[handle]? = some (book.updated (ownWrites handle steps))
  held : ∃ document, host.HoldsBook file after document
  unwritten : (∀ step ∈ steps, step.Opens) → after.files = world.files

section Written

-- The disk gives back what was written to the file.
variable (hback : host.disk.GivesBack file)

include hback

/-- An entry that is set is written with everything else that its book holds. -/
theorem run_set {handle : Nat} {name : String} {record : Record} {book : Book}
    (hbook : books[handle]? = some book) (hfile : book.file = file)
    (htaken : (set handle name record).IsTaken host books world) :
    ∃ after, (set handle name record).run host file books world =
        (.ok (books.set handle (book.insert name record)), after) ∧
      host.HoldsBook file after (book.insert name record).document := by
  obtain ⟨after, hset, -, hfiles⟩ := Book.set_apply host book name world record
  have hwrite := htaken book hbook
  rw [hfile] at hwrite hfiles
  refine ⟨after, ?_, _, ?_, BookDocument.parse_print _⟩
  · have hrun : (book.set host name record : Run γ φ Book) world =
        (.ok (book.insert name record), after) := by
      rw [Run.ofAct_apply, hset]
    rw [run, hbook]
    exact Run.bind_of_ok hrun
  · rw [hfiles]
    exact hback _ _ _ (Prod.ext hwrite rfl)

theorem run_leaves (step : HandleStep)
    (hfile : ∀ book ∈ books, book.file = file) (hholds : host.HoldsBook file world document)
    (htaken : step.IsTaken host books world) :
    ∃ next after, step.run host file books world = (.ok next, after) ∧
      Leaves host file [step] books world next after := by
  cases step with
  | openFile network =>
    obtain ⟨after, hrun, hfiles⟩ := run_openFile books network hholds
    refine ⟨_, after, hrun, ?_, ?_, ⟨document, ?_⟩, fun _ => hfiles⟩
    · intro book hbook
      rcases List.mem_append.1 hbook with hbook | hbook
      · exact hfile book hbook
      · rw [List.mem_singleton.1 hbook]
        rfl
    · intro handle book hbook
      rw [List.getElem?_append_left (List.getElem?_eq_some_iff.1 hbook).1]
      exact hbook
    · unfold Host.HoldsBook
      rw [hfiles]
      exact hholds
  | set handle name record =>
    cases hbook : books[handle]? with
    | none =>
      refine ⟨books, world, ?_, hfile, ?_, ⟨document, hholds⟩, fun _ => rfl⟩
      · rw [run, hbook]
        rfl
      · intro other book hother
        have hne : handle ≠ other := by
          rintro rfl
          rw [hbook] at hother
          cases hother
        rw [ownWrites, if_neg hne]
        exact hother
    | some book =>
      have hown : book.file = file := hfile book (List.mem_of_getElem? hbook)
      obtain ⟨after, hrun, hafter⟩ := run_set hback hbook hown htaken
      refine ⟨_, after, hrun, ?_, ?_, ⟨_, hafter⟩, fun hopens => ?_⟩
      · intro other hother
        rcases List.mem_or_eq_of_mem_set hother with hother | rfl
        · exact hfile other hother
        · exact hown
      · intro other found hfound
        by_cases heq : handle = other
        · subst heq
          rw [hbook] at hfound
          cases hfound
          rw [List.getElem?_set_self (List.getElem?_eq_some_iff.1 hbook).1, ownWrites, if_pos rfl]
          rfl
        · rw [List.getElem?_set_ne heq, ownWrites, if_neg heq]
          exact hfound
      · exact (hopens _ (List.mem_singleton_self _)).elim

theorem runAll_leaves (hfile : ∀ book ∈ books, book.file = file)
    (hholds : host.HoldsBook file world document)
    (htaken : AllTaken host file books world steps) :
    ∃ next after, runAll host file steps books world = (.ok next, after) ∧
      Leaves host file steps books world next after := by
  induction steps generalizing books world document with
  | nil =>
    exact ⟨books, world, rfl, hfile, fun _ _ hbook => hbook, ⟨document, hholds⟩, fun _ => rfl⟩
  | cons step steps ih =>
    obtain ⟨hstep, hsteps⟩ := htaken
    obtain ⟨next, middle, hfirst, hleft⟩ := run_leaves hback step hfile hholds hstep
    obtain ⟨held, hmiddle⟩ := hleft.held
    obtain ⟨last, after, hrest, hlast⟩ := ih hleft.files hmiddle (hsteps next middle hfirst)
    refine ⟨last, after, (Run.bind_of_ok hfirst).trans hrest, hlast.files, ?_, hlast.held, ?_⟩
    · intro handle book hbook
      rw [hlast.own handle _ (hleft.own handle book hbook), ← Book.updated_append,
        ← ownWrites_append]
      rfl
    · intro hopens
      obtain ⟨hopen, hopens⟩ := List.forall_mem_cons.1 hopens
      rw [hlast.unwritten hopens, hleft.unwritten (List.forall_mem_singleton.2 hopen)]

/-- What was done before a step is a run too, and the step and those after it go on from there. -/
theorem exists_middle {before later : List HandleStep} {step : HandleStep}
    (hholds : host.HoldsBook file world document)
    (htaken : AllTaken host file [] world (before ++ step :: later)) :
    ∃ others middle found, runAll host file before [] world = (.ok others, middle) ∧
      Leaves host file before [] world others middle ∧ host.HoldsBook file middle found ∧
      step.IsTaken host others middle ∧
      (∀ next after, step.run host file others middle = (.ok next, after) →
        AllTaken host file next after later) ∧
      runAll host file (before ++ step :: later) [] world =
        (step.run host file others >>= runAll host file later) middle := by
  obtain ⟨hbefore, hrest⟩ := htaken.append
  obtain ⟨others, middle, hrun, hleft⟩ :=
    runAll_leaves hback (List.forall_mem_nil _) hholds hbefore
  obtain ⟨found, hfound⟩ := hleft.held
  obtain ⟨hstep, hlater⟩ := hrest others middle hrun
  refine ⟨others, middle, found, hrun, hleft, hfound, hstep, hlater, ?_⟩
  rw [runAll_append, Run.bind_of_ok hrun]
  rfl

/-- A book that is opened in a run ends with what its file held then, and what was set in it. -/
theorem runAll_opened {before later : List HandleStep} {network : String} {books : List Book}
    {after : World γ φ}
    (hholds : host.HoldsBook file world document)
    (htaken : AllTaken host file [] world (before ++ openFile network :: later))
    (hrun : runAll host file (before ++ openFile network :: later) [] world = (.ok books, after)) :
    ∃ others middle found, runAll host file before [] world = (.ok others, middle) ∧
      host.HoldsBook file middle found ∧
      books[others.length]? =
        some ((Book.opened file network found).updated (ownWrites others.length later)) := by
  obtain ⟨others, middle, found, hbefore, hleft, hfound, hstep, hlater, hwhole⟩ :=
    exists_middle hback hholds htaken
  obtain ⟨opened, hopen, hfiles⟩ := run_openFile others network hfound
  have hopened : ∀ book ∈ others ++ [Book.opened file network found], book.file = file := by
    intro book hbook
    rcases List.mem_append.1 hbook with hbook | hbook
    · exact hleft.files book hbook
    · rw [List.mem_singleton.1 hbook]
      rfl
  have hstill : host.HoldsBook file opened found := by
    unfold Host.HoldsBook
    rw [hfiles]
    exact hfound
  obtain ⟨last, final, hrest, hlast⟩ :=
    runAll_leaves hback hopened hstill (hlater _ _ hopen)
  rw [hwhole, Run.bind_of_ok hopen, hrest] at hrun
  cases hrun
  refine ⟨others, middle, found, hbefore, hfound, hlast.own _ _ ?_⟩
  rw [List.getElem?_append_right (Nat.le_refl _), Nat.sub_self]
  rfl

/-- After a book was written, and as long as no other is, the file holds what that book does. -/
theorem runAll_written {before later : List HandleStep} {handle : Nat} {name : String}
    {record : Record} {books : List Book} {after : World γ φ}
    (hholds : host.HoldsBook file world document)
    (htaken : AllTaken host file [] world (before ++ set handle name record :: later))
    (hopens : ∀ step ∈ later, step.Opens)
    (hrun : runAll host file (before ++ set handle name record :: later) [] world =
      (.ok books, after)) :
    ∃ others middle, runAll host file before [] world = (.ok others, middle) ∧
      ∀ book, others[handle]? = some book →
        books[handle]? = some (book.insert name record) ∧
        host.HoldsBook file after (book.insert name record).document := by
  obtain ⟨others, middle, found, hbefore, hleft, hfound, hstep, hlater, hwhole⟩ :=
    exists_middle hback hholds htaken
  refine ⟨others, middle, hbefore, fun book hbook => ?_⟩
  have hfile : book.file = file := hleft.files book (List.mem_of_getElem? hbook)
  obtain ⟨stored, hset, hstored⟩ := run_set hback hbook hfile hstep
  have hfiles : ∀ other ∈ others.set handle (book.insert name record), other.file = file := by
    intro other hother
    rcases List.mem_or_eq_of_mem_set hother with hother | rfl
    · exact hleft.files other hother
    · exact hfile
  obtain ⟨last, final, hrest, hlast⟩ := runAll_leaves hback hfiles hstored (hlater _ _ hset)
  rw [hwhole, Run.bind_of_ok hset, hrest] at hrun
  cases hrun
  constructor
  · have hself : (others.set handle (book.insert name record))[handle]? =
        some (book.insert name record) :=
      List.getElem?_set_self (List.getElem?_eq_some_iff.1 hbook).1
    rw [hlast.own handle _ hself, ownWrites_of_opens hopens]
    rfl
  · unfold Host.HoldsBook
    rw [hlast.unwritten hopens]
    exact hstored

/-- A book that is written again does not bring back what another wrote while it was open: its own
writes apart, the file holds what the book held before that. -/
theorem runAll_overwritten {before later : List HandleStep} {handle other : Nat}
    {name lastName : String} {record lastRecord : Record} {books : List Book} {after : World γ φ}
    (hholds : host.HoldsBook file world document) (hne : handle ≠ other)
    (htaken : AllTaken host file [] world
      (before ++ set other name record :: (later ++ [set handle lastName lastRecord])))
    (hrun : runAll host file
      (before ++ set other name record :: (later ++ [set handle lastName lastRecord])) [] world =
        (.ok books, after)) :
    ∃ others middle, runAll host file before [] world = (.ok others, middle) ∧
      ∀ book, others[handle]? = some book →
        host.HoldsBook file after
          (book.updated (ownWrites handle later ++ [(lastName, lastRecord)])).document := by
  obtain ⟨hbefore, hrest⟩ := htaken.append
  obtain ⟨others, middle, hfirst, hothers⟩ :=
    runAll_leaves hback (List.forall_mem_nil _) hholds hbefore
  obtain ⟨found, hfound⟩ := hothers.held
  have hbetween : AllTaken host file others middle
      ((set other name record :: later) ++ [set handle lastName lastRecord]) :=
    hrest others middle hfirst
  obtain ⟨reached, stop, hreach, hreached⟩ :=
    runAll_leaves hback hothers.files hfound hbetween.append.1
  -- The last step is taken by the book as its own writes have left it.
  have hsplit : before ++ set other name record :: (later ++ [set handle lastName lastRecord]) =
      (before ++ set other name record :: later) ++ [set handle lastName lastRecord] := by
    rw [List.append_assoc, List.cons_append]
  rw [hsplit] at htaken hrun
  obtain ⟨last, final, hend, hlast⟩ :=
    runAll_written hback hholds htaken (List.forall_mem_nil _) hrun
  rw [runAll_append, Run.bind_of_ok hfirst, hreach] at hend
  cases hend
  refine ⟨others, middle, hfirst, fun book hbook => ?_⟩
  have hown := hreached.own handle book hbook
  rw [ownWrites, if_neg hne.symm] at hown
  rw [Book.updated_append]
  exact (hlast _ hown).2

end Written

/-- A file tree takes everything that is written to a file which it has. -/
theorem allTaken_of_holdsBook (node : Node γ) (clock : Nat → Instant) {world : World γ FileTree}
    (hfile : ∀ book ∈ books, book.file = file)
    (hholds : Host.HoldsBook ⟨node, FileTree.disk, clock⟩ file world document) :
    AllTaken ⟨node, FileTree.disk, clock⟩ file books world steps := by
  induction steps generalizing books world document with
  | nil => trivial
  | cons step steps ih =>
    have htaken : step.IsTaken ⟨node, FileTree.disk, clock⟩ books world := by
      obtain ⟨text, hread, -⟩ := hholds
      cases step with
      | openFile network => trivial
      | set handle name record =>
        intro book hbook
        rw [hfile book (List.mem_of_getElem? hbook)]
        exact FileTree.write_of_read hread _
    refine ⟨htaken, fun next after hrun => ?_⟩
    obtain ⟨_, _, hstep, hleft⟩ :=
      run_leaves (FileTree.givesBack file) step hfile hholds htaken
    rw [hstep] at hrun
    cases hrun
    obtain ⟨found, hfound⟩ := hleft.held
    exact ih hleft.files hfound

end Steps

end HandleStep

/-- Books that are open on one file overwrite each other. If the file holds a document to begin with
and the disk takes what is written, opening books and setting entries of them succeeds, in any
order. Each book holds what its file held when it was opened, changed by its own writes only, and
the file holds the whole document of the book that was written last. What another book wrote while
this one was open is not in the file after the next write of this one, whichever networks the two
are open for. -/
theorem open_books_overwrite_each_other (host : Host γ φ) (file : String) (steps : List HandleStep)
    (world : World γ φ) (document : BookDocument)
    (hback : host.disk.GivesBack file)
    (hholds : host.HoldsBook file world document)
    (htaken : HandleStep.AllTaken host file [] world steps) :
    ∃ books after, HandleStep.runAll host file steps [] world = (.ok books, after) ∧
      (∀ before network later, steps = before ++ .openFile network :: later →
        ∃ others middle found,
          HandleStep.runAll host file before [] world = (.ok others, middle) ∧
          host.HoldsBook file middle found ∧
          books[others.length]? =
            some ((Book.opened file network found).updated (ownWrites others.length later))) ∧
      ((∀ step ∈ steps, step.Opens) → host.HoldsBook file after document) ∧
      (∀ before handle name record later, steps = before ++ .set handle name record :: later →
        (∀ step ∈ later, step.Opens) →
        ∃ others middle, HandleStep.runAll host file before [] world = (.ok others, middle) ∧
          (handle < others.length →
            ∃ book, books[handle]? = some book ∧ host.HoldsBook file after book.document)) ∧
      ∀ before other name record later handle lastName lastRecord, handle ≠ other →
        steps = before ++ .set other name record :: (later ++ [.set handle lastName lastRecord]) →
        ∃ others middle, HandleStep.runAll host file before [] world = (.ok others, middle) ∧
          ∀ book, others[handle]? = some book → ∃ found, host.HoldsBook file after found ∧
            ∀ network entry, (network = book.network →
                entry ∉ (ownWrites handle later).map (·.1) ∧ entry ≠ lastName) →
              found.find? network entry = book.document.find? network entry := by
  obtain ⟨books, after, hrun, hleft⟩ :=
    HandleStep.runAll_leaves hback (List.forall_mem_nil _) hholds htaken
  refine ⟨books, after, hrun, ?_, ?_, ?_, ?_⟩
  · rintro before network later rfl
    exact HandleStep.runAll_opened hback hholds htaken hrun
  · intro hopens
    unfold Host.HoldsBook
    rw [hleft.unwritten hopens]
    exact hholds
  · rintro before handle name record later rfl hopens
    obtain ⟨others, middle, hbefore, hbook⟩ :=
      HandleStep.runAll_written hback hholds htaken hopens hrun
    refine ⟨others, middle, hbefore, fun hopen => ?_⟩
    obtain ⟨hend, hheld⟩ := hbook _ (List.getElem?_eq_getElem hopen)
    exact ⟨_, hend, hheld⟩
  · rintro before other name record later handle lastName lastRecord hne rfl
    obtain ⟨others, middle, hbefore, hbook⟩ :=
      HandleStep.runAll_overwritten hback hholds hne htaken hrun
    refine ⟨others, middle, hbefore, fun book hopen => ⟨_, hbook book hopen, ?_⟩⟩
    intro network entry hunset
    apply book.find?_updated_of_unset
    intro hnetwork hmem
    obtain ⟨hown, hlast⟩ := hunset hnetwork
    rw [List.map_append, List.mem_append] at hmem
    rcases hmem with hmem | hmem
    · exact hown hmem
    · exact hlast (List.mem_singleton.1 hmem)

/-- Two books are opened on a blank file, for two networks, and an entry of each is set: the entry
that was set first is lost. -/
theorem open_books_overwrite_each_other_blank_book :
    let steps : List HandleStep := [.openFile "goerli", .openFile "mainnet",
      .set 0 "Token" Record.missing, .set 1 "Vault" Record.missing]
    rehearsalHost.HoldsBook "addresses.json" blankBookWorld NameMap.empty ∧
      HandleStep.AllTaken rehearsalHost "addresses.json" [] blankBookWorld steps ∧
      ∃ books after found,
        HandleStep.runAll rehearsalHost "addresses.json" steps [] blankBookWorld =
          (.ok books, after) ∧
        rehearsalHost.HoldsBook "addresses.json" after found ∧
        found.find? "goerli" "Token" = none := by
  intro steps
  have hholds : rehearsalHost.HoldsBook "addresses.json" blankBookWorld NameMap.empty :=
    ⟨"", rfl, rfl⟩
  have htaken : HandleStep.AllTaken rehearsalHost "addresses.json" [] blankBookWorld steps :=
    HandleStep.allTaken_of_holdsBook _ _ (List.forall_mem_nil _) hholds
  refine ⟨hholds, htaken, ?_⟩
  obtain ⟨books, after, hrun, -, -, -, hlost⟩ := open_books_overwrite_each_other rehearsalHost
    "addresses.json" steps blankBookWorld NameMap.empty (FileTree.givesBack "addresses.json")
    hholds htaken
  obtain ⟨others, middle, hbefore, hbook⟩ := hlost [.openFile "goerli", .openFile "mainnet"] 0
    "Token" Record.missing [] 1 "Vault" Record.missing (by decide) rfl
  obtain ⟨first, hfirst, hfiles⟩ :=
    HandleStep.run_openFile [] "goerli" hholds
  have hstill : rehearsalHost.HoldsBook "addresses.json" first NameMap.empty := by
    unfold Host.HoldsBook
    rw [hfiles]
    exact hholds
  obtain ⟨second, hsecond, -⟩ := HandleStep.run_openFile
    [Book.opened "addresses.json" "goerli" NameMap.empty] "mainnet" hstill
  rw [HandleStep.runAll, Run.bind_of_ok hfirst, List.nil_append, HandleStep.runAll,
    Run.bind_of_ok hsecond] at hbefore
  cases hbefore
  obtain ⟨found, hfound, hunchanged⟩ := hbook _ rfl
  refine ⟨books, after, found, hrun, hfound, ?_⟩
  rw [hunchanged "goerli" "Token" (fun hnetwork => absurd hnetwork (by decide))]
  rfl

end ContractDeploy
