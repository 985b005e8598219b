import ContractDeploy.Proofs.TreeJournals

/-!
# The log of a day

A journal that is kept in a directory adds each group of lines to the file of the day, behind one
reading of the clock. So what a stretch of a run adds to the log of a day is told by the groups
alone: `Logged` says that it was these groups, in their order, behind consecutive readings, and
nothing else. Such stretches can be put one behind the other, as long as the day lasts and the log
takes what is added to it.
-/

namespace ContractDeploy

variable {γ φ : Type}

/-- The text of a file, which is empty where there is no file. -/
def Disk.textAt (disk : Disk φ) (files : φ) (path : String) : Except FileFault String :=
  match disk.read files path with
  | .error .notFound => .ok ""
  | answer => answer

/-- The file of a day in the directory of a journal, and in which files it can be added to. -/
structure DailyLog (φ : Type) where
  /-- The directory of the journal. -/
  directory : String
  /-- A moment of the day. -/
  today : Instant
  /-- The files in which the log can be added to. -/
  writable : φ → Prop

namespace DailyLog

/-- The path of the log. -/
def path (log : DailyLog φ) : String := Journal.path log.directory log.today

/-- The journal that the log belongs to. -/
def journal (log : DailyLog φ) : Journal := ⟨some log.directory⟩

/-- Every moment of the day has the same log. -/
theorem path_of_day (log : DailyLog φ) {now : Instant} (h : now.day = log.today.day) :
    Journal.path log.directory now = log.path := by
  rw [path, Journal.path, Journal.path, h]

/-- A disk on which a log that can be added to takes what is added, behind what it held, and stays
as it is when another file is written. -/
structure TakenBy (log : DailyLog φ) (disk : Disk φ) (book : String) : Prop where
  added : ∀ text held before, log.writable before → disk.textAt before log.path = .ok held →
    (disk.append log.path text before).1 = .ok () ∧
      log.writable (disk.append log.path text before).2 ∧
      disk.textAt (disk.append log.path text before).2 log.path = .ok (held ++ text)
  spared : ∀ text before, log.writable before → log.writable (disk.write book text before).2 ∧
    disk.textAt (disk.write book text before).2 log.path = disk.textAt before log.path

end DailyLog

/-- Groups of lines as they stand in a log, each behind a reading of the clock of its own. -/
def Journal.textFrom (clock : Nat → Instant) (reading : Nat) : List (List String) → String
  | [] => ""
  | lines :: groups => entryText (clock reading) lines ++ textFrom clock (reading + 1) groups

theorem Journal.textFrom_append (clock : Nat → Instant) (reading : Nat)
    (groups more : List (List String)) :
    textFrom clock reading (groups ++ more) =
      textFrom clock reading groups ++ textFrom clock (reading + groups.length) more := by
  induction groups generalizing reading with
  | nil => simp [textFrom]
  | cons lines groups ih =>
    have hreading : reading + 1 + groups.length = reading + (groups.length + 1) := by omega
    rw [List.cons_append, textFrom, textFrom, ih, List.length_cons, hreading, String.append_assoc]

/-! ## What a stretch of a run adds -/

/-- Whatever the clock showed between two moments was of the day of the log. -/
def Host.OnDay (host : Host γ φ) (log : DailyLog φ) (before after : World γ φ) : Prop :=
  ∀ reading, before.readings ≤ reading → reading < after.readings →
    (host.clock reading).day = log.today.day

/-- Between two moments these groups of lines were added to the log, each behind one reading of the
clock, and nothing else was. -/
structure Logged (host : Host γ φ) (log : DailyLog φ) (groups : List (List String))
    (before after : World γ φ) : Prop where
  readings : after.readings = before.readings + groups.length
  added : host.OnDay log before after → log.writable before.files →
    ∀ held, host.disk.textAt before.files log.path = .ok held →
      log.writable after.files ∧ host.disk.textAt after.files log.path =
        .ok (held ++ Journal.textFrom host.clock before.readings groups)

section Logged

variable {host : Host γ φ} {log : DailyLog φ} {groups more : List (List String)}
  {before middle after : World γ φ}

/-- Where neither the files nor the clock were touched, nothing was added. -/
theorem Logged.nothing (hreadings : after.readings = before.readings)
    (hfiles : after.files = before.files) : Logged host log [] before after where
  readings := hreadings
  added _ hwritable held hheld := by
    rw [hfiles]
    refine ⟨hwritable, hheld.trans ?_⟩
    simp [Journal.textFrom]

theorem Logged.trans (hfirst : Logged host log groups before middle)
    (hlast : Logged host log more middle after) :
    Logged host log (groups ++ more) before after where
  readings := by
    rw [hlast.readings, hfirst.readings, List.length_append, Nat.add_assoc]
  added hday hwritable held hheld := by
    -- The day lasts over both stretches, as the clock is read on from the middle.
    have hsplit := hfirst.readings
    have hend := hlast.readings
    have hearlier : host.OnDay log before middle :=
      fun reading hfrom hto => hday reading hfrom (by omega)
    have hlater : host.OnDay log middle after :=
      fun reading hfrom hto => hday reading (by omega) hto
    obtain ⟨hopen, htext⟩ := hfirst.added hearlier hwritable held hheld
    obtain ⟨hlastOpen, hlastText⟩ := hlast.added hlater hopen _ htext
    refine ⟨hlastOpen, hlastText.trans ?_⟩
    rw [Journal.textFrom_append, hfirst.readings, String.append_assoc]

/-- What keeping lines tells: nothing, unless they could not be written. -/
inductive Journal.KeepTells : List Notice → Prop
  | written : KeepTells []
  | notWritten (path : String) (fault : FileFault) : KeepTells [.journalNotWritten path fault]

/-- What recording lines tells: the lines, and behind them what keeping them tells. -/
def Journal.Tells (lines : List String) (told : List Notice) : Prop :=
  ∃ kept, KeepTells kept ∧ told = lines.map .line ++ kept

/-- Keeping lines hands their text to the disk once, whatever the disk makes of it. -/
theorem Journal.keep_world (host : Host γ φ) (directory : String) (now : Instant)
    (lines : List String) (world : World γ φ) :
    ∃ notices, KeepTells notices ∧ keep host directory now lines world = ((), { world with
      files := (host.disk.append (path directory now) (entryText now lines) world.files).2
      notices := world.notices ++ notices }) := by
  have happended : host.appendFile (path directory now) (entryText now lines) world =
      ((host.disk.append (path directory now) (entryText now lines) world.files).1, { world with
        files := (host.disk.append (path directory now) (entryText now lines) world.files).2 }) :=
    rfl
  simp only [keep, bind, StateT.bind, happended]
  cases (host.disk.append (path directory now) (entryText now lines) world.files).1 with
  | ok _ =>
    refine ⟨[], .written, ?_⟩
    rw [List.append_nil]
    rfl
  | error fault => exact ⟨_, .notWritten (path directory now) fault, rfl⟩

/-- Recording lines reads the clock once and hands them to the disk, behind that reading. -/
theorem Journal.record_world (host : Host γ φ) (directory : String) (lines : List String)
    (world : World γ φ) :
    ∃ notices, Tells lines notices ∧
      (⟨some directory⟩ : Journal).record host lines world = ((), { world with
        files := (host.disk.append (path directory (host.clock world.readings))
          (entryText (host.clock world.readings) lines) world.files).2
        readings := world.readings + 1
        notices := world.notices ++ notices }) := by
  obtain ⟨notices, htold, hkeep⟩ := keep_world host directory (host.clock world.readings) lines
    { world with
      readings := world.readings + 1
      notices := world.notices ++ lines.map .line }
  refine ⟨lines.map .line ++ notices, ⟨notices, htold, rfl⟩, ?_⟩
  rw [← List.append_assoc]
  exact hkeep

/-- With a directory or without one, recording lines tells them, and nothing more if they could be
kept. -/
theorem Journal.record_tells (host : Host γ φ) (journal : Journal) (lines : List String)
    (world : World γ φ) :
    ∃ told, Tells lines told ∧
      (journal.record host lines world).2.notices = world.notices ++ told := by
  obtain ⟨directory⟩ := journal
  cases directory with
  | none => exact ⟨lines.map .line, ⟨[], .written, (List.append_nil _).symm⟩, rfl⟩
  | some directory =>
    obtain ⟨told, htells, hrecord⟩ := record_world host directory lines world
    exact ⟨told, htells, by rw [hrecord]⟩

/-- What is told of a call that reverted, before its outcome is recorded. -/
def Endpoint.revertTold (receipt : Receipt) : List Notice :=
  if receipt.succeeded then [] else [.reverted receipt.txHash]

theorem Endpoint.recordOutcome_eq (host : Host γ φ) (journal : Journal) (receipt : Receipt)
    (world : World γ φ) :
    recordOutcome host journal receipt world = journal.record host [outcomeLine receipt]
      { world with notices := world.notices ++ revertTold receipt } := by
  cases hsucceeded : receipt.succeeded with
  | true => simp [recordOutcome, revertTold, hsucceeded]
  | false =>
    simp only [recordOutcome, revertTold, hsucceeded]
    rfl

variable {book : String} (htaken : log.TakenBy host.disk book)

include htaken

/-- Recording lines adds one group, and hands nothing over. -/
theorem Journal.record_logged (lines : List String) (world : World γ φ) :
    Logged host log [lines] world (log.journal.record host lines world).2 ∧
      (log.journal.record host lines world).2.chain = world.chain ∧
      (log.journal.record host lines world).2.submissions = world.submissions := by
  obtain ⟨notices, -, hrecord⟩ := Journal.record_world host log.directory lines world
  rw [DailyLog.journal, hrecord]
  refine ⟨⟨rfl, fun hday hwritable held hheld => ?_⟩, rfl, rfl⟩
  have hpath := log.path_of_day (hday world.readings (Nat.le_refl _) (Nat.lt_succ_self _))
  obtain ⟨-, hopen, htext⟩ := htaken.added (Journal.entryText (host.clock world.readings) lines)
    held world.files hwritable hheld
  rw [hpath]
  refine ⟨hopen, htext.trans ?_⟩
  simp [Journal.textFrom]

end Logged

/-! ## Logs in a file tree -/

/-- A path below a name is not absolute. -/
theorem Path.not_isAbsolute_below {directory : String} (h : Path.IsName directory)
    (name : String) : Path.isAbsolute (directory ++ "/" ++ name) = false := by
  cases hletters : directory.toList with
  | nil => exact absurd (String.toList_eq_nil_iff.1 hletters) h.notEmpty
  | cons letter letters =>
    have hslash := h.noSlash
    rw [hletters, List.mem_cons, not_or] at hslash
    simp [Path.isAbsolute, hletters, Ne.symm hslash.1]

namespace FileTree

variable {tree inside : FileTree} {directory name book : String} {today : Instant}

/-- What stands under a name as a text that can be added to: nothing yet, or a file of text. -/
def Entry.text? : Entry → Option String
  | .absent => some ""
  | .file (.text text) => some text
  | .file (.binary _) | .directory _ => none

/-- The log of a day in a directory that is there, unless something else than a text has its
name. -/
def dailyLog (directory : String) (today : Instant) : DailyLog FileTree where
  directory := directory
  today := today
  writable tree := ∃ inside text, tree.lookup directory = .directory inside ∧
    (inside.lookup (Journal.fileName today)).text? = some text

theorem follow_below (h : tree.lookup directory = .directory inside) :
    tree.follow [directory, name] = inside.lookup name := by
  simp only [follow, h]
  cases inside.lookup name <;> rfl

section Below

variable (hdirectory : Path.IsName directory) (hname : Path.IsName name)
  (hinside : tree.lookup directory = .directory inside)

include hdirectory hname hinside

/-- A path below a directory that is there leads to the name in that directory. -/
theorem resolve_below : tree.resolve (directory ++ "/" ++ name) = .ok [directory, name] := by
  have hbase : tree.follow [] = .directory tree := rfl
  have hfollow : tree.follow [directory] = .directory inside := by simp only [follow, hinside]
  have hempty : directory ++ "/" ++ name ≠ "" := by simp
  have habsolute := Path.not_isAbsolute_below hdirectory name
  have hzero : (directory ++ "/" ++ name).toList.contains '\x00' = false := by
    simp [hdirectory.noZero, hname.noZero]
  simp only [resolve, hempty, habsolute, hzero, decide_false, Bool.or_self, Bool.false_eq_true,
    if_false]
  rw [Path.parts_below hdirectory.noSlash hname.noSlash, resolveFrom_of_name hdirectory hbase,
    List.nil_append, resolveFrom_of_name hname hfollow]
  rfl

/-- The text of a file below a directory that is there. -/
theorem textAt_below {text : String} (htext : (inside.lookup name).text? = some text) :
    disk.textAt tree (directory ++ "/" ++ name) = .ok text := by
  have hat : tree.entryAt (directory ++ "/" ++ name) = .ok (inside.lookup name) := by
    rw [entryAt, resolve_below hdirectory hname hinside, ← follow_below hinside]
    rfl
  have hread : disk.read tree (directory ++ "/" ++ name) = tree.read (directory ++ "/" ++ name) :=
    rfl
  rw [Disk.textAt, hread, read, hat]
  cases hentry : inside.lookup name with
  | absent =>
    rw [hentry] at htext
    cases htext
    rfl
  | file content =>
    rw [hentry] at htext
    cases content with
    | text found =>
      cases htext
      rfl
    | binary bytes => cases htext
  | directory below =>
    rw [hentry] at htext
    cases htext

/-- A text is added to a file below a directory that is there. -/
theorem append_below {held : String} (hheld : (inside.lookup name).text? = some held)
    (text : String) :
    tree.append (directory ++ "/" ++ name) text =
      (.ok (), tree.put (.file (.text (held ++ text))) [directory, name]) := by
  have hopen : Path.isOpen (directory ++ "/" ++ name) = false := by
    have hlast := hname.notEmpty
    simp [Path.isOpen, Path.parts_below hdirectory.noSlash hname.noSlash, hlast]
  rw [append, modify, resolve_below hdirectory hname hinside]
  dsimp only
  rw [follow_below hinside]
  cases hentry : inside.lookup name with
  | absent =>
    rw [hentry] at hheld
    cases hheld
    simp [hopen, FileContent.append]
  | file content =>
    rw [hentry] at hheld
    cases content with
    | text found =>
      cases hheld
      rfl
    | binary bytes => cases hheld
  | directory below =>
    rw [hentry] at hheld
    cases hheld

end Below

/-- In a file tree, the log of a day takes what is added to it, in a directory of its own; a file in
the working directory is none of its concern. -/
theorem dailyLog_taken (hdirectory : Path.IsName directory) (hbook : Path.IsName book)
    (today : Instant) : (dailyLog directory today).TakenBy disk book := by
  have hname := Journal.isName_fileName today
  have hpath : (dailyLog directory today).path = directory ++ "/" ++ Journal.fileName today :=
    Journal.path_eq hdirectory today
  constructor
  · rintro text held before ⟨inside, found, hinside, hfound⟩ hheld
    rw [hpath] at hheld ⊢
    have htext := textAt_below hdirectory hname hinside hfound
    obtain rfl : found = held := Except.ok.inj (htext.symm.trans hheld)
    have happend : disk.append (directory ++ "/" ++ Journal.fileName today) text before =
        (.ok (), before.put (.file (.text (found ++ text))) [directory, Journal.fileName today]) :=
      append_below hdirectory hname hinside hfound text
    have hput : (before.put (.file (.text (found ++ text)))
        [directory, Journal.fileName today]).lookup directory =
        .directory (inside.set (Journal.fileName today) (.file (.text (found ++ text)))) := by
      simp only [put, hinside]
      exact lookup_set before directory (by simp)
    have hadded : ((inside.set (Journal.fileName today) (.file (.text (found ++ text)))).lookup
        (Journal.fileName today)).text? = some (found ++ text) := by
      rw [lookup_set inside _ (by simp)]
      rfl
    rw [happend]
    exact ⟨rfl, ⟨_, _, hput, hadded⟩, textAt_below hdirectory hname hput hadded⟩
  · rintro text before ⟨inside, found, hinside, hfound⟩
    have hkept : (disk.write book text before).2.lookup directory = .directory inside := by
      cases hwrite : before.write book text with
      | mk outcome after =>
        have hafter : (disk.write book text before).2 = after := congrArg Prod.snd hwrite
        rw [hafter]
        cases outcome with
        | error fault => rw [modify_eq_error hwrite, hinside]
        | ok _ =>
          obtain ⟨names, old, hresolve, rfl, hnames, -⟩ := modify_eq_ok hwrite
          rw [resolve_of_name hbook] at hresolve
          cases hresolve
          -- A directory is never written as a file, so that the book is not the log's directory.
          have hne : book ≠ directory := by
            rintro rfl
            exact hnames inside (by simp only [follow, hinside])
          exact (lookup_set_of_ne before _ hne).trans hinside
    refine ⟨⟨inside, found, hkept, hfound⟩, ?_⟩
    rw [hpath, textAt_below hdirectory hname hkept hfound,
      textAt_below hdirectory hname hinside hfound]

end FileTree

end ContractDeploy
