import ContractDeploy.Journal
import ContractDeploy.Proofs.TreeFiles

/-!
# Journals in a file tree

In a file tree, the daily files of a journal stand in the journal's directory, whatever the day. So
what is added to them leaves a file in the working directory as it is: the two paths come to
different names, and changing a file leaves what stands under other names alone.
-/

namespace ContractDeploy

/-! ## The names of daily files -/

/-- Numbers are written in digits. -/
theorem Instant.notMem_padded {letter : Char} (hdigit : letter.isDigit = false) (width n : Nat) :
    letter ∉ (padded width n).toList := by
  intro h
  rw [padded, String.toList_ofList, List.mem_append] at h
  rcases h with hzero | hmem
  · rw [List.eq_of_mem_replicate hzero] at hdigit
    revert hdigit
    decide
  · have hfound := Nat.isDigit_of_mem_toDigits (by omega) (by omega) hmem
    rw [hdigit] at hfound
    cases hfound

/-- Days are written in digits and dashes. -/
theorem Instant.notMem_day {letter : Char} (hdigit : letter.isDigit = false)
    (hdash : letter ∉ "-".toList) (now : Instant) : letter ∉ now.day.toList := by
  unfold day
  simp only [String.toList_append, List.mem_append, not_or]
  exact ⟨⟨⟨⟨notMem_padded hdigit _ _, hdash⟩, notMem_padded hdigit _ _⟩, hdash⟩,
    notMem_padded hdigit _ _⟩

namespace Journal

/-- The name of the file of the day of a moment. -/
def fileName (now : Instant) : String := fileStart ++ now.day ++ "." ++ fileExtension

theorem notMem_fileName {letter : Char} (hdigit : letter.isDigit = false)
    (hdash : letter ∉ "-".toList) (hstart : letter ∉ fileStart.toList)
    (hextension : letter ∉ ("." ++ fileExtension).toList) (now : Instant) :
    letter ∉ (fileName now).toList := by
  rw [fileName, String.append_assoc, String.toList_append, String.toList_append]
  simp only [List.mem_append, not_or]
  exact ⟨⟨hstart, now.notMem_day hdigit hdash⟩, hextension⟩

end Journal

/-- A text without slashes is the only part of the path that it is. -/
theorem Path.parts_of_plain {name : String} (h : '/' ∉ name.toList) : Path.parts name = [name] := by
  have hplain : ∀ letter ∈ name.toList, (letter == '/') = false := by
    intro letter hletter
    rw [beq_eq_false_iff_ne]
    rintro rfl
    exact h hletter
  rw [Path.parts, List.splitOn, List.splitOnP_eq_singleton hplain]
  simp

/-- A name behind a slash is the last part of a path. -/
theorem Path.parts_append {directory name : String} (hname : '/' ∉ name.toList) :
    Path.parts (directory ++ "/" ++ name) = Path.parts directory ++ [name] := by
  have hchars : (directory ++ "/" ++ name).toList = directory.toList ++ '/' :: name.toList := by
    simp
  have hlast := Path.parts_of_plain hname
  rw [Path.parts] at hlast
  rw [Path.parts, Path.parts, hchars, List.splitOn_append_cons_self, List.map_append, hlast]

theorem Path.parts_below {directory name : String} (hdirectory : '/' ∉ directory.toList)
    (hname : '/' ∉ name.toList) : Path.parts (directory ++ "/" ++ name) = [directory, name] := by
  rw [Path.parts_append hname, Path.parts_of_plain hdirectory, List.singleton_append]

/-- A name as a file or a directory can have it. -/
structure Path.IsName (name : String) : Prop where
  notEmpty : name ≠ ""
  notHere : name ≠ "."
  notAbove : name ≠ ".."
  noSlash : '/' ∉ name.toList
  noZero : '\x00' ∉ name.toList

theorem Journal.isName_fileName (now : Instant) : Path.IsName (fileName now) := by
  have hstart : fileStart.toList.length = 3 := by decide
  have hlength : 3 ≤ (fileName now).toList.length := by
    unfold fileName
    simp only [String.toList_append, List.length_append, hstart]
    omega
  have hslash : '/' ∉ (fileName now).toList :=
    notMem_fileName (by decide) (by decide) (by decide) (by decide) now
  have hzero : '\x00' ∉ (fileName now).toList :=
    notMem_fileName (by decide) (by decide) (by decide) (by decide) now
  refine ⟨?_, ?_, ?_, hslash, hzero⟩
  all_goals
    intro h
    rw [h] at hlength
    revert hlength
    decide

theorem Path.not_isAbsolute {name : String} (h : '/' ∉ name.toList) : ¬ isAbsolute name := by
  intro habsolute
  have hhead : name.toList.head? = some '/' := of_decide_eq_true habsolute
  exact h (List.mem_of_head? hhead)

/-- The file of a day stands below the journal's directory. -/
theorem Journal.path_eq {directory : String} (h : Path.IsName directory) (now : Instant) :
    Journal.path directory now = directory ++ "/" ++ fileName now := by
  have hclosed : ¬ Path.isOpen directory := by
    intro hopen
    have hlast : (Path.parts directory).getLast? = some "" := of_decide_eq_true hopen
    rw [Path.parts_of_plain h.noSlash] at hlast
    exact h.notEmpty (Option.some.inj hlast)
  have habsolute := Path.not_isAbsolute (isName_fileName now).noSlash
  have hjoin : Path.join directory (fileName now) = directory ++ "/" ++ fileName now := by
    simp [Path.join, h.notEmpty, habsolute, hclosed]
  exact hjoin

/-! ## Where the paths lead -/

namespace FileTree

variable {tree : FileTree} {directory name path : String}

theorem resolveFrom_of_name (h : Path.IsName name) {base parts : List String} {inside : FileTree}
    (hbase : tree.follow base = .directory inside) :
    tree.resolveFrom base (name :: parts) = tree.resolveFrom (base ++ [name]) parts := by
  have hmoves : (decide (name = "") || decide (name = ".")) = false := by
    simp [h.notEmpty, h.notHere]
  rw [resolveFrom.eq_def]
  simp only [hbase, hmoves, if_neg h.notAbove, Bool.false_eq_true, if_false]

/-- A name leads to what stands under it in the working directory. -/
theorem resolve_of_name (h : Path.IsName path) : tree.resolve path = .ok [path] := by
  have hplace : (decide (path = "") || Path.isAbsolute path) = false := by
    simp [h.notEmpty, Path.not_isAbsolute h.noSlash]
  have htext : path.toList.contains '\x00' = false := by
    simp [h.noZero]
  have hbase : tree.follow [] = .directory tree := rfl
  simp only [resolve, hplace, htext, Bool.false_eq_true, if_false]
  rw [Path.parts_of_plain h.noSlash, resolveFrom_of_name h hbase]
  rfl

/-- A name below a directory leads nowhere else than there. -/
theorem resolveFrom_below (hdirectory : Path.IsName directory) (hname : Path.IsName name)
    {names : List String} (h : tree.resolveFrom [] [directory, name] = .ok names) :
    names = [directory, name] := by
  have hbase : tree.follow [] = .directory tree := rfl
  rw [resolveFrom_of_name hdirectory hbase, List.nil_append] at h
  cases hfollow : tree.follow [directory] with
  | absent =>
    rw [resolveFrom.eq_def] at h
    simp [hfollow, hname.notEmpty] at h
  | file content =>
    rw [resolveFrom.eq_def] at h
    simp [hfollow] at h
  | directory inside =>
    rw [resolveFrom_of_name hname hfollow] at h
    cases h
    rfl

/-- A path that is a name leads to what stands under the name. -/
theorem entryAt_of_name (h : Path.IsName path) (tree : FileTree) :
    tree.entryAt path = .ok (tree.lookup path) := by
  have hfollow : tree.follow [path] = tree.lookup path := by
    simp only [follow]
    cases tree.lookup path <;> rfl
  rw [entryAt, resolve_of_name h, ← hfollow]
  rfl

/-- What is put below a directory leaves the files of the working directory as they are. -/
theorem read_put_below (hpath : Path.IsName path) (tree : FileTree) (entry : Entry) :
    (tree.put entry [directory, name]).read path = tree.read path := by
  cases hlookup : tree.lookup directory with
  | absent => simp only [put, hlookup]
  | file content => simp only [put, hlookup]
  | directory inside =>
    simp only [put, hlookup, read, entryAt_of_name hpath]
    -- The directory may be what stands under the name; it is none the less a directory afterwards.
    by_cases hne : directory = path
    · subst hne
      rw [lookup_set tree directory (by simp), hlookup]
    · rw [lookup_set_of_ne tree _ hne]

end FileTree

/-- A file in the working directory is none of a journal's, wherever the journal has its own
directory. -/
theorem FileTree.journal_apart {directory path : String} (hdirectory : Path.IsName directory)
    (hpath : Path.IsName path) : (⟨some directory⟩ : Journal).Apart FileTree.disk path := by
  intro _ now text tree hjournal
  cases hjournal
  have hname : Path.IsName (Journal.fileName now) := Journal.isName_fileName now
  show (tree.append (Journal.path directory now) text).2.read path = tree.read path
  cases happend : tree.append (Journal.path directory now) text with
  | mk outcome after =>
    cases outcome with
    | error fault => rw [FileTree.modify_eq_error happend]
    | ok _ =>
      obtain ⟨names, old, hresolve, rfl, -, -⟩ := FileTree.modify_eq_ok happend
      have hfrom := (FileTree.resolve_eq_ok hresolve).1
      rw [Journal.path_eq hdirectory, Path.parts_below hdirectory.noSlash hname.noSlash] at hfrom
      rw [FileTree.resolveFrom_below hdirectory hname hfrom]
      exact FileTree.read_put_below hpath tree _

end ContractDeploy
