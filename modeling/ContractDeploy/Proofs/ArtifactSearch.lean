import ContractDeploy.Artifact.Source
import ContractDeploy.Proofs.TreeJournals

/-!
# The search for an artifact

An artifact is searched in the directory that a build leaves behind, to any depth: first among the
entries of a directory itself, then in its subdirectories, one after the other in the order in which
they are listed. `Searches` says which directories a search comes to, and the search finds a file in
the first of them that has it. What is found is read at a path that is put together from names of
entries, so that it never leads out of the directory.
-/

namespace ContractDeploy

/-- The path of what a list of names leads to from a directory. -/
def Path.below (directory : String) (names : List String) : String :=
  names.foldl Path.join directory

namespace Listing

/-! ## Directories below a directory -/

/-- The names of the entries of the directory itself that are no directories. -/
def leaves : Listing → List String
  | .done | .failed _ => []
  | .leaf name rest => name :: leaves rest
  | .directory _ _ rest => leaves rest

/-- The subdirectories of the directory itself, with what is in them. -/
def subdirectories : Listing → List (String × Listing)
  | .done | .failed _ => []
  | .leaf _ rest => subdirectories rest
  | .directory name inside rest => (name, inside) :: subdirectories rest

/-- The names of all entries of the directory itself. -/
def names : Listing → List String
  | .done | .failed _ => []
  | .leaf name rest => name :: names rest
  | .directory name _ rest => name :: names rest

/-- A list of names leads from a directory to one that is below it, or to the directory itself. -/
inductive Leads : Listing → List String → Listing → Prop
  | here (listing : Listing) : Leads listing [] listing
  | down {listing inside below : Listing} {name : String} {names : List String}
      (entry : (name, inside) ∈ listing.subdirectories) (rest : Leads inside names below) :
      Leads listing (name :: names) below

/-- No directory has an entry of this name that is no directory. -/
def Lacks (listing : Listing) (file : String) : Prop :=
  ∀ names inside, listing.Leads names inside → file ∉ inside.leaves

/-- The directories that a search for a file comes to. It enters a subdirectory only if the file is
neither in the directory itself nor anywhere in the subdirectories that are listed before. -/
inductive Searches (file : String) : Listing → List String → Listing → Prop
  | here (listing : Listing) : Searches file listing [] listing
  | down {listing inside below : Listing} {name : String} {names : List String}
      {earlier later : List (String × Listing)} (notHere : file ∉ listing.leaves)
      (split : listing.subdirectories = earlier ++ (name, inside) :: later)
      (notEarlier : ∀ other ∈ earlier, other.2.Lacks file)
      (rest : Searches file inside names below) :
      Searches file listing (name :: names) below

/-- Every directory can be listed to its end. -/
def Readable : Listing → Prop
  | .done => True
  | .failed _ => False
  | .leaf _ rest => rest.Readable
  | .directory _ inside rest => inside.Readable ∧ rest.Readable

/-- What is listed is a tree of directories: each can be listed to its end, and its entries have
names, no two of them the same. -/
structure IsTree (listing : Listing) : Prop where
  readable : listing.Readable
  named : ∀ names inside, listing.Leads names inside → ∀ name ∈ inside.names, Path.IsName name
  distinct : ∀ names inside, listing.Leads names inside → inside.names.Nodup

section Search

variable {listing inside other : Listing} {directory file : String} {names otherNames : List String}

theorem lacks_iff : listing.Lacks file ↔
    file ∉ listing.leaves ∧ ∀ entry ∈ listing.subdirectories, entry.2.Lacks file := by
  constructor
  · intro h
    refine ⟨h [] listing (.here listing), fun entry hentry names inside hleads => ?_⟩
    exact h (entry.1 :: names) inside (.down hentry hleads)
  · rintro ⟨hhere, hbelow⟩ names inside hleads
    cases hleads with
    | here => exact hhere
    | down hentry hrest => exact hbelow _ hentry _ _ hrest

/-- A search goes only where names lead. -/
theorem Searches.leads (h : Searches file listing names inside) : listing.Leads names inside := by
  induction h with
  | here listing => exact .here listing
  | down _ split _ _ ih => exact .down (by rw [split]; simp) ih

/-- The first of a list of which something does not hold is the same however the list is split. -/
theorem eq_of_first {α : Type} {P : α → Prop} {earlier later otherEarlier otherLater : List α}
    {entry other : α} (h : earlier ++ entry :: later = otherEarlier ++ other :: otherLater)
    (hearlier : ∀ passed ∈ earlier, P passed) (hentry : ¬ P entry)
    (hotherEarlier : ∀ passed ∈ otherEarlier, P passed) (hother : ¬ P other) : other = entry := by
  induction earlier generalizing otherEarlier with
  | nil =>
    cases otherEarlier with
    | nil => exact (List.cons.inj h).1.symm
    | cons first rest =>
      obtain ⟨rfl, -⟩ := List.cons.inj h
      exact absurd (hotherEarlier _ List.mem_cons_self) hentry
  | cons passed earlier ih =>
    cases otherEarlier with
    | nil =>
      obtain ⟨rfl, -⟩ := List.cons.inj h
      exact absurd (hearlier _ List.mem_cons_self) hother
    | cons first rest =>
      obtain ⟨rfl, hrest⟩ := List.cons.inj h
      exact ih hrest (fun _ hpassed => hearlier _ (.tail _ hpassed))
        fun _ hpassed => hotherEarlier _ (.tail _ hpassed)

/-- A search that comes to a directory with the file ends there. -/
theorem Searches.unique (h : Searches file listing names inside) (hfile : file ∈ inside.leaves)
    (hother : Searches file listing otherNames other) (hotherFile : file ∈ other.leaves) :
    otherNames = names := by
  induction h generalizing otherNames with
  | here listing =>
    cases hother with
    | here => rfl
    | down notHere => exact absurd hfile notHere
  | down notHere split notEarlier rest ih =>
    cases hother with
    | here => exact absurd hotherFile notHere
    | down _ otherSplit otherNotEarlier otherRest =>
      -- Of two subdirectories, the search would have passed the first without finding the file.
      have hsame := eq_of_first (split.symm.trans otherSplit) notEarlier
        (fun hlacks => hlacks _ _ rest.leads hfile) otherNotEarlier
        fun hlacks => hlacks _ _ otherRest.leads hotherFile
      cases hsame
      rw [ih hfile otherRest]

theorem findHere_eq (hreadable : listing.Readable) (directory file : String) :
    listing.findHere directory file =
      .ok (if file ∈ listing.leaves then some (Path.join directory file) else none) := by
  induction listing with
  | done => simp [findHere, leaves]
  | failed fault => exact hreadable.elim
  | leaf name rest ih =>
    by_cases hname : name = file
    · simp [findHere, leaves, hname]
    · have hne : ¬ file = name := fun heq => hname heq.symm
      simp only [findHere, if_neg hname, leaves, List.mem_cons, hne, false_or, ih hreadable]
  | directory name inside rest _ ih =>
    rw [findHere, ih hreadable.2]
    rfl

/-- A subdirectory that does not have the file itself is searched to its depth before the next
one. -/
theorem findBelow_directory {name : String} {entered rest : Listing} {found : Option String}
    (hhere : entered.findHere (Path.join directory name) file = .ok none)
    (hbelow : entered.findBelow (Path.join directory name) file = .ok found) :
    (Listing.directory name entered rest).findBelow directory file =
      if found = none then rest.findBelow directory file else .ok found := by
  rw [findBelow, hhere]
  show (entered.findBelow (Path.join directory name) file >>= _) = _
  rw [hbelow]
  cases found <;> rfl

/-- The search below a directory finds the file in the first subdirectory that has it, at any depth,
or no subdirectory has it. -/
theorem findBelow_eq (hreadable : listing.Readable) (directory file : String) :
    ((∀ entry ∈ listing.subdirectories, entry.2.Lacks file) ∧
      listing.findBelow directory file = .ok none) ∨
    ∃ earlier name entered later names inside,
      listing.subdirectories = earlier ++ (name, entered) :: later ∧
      (∀ entry ∈ earlier, entry.2.Lacks file) ∧ Searches file entered names inside ∧
      file ∈ inside.leaves ∧
      listing.findBelow directory file =
        .ok (some (Path.below directory (name :: names ++ [file]))) := by
  induction listing generalizing directory with
  | done => exact .inl ⟨nofun, rfl⟩
  | failed fault => exact hreadable.elim
  | leaf name rest ih => exact ih hreadable directory
  | directory name entered rest ihEntered ihRest =>
    have hhere := findHere_eq hreadable.1 (Path.join directory name) file
    by_cases hfile : file ∈ entered.leaves
    · rw [if_pos hfile] at hhere
      refine .inr ⟨[], name, entered, rest.subdirectories, [], entered, rfl, nofun, .here entered,
        hfile, ?_⟩
      rw [findBelow, hhere]
      rfl
    rw [if_neg hfile] at hhere
    rcases ihEntered hreadable.1 (Path.join directory name) with
      ⟨hlacks, hbelow⟩ | ⟨earlier, next, deeper, later, names, inside, hsplit, hearlier, hsearches,
        hinside, hbelow⟩
    · have hentered : entered.Lacks file := lacks_iff.2 ⟨hfile, hlacks⟩
      rw [findBelow_directory hhere hbelow, if_pos rfl]
      rcases ihRest hreadable.2 directory with
        ⟨hothers, hnone⟩ | ⟨earlier, next, deeper, later, names, inside, hsplit, hearlier, hfound⟩
      · exact .inl ⟨List.forall_mem_cons.2 ⟨hentered, hothers⟩, hnone⟩
      · refine .inr ⟨(name, entered) :: earlier, next, deeper, later, names, inside, ?_,
          List.forall_mem_cons.2 ⟨hentered, hearlier⟩, hfound⟩
        rw [subdirectories, hsplit]
        rfl
    · refine .inr ⟨[], name, entered, rest.subdirectories, next :: names, inside, rfl, nofun,
        .down hfile hsplit hearlier hsearches, hinside, ?_⟩
      rw [findBelow_directory hhere hbelow, if_neg (Option.some_ne_none _)]
      rfl

/-- A search finds the file where it comes to a directory that has it, or no directory has it. -/
theorem find_eq (hreadable : listing.Readable) (directory file : String) :
    (listing.Lacks file ∧ listing.find directory file = .ok none) ∨
    ∃ names inside, Searches file listing names inside ∧ file ∈ inside.leaves ∧
      listing.find directory file = .ok (some (Path.below directory (names ++ [file]))) := by
  have hhere := findHere_eq hreadable directory file
  by_cases hfile : file ∈ listing.leaves
  · rw [if_pos hfile] at hhere
    refine .inr ⟨[], listing, .here listing, hfile, ?_⟩
    rw [find, hhere]
    rfl
  · rw [if_neg hfile] at hhere
    have hfind : listing.find directory file = listing.findBelow directory file := by
      rw [find, hhere]
      rfl
    rw [hfind]
    rcases findBelow_eq hreadable directory file with
      ⟨hlacks, hnone⟩ | ⟨earlier, name, entered, later, names, inside, hsplit, hearlier, hsearches,
        hinside, hfound⟩
    · exact .inl ⟨lacks_iff.2 ⟨hfile, hlacks⟩, hnone⟩
    · exact .inr ⟨name :: names, inside, .down hfile hsplit hearlier hsearches, hinside, hfound⟩

/-- If no directory has the file, all directories are searched. -/
theorem Leads.searches (h : listing.Leads names inside) (hlacks : listing.Lacks file) :
    Searches file listing names inside := by
  induction h with
  | here listing => exact .here listing
  | down hentry _ ih =>
    obtain ⟨hhere, hbelow⟩ := lacks_iff.1 hlacks
    obtain ⟨earlier, later, hsplit⟩ := List.append_of_mem hentry
    refine .down hhere hsplit (fun other hother => hbelow other ?_) (ih (hbelow _ hentry))
    rw [hsplit]
    exact List.mem_append_left _ hother

theorem mem_names_of_mem_leaves {name : String} (h : name ∈ listing.leaves) :
    name ∈ listing.names := by
  induction listing with
  | done => exact h
  | failed fault => exact h
  | leaf first rest ih =>
    rcases List.mem_cons.1 h with rfl | hrest
    · exact List.mem_cons_self
    · exact .tail _ (ih hrest)
  | directory first inside rest _ ih => exact .tail _ (ih h)

theorem mem_names_of_mem_subdirectories {name : String}
    (h : (name, inside) ∈ listing.subdirectories) : name ∈ listing.names := by
  induction listing with
  | done => cases h
  | failed fault => cases h
  | leaf first rest ih => exact .tail _ (ih h)
  | directory first entered rest _ ih =>
    rcases List.mem_cons.1 h with heq | hrest
    · cases heq
      exact List.mem_cons_self
    · exact .tail _ (ih hrest)

/-- What is the name of a file is not also that of a directory. -/
theorem notMem_subdirectories (hdistinct : listing.names.Nodup) (hfile : file ∈ listing.leaves) :
    file ∉ listing.subdirectories.map Prod.fst := by
  induction listing with
  | done => cases hfile
  | failed fault => cases hfile
  | leaf first rest ih =>
    obtain ⟨hfirst, hrest⟩ := List.nodup_cons.1 hdistinct
    rcases List.mem_cons.1 hfile with rfl | hfile
    · intro hmem
      obtain ⟨entry, hentry, rfl⟩ := List.mem_map.1 hmem
      exact hfirst (mem_names_of_mem_subdirectories hentry)
    · exact ih hrest hfile
  | directory first inside rest _ ih =>
    obtain ⟨hfirst, hrest⟩ := List.nodup_cons.1 hdistinct
    have hne : file ≠ first := by
      rintro rfl
      exact hfirst (mem_names_of_mem_leaves hfile)
    exact List.not_mem_cons_of_ne_of_not_mem hne (ih hrest hfile)

theorem readable_of_mem_subdirectories {name : String} (h : listing.Readable)
    (hentry : (name, inside) ∈ listing.subdirectories) : inside.Readable := by
  induction listing with
  | done => cases hentry
  | failed fault => cases hentry
  | leaf first rest ih => exact ih h hentry
  | directory first entered rest _ ih =>
    rcases List.mem_cons.1 hentry with heq | hrest
    · cases heq
      exact h.1
    · exact ih h.2 hrest

/-- What a directory of a tree holds is a tree. -/
theorem IsTree.entered {name : String} (h : listing.IsTree)
    (hentry : (name, inside) ∈ listing.subdirectories) : inside.IsTree where
  readable := readable_of_mem_subdirectories h.readable hentry
  named names deeper hleads := h.named (name :: names) deeper (.down hentry hleads)
  distinct names deeper hleads := h.distinct (name :: names) deeper (.down hentry hleads)

/-- A directory whose entries have names of their own and which holds trees is a tree. -/
theorem isTree_of_entries (hreadable : listing.Readable)
    (hnamed : ∀ name ∈ listing.names, Path.IsName name) (hdistinct : listing.names.Nodup)
    (hinside : ∀ entry ∈ listing.subdirectories, entry.2.IsTree) : listing.IsTree := by
  refine ⟨hreadable, fun names inside hleads => ?_, fun names inside hleads => ?_⟩
  · cases hleads with
    | here => exact hnamed
    | down hentry hrest => exact (hinside _ hentry).named _ _ hrest
  · cases hleads with
    | here => exact hdistinct
    | down hentry hrest => exact (hinside _ hentry).distinct _ _ hrest

/-- Names that lead somewhere are names of entries. -/
theorem IsTree.isName_of_leads (h : listing.IsTree) (hleads : listing.Leads names inside) :
    ∀ name ∈ names, Path.IsName name := by
  induction hleads with
  | here => nofun
  | @down listing entered below name names hentry _ ih =>
    have hname := h.named [] listing (.here listing) name (mem_names_of_mem_subdirectories hentry)
    exact List.forall_mem_cons.2 ⟨hname, ih (h.entered hentry)⟩

/-- A name with a slash is that of no entry. -/
theorem IsTree.lacks (h : listing.IsTree) (hslash : '/' ∈ file.toList) : listing.Lacks file :=
  fun names inside hleads hfile =>
    (h.named names inside hleads file (mem_names_of_mem_leaves hfile)).noSlash hslash

end Search

/-- What a search for a file comes to. -/
structure SearchOutcome (listing : Listing) (directory file : String) (found : Option String) :
    Prop where
  /-- Nothing is found exactly if no directory has the file. -/
  none_iff : found = none ↔ listing.Lacks file
  /-- Then all directories were searched, whatever their names are. -/
  exhausted : found = none → ∀ names inside, listing.Leads names inside →
    Searches file listing names inside
  /-- What is found is a file, and no directory, in a directory that was searched. -/
  stands : ∀ path, found = some path → ∃ names inside, Searches file listing names inside ∧
    listing.Leads names inside ∧ file ∈ inside.leaves ∧
    file ∉ inside.subdirectories.map Prod.fst ∧ (∀ name ∈ names ++ [file], Path.IsName name) ∧
    path = Path.below directory (names ++ [file])
  /-- In a directory that is searched and has the file itself, it is found there. -/
  direct : ∀ names inside, Searches file listing names inside → file ∈ inside.leaves →
    found = some (Path.below directory (names ++ [file]))

/-- A search in a directory tree comes to an end, and finds the file if there is one. -/
theorem IsTree.find_outcome {listing : Listing} (h : listing.IsTree) (directory file : String) :
    ∃ found, listing.find directory file = .ok found ∧
      listing.SearchOutcome directory file found := by
  rcases find_eq h.readable directory file with
    ⟨hlacks, hfind⟩ | ⟨names, inside, hsearches, hfile, hfind⟩
  · refine ⟨none, hfind, ⟨fun _ => hlacks, fun _ => rfl⟩, ?_, nofun, ?_⟩
    · exact fun _ names inside hleads => hleads.searches hlacks
    · intro names inside hsearches hfile
      exact absurd hfile (hlacks names inside hsearches.leads)
  · refine ⟨_, hfind, ⟨nofun, ?_⟩, nofun, ?_, ?_⟩
    · intro hlacks
      exact absurd hfile (hlacks names inside hsearches.leads)
    · intro path hpath
      have hleads := hsearches.leads
      have hname := h.named names inside hleads file (mem_names_of_mem_leaves hfile)
      have hnames := List.forall_mem_append.2
        ⟨h.isName_of_leads hleads, List.forall_mem_singleton.2 hname⟩
      exact ⟨names, inside, hsearches, hleads, hfile,
        notMem_subdirectories (h.distinct names inside hleads) hfile, hnames,
        (Option.some.inj hpath).symm⟩
    · intro otherNames other hother hotherFile
      rw [hsearches.unique hfile hother hotherFile]

end Listing

/-! ## Paths below a directory of a file tree -/

namespace Path

/-- A path that is not empty and whose last part is ends with a slash. -/
theorem eq_append_of_isOpen {directory : String} (hdirectory : directory ≠ "")
    (h : isOpen directory) : ∃ front, directory = front ++ "/" := by
  have hlast : (parts directory).getLast? = some "" := of_decide_eq_true h
  by_cases hslash : '/' ∈ directory.toList
  · obtain ⟨back, front, hreverse, hback⟩ :=
      List.eq_append_cons_of_mem (List.mem_reverse.2 hslash)
    have hsplit : directory =
        String.ofList front.reverse ++ "/" ++ String.ofList back.reverse := by
      apply String.toList_inj.1
      rw [← List.reverse_reverse directory.toList, hreverse]
      simp
    have hplain : '/' ∉ (String.ofList back.reverse).toList := by
      simpa using hback
    rw [hsplit, parts_append hplain, List.getLast?_concat] at hlast
    rw [Option.some.inj hlast, String.append_empty] at hsplit
    exact ⟨_, hsplit⟩
  · rw [parts_of_plain hslash] at hlast
    exact absurd (Option.some.inj hlast) hdirectory

/-- A name is put behind a slash, unless the path of the directory ends with one. -/
theorem join_eq {directory name : String} (hdirectory : directory ≠ "") (hname : IsName name) :
    join directory name = directory ++ (if isOpen directory then "" else "/") ++ name := by
  have habsolute := not_isAbsolute hname.noSlash
  by_cases hopen : isOpen directory <;> simp [join, hdirectory, habsolute, hopen]

/-- A name below a directory is the last part of its path, in the place of the empty part that the
path of the directory ends with, if it does. -/
theorem parts_join {directory name : String} (hdirectory : directory ≠ "") (hname : IsName name) :
    (∃ front, parts directory = front ++ [""] ∧ parts (join directory name) = front ++ [name]) ∨
      parts (join directory name) = parts directory ++ [name] := by
  rw [join_eq hdirectory hname]
  split
  · next hopen =>
    obtain ⟨front, rfl⟩ := eq_append_of_isOpen hdirectory hopen
    have hempty : parts (front ++ "/") = parts front ++ [""] := by
      have hparts : parts (front ++ "/" ++ "") = parts front ++ [""] := parts_append (by decide)
      rwa [String.append_empty] at hparts
    refine .inl ⟨parts front, hempty, ?_⟩
    rw [String.append_empty, parts_append hname.noSlash]
  · exact .inr (parts_append hname.noSlash)

end Path

namespace FileTree

variable {tree inside deeper : FileTree} {directory name file : String}
  {base names parts : List String}

/-- Where there is nothing, only empty parts lead somewhere, and that is nowhere else. -/
theorem resolveFrom_of_absent (h : tree.follow base = .absent) (parts : List String) :
    tree.resolveFrom base parts =
      if parts.all (· = "") then .ok base else .error .notFound := by
  cases parts with
  | nil => rfl
  | cons part parts =>
    rw [resolveFrom.eq_def]
    simp only [h]

/-- An empty part stays where it is. -/
theorem resolveFrom_empty (h : tree.resolveFrom base [""] = .ok names) : names = base := by
  rw [resolveFrom.eq_def] at h
  dsimp only at h
  split at h
  · exact (Except.ok.inj h).symm
  · cases h
  · exact (Except.ok.inj h).symm

/-- The parts of a path are taken one after the other. -/
theorem resolveFrom_append (tree : FileTree) (base parts more : List String) :
    tree.resolveFrom base (parts ++ more) =
      (tree.resolveFrom base parts).bind fun names => tree.resolveFrom names more := by
  induction parts generalizing base with
  | nil => rfl
  | cons part parts ih =>
    cases hbase : tree.follow base with
    | absent =>
      rw [resolveFrom_of_absent hbase, resolveFrom_of_absent hbase, List.all_append]
      cases (part :: parts).all (· = "") with
      | true => exact (resolveFrom_of_absent hbase more).symm
      | false => rfl
    | file content =>
      rw [List.cons_append, resolveFrom.eq_def, resolveFrom.eq_def tree base (part :: parts)]
      simp only [hbase]
      rfl
    | directory inside =>
      rw [List.cons_append, resolveFrom.eq_def, resolveFrom.eq_def tree base (part :: parts)]
      simp only [hbase]
      split
      · exact ih base
      · split
        · cases base with
          | nil => rfl
          | cons first base => exact ih _
        · exact ih _

/-- What is below a directory is led to through the directory. -/
theorem follow_append (h : tree.follow base = .directory inside) (more : List String) :
    tree.follow (base ++ more) = inside.follow more := by
  induction base generalizing tree with
  | nil =>
    cases h
    rfl
  | cons name base ih =>
    obtain ⟨below, hbelow, hinside⟩ := lookup_of_follow_cons h
    rw [List.cons_append, follow_cons_of_lookup hbelow]
    exact ih hinside

/-- A path that leads somewhere is neither empty nor absolute, and its parts lead there. -/
theorem resolve_eq_ok_iff {path : String} : tree.resolve path = .ok base ↔
    path ≠ "" ∧ Path.isAbsolute path = false ∧ '\x00' ∉ path.toList ∧
      tree.resolveFrom [] (Path.parts path) = .ok base := by
  unfold resolve
  by_cases hempty : path = ""
  · simp [hempty]
  · cases habsolute : Path.isAbsolute path <;> by_cases hzero : '\x00' ∈ path.toList <;>
      simp [hempty, hzero]

/-- The path of a name below a directory leads to that name in the directory. -/
theorem resolve_join (hname : Path.IsName name) (hresolve : tree.resolve directory = .ok base)
    (hfollow : tree.follow base = .directory inside) :
    tree.resolve (Path.join directory name) = .ok (base ++ [name]) := by
  obtain ⟨hempty, habsolute, hzero, hparts⟩ := resolve_eq_ok_iff.1 hresolve
  have hletters : (Path.join directory name).toList =
      directory.toList ++ ((if Path.isOpen directory then "" else "/") ++ name).toList := by
    rw [Path.join_eq hempty hname, String.append_assoc, String.toList_append]
  refine resolve_eq_ok_iff.2 ⟨?_, ?_, ?_, ?_⟩
  · intro hjoined
    rw [hjoined] at hletters
    have hnone := (List.append_eq_nil_iff.1 hletters.symm).1
    exact hempty (String.toList_eq_nil_iff.1 hnone)
  · cases hfirst : directory.toList with
    | nil => exact absurd (String.toList_eq_nil_iff.1 hfirst) hempty
    | cons first rest =>
      rw [Path.isAbsolute, hfirst] at habsolute
      rw [Path.isAbsolute, hletters, hfirst]
      exact habsolute
  · rw [hletters, List.mem_append, not_or]
    refine ⟨hzero, ?_⟩
    have hzeroName := hname.noZero
    split <;> simp [hzeroName]
  · have hlast : tree.resolveFrom base [name] = .ok (base ++ [name]) :=
      resolveFrom_of_name hname hfollow
    rcases Path.parts_join hempty hname with ⟨front, hfront, hjoin⟩ | hjoin
    · rw [hfront, resolveFrom_append] at hparts
      obtain ⟨middle, hmiddle, hstay⟩ := Except.bind_eq_ok hparts
      rw [hjoin, resolveFrom_append, hmiddle, ← resolveFrom_empty hstay]
      exact hlast
    · rw [hjoin, resolveFrom_append, hparts]
      exact hlast

/-- The path of names that lead to a directory leads there. -/
theorem resolve_below_directory (hnames : ∀ name ∈ names, Path.IsName name)
    (hresolve : tree.resolve directory = .ok base) (hfollow : tree.follow base = .directory inside)
    (hdeeper : inside.follow names = .directory deeper) :
    tree.resolve (Path.below directory names) = .ok (base ++ names) := by
  induction names generalizing directory base inside with
  | nil =>
    rw [List.append_nil]
    exact hresolve
  | cons name names ih =>
    obtain ⟨hname, hnames⟩ := List.forall_mem_cons.1 hnames
    obtain ⟨entered, hentered, hdeeper⟩ := lookup_of_follow_cons hdeeper
    have hnext : tree.follow (base ++ [name]) = .directory entered := by
      rw [follow_append hfollow, follow, hentered]
      rfl
    have hrest := ih hnames (resolve_join hname hresolve hfollow) hnext hdeeper
    rw [List.append_assoc] at hrest
    exact hrest

/-- The path of names that lead to a file from a directory leads to the file. -/
theorem entryAt_below {content : FileContent} (hnames : ∀ name ∈ names, Path.IsName name)
    (hfile : Path.IsName file) (hinside : tree.entryAt directory = .ok (.directory inside))
    (hdeeper : inside.follow names = .directory deeper)
    (hcontent : deeper.lookup file = .file content) :
    tree.entryAt (Path.below directory (names ++ [file])) = .ok (.file content) := by
  obtain ⟨base, hresolve, hfollow⟩ := Except.map_eq_ok hinside
  have hdirectory := resolve_below_directory hnames hresolve hfollow hdeeper
  have hthere : tree.follow (base ++ names) = .directory deeper := by
    rw [follow_append hfollow, hdeeper]
  have hbelow : Path.below directory (names ++ [file]) =
      Path.join (Path.below directory names) file := List.foldl_append
  rw [hbelow, entryAt, resolve_join hfile hdirectory hthere, Except.map, follow_append hthere,
    follow, hcontent]
  rfl

/-! ## What is listed of a file tree -/

/-- A file that is listed stands under its name. -/
theorem lookup_of_mem_leaves (hdistinct : tree.listing.names.Nodup)
    (hfile : file ∈ tree.listing.leaves) : ∃ content, tree.lookup file = .file content := by
  induction tree with
  | done => cases hfile
  | file name content rest ih =>
    obtain ⟨-, hrest⟩ := List.nodup_cons.1 hdistinct
    rw [lookup]
    split
    · exact ⟨content, rfl⟩
    · next hne => exact ih hrest (List.mem_of_ne_of_mem (Ne.symm hne) hfile)
  | directory name entered rest _ ih =>
    obtain ⟨hname, hrest⟩ := List.nodup_cons.1 hdistinct
    have hne : name ≠ file := by
      rintro rfl
      exact hname (Listing.mem_names_of_mem_leaves hfile)
    rw [lookup, if_neg hne]
    exact ih hrest hfile

/-- A directory that is listed stands under its name. -/
theorem lookup_of_mem_subdirectories {listed : Listing} (hdistinct : tree.listing.names.Nodup)
    (hentry : (name, listed) ∈ tree.listing.subdirectories) :
    ∃ entered, tree.lookup name = .directory entered ∧ entered.listing = listed := by
  induction tree with
  | done => cases hentry
  | file first content rest ih =>
    obtain ⟨hfirst, hrest⟩ := List.nodup_cons.1 hdistinct
    have hne : first ≠ name := by
      rintro rfl
      exact hfirst (Listing.mem_names_of_mem_subdirectories hentry)
    rw [lookup, if_neg hne]
    exact ih hrest hentry
  | directory first entered rest _ ih =>
    obtain ⟨hfirst, hrest⟩ := List.nodup_cons.1 hdistinct
    rcases List.mem_cons.1 hentry with heq | hentry
    · cases heq
      exact ⟨entered, if_pos rfl, rfl⟩
    · have hne : first ≠ name := by
        rintro rfl
        exact hfirst (Listing.mem_names_of_mem_subdirectories hentry)
      rw [lookup, if_neg hne]
      exact ih hrest hentry

/-- Names that lead to a listed directory lead to it in the tree. -/
theorem follow_of_leads {listed : Listing} (htree : tree.listing.IsTree)
    (h : tree.listing.Leads names listed) :
    ∃ deeper, tree.follow names = .directory deeper ∧ deeper.listing = listed := by
  induction names generalizing tree with
  | nil =>
    cases h
    exact ⟨tree, rfl, rfl⟩
  | cons name names ih =>
    cases h with
    | down hentry hrest =>
      obtain ⟨entered, hentered, rfl⟩ :=
        lookup_of_mem_subdirectories (htree.distinct [] _ (.here _)) hentry
      rw [follow_cons_of_lookup hentered]
      exact ih (htree.entered hentry) hrest

/-- The path of a listed file leads to the file that stands in the directory. -/
theorem entryAt_of_leads {listed : Listing} (htree : inside.listing.IsTree)
    (hinside : tree.entryAt directory = .ok (.directory inside))
    (hleads : inside.listing.Leads names listed) (hfile : file ∈ listed.leaves) :
    ∃ content, inside.follow (names ++ [file]) = .file content ∧
      tree.entryAt (Path.below directory (names ++ [file])) = .ok (.file content) := by
  obtain ⟨deeper, hdeeper, rfl⟩ := follow_of_leads htree hleads
  obtain ⟨content, hcontent⟩ := lookup_of_mem_leaves (htree.distinct names _ hleads) hfile
  have hname := htree.named names _ hleads file (Listing.mem_names_of_mem_leaves hfile)
  refine ⟨content, ?_, ?_⟩
  · rw [follow_append hdeeper, follow, hcontent]
    rfl
  · exact entryAt_below (htree.isName_of_leads hleads) hname hinside hdeeper hcontent

end FileTree

/-! ## Loading -/

namespace ArtifactSource

variable {φ ψ : Type}

/-- Where a directory is listed the same and its files hold the same, so do the artifacts. -/
theorem read_inDirectory_congr {disk : Disk φ} {files : φ} {other : Disk ψ} {others : ψ}
    {directory : String} (htree : (disk.list files directory).IsTree)
    (hlisted : other.list others directory = disk.list files directory)
    (hsame : ∀ names inside file, (disk.list files directory).Leads names inside →
      file ∈ inside.leaves →
      other.read others (Path.below directory (names ++ [file])) =
        disk.read files (Path.below directory (names ++ [file]))) (name : String) :
    (inDirectory other directory).read others name =
      (inDirectory disk directory).read files name := by
  obtain ⟨found, hfind, houtcome⟩ := htree.find_outcome directory (fileName name)
  rw [inDirectory, inDirectory]
  simp only [hlisted, hfind]
  cases found with
  | none => rfl
  | some path =>
    obtain ⟨names, inside, -, hleads, hfile, -, -, rfl⟩ := houtcome.stands path rfl
    simp only [hsame names inside _ hleads hfile]

end ArtifactSource

/-- In a file tree, an artifact is what the directory of the artifacts holds of it: whatever stands
elsewhere does not matter. -/
theorem FileTree.artifact_of_inside {tree other inside : FileTree} {directory : String}
    (htree : inside.listing.IsTree) (hinside : tree.entryAt directory = .ok (.directory inside))
    (hother : other.entryAt directory = .ok (.directory inside)) (name : String) :
    (ArtifactSource.inDirectory disk directory).read other name =
      (ArtifactSource.inDirectory disk directory).read tree name := by
  have hlist : disk.list tree directory = inside.listing := by
    show tree.list directory = _
    rw [list, hinside]
  have hotherList : disk.list other directory = inside.listing := by
    show other.list directory = _
    rw [list, hother]
  refine ArtifactSource.read_inDirectory_congr (hlist ▸ htree) (hotherList.trans hlist.symm) ?_ name
  intro names listed file hleads hfile
  rw [hlist] at hleads
  obtain ⟨content, hcontent, hentry⟩ := entryAt_of_leads htree hinside hleads hfile
  obtain ⟨found, hfound, hotherEntry⟩ := entryAt_of_leads htree hother hleads hfile
  rw [hcontent] at hfound
  cases hfound
  show other.read _ = tree.read _
  rw [read, read, hentry, hotherEntry]

/-! ## The law -/

open ArtifactSource in
/-- An artifact is searched in a directory tree: the search comes to an end, and it finds the file
of the artifact exactly if some directory has it, in the first of the searched directories that has
it. A name with a slash is that of no artifact, and an artifact is read nowhere but at the paths of
files that stand in the tree. -/
theorem artifact_search_stays_below {φ : Type} (disk : Disk φ) (files : φ) (directory name : String)
    (htree : (disk.list files directory).IsTree) :
    (∃ found, (disk.list files directory).find directory (fileName name) = .ok found ∧
      (disk.list files directory).SearchOutcome directory (fileName name) found) ∧
    ('/' ∈ name.toList → (inDirectory disk directory).read files name =
      .error (.artifactNotFound (.notBelow name directory))) ∧
    (∀ {ψ : Type} (other : Disk ψ) (others : ψ),
      other.list others directory = disk.list files directory →
      (∀ names inside file, (disk.list files directory).Leads names inside →
        file ∈ inside.leaves →
        other.read others (Path.below directory (names ++ [file])) =
          disk.read files (Path.below directory (names ++ [file]))) →
      (inDirectory other directory).read others name =
        (inDirectory disk directory).read files name) ∧
    ∀ tree other inside : FileTree, inside.listing.IsTree →
      tree.entryAt directory = .ok (.directory inside) →
      other.entryAt directory = .ok (.directory inside) →
      (inDirectory FileTree.disk directory).read other name =
        (inDirectory FileTree.disk directory).read tree name := by
  refine ⟨htree.find_outcome directory (fileName name), fun hslash => ?_, ?_, ?_⟩
  · have hfile : '/' ∈ (fileName name).toList := by
      rw [fileName, String.toList_append, String.toList_append, List.append_assoc]
      exact List.mem_append_left _ hslash
    obtain ⟨found, hfind, houtcome⟩ := htree.find_outcome directory (fileName name)
    have hnone : found = none := houtcome.none_iff.2 (htree.lacks hfile)
    simp only [inDirectory, hfind, hnone]
  · exact fun other others hlisted hsame => read_inDirectory_congr htree hlisted hsame name
  · exact fun tree other inside hinside htree hother =>
      FileTree.artifact_of_inside hinside htree hother name

/-- What a build leaves behind: a directory with the name of an artifact's file, and in it the
file. -/
def builtTree : FileTree :=
  .directory "build" (.directory "Token.json" (.file "Token.json" (.text "no artifact") .done)
    (.file "Registry.json" (.text "no artifact") .done)) .done

theorem builtTree_isTree : (FileTree.disk.list builtTree "build").IsTree := by
  have hlist : FileTree.disk.list builtTree "build" =
      .directory "Token.json" (.leaf "Token.json" .done) (.leaf "Registry.json" .done) := rfl
  have htoken : Path.IsName "Token.json" := ⟨by decide, by decide, by decide, by decide, by decide⟩
  have hregistry : Path.IsName "Registry.json" :=
    ⟨by decide, by decide, by decide, by decide, by decide⟩
  have hinside : (Listing.leaf "Token.json" .done).IsTree :=
    Listing.isTree_of_entries trivial (List.forall_mem_singleton.2 htoken) (by decide) nofun
  rw [hlist]
  refine Listing.isTree_of_entries ⟨trivial, trivial⟩ ?_ (by decide)
    (List.forall_mem_singleton.2 hinside)
  exact List.forall_mem_cons.2 ⟨htoken, List.forall_mem_singleton.2 hregistry⟩

/-- The directory is searched, and its file found. -/
theorem artifact_search_stays_below_built :
    (FileTree.disk.list builtTree "build").IsTree ∧
    (FileTree.disk.list builtTree "build").find "build" "Token.json" =
      .ok (some "build/Token.json/Token.json") ∧
    (FileTree.disk.list builtTree "build").SearchOutcome "build" "Token.json"
      (some "build/Token.json/Token.json") := by
  have hfind : (FileTree.disk.list builtTree "build").find "build" "Token.json" =
      .ok (some "build/Token.json/Token.json") := rfl
  obtain ⟨⟨found, hfound, houtcome⟩, -⟩ :=
    artifact_search_stays_below FileTree.disk builtTree "build" "Token" builtTree_isTree
  have hname : ArtifactSource.fileName "Token" = "Token.json" := by decide
  rw [hname, hfind] at hfound
  cases hfound
  exact ⟨builtTree_isTree, hfind, hname ▸ houtcome⟩

end ContractDeploy
