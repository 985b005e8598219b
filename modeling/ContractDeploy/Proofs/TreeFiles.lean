import ContractDeploy.Files.Tree
import ContractDeploy.Proofs.FileHistory

/-!
# File trees keep what is written

In a file tree, the file at a path holds what was last written to it, for every path. A path leads
through directories, and writing a file changes none of them into anything else, so that the path
leads to the same place afterwards; there stands the new content.
-/

namespace ContractDeploy

namespace FileTree

variable {tree : FileTree} {name other : String} {entry : Entry}

/-! ## One directory -/

theorem lookup_set (tree : FileTree) (name : String) (hentry : entry ≠ .absent) :
    (tree.set name entry).lookup name = entry := by
  induction tree with
  | done => cases entry <;> simp_all [set, lookup]
  | file found content rest ih =>
    simp only [set]
    split
    · cases entry <;> simp_all [lookup]
    · next hne => rw [lookup, if_neg hne, ih]
  | directory found inside rest _ ih =>
    simp only [set]
    split
    · cases entry <;> simp_all [lookup]
    · next hne => rw [lookup, if_neg hne, ih]

theorem lookup_set_of_ne (tree : FileTree) (entry : Entry) (h : name ≠ other) :
    (tree.set name entry).lookup other = tree.lookup other := by
  induction tree with
  | done => cases entry <;> simp [set, lookup, h]
  | file found content rest ih =>
    simp only [set]
    split
    · next hfound => cases entry <;> simp [lookup, hfound, h]
    · simp only [lookup, ih]
  | directory found inside rest _ ih =>
    simp only [set]
    split
    · next hfound => cases entry <;> simp [lookup, hfound, h]
    · simp only [lookup, ih]

/-! ## Below a directory -/

/-- The names that start a way to a directory lead to a directory. -/
theorem lookup_of_follow_cons {names : List String} {inside : FileTree}
    (h : tree.follow (name :: names) = .directory inside) :
    ∃ below, tree.lookup name = .directory below ∧ below.follow names = .directory inside := by
  rw [follow] at h
  split at h
  · cases h
  · split at h <;> cases h
  · next below hlookup => exact ⟨below, hlookup, h⟩

theorem follow_cons_of_lookup {names : List String} {below : FileTree}
    (h : tree.lookup name = .directory below) :
    tree.follow (name :: names) = below.follow names := by
  rw [follow, h]

theorem put_cons_cons_of_lookup {names : List String} {below : FileTree} (next : String)
    (entry : Entry) (h : tree.lookup name = .directory below) :
    tree.put entry (name :: next :: names) =
      tree.set name (.directory (below.put entry (next :: names))) := by
  rw [put, h]
  intro hcons
  cases hcons

/-- A file is where it was put, in a directory that is there. -/
theorem follow_put {names : List String} (content : FileContent) {parent : FileTree}
    (hne : names ≠ []) (hparent : tree.follow names.dropLast = .directory parent) :
    (tree.put (.file content) names).follow names = .file content := by
  induction names generalizing tree with
  | nil => exact absurd rfl hne
  | cons name names ih =>
    cases names with
    | nil =>
      have hlookup : (tree.set name (.file content)).lookup name = .file content :=
        tree.lookup_set name (by simp)
      rw [put, follow, hlookup]
      rfl
    | cons next names =>
      rw [List.dropLast_cons_cons] at hparent
      obtain ⟨below, hbelow, hparent⟩ := lookup_of_follow_cons hparent
      rw [put_cons_cons_of_lookup next _ hbelow,
        follow_cons_of_lookup (tree.lookup_set name (by simp))]
      exact ih (by simp) hparent

/-- Putting something below a directory leaves what stands beside it. -/
theorem follow_put_of_ne {names base : List String} (entry : Entry) (h : name ≠ other) :
    (tree.put entry (name :: names)).follow (other :: base) = tree.follow (other :: base) := by
  cases names with
  | nil => rw [put, follow, follow, lookup_set_of_ne _ _ h]
  | cons next names =>
    rw [put]
    · split
      · rw [follow, follow, lookup_set_of_ne _ _ h]
      · rfl
    · intro hcons
      cases hcons

/-- Directories stay directories when something is put where there is none. -/
theorem follow_put_directory {names base : List String} {inside : FileTree} (entry : Entry)
    (hnames : ∀ found, tree.follow names ≠ .directory found)
    (hbase : tree.follow base = .directory inside) :
    ∃ found, (tree.put entry names).follow base = .directory found := by
  induction names generalizing tree base with
  | nil => exact absurd rfl (hnames tree)
  | cons name names ih =>
    cases base with
    | nil => exact ⟨_, rfl⟩
    | cons first base =>
      by_cases hfirst : name = first
      · subst hfirst
        obtain ⟨below, hbelow, hinside⟩ := lookup_of_follow_cons hbase
        rw [follow_cons_of_lookup hbelow] at hnames
        cases names with
        | nil => exact absurd rfl (hnames below)
        | cons next names =>
          rw [put_cons_cons_of_lookup next entry hbelow,
            follow_cons_of_lookup (tree.lookup_set name (by simp))]
          exact ih hnames hinside
      · exact ⟨inside, (follow_put_of_ne entry hfirst).trans hbase⟩

/-! ## Paths -/

theorem follow_append_directory {front back : List String} {inside : FileTree}
    (h : tree.follow (front ++ back) = .directory inside) :
    ∃ found, tree.follow front = .directory found := by
  induction front generalizing tree with
  | nil => exact ⟨tree, rfl⟩
  | cons name front ih =>
    obtain ⟨below, hbelow, hinside⟩ := lookup_of_follow_cons h
    obtain ⟨found, hfound⟩ := ih hinside
    exact ⟨found, (follow_cons_of_lookup hbelow).trans hfound⟩

theorem follow_dropLast {names : List String} {inside : FileTree}
    (h : tree.follow names = .directory inside) :
    ∃ found, tree.follow names.dropLast = .directory found := by
  cases names with
  | nil => exact ⟨tree, rfl⟩
  | cons name names =>
    rw [← List.dropLast_concat_getLast (List.cons_ne_nil name names)] at h
    exact follow_append_directory h

/-- What a path comes to stands in a directory. -/
theorem parent_of_resolveFrom {base parts names : List String}
    (h : tree.resolveFrom base parts = .ok names)
    (hbase : ∃ found, tree.follow base.dropLast = .directory found) :
    ∃ found, tree.follow names.dropLast = .directory found := by
  induction parts generalizing base with
  | nil =>
    cases h
    exact hbase
  | cons part parts ih =>
    unfold resolveFrom at h
    split at h
    · split at h
      · cases h
        exact hbase
      · cases h
    · cases h
    · next inside hinside =>
      split at h
      · exact ih h hbase
      · split at h
        · split at h
          · cases h
          · exact ih h (follow_dropLast (follow_dropLast hinside).choose_spec)
        · exact ih h (by rw [List.dropLast_concat]; exact ⟨inside, hinside⟩)

/-- A path leads to the same place after something was put there, unless it ends with a slash and
nothing was there. -/
theorem resolveFrom_put {base parts names : List String} (entry : Entry)
    (h : tree.resolveFrom base parts = .ok names)
    (hnames : ∀ found, tree.follow names ≠ .directory found)
    (hclosed : tree.follow names = .absent → parts.getLast? ≠ some "") :
    (tree.put entry names).resolveFrom base parts = .ok names := by
  induction parts generalizing base with
  | nil => exact h
  | cons part parts ih =>
    have hrest : tree.follow names = .absent → parts.getLast? ≠ some "" := by
      intro habsent
      cases parts with
      | nil => simp
      | cons next parts => exact hclosed habsent
    unfold resolveFrom at h ⊢
    split at h
    · next habsent =>
      -- Nothing was there, so that only empty parts are left, and the path ends with a slash.
      split at h
      · next hempty =>
        cases h
        have hlast := List.getLast_mem (List.cons_ne_nil part parts)
        have hblank := List.all_eq_true.1 hempty _ hlast
        refine absurd ?_ (hclosed habsent)
        rw [List.getLast?_eq_some_getLast (List.cons_ne_nil part parts)]
        exact congrArg some (of_decide_eq_true hblank)
      · cases h
    · cases h
    · next inside hinside =>
      -- The way so far still leads to a directory, and the other parts are taken from there.
      obtain ⟨found, hfound⟩ := follow_put_directory entry hnames hinside
      rw [hfound]
      dsimp only
      split
      · next hstay =>
        rw [if_pos hstay] at h
        exact ih h hrest
      · next hstay =>
        rw [if_neg hstay] at h
        split
        · next hup =>
          rw [if_pos hup] at h
          cases base with
          | nil => cases h
          | cons first base => exact ih h hrest
        · next hup =>
          rw [if_neg hup] at h
          exact ih h hrest

/-! ## The file at a path -/

/-- Setting a file puts a content at the place that its path leads to, where there was none or
another one, and leaves the path as it is. -/
theorem modify_eq_ok {change : Option FileContent → FileContent} {path : String}
    {after : FileTree} (h : tree.modify change path = (.ok (), after)) :
    ∃ names old, tree.resolve path = .ok names ∧
      after = tree.put (.file (change old)) names ∧
      (∀ found, tree.follow names ≠ .directory found) ∧
      (tree.follow names = .absent → (Path.parts path).getLast? ≠ some "") := by
  unfold modify at h
  split at h
  · cases h
  · next names hresolve =>
    split at h
    · cases h
    · next content hfollow =>
      cases h
      exact ⟨names, some content, hresolve, rfl, by simp [hfollow], by simp [hfollow]⟩
    · next hfollow =>
      split at h
      · cases h
      · next hopen =>
        cases h
        refine ⟨names, none, hresolve, rfl, by simp [hfollow], fun _ hlast => hopen ?_⟩
        rw [Path.isOpen, hlast]
        rfl

/-- Of a path that leads somewhere, only the parts depend on the tree. -/
theorem resolve_eq_ok {path : String} {names : List String} (h : tree.resolve path = .ok names) :
    tree.resolveFrom [] (Path.parts path) = .ok names ∧
      ∀ other : FileTree, other.resolve path = other.resolveFrom [] (Path.parts path) := by
  unfold resolve at h ⊢
  split at h
  · cases h
  · next hplace =>
    split at h
    · cases h
    · next hzero => exact ⟨h, fun other => by rw [if_neg hplace, if_neg hzero]⟩

/-- What is read at a path after its file was set. -/
theorem read_of_modify {change : Option FileContent → FileContent} {path : String}
    {after : FileTree} (h : tree.modify change path = (.ok (), after)) :
    ∃ old, after.read path = (change old).read := by
  obtain ⟨names, old, hresolve, rfl, hnames, hclosed⟩ := modify_eq_ok h
  obtain ⟨hfrom, hother⟩ := resolve_eq_ok hresolve
  have hafter : (tree.put (.file (change old)) names).entryAt path =
      .ok (.file (change old)) := by
    have hne : names ≠ [] := by
      rintro rfl
      exact hnames tree rfl
    obtain ⟨parent, hparent⟩ := parent_of_resolveFrom hfrom ⟨tree, rfl⟩
    rw [entryAt, hother, resolveFrom_put _ hfrom hnames hclosed]
    exact congrArg Except.ok (follow_put _ hne hparent)
  refine ⟨old, ?_⟩
  rw [read, hafter]

theorem modify_eq_error {change : Option FileContent → FileContent} {path : String}
    {fault : FileFault} {after : FileTree}
    (h : tree.modify change path = (.error fault, after)) : after = tree := by
  unfold modify at h
  split at h
  · cases h
    rfl
  · split at h
    · cases h
      rfl
    · cases h
    · split at h
      · cases h
        rfl
      · cases h

/-- A file tree gives back what it took. -/
theorem givesBack (path : String) : disk.GivesBack path := by
  intro text before after h
  have hmodify : before.modify (fun _ => .text text) path = (.ok (), after) := h
  obtain ⟨_, hread⟩ := read_of_modify hmodify
  exact hread

/-- It is not changed by what it refuses. -/
theorem leavesRefused (path : String) : disk.LeavesRefused path := by
  intro text fault before after h
  have hmodify : before.modify (fun _ => .text text) path = (.error fault, after) := h
  rw [modify_eq_error hmodify]

/-- A file whose text can be read can be written. -/
theorem write_of_read {path old : String} (h : tree.read path = .ok old) (text : String) :
    (tree.write path text).1 = .ok () := by
  unfold read entryAt at h
  unfold write modify
  cases hresolve : tree.resolve path with
  | error fault =>
    rw [hresolve] at h
    cases h
  | ok names =>
    rw [hresolve, Except.map] at h
    cases hfollow : tree.follow names with
    | absent =>
      rw [hfollow] at h
      cases h
    | directory inside =>
      rw [hfollow] at h
      cases h
    | file content => simp only [hfollow]

end FileTree

end ContractDeploy
