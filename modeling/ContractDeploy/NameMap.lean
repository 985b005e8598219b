/-!
# Maps keyed by names

A finite map from names to values, kept as a list of pairs in strictly increasing order of names.
Names are ordered by code points, which is also the order of their UTF-8 bytes. Since the list is
sorted without repetition, two maps with the same content are equal, and so is every text that is
written from them. Main statements: what a map holds after an insertion, and that a map is
determined by its look-ups.
-/

namespace ContractDeploy

/-- A finite map from names to values, in increasing order of names. -/
structure NameMap (α : Type) where
  /-- The pairs of the map. -/
  entries : List (String × α)
  /-- Each name is smaller than all that follow. -/
  sorted : entries.Pairwise fun a b => a.1 < b.1
deriving DecidableEq

namespace NameMap

variable {α β : Type}

/-- Puts a pair in its place, over a pair of the same name. -/
def insertEntry (name : String) (value : α) : List (String × α) → List (String × α)
  | [] => [(name, value)]
  | (n, v) :: rest =>
    if name < n then (name, value) :: (n, v) :: rest
    else if name = n then (name, value) :: rest
    else (n, v) :: insertEntry name value rest

/-- The value of the first pair of this name. -/
def lookupEntry (name : String) : List (String × α) → Option α
  | [] => none
  | (n, v) :: rest => if n = name then some v else lookupEntry name rest

theorem lt_of_not_lt_of_ne {a b : String} (h : ¬ a < b) (hne : a ≠ b) : b < a := by
  have hle : b ≤ a := String.not_lt.1 h
  exact Decidable.byContradiction fun hba =>
    hne (String.le_antisymm (String.not_lt.1 hba) hle)

theorem mem_insertEntry {name : String} {value : α} {pair : String × α}
    {entries : List (String × α)} (h : pair ∈ insertEntry name value entries) :
    pair = (name, value) ∨ pair ∈ entries := by
  induction entries with
  | nil => simpa [insertEntry] using h
  | cons head rest ih =>
    simp only [insertEntry] at h
    split at h
    · simpa using h
    · split at h
      · rcases List.mem_cons.1 h with h | h
        · exact Or.inl h
        · exact Or.inr (List.mem_cons_of_mem _ h)
      · rcases List.mem_cons.1 h with h | h
        · exact Or.inr (h ▸ List.mem_cons_self)
        · exact (ih h).imp_right (List.mem_cons_of_mem _)

theorem pairwise_insertEntry (name : String) (value : α) {entries : List (String × α)}
    (h : entries.Pairwise fun a b => a.1 < b.1) :
    (insertEntry name value entries).Pairwise fun a b => a.1 < b.1 := by
  induction entries with
  | nil => simp [insertEntry]
  | cons head rest ih =>
    obtain ⟨hhead, hrest⟩ := List.pairwise_cons.1 h
    simp only [insertEntry]
    split
    · next hlt =>
      refine List.pairwise_cons.2 ⟨?_, h⟩
      intro b hb
      rcases List.mem_cons.1 hb with rfl | hb
      · exact hlt
      · exact String.lt_trans hlt (hhead b hb)
    · next hlt =>
      split
      · next heq => exact List.pairwise_cons.2 ⟨fun b hb => heq ▸ hhead b hb, hrest⟩
      · next hne =>
        refine List.pairwise_cons.2 ⟨?_, ih hrest⟩
        intro b hb
        rcases mem_insertEntry hb with rfl | hb
        · exact lt_of_not_lt_of_ne hlt hne
        · exact hhead b hb

/-- The map without any name. -/
def empty : NameMap α := ⟨[], List.Pairwise.nil⟩

instance : EmptyCollection (NameMap α) := ⟨empty⟩

instance : Inhabited (NameMap α) := ⟨empty⟩

/-- The map with this value under this name, whatever was there before. -/
def insert (map : NameMap α) (name : String) (value : α) : NameMap α :=
  ⟨insertEntry name value map.entries, pairwise_insertEntry name value map.sorted⟩

/-- The value under a name. -/
def get? (map : NameMap α) (name : String) : Option α := lookupEntry name map.entries

/-- The names, in increasing order. -/
def names (map : NameMap α) : List String := map.entries.map (·.1)

/-- Whether the map has no name. -/
def isEmpty (map : NameMap α) : Bool := map.entries.isEmpty

/-- The map that these pairs build one after the other, a later pair over an earlier one. -/
def ofList (pairs : List (String × α)) : NameMap α :=
  pairs.foldl (fun map pair => map.insert pair.1 pair.2) empty

/-- The map with every value replaced by its image. -/
def map (f : α → β) (m : NameMap α) : NameMap β where
  entries := m.entries.map fun pair => (pair.1, f pair.2)
  sorted := List.pairwise_map.2 m.sorted

theorem ext {a b : NameMap α} (h : a.entries = b.entries) : a = b := by
  cases a
  cases b
  simp_all

theorem lookupEntry_insertEntry (name other : String) (value : α) (entries : List (String × α)) :
    lookupEntry other (insertEntry name value entries) =
      if name = other then some value else lookupEntry other entries := by
  induction entries with
  | nil => simp [insertEntry, lookupEntry]
  | cons head rest ih =>
    obtain ⟨n, v⟩ := head
    simp only [insertEntry]
    split
    · simp [lookupEntry]
    · split
      · next heq =>
        subst heq
        by_cases hname : name = other <;> simp [lookupEntry, hname]
      · next hne =>
        by_cases hn : n = other
        · subst hn
          simp [lookupEntry, hne]
        · simp [lookupEntry, hn, ih]

/-- After an insertion the new name has the new value and every other name what it had. -/
theorem get?_insert (map : NameMap α) (name other : String) (value : α) :
    (map.insert name value).get? other = if name = other then some value else map.get? other :=
  lookupEntry_insertEntry name other value map.entries

@[simp] theorem get?_empty (name : String) : (empty : NameMap α).get? name = none := rfl

theorem lookupEntry_eq_some_iff {entries : List (String × α)} {name : String} {value : α}
    (h : entries.Pairwise fun a b => a.1 < b.1) :
    lookupEntry name entries = some value ↔ (name, value) ∈ entries := by
  induction entries with
  | nil => simp [lookupEntry]
  | cons head rest ih =>
    obtain ⟨n, v⟩ := head
    obtain ⟨hhead, hrest⟩ := List.pairwise_cons.1 h
    by_cases hn : n = name
    · subst hn
      have hnot : (n, value) ∉ rest := fun hmem => String.lt_irrefl _ (hhead (n, value) hmem)
      simp [lookupEntry, hnot, eq_comm]
    · have hne : ¬ name = n := fun heq => hn heq.symm
      simp [lookupEntry, hn, hne, ih hrest]

/-- A name has a value exactly when the pair is in the map. -/
theorem get?_eq_some_iff (map : NameMap α) (name : String) (value : α) :
    map.get? name = some value ↔ (name, value) ∈ map.entries :=
  lookupEntry_eq_some_iff map.sorted

theorem lookupEntry_eq_none_of_lt {entries : List (String × α)} {name : String}
    (h : ∀ pair ∈ entries, name < pair.1) : lookupEntry name entries = none := by
  induction entries with
  | nil => rfl
  | cons head rest ih =>
    have hne : ¬ head.1 = name := fun heq =>
      String.lt_irrefl name (by simpa [heq] using h head List.mem_cons_self)
    simp [lookupEntry, hne, ih fun pair hp => h pair (List.mem_cons_of_mem _ hp)]

theorem eq_of_lookupEntry_eq {a b : List (String × α)}
    (ha : a.Pairwise fun x y => x.1 < y.1) (hb : b.Pairwise fun x y => x.1 < y.1)
    (h : ∀ name, lookupEntry name a = lookupEntry name b) : a = b := by
  induction a generalizing b with
  | nil =>
    cases b with
    | nil => rfl
    | cons head rest => simpa [lookupEntry] using h head.1
  | cons x ra ih =>
    obtain ⟨hx, hra⟩ := List.pairwise_cons.1 ha
    cases b with
    | nil => simpa [lookupEntry] using h x.1
    | cons y rb =>
      obtain ⟨hy, hrb⟩ := List.pairwise_cons.1 hb
      have hname : x.1 = y.1 := by
        refine Decidable.byContradiction fun hne => ?_
        by_cases hlt : x.1 < y.1
        · have hnone : lookupEntry x.1 (y :: rb) = none := by
            refine lookupEntry_eq_none_of_lt fun pair hp => ?_
            rcases List.mem_cons.1 hp with rfl | hp
            · exact hlt
            · exact String.lt_trans hlt (hy pair hp)
          exact absurd ((h x.1).trans hnone) (by simp [lookupEntry])
        · have hgt : y.1 < x.1 := lt_of_not_lt_of_ne hlt hne
          have hnone : lookupEntry y.1 (x :: ra) = none := by
            refine lookupEntry_eq_none_of_lt fun pair hp => ?_
            rcases List.mem_cons.1 hp with rfl | hp
            · exact hgt
            · exact String.lt_trans hgt (hx pair hp)
          exact absurd ((h y.1).symm.trans hnone) (by simp [lookupEntry])
      have hvalue : x.2 = y.2 := by simpa [lookupEntry, hname] using h x.1
      have htail : ra = rb := by
        refine ih hra hrb fun name => ?_
        by_cases hn : x.1 = name
        · rw [lookupEntry_eq_none_of_lt fun pair hp => hn ▸ hx pair hp,
            lookupEntry_eq_none_of_lt fun pair hp => hn ▸ hname ▸ hy pair hp]
        · have hn' : ¬ y.1 = name := hname ▸ hn
          simpa [lookupEntry, hn, hn'] using h name
      rw [htail, Prod.ext hname hvalue]

/-- Maps with the same look-ups are the same map. -/
theorem ext_get? {a b : NameMap α} (h : ∀ name, a.get? name = b.get? name) : a = b :=
  ext (eq_of_lookupEntry_eq a.sorted b.sorted h)

end NameMap

end ContractDeploy
