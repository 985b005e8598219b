import ContractDeploy.Proofs.Linking
import ContractDeploy.Proofs.RecordedCalls

/-!
# Loading all recorded contracts

Handles on the recorded contracts are made name by name, in the order in which a book lists them,
and the first name whose artifact does not load ends it. So either every artifact loads and there is
a handle for each record, or there is a first name without an artifact and its failure is all that
comes of it. Which of the two it is depends on the artifacts of the recorded names alone; and in the
second case only on those up to the first that fails.
-/

namespace ContractDeploy

variable {γ φ : Type}

/-! ## What loading is to come to -/

/-- A handle on what a record says is deployed: at the address where callers find it, under the
interface of its artifact, for an account, and with a journal in a directory, if there is one. -/
structure Contract.Serves (contract : Contract) (name : String) (record : Record)
    (artifact : Artifact) (sender : Sender) (directory : Option String) : Prop where
  name : contract.name = name
  address : record.FoundAt contract.address
  interface : contract.interface = artifact.interface
  sender : contract.sender = sender
  journal : contract.journal = some ⟨directory⟩

namespace ArtifactSource

variable (source : ArtifactSource φ) (files : φ) (recorded : String → Option Record)

/-- The artifact of a contract loads. -/
def Has (name : String) : Prop := ∃ artifact, source.read files name = .ok artifact

/-- The artifact of every recorded contract loads. -/
def HasAll : Prop := ∀ name, (recorded name).isSome → source.Has files name

/-- The first recorded name, in the order of bytes, whose artifact does not load. -/
structure FirstLacking (name : String) (error : DeployError) : Prop where
  isRecorded : (recorded name).isSome
  unread : source.read files name = .error error
  earlier : ∀ other, (recorded other).isSome → Bytes.ofString other < Bytes.ofString name →
    source.Has files other

/-- A map that has a handle under each recorded name, and under no other. -/
structure HandlesFor (sender : Sender) (directory : Option String) (handles : NameMap Contract) :
    Prop where
  complete : ∀ name, (handles.get? name).isSome ↔ (recorded name).isSome
  each : ∀ name contract, handles.get? name = some contract → ∃ record artifact,
    recorded name = some record ∧ source.read files name = .ok artifact ∧
      contract.Serves name record artifact sender directory

variable {source files recorded} {book : Book} {name : String} {error : DeployError}

theorem not_has_iff : ¬ source.Has files name ↔ ∃ error, source.read files name = .error error := by
  cases hread : source.read files name with
  | ok artifact => simp [Has, hread]
  | error error => simp [Has, hread]

/-- What a source has for later names does not matter. -/
theorem FirstLacking.of_agrees {other : ArtifactSource φ}
    (h : source.FirstLacking files recorded name error)
    (hagrees : ∀ earlier, ¬ Bytes.ofString name < Bytes.ofString earlier →
      other.read files earlier = source.read files earlier) :
    other.FirstLacking files recorded name error where
  isRecorded := h.isRecorded
  unread := (hagrees name (List.lt_irrefl _)).trans h.unread
  earlier before hbefore hlt := by
    obtain ⟨artifact, hread⟩ := h.earlier before hbefore hlt
    exact ⟨artifact, (hagrees before (List.lt_asymm hlt)).trans hread⟩

/-! ## The names that a book lists -/

theorem hasAll_iff (hshows : book.Shows recorded) :
    source.HasAll files recorded ↔ ∀ name ∈ book.list, source.Has files name := by
  simp only [HasAll, hshows.listed]

/-- A listed name that comes behind others whose artifacts load, and whose own does not, is the
first of its kind. -/
theorem FirstLacking.of_list (hshows : book.Shows recorded) {front rest : List String}
    (hlist : book.list = front ++ name :: rest) (hfront : ∀ other ∈ front, source.Has files other)
    (hread : source.read files name = .error error) :
    source.FirstLacking files recorded name error := by
  have hmem : name ∈ book.list := by
    rw [hlist]
    exact List.mem_append_right _ List.mem_cons_self
  have horder := hshows.inOrder
  rw [hlist] at horder
  have hbehind := (List.pairwise_cons.1 (List.pairwise_append.1 horder).2.1).1
  refine ⟨(hshows.listed name).1 hmem, hread, fun other hother hlt => hfront other ?_⟩
  have hlisted := (hshows.listed other).2 hother
  rw [hlist] at hlisted
  -- A smaller name is neither the name itself nor one of those behind it.
  rcases List.mem_append.1 hlisted with hin | hin
  · exact hin
  rcases List.mem_cons.1 hin with rfl | hin
  · exact absurd hlt (List.lt_irrefl _)
  · exact absurd hlt (List.lt_asymm (hbehind other hin))

/-- The artifacts of the names that are listed before the first that lacks one load. -/
theorem FirstLacking.exists_front (hshows : book.Shows recorded)
    (h : source.FirstLacking files recorded name error) :
    ∃ front rest, book.list = front ++ name :: rest ∧ ∀ other ∈ front, source.Has files other := by
  obtain ⟨front, rest, hlist⟩ := List.append_of_mem ((hshows.listed name).2 h.isRecorded)
  have horder := hshows.inOrder
  rw [hlist] at horder
  have hbefore := (List.pairwise_append.1 horder).2.2
  refine ⟨front, rest, hlist, fun other hother => h.earlier other ?_ ?_⟩
  · refine (hshows.listed other).1 ?_
    rw [hlist]
    exact List.mem_append_left _ hother
  · exact hbefore other hother name List.mem_cons_self

theorem hasAll_or_firstLacking (source : ArtifactSource φ) (files : φ)
    (hshows : book.Shows recorded) :
    source.HasAll files recorded ∨ ∃ name error, source.FirstLacking files recorded name error := by
  rcases forall_or_exists_first (source.Has files) book.list with
    hall | ⟨front, name, rest, hlist, hfront, hname⟩
  · exact .inl ((hasAll_iff hshows).2 hall)
  · obtain ⟨error, hread⟩ := not_has_iff.1 hname
    exact .inr ⟨name, error, .of_list hshows hlist hfront hread⟩

end ArtifactSource

/-! ## Loading name by name -/

namespace Contract

variable {source : ArtifactSource φ} {book : Book} {name : String} {error : DeployError}
  {world : World γ φ}

/-- Where its artifact loads, there is a handle on what the record of a name says. -/
theorem load_serves {artifact : Artifact} (book : Book) (sender : Sender)
    (directory : Option String) (hread : source.read world.files name = .ok artifact) :
    ∃ contract, load source book name sender directory world = (.ok contract, world) ∧
      contract.Serves name (book.get name) artifact sender directory :=
  ⟨_, load_of_read book sender directory world hread, rfl, Record.foundAt_iff.2 rfl, rfl, rfl, rfl⟩

/-- Where the artifacts of all names load, there is a handle for each, in their order. -/
theorem loadEach_of_has (book : Book) (sender : Sender) (directory : Option String)
    {names : List String} (h : ∀ name ∈ names, source.Has world.files name) :
    ∃ contracts, loadEach source book sender directory names world = (.ok contracts, world) ∧
      contracts.map (·.1) = names ∧ ∀ name contract, (name, contract) ∈ contracts →
        ∃ artifact, source.read world.files name = .ok artifact ∧
          contract.Serves name (book.get name) artifact sender directory := by
  induction names with
  | nil => exact ⟨[], rfl, rfl, nofun⟩
  | cons name names ih =>
    obtain ⟨⟨artifact, hread⟩, hothers⟩ := List.forall_mem_cons.1 h
    obtain ⟨contract, hcontract, hserves⟩ := load_serves book sender directory hread
    obtain ⟨contracts, hload, hnames, hcontracts⟩ := ih hothers
    refine ⟨(name, contract) :: contracts, ?_, ?_, fun other found hmem => ?_⟩
    · rw [loadEach, Run.bind_of_ok hcontract, Run.bind_of_ok hload]
      rfl
    · rw [List.map_cons, hnames]
    · rcases List.mem_cons.1 hmem with heq | hmem
      · cases heq
        exact ⟨artifact, hread, hserves⟩
      · exact hcontracts other found hmem

/-- The first name whose artifact does not load ends it, whatever names follow. -/
theorem loadEach_of_lacking (sender : Sender) (directory : Option String) {front : List String}
    (hfront : ∀ other ∈ front, source.Has world.files other)
    (hread : source.read world.files name = .error error) (rest : List String) :
    loadEach source book sender directory (front ++ name :: rest) world =
      (.error error, world.telling [.notLoaded name error]) := by
  induction front with
  | nil => exact Run.bind_of_error (load_of_unread book sender directory hread)
  | cons first front ih =>
    obtain ⟨⟨artifact, hfirst⟩, hothers⟩ := List.forall_mem_cons.1 hfront
    obtain ⟨contract, hcontract, -⟩ := load_serves book sender directory hfirst
    rw [List.cons_append, loadEach, Run.bind_of_ok hcontract]
    exact Run.bind_of_error (ih hothers)

variable {recorded : String → Option Record}

/-- Where the artifacts of all recorded contracts load, there are handles on all of them. -/
theorem loadAll_of_hasAll (sender : Sender) (directory : Option String)
    (hshows : book.Shows recorded) (h : source.HasAll world.files recorded) :
    ∃ handles : NameMap Contract,
      loadAll source book sender directory world = (.ok handles.entries, world) ∧
      source.HandlesFor world.files recorded sender directory handles := by
  obtain ⟨contracts, hload, hnames, hcontracts⟩ := loadEach_of_has book sender directory
    ((ArtifactSource.hasAll_iff hshows).1 h)
  have hsorted : contracts.Pairwise fun a b => a.1 < b.1 := by
    refine List.pairwise_map.1 ?_
    rw [hnames]
    exact List.pairwise_map.2 book.entries.sorted
  refine ⟨⟨contracts, hsorted⟩, hload, fun name => ?_, fun name contract hfound => ?_⟩
  · rw [← mem_names, ← hshows.listed, ← hnames]
    rfl
  · have hpair := (NameMap.get?_eq_some_iff _ name contract).1 hfound
    obtain ⟨artifact, hread, hserves⟩ := hcontracts name contract hpair
    have hlisted : name ∈ book.list := by
      rw [← hnames]
      exact List.mem_map_of_mem hpair
    obtain ⟨record, hrecord⟩ := Option.isSome_iff_exists.1 ((hshows.listed name).1 hlisted)
    have hget : book.get name = record := by
      rw [hshows.given, hrecord]
      rfl
    rw [hget] at hserves
    exact ⟨record, artifact, hrecord, hread, hserves⟩

/-- Where one does not, the failure of the first is all that comes of it. -/
theorem loadAll_of_firstLacking (sender : Sender) (directory : Option String)
    (hshows : book.Shows recorded) (h : source.FirstLacking world.files recorded name error) :
    loadAll source book sender directory world =
      (.error error, world.telling [.notLoaded name error]) := by
  obtain ⟨front, rest, hlist, hfront⟩ := h.exists_front hshows
  rw [loadAll, hlist]
  exact loadEach_of_lacking sender directory hfront h.unread rest

theorem exists_loadAll_eq_ok_iff (source : ArtifactSource φ) (sender : Sender)
    (directory : Option String) (world : World γ φ) (hshows : book.Shows recorded) :
    (∃ contracts, (loadAll source book sender directory world).1 = .ok contracts) ↔
      source.HasAll world.files recorded := by
  constructor
  · rintro ⟨contracts, hloaded⟩
    rcases source.hasAll_or_firstLacking world.files hshows with hall | ⟨name, error, hfirst⟩
    · exact hall
    · rw [loadAll_of_firstLacking sender directory hshows hfirst] at hloaded
      cases hloaded
  · intro hall
    obtain ⟨handles, hload, -⟩ := loadAll_of_hasAll sender directory hshows hall
    exact ⟨handles.entries, congrArg Prod.fst hload⟩

theorem handlesFor_of_loadAll_eq_ok {sender : Sender} {directory : Option String}
    {contracts : List (String × Contract)} (hshows : book.Shows recorded)
    (hloaded : (loadAll source book sender directory world).1 = .ok contracts) :
    (loadAll source book sender directory world).2 = world ∧
      ∃ handles : NameMap Contract, handles.entries = contracts ∧
        source.HandlesFor world.files recorded sender directory handles := by
  have hall := (exists_loadAll_eq_ok_iff source sender directory world hshows).1 ⟨_, hloaded⟩
  obtain ⟨handles, hload, hhandles⟩ := loadAll_of_hasAll sender directory hshows hall
  rw [hload] at hloaded ⊢
  cases hloaded
  exact ⟨rfl, handles, rfl, hhandles⟩

theorem loadAll_eq_error_iff (source : ArtifactSource φ) (sender : Sender)
    (directory : Option String) (world : World γ φ) (hshows : book.Shows recorded) :
    (loadAll source book sender directory world).1 = .error error ↔
      ∃ name, source.FirstLacking world.files recorded name error := by
  constructor
  · intro hfailed
    rcases source.hasAll_or_firstLacking world.files hshows with hall | ⟨name, found, hfirst⟩
    · obtain ⟨handles, hload, -⟩ := loadAll_of_hasAll sender directory hshows hall
      rw [hload] at hfailed
      cases hfailed
    · rw [loadAll_of_firstLacking sender directory hshows hfirst] at hfailed
      cases hfailed
      exact ⟨name, hfirst⟩
  · rintro ⟨name, hfirst⟩
    exact congrArg Prod.fst (loadAll_of_firstLacking sender directory hshows hfirst)

end Contract

/-- Recorded contracts are loaded all together or not at all. Handles on them are had exactly if the
artifact of every recorded name of the network loads; then there is one under each recorded name and
under no other, each with the address of its record and the interface of its artifact. Otherwise it
fails as the first name in the order of bytes does whose artifact does not load; that one name is
told, and what the source has for the names behind it makes no difference. -/
theorem recorded_contracts_load_together (source : ArtifactSource φ) (book : Book)
    (sender : Sender) (directory : Option String) (world : World γ φ) :
    let recorded := book.document.find? book.network
    let loaded := Contract.loadAll source book sender directory world
    ((∃ contracts, loaded.1 = .ok contracts) ↔ source.HasAll world.files recorded) ∧
    (∀ contracts, loaded.1 = .ok contracts → loaded.2 = world ∧
      ∃ handles : NameMap Contract, handles.entries = contracts ∧
        source.HandlesFor world.files recorded sender directory handles) ∧
    (∀ error, loaded.1 = .error error ↔
      ∃ name, source.FirstLacking world.files recorded name error) ∧
    ∀ name error, source.FirstLacking world.files recorded name error →
      loaded.2 = world.telling [.notLoaded name error] ∧
      ∀ other : ArtifactSource φ,
        (∀ earlier, ¬ Bytes.ofString name < Bytes.ofString earlier →
          other.read world.files earlier = source.read world.files earlier) →
        Contract.loadAll other book sender directory world = loaded := by
  intro recorded loaded
  have hshows : book.Shows recorded := book.shows
  refine ⟨Contract.exists_loadAll_eq_ok_iff source sender directory world hshows,
    fun contracts => Contract.handlesFor_of_loadAll_eq_ok hshows,
    fun error => Contract.loadAll_eq_error_iff source sender directory world hshows, ?_⟩
  intro name error hfirst
  have hloaded : loaded = (.error error, world.telling [.notLoaded name error]) :=
    Contract.loadAll_of_firstLacking sender directory hshows hfirst
  refine ⟨congrArg Prod.snd hloaded, fun other hagrees => ?_⟩
  rw [hloaded]
  exact Contract.loadAll_of_firstLacking sender directory hshows (hfirst.of_agrees hagrees)

/-- A contract behind a proxy is loaded at its proxy, and one that is recorded at the zero address
is loaded there. -/
example (artifact : Artifact) (sender : Sender) (world : World γ φ) :
    let records := (NameMap.empty.insert "Vault" (.direct (.at FixedBytes.zero))).insert "Token"
      (.proxied (.at (FixedBytes.ofNat 2)) (.at (FixedBytes.ofNat 1)))
    let book : Book :=
      { file := "addresses.json", network := "5", document := NameMap.empty.insert "5" records }
    (Contract.loadAll ⟨fun _ _ => .ok artifact⟩ book sender none world).1.map (List.map fun pair =>
      (pair.1, pair.2.address)) = .ok [("Token", FixedBytes.ofNat 2), ("Vault", FixedBytes.zero)] :=
  rfl

end ContractDeploy
