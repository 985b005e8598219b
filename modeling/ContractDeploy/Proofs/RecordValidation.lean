import ContractDeploy.Book
import ContractDeploy.Proofs.Linking
import ContractDeploy.Proofs.Runs

/-!
# Which documents are address books

A document is read in two steps: its parts must have the shape of record documents, and each of
these must be a record. What has the shape is listed here as it stands in the text, also what a
later part of the same name replaces (`BookDocument.Lists`). A text of that shape is an address book
exactly if every document in it that is flagged as a proxy has an implementation that is neither
flagged nor has one of its own; the first in the text for which that fails decides the fault.
Without the flag the implementation is dropped, whatever it is.
-/

namespace ContractDeploy

namespace Json

/-! ## The members of an object -/

/-- An object holds these named values, in the order in which its members stand. -/
inductive Members.Hold {α : Type} (holds : Json → α → Prop) : Members → List (String × α) → Prop
  | done : Hold holds .done []
  | member {literal : List Char} {name : String} {value : Json} {found : α} {rest : Members}
      {pairs : List (String × α)} (hname : textOf literal = .ok name)
      (hvalue : holds value found) (hrest : Hold holds rest pairs) :
      Hold holds (.member literal value rest) ((name, found) :: pairs)

/-- Judges named values in order, up to the first that is refused. -/
def judgeAll {ε α β : Type} (judge : α → Except ε β) (pairs : List (String × α)) :
    Except ε (List (String × β)) :=
  pairs.mapM fun pair => do
    let judged ← judge pair.2
    return (pair.1, judged)

section Members

variable {ε α β : Type} {lift : Fault → ε} {reader : Json → Except ε β} {judge : α → Except ε β}
  {holds : Json → α → Prop} {members : Members} {pairs : List (String × α)}

theorem judgeAll_cons (pair : String × α) :
    judgeAll judge (pair :: pairs) = (do
      let judged ← judge pair.2
      let others ← judgeAll judge pairs
      return (pair.1, judged) :: others) := by
  unfold judgeAll
  rw [List.mapM_cons]
  cases judge pair.2 <;> rfl

/-- Values none of which is refused. -/
theorem judgeAll_of_ok {f : α → β} (h : ∀ pair ∈ pairs, judge pair.2 = .ok (f pair.2)) :
    judgeAll judge pairs = .ok (pairs.map fun pair => (pair.1, f pair.2)) := by
  induction pairs with
  | nil => rfl
  | cons pair pairs ih =>
    obtain ⟨hpair, hpairs⟩ := List.forall_mem_cons.1 h
    rw [judgeAll_cons, hpair, ih hpairs]
    rfl

/-- The first value that is refused decides. -/
theorem judgeAll_of_error {f : α → β} {before after : List (String × α)} {pair : String × α}
    {error : ε} (hbefore : ∀ earlier ∈ before, judge earlier.2 = .ok (f earlier.2))
    (herror : judge pair.2 = .error error) :
    judgeAll judge (before ++ pair :: after) = .error error := by
  induction before with
  | nil =>
    rw [List.nil_append, judgeAll_cons, herror]
    rfl
  | cons earlier before ih =>
    obtain ⟨hearlier, hothers⟩ := List.forall_mem_cons.1 hbefore
    rw [List.cons_append, judgeAll_cons, hearlier, ih hothers]
    rfl

/-- What a reader makes of the members of an object is what it makes of the values they hold. -/
theorem Members.Hold.traverse_eq (h : members.Hold holds pairs)
    (hreader : ∀ value found, holds value found → reader value = judge found) :
    members.traverse lift reader = judgeAll judge pairs := by
  induction h with
  | done => rfl
  | member hname hvalue hrest ih =>
    rw [Members.traverse, judgeAll_cons, hname, hreader _ _ hvalue, ih]
    rfl

/-- Members that are read hold what is read. -/
theorem Members.hold_of_traverse : ∀ {document : Members} {read : List (String × β)},
    document.traverse lift reader = .ok read →
      document.Hold (fun value found => reader value = .ok found) read
  | .done, _, h => by
    cases h
    exact .done
  | .cut, _, h => by cases h
  | .member literal value rest, _, h => by
    obtain ⟨name, hname, h⟩ := Except.bind_eq_ok h
    obtain ⟨head, hhead, h⟩ := Except.bind_eq_ok h
    obtain ⟨tail, htail, h⟩ := Except.bind_eq_ok h
    cases h
    exact .member (mapError_eq_ok hname) hhead (hold_of_traverse htail)

theorem Members.Hold.exists_of_imp {other : Json → β → Prop} (h : members.Hold holds pairs)
    (himp : ∀ value found, holds value found → ∃ seen, other value seen) :
    ∃ seen, members.Hold other seen := by
  induction h with
  | done => exact ⟨[], .done⟩
  | member hname hvalue hrest ih =>
    obtain ⟨seen, hseen⟩ := himp _ _ hvalue
    obtain ⟨others, hothers⟩ := ih
    exact ⟨_, .member hname hseen hothers⟩

/-- Only an object is read as a map, by its members. -/
theorem asMapWith_eq_ok {depth : Nat} {readerAt : Nat → Json → Except ε β} {value : Json}
    {map : NameMap β} (h : asMapWith lift (depth + 1) readerAt value = .ok map) :
    ∃ members read, value = .object members ∧
      members.Hold (fun value found => readerAt depth value = .ok found) read := by
  unfold asMapWith at h
  split at h
  · next members =>
    obtain ⟨read, hread, -⟩ := Except.map_eq_ok h
    exact ⟨members, read, rfl, Members.hold_of_traverse hread⟩
  · cases h

end Members

end Json

/-! ## Documents that are records -/

namespace RecordForm

/-- A document is a record: if it is flagged as a proxy, it names an implementation that is not, and
that names none of its own. -/
def IsRecord (form : RecordForm) : Prop :=
  form.flagged = true → ∃ inner, form.implementation? = some inner ∧ inner.flagged = false ∧
    inner.implementation? = none

/-- The record that a document stands for: the flag decides, not the implementation. -/
def toRecord (form : RecordForm) : Record :=
  match form.flagged, form.implementation? with
  | true, some inner => .proxied form.fields inner.fields
  | _, _ => .direct form.fields

/-- A document is no record for this reason. -/
inductive Violates : RecordForm → RecordFault → Prop
  | noImplementation {form : RecordForm} (hflag : form.flagged = true)
      (hnone : form.implementation? = none) : Violates form .noImplementation
  | nestedProxy {form inner : RecordForm} (hflag : form.flagged = true)
      (hsome : form.implementation? = some inner)
      (hnested : inner.flagged = true ∨ inner.implementation? ≠ none) : Violates form .nestedProxy

variable {form : RecordForm}

theorem isRecord_or_violates (form : RecordForm) :
    form.IsRecord ∨ ∃ fault, form.Violates fault := by
  by_cases hflag : form.flagged = true
  · cases himplementation : form.implementation? with
    | none => exact .inr ⟨_, .noImplementation hflag himplementation⟩
    | some inner =>
      by_cases hnested : inner.flagged = true ∨ inner.implementation? ≠ none
      · exact .inr ⟨_, .nestedProxy hflag himplementation hnested⟩
      · obtain ⟨hplain, hlast⟩ := not_or.1 hnested
        exact .inl fun _ =>
          ⟨inner, himplementation, Bool.eq_false_iff.2 hplain, not_not.1 hlast⟩
  · exact .inl fun hflagged => absurd hflagged hflag

theorem toRecord_of_not_flagged (h : form.flagged = false) :
    form.toRecord = .direct form.fields := by
  rw [toRecord, h]

theorem toRecord_of_flagged {inner : RecordForm} (hflag : form.flagged = true)
    (hinner : form.implementation? = some inner) :
    form.toRecord = .proxied form.fields inner.fields := by
  rw [toRecord, hflag, hinner]

theorem ofForm_of_isRecord (h : form.IsRecord) : Record.ofForm form = .ok form.toRecord := by
  unfold Record.ofForm
  by_cases hflag : form.flagged = true
  · obtain ⟨inner, hinner, hplain, hlast⟩ := h hflag
    rw [if_pos hflag, hinner, toRecord_of_flagged hflag hinner]
    simp [hplain, hlast]
  · rw [if_neg hflag, toRecord_of_not_flagged (Bool.eq_false_iff.2 hflag)]

theorem ofForm_of_violates {fault : RecordFault} (h : form.Violates fault) :
    Record.ofForm form = .error fault := by
  unfold Record.ofForm
  cases h with
  | noImplementation hflag hnone => rw [if_pos hflag, hnone]
  | nestedProxy hflag hsome hnested =>
    rw [if_pos hflag, hsome]
    refine if_pos ?_
    rw [Bool.or_eq_true, Option.isSome_iff_ne_none]
    exact hnested

end RecordForm

/-! ## Documents of address books -/

namespace BookDocument

/-- The documents of records by network and name, in the order in which they stand in a text. -/
abbrev Listing := List (String × List (String × RecordForm))

/-- A value lists the documents of a network's records. -/
def ListsRecords (value : Json) (entries : List (String × RecordForm)) : Prop :=
  ∃ members, value = .object members ∧
    members.Hold (fun value form => readForm (Json.depthLimit - 2) value = .ok form) entries

/-- A text has the shape of an address book, and these are the documents of records in it, each of
the right shape. -/
inductive Lists (text : String) : Listing → Prop
  | blank (hblank : Text.allBlank text.toList = true) : Lists text []
  | written {members : Json.Members} {listing : Listing}
      (hblank : Text.allBlank text.toList = false)
      (hvalue : (Json.read text).value = .object members)
      (hcomplete : (Json.read text).complete = true)
      (hmembers : members.Hold ListsRecords listing) : Lists text listing

/-- The records that documents stand for. Of several under one name the last counts. -/
def recordsOf (entries : List (String × RecordForm)) : NameMap Record :=
  NameMap.ofList (entries.map fun entry => (entry.1, entry.2.toRecord))

/-- The address book that documents make. Of several networks of one name the last counts. -/
def ofListing (listing : Listing) : BookDocument :=
  NameMap.ofList (listing.map fun network => (network.1, recordsOf network.2))

/-- Every document in a listing is a record. -/
def AllRecords (listing : Listing) : Prop :=
  ∀ network ∈ listing, ∀ entry ∈ network.2, entry.2.IsRecord

/-- The first document in a listing that is no record, and the reason. -/
inductive FirstViolation : Listing → RecordFault → Prop
  | mk {before after : Listing} {earlier later : List (String × RecordForm)}
      {network name : String} {form : RecordForm} {fault : RecordFault}
      (hbefore : AllRecords before) (hearlier : ∀ entry ∈ earlier, entry.2.IsRecord)
      (hviolates : form.Violates fault) :
      FirstViolation (before ++ (network, earlier ++ (name, form) :: later) :: after) fault

theorem allRecords_or_firstViolation (listing : Listing) :
    AllRecords listing ∨ ∃ fault, FirstViolation listing fault := by
  rcases forall_or_exists_first
    (fun network : String × List (String × RecordForm) => ∀ entry ∈ network.2, entry.2.IsRecord)
    listing with hall | ⟨before, ⟨network, entries⟩, after, rfl, hbefore, hnetwork⟩
  · exact .inl hall
  · rcases forall_or_exists_first (fun entry : String × RecordForm => entry.2.IsRecord)
      entries with hentries | ⟨earlier, ⟨name, form⟩, later, rfl, hearlier, hform⟩
    · exact absurd hentries hnetwork
    · obtain ⟨fault, hviolates⟩ := form.isRecord_or_violates.resolve_left hform
      exact .inr ⟨fault, .mk hbefore hearlier hviolates⟩

/-- Judges the documents of a network's records. -/
def judgeRecords (entries : List (String × RecordForm)) : Except RegistryFault (NameMap Record) :=
  (Json.judgeAll (fun form => (Record.ofForm form).mapError .record) entries).map NameMap.ofList

theorem judge_of_isRecord {entries : List (String × RecordForm)}
    (h : ∀ entry ∈ entries, entry.2.IsRecord) :
    ∀ entry ∈ entries, (Record.ofForm entry.2).mapError RegistryFault.record =
      .ok entry.2.toRecord := by
  intro entry hentry
  rw [RecordForm.ofForm_of_isRecord (h entry hentry)]
  rfl

theorem judgeRecords_of_isRecord {entries : List (String × RecordForm)}
    (h : ∀ entry ∈ entries, entry.2.IsRecord) :
    judgeRecords entries = .ok (recordsOf entries) := by
  rw [judgeRecords, Json.judgeAll_of_ok (judge_of_isRecord h)]
  rfl

theorem judgeRecords_of_violates {earlier later : List (String × RecordForm)} {name : String}
    {form : RecordForm} {fault : RecordFault} (hearlier : ∀ entry ∈ earlier, entry.2.IsRecord)
    (hviolates : form.Violates fault) :
    judgeRecords (earlier ++ (name, form) :: later) = .error (.record fault) := by
  have hform : (Record.ofForm form).mapError RegistryFault.record = .error (.record fault) := by
    rw [RecordForm.ofForm_of_violates hviolates]
    rfl
  rw [judgeRecords, Json.judgeAll_of_error (judge_of_isRecord hearlier) hform]
  rfl

variable {text : String} {listing : Listing}

/-- A text of the right shape is read by judging what it lists. -/
theorem Lists.parse_eq (h : Lists text listing) :
    parse text = (Json.judgeAll judgeRecords listing).map NameMap.ofList := by
  cases h with
  | blank hblank =>
    rw [parse, if_pos hblank]
    rfl
  | written hblank hvalue hcomplete hmembers =>
    have hnetwork : ∀ value entries, ListsRecords value entries →
        Json.asMapWith RegistryFault.shape 126 Record.ofJson value = judgeRecords entries := by
      rintro value entries ⟨members, rfl, hrecords⟩
      show (members.traverse RegistryFault.shape (Record.ofJson 125)).map NameMap.ofList = _
      rw [hrecords.traverse_eq fun value form hform => ?_]
      · rfl
      · have hread : readForm 125 value = .ok form := hform
        rw [Record.ofJson, hread]
        rfl
    have hdocument : Json.asMapWith RegistryFault.shape Json.depthLimit
        (fun depth => Json.asMapWith .shape depth Record.ofJson) (Json.read text).value =
        (Json.judgeAll judgeRecords listing).map NameMap.ofList := by
      rw [hvalue]
      show (Json.Members.traverse RegistryFault.shape
        (Json.asMapWith .shape 126 Record.ofJson) _).map NameMap.ofList = _
      rw [hmembers.traverse_eq hnetwork]
    rw [parse, hblank]
    simp only [hdocument, hcomplete]
    cases Json.judgeAll judgeRecords listing <;> rfl

theorem Lists.parse_of_allRecords (h : Lists text listing) (hall : AllRecords listing) :
    parse text = .ok (ofListing listing) := by
  have hjudge : ∀ network ∈ listing, judgeRecords network.2 = .ok (recordsOf network.2) :=
    fun network hnetwork => judgeRecords_of_isRecord (hall network hnetwork)
  rw [h.parse_eq, Json.judgeAll_of_ok hjudge]
  rfl

theorem Lists.parse_of_firstViolation (h : Lists text listing) {fault : RecordFault}
    (hfirst : FirstViolation listing fault) : parse text = .error (.record fault) := by
  rw [h.parse_eq]
  cases hfirst with
  | @mk before after earlier later network name form fault hbefore hearlier hviolates =>
    have hjudge : ∀ network ∈ before, judgeRecords network.2 = .ok (recordsOf network.2) :=
      fun network hnetwork => judgeRecords_of_isRecord (hbefore network hnetwork)
    rw [Json.judgeAll_of_error hjudge (judgeRecords_of_violates hearlier hviolates)]
    rfl

/-- What is read as a network's records lists their documents. -/
theorem exists_listsRecords {value : Json} {records : NameMap Record}
    (h : Json.asMapWith RegistryFault.shape 126 Record.ofJson value = .ok records) :
    ∃ entries, ListsRecords value entries := by
  obtain ⟨members, read, rfl, hread⟩ := Json.asMapWith_eq_ok h
  obtain ⟨entries, hentries⟩ := hread.exists_of_imp fun value record hrecord => by
    obtain ⟨form, hform, -⟩ := Except.bind_eq_ok hrecord
    exact ⟨form, mapError_eq_ok hform⟩
  exact ⟨entries, members, rfl, hentries⟩

/-- An address book has the shape of one. -/
theorem exists_lists {document : BookDocument} (h : parse text = .ok document) :
    ∃ listing, Lists text listing := by
  cases hblank : Text.allBlank text.toList with
  | true => exact ⟨[], .blank hblank⟩
  | false =>
    rw [parse, hblank] at h
    obtain ⟨found, hfound, h⟩ := Except.bind_eq_ok h
    cases hcomplete : (Json.read text).complete with
    | false =>
      rw [hcomplete] at h
      cases h
    | true =>
      obtain ⟨members, read, hvalue, hread⟩ := Json.asMapWith_eq_ok hfound
      obtain ⟨listing, hlisting⟩ := hread.exists_of_imp fun value records hrecords =>
        exists_listsRecords hrecords
      exact ⟨listing, .written hblank hvalue hcomplete hlisting⟩

end BookDocument

/-- No network can be opened of a file whose text is no address book. -/
theorem Book.openFile_of_malformed {γ φ : Type} {host : Host γ φ} {file text : String}
    {fault : RegistryFault} {world : World γ φ} (network : String)
    (hread : host.disk.read world.files file = .ok text)
    (hparse : BookDocument.parse text = .error fault) :
    Book.openFile host file network world = (.error (.malformedBook fault), world) := by
  have hfile : (liftM (host.readFile file) : Run γ φ (Except FileFault String)) world =
      (.ok (.ok text), world) := by
    rw [Run.ofAct_apply, ← hread]
    rfl
  rw [Book.openFile, Run.bind_of_ok hfile]
  simp only [hparse]
  rfl

/-! ## The members of a record's document -/

namespace Json

section Fields

variable {α : Type} {reader : Json → Except Fault α} {members : List (String × Json)}
  {name : String} {value : Json} {found : Option α}

/-- What may be missing and is there was read as such. -/
theorem asOptional_eq_some {x : α} (h : value.asOptional reader = .ok (some x)) :
    reader value = .ok x := by
  unfold asOptional at h
  split at h
  · cases h
  · obtain ⟨found, hfound, hsome⟩ := Except.map_eq_ok h
    cases hsome
    exact hfound

theorem asOptional_eq_none (h : value.asOptional reader = .ok none) : value = .null := by
  unfold asOptional at h
  split at h
  · rfl
  · obtain ⟨found, -, hnone⟩ := Except.map_eq_ok h
    cases hnone

/-- A field that was found stands among the members. -/
theorem optionalField_eq_some {x : α} (h : optionalField members name reader = .ok (some x)) :
    ∃ value, lookupField members name = some value ∧ reader value = .ok x := by
  unfold optionalField at h
  split at h
  · next value hvalue => exact ⟨value, hvalue, asOptional_eq_some h⟩
  · cases h

/-- One that was not is absent, or `null`. -/
theorem optionalField_eq_none_iff (h : optionalField members name reader = .ok found) :
    found = none ↔
      lookupField members name = none ∨ lookupField members name = some .null := by
  unfold optionalField at h
  split at h
  · next value hvalue =>
    rw [hvalue]
    constructor
    · rintro rfl
      exact .inr (congrArg some (asOptional_eq_none h))
    · rintro (hnone | hnull)
      · cases hnone
      · cases hnull
        exact (Except.ok.inj h).symm
  · next hnone => exact ⟨fun _ => .inl hnone, fun _ => (Except.ok.inj h).symm⟩

/-- A flag is raised by the literal `true` alone. -/
theorem optionalField_eq_true_iff {flag : Option Bool}
    (h : optionalField members name asBool = .ok flag) :
    flag = some true ↔ lookupField members name = some (.bool true) := by
  constructor
  · rintro rfl
    obtain ⟨value, hvalue, hbool⟩ := optionalField_eq_some h
    unfold asBool at hbool
    split at hbool
    · cases hbool
      exact hvalue
    · cases hbool
  · intro htrue
    rw [optionalField, htrue] at h
    exact (Except.ok.inj h).symm

end Fields

end Json

/-- The members of a record's document and what was read of them. -/
structure RecordForm.SpelledBy (form : RecordForm) (depth : Nat) (members : List (String × Json)) :
    Prop where
  address : Json.requireField members "address" readAddress = .ok form.fields.address
  constructorArgs : Json.optionalField members "constructorArgs"
    (Json.asList depth fun _ => Json.asText) = .ok form.fields.constructorArgs
  initArgs : Json.optionalField members "initArgs" (Json.asList depth fun _ => Json.asText) =
    .ok form.fields.initArgs
  creationCodeHash : Json.optionalField members "creationCodeHash" (Json.asFixedBytes 32 depth) =
    .ok form.fields.creationCodeHash
  runtimeCodeHash : Json.optionalField members "runtimeCodeHash" (Json.asFixedBytes 32 depth) =
    .ok form.fields.runtimeCodeHash
  txHash : Json.optionalField members "txHash" (Json.asFixedBytes 32 depth) =
    .ok form.fields.txHash
  libraries : Json.optionalField members "libraries" (Json.asMap depth (Json.asFixedBytes 20)) =
    .ok form.fields.libraries
  /-- Only the literal `true` flags a document. -/
  flagged : form.flagged = true ↔ Json.lookupField members "proxy" = some (.bool true)
  /-- A document names no implementation if it has none, or `null` for one. -/
  noImplementation : form.implementation? = none ↔
    Json.lookupField members "implementation" = none ∨
      Json.lookupField members "implementation" = some .null
  /-- One that is named was read as a document of the same kind. -/
  implementation : ∀ inner, form.implementation? = some inner →
    ∃ document, Json.lookupField members "implementation" = some document ∧
      readForm depth document = .ok inner

/-- A document of the right shape has members, and they spell what was read. -/
theorem readForm_eq_ok {depth : Nat} {value : Json} {form : RecordForm}
    (h : readForm (depth + 1) value = .ok form) :
    ∃ members, value.asFields recordFieldNames = .ok members ∧ form.SpelledBy depth members := by
  obtain ⟨members, hmembers, h⟩ := Except.bind_eq_ok h
  obtain ⟨address, haddress, h⟩ := Except.bind_eq_ok h
  obtain ⟨constructorArgs, hconstructorArgs, h⟩ := Except.bind_eq_ok h
  obtain ⟨initArgs, hinitArgs, h⟩ := Except.bind_eq_ok h
  obtain ⟨creationCodeHash, hcreationCodeHash, h⟩ := Except.bind_eq_ok h
  obtain ⟨runtimeCodeHash, hruntimeCodeHash, h⟩ := Except.bind_eq_ok h
  obtain ⟨txHash, htxHash, h⟩ := Except.bind_eq_ok h
  obtain ⟨libraries, hlibraries, h⟩ := Except.bind_eq_ok h
  obtain ⟨flag, hflag, h⟩ := Except.bind_eq_ok h
  obtain ⟨implementation, himplementation, h⟩ := Except.bind_eq_ok h
  cases h
  have hflagged := Json.optionalField_eq_true_iff hflag
  refine ⟨members, hmembers, haddress, hconstructorArgs, hinitArgs, hcreationCodeHash,
    hruntimeCodeHash, htxHash, hlibraries, decide_eq_true_iff.trans hflagged,
    Json.optionalField_eq_none_iff himplementation, ?_⟩
  rintro inner rfl
  exact Json.optionalField_eq_some himplementation

/-! ## Addresses that are left empty -/

/-- The document of a record gives the empty text as its address. -/
def Json.HasEmptyAddress (value : Json) : Prop :=
  ∃ fields, value.asFields recordFieldNames = .ok fields ∧
    Json.lookupField fields "address" = some (.string [])

/-- The document of a record names this one as its implementation. -/
def Json.NamesImplementation (value inner : Json) : Prop :=
  ∃ fields, value.asFields recordFieldNames = .ok fields ∧
    Json.lookupField fields "implementation" = some inner

theorem readAddress_empty : readAddress (.string []) = .ok FixedBytes.zero := rfl

theorem readForm_address_of_empty {depth : Nat} {value : Json} {form : RecordForm}
    (h : readForm depth value = .ok form) (hempty : value.HasEmptyAddress) :
    form.fields.address = FixedBytes.zero := by
  cases depth with
  | zero => cases h
  | succ depth =>
    obtain ⟨fields, hfields, hspelled⟩ := readForm_eq_ok h
    obtain ⟨others, hothers, hlookup⟩ := hempty
    cases hfields.symm.trans hothers
    have haddress := hspelled.address
    rw [Json.requireField, hlookup] at haddress
    exact (Except.ok.inj haddress).symm

/-- The implementation of a document is read from the document that is named as such. -/
theorem readForm_implementation {depth : Nat} {value inner : Json} {form innerForm : RecordForm}
    (h : readForm (depth + 1) value = .ok form) (hnames : value.NamesImplementation inner)
    (hinner : form.implementation? = some innerForm) : readForm depth inner = .ok innerForm := by
  obtain ⟨fields, hfields, hspelled⟩ := readForm_eq_ok h
  obtain ⟨others, hothers, hlookup⟩ := hnames
  cases hfields.symm.trans hothers
  obtain ⟨document, hdocument, hread⟩ := hspelled.implementation innerForm hinner
  cases hlookup.symm.trans hdocument
  exact hread

/-- An address that is left empty is the zero address, of a record and of its implementation. -/
theorem Record.ofJson_of_emptyAddress {depth : Nat} {value : Json} {record : Record}
    (h : Record.ofJson depth value = .ok record) :
    (value.HasEmptyAddress → record.address = FixedBytes.zero) ∧
      ∀ inner snapshot, value.NamesImplementation inner → inner.HasEmptyAddress →
        record.implementation? = some snapshot → snapshot.address = FixedBytes.zero := by
  obtain ⟨form, hform, hjudged⟩ := Except.bind_eq_ok h
  have hread := mapError_eq_ok hform
  have hrecord : form.toRecord = record := by
    rcases form.isRecord_or_violates with hisRecord | ⟨fault, hviolates⟩
    · rw [RecordForm.ofForm_of_isRecord hisRecord] at hjudged
      exact Except.ok.inj hjudged
    · rw [RecordForm.ofForm_of_violates hviolates] at hjudged
      cases hjudged
  constructor
  · intro hempty
    have hzero := readForm_address_of_empty hread hempty
    rw [← hrecord, RecordForm.toRecord]
    split <;> exact hzero
  · intro inner snapshot hnames hempty hsnapshot
    cases depth with
    | zero => cases hread
    | succ depth =>
      rw [← hrecord, RecordForm.toRecord] at hsnapshot
      split at hsnapshot
      · next innerForm _ hinner =>
        cases hsnapshot
        exact readForm_address_of_empty (readForm_implementation hread hnames hinner) hempty
      · cases hsnapshot

/-- A text is an address book exactly if it has the shape of one and every document in it that is
flagged as a proxy has an implementation that is neither flagged nor has one of its own, also the
documents that others of the same name replace. Otherwise the first that fails this makes the text
malformed, for whichever network it is opened. What is flagged is the proxy in front of its
implementation, what is not stands for itself alone. A document is flagged by its member `proxy`
and names an implementation by that of this name, its other fields are read from the members of
theirs, and an address that is left empty is the zero address. -/
theorem book_accepted_iff_allRecords (text : String) :
    (∀ document, BookDocument.parse text = .ok document ↔
      ∃ listing, BookDocument.Lists text listing ∧ BookDocument.AllRecords listing ∧
        document = BookDocument.ofListing listing) ∧
    (∀ listing, BookDocument.Lists text listing → ¬ BookDocument.AllRecords listing →
      ∃ fault, BookDocument.FirstViolation listing fault ∧
        BookDocument.parse text = .error (.record fault) ∧
        ∀ {γ φ : Type} (host : Host γ φ) (file network : String) (world : World γ φ),
          host.disk.read world.files file = .ok text →
            Book.openFile host file network world =
              (.error (.malformedBook (.record fault)), world)) ∧
    (∀ form : RecordForm, form.IsRecord →
      (form.flagged = false ∧ form.toRecord = .direct form.fields) ∨
        ∃ inner, form.flagged = true ∧ form.implementation? = some inner ∧
          inner.flagged = false ∧ inner.implementation? = none ∧
          form.toRecord = .proxied form.fields inner.fields) ∧
    (∀ depth value form, readForm (depth + 1) value = .ok form →
      ∃ members, value.asFields recordFieldNames = .ok members ∧ form.SpelledBy depth members) ∧
    readAddress (.string []) = .ok FixedBytes.zero ∧
    ∀ depth value record, Record.ofJson depth value = .ok record →
      (value.HasEmptyAddress → record.address = FixedBytes.zero) ∧
        ∀ inner snapshot, value.NamesImplementation inner → inner.HasEmptyAddress →
          record.implementation? = some snapshot → snapshot.address = FixedBytes.zero := by
  refine ⟨?_, ?_, ?_, fun _ _ _ hread => readForm_eq_ok hread, readAddress_empty,
    fun _ _ _ hread => Record.ofJson_of_emptyAddress hread⟩
  · intro document
    constructor
    · intro hparse
      obtain ⟨listing, hlists⟩ := BookDocument.exists_lists hparse
      rcases BookDocument.allRecords_or_firstViolation listing with hall | ⟨fault, hfirst⟩
      · rw [hlists.parse_of_allRecords hall] at hparse
        exact ⟨listing, hlists, hall, (Except.ok.inj hparse).symm⟩
      · rw [hlists.parse_of_firstViolation hfirst] at hparse
        cases hparse
    · rintro ⟨listing, hlists, hall, rfl⟩
      exact hlists.parse_of_allRecords hall
  · intro listing hlists hnot
    obtain ⟨fault, hfirst⟩ :=
      (BookDocument.allRecords_or_firstViolation listing).resolve_left hnot
    have hparse := hlists.parse_of_firstViolation hfirst
    refine ⟨fault, hfirst, hparse, ?_⟩
    intro _ _ host file network world hread
    exact Book.openFile_of_malformed network hread hparse
  · intro form hrecord
    by_cases hflag : form.flagged = true
    · obtain ⟨inner, hinner, hplain, hlast⟩ := hrecord hflag
      exact .inr ⟨inner, hflag, hinner, hplain, hlast,
        RecordForm.toRecord_of_flagged hflag hinner⟩
    · have hflag := Bool.eq_false_iff.2 hflag
      exact .inl ⟨hflag, RecordForm.toRecord_of_not_flagged hflag⟩

/-- A book with a contract that is not behind a proxy, and a left-over implementation that would
itself be no record. -/
def leftoverBook : String :=
  "\x7b\"1\": \x7b\"Vault\": \x7b\"address\": \"\", " ++
    "\"implementation\": \x7b\"address\": \"\", \"proxy\": true\x7d\x7d\x7d\x7d"

/-- The left-over implementation is dropped. -/
theorem book_accepted_iff_allRecords_leftover :
    BookDocument.parse leftoverBook =
        .ok (NameMap.empty.insert "1" (NameMap.empty.insert "Vault" Record.missing)) ∧
      ∃ listing, BookDocument.Lists leftoverBook listing ∧ BookDocument.AllRecords listing := by
  have hparse : BookDocument.parse leftoverBook =
      .ok (NameMap.empty.insert "1" (NameMap.empty.insert "Vault" Record.missing)) := by
    decide +kernel
  obtain ⟨haccepted, -⟩ := book_accepted_iff_allRecords leftoverBook
  obtain ⟨listing, hlists, hall, -⟩ := (haccepted _).1 hparse
  exact ⟨hparse, listing, hlists, hall⟩

end ContractDeploy
