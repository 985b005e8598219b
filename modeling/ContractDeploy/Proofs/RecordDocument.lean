import ContractDeploy.Book
import ContractDeploy.Proofs.JsonContent

/-!
# Reading back address books

An address book is read back from its own text: nothing that a record holds is lost or changed,
whatever the names and arguments are made of. A record's document leaves out what is absent, so a
field is read by looking for it among those that were written; the lemmas on look-ups say what is
found there.
-/

namespace ContractDeploy

open Json (namedMembers lookupField)

/-! ## Fields that may be absent -/

/-- The field of a value, nothing if there is none. -/
def optionalPair {α : Type} (name : String) (write : α → Json) (value : Option α) :
    List (String × Json) :=
  value.toList.map fun present => (name, write present)

/-- A shape that is read back, and that cannot be taken for an absent value. -/
structure ReadsBack {α : Type} (reader : Json → Except Json.Fault α) (write : α → Json)
    (value : α) : Prop where
  /-- The reader finds the value. -/
  read : reader (write value) = .ok value
  /-- The value is not written as what stands for absence. -/
  ne_null : write value ≠ .null

section Fields

variable {α : Type} {reader : Json → Except Json.Fault α} {write : α → Json}

theorem optionalMember_eq (name : String) (value : Option α) :
    optionalMember name write value = namedMembers (optionalPair name write value) := by
  cases value <;> rfl

theorem lookupField_cons (pair : String × Json) (pairs : List (String × Json)) (name : String) :
    lookupField (pair :: pairs) name =
      if pair.1 = name then some pair.2 else lookupField pairs name := rfl

theorem lookupField_append (a b : List (String × Json)) (name : String) :
    lookupField (a ++ b) name = (lookupField a name).or (lookupField b name) := by
  induction a with
  | nil => rfl
  | cons pair a ih =>
    by_cases h : pair.1 = name <;> simp_all [lookupField, NameMap.lookupEntry]

theorem lookupField_optionalPair (name other : String) (value : Option α) :
    lookupField (optionalPair name write value) other =
      if name = other then value.map write else none := by
  cases value <;> simp [optionalPair, lookupField, NameMap.lookupEntry]

theorem optionalField_eq {fields : List (String × Json)} {name : String} {value : Option α}
    (hfield : lookupField fields name = value.map write)
    (hread : ∀ present ∈ value, ReadsBack reader write present) :
    Json.optionalField fields name reader = .ok value := by
  cases value with
  | none => simp [Json.optionalField, hfield]
  | some present =>
    obtain ⟨hok, hnull⟩ := hread present rfl
    rw [Json.optionalField, hfield, Option.map_some]
    cases hwrite : write present <;> simp_all [Json.asOptional, Except.map]

end Fields

/-! ## The parts of a record -/

theorem readsBack_texts (depth : Nat) (texts : List String) :
    ReadsBack (Json.asList (depth + 1) fun _ => Json.asText) writeTexts texts where
  read := Json.asList_ofValues depth texts fun text _ => Json.asText_ofText text
  ne_null := by simp [writeTexts, Json.ofValues]

theorem readsBack_bytes {n : Nat} (depth : Nat) (bytes : FixedBytes n) :
    ReadsBack (Json.asFixedBytes n depth) writeBytes bytes where
  read := by
    rw [writeBytes, Json.ofText, Json.asFixedBytes, Json.textOf_escape]
    simp only [bind, Except.bind, Hex.decodeFixed_hex]
    rfl
  ne_null := by simp [writeBytes, Json.ofText]

theorem readsBack_libraries (depth : Nat) (libraries : Libraries) :
    ReadsBack (Json.asMap (depth + 1) (Json.asFixedBytes 20)) writeLibraries libraries where
  read :=
    Json.asMapWith_ofFields depth libraries fun address => (readsBack_bytes depth address).read
  ne_null := by simp [writeLibraries, Json.ofFields]

theorem readsBack_flag (flag : Bool) : ReadsBack Json.asBool Json.bool flag where
  read := rfl
  ne_null := by simp

theorem hex_ne_empty {n : Nat} (bytes : FixedBytes n) : bytes.hex ≠ "" := by
  intro h
  have := congrArg String.toList h
  simp [FixedBytes.hex, Hex.encodePrefixed, Hex.marker] at this

/-- The address of a record is read back, also the zero address. -/
theorem readAddress_writeBytes (address : Address) :
    readAddress (writeBytes address) = .ok address := by
  rw [readAddress, writeBytes, Json.asText_ofText]
  simp only [bind, Except.bind, hex_ne_empty address, if_false, Hex.decodeFixed_hex]
  rfl

/-! ## Forms -/

/-- The fields of one contract by name, those that are there. -/
def Snapshot.pairs (snapshot : Snapshot) : List (String × Json) :=
  [("address", writeBytes snapshot.address)] ++
    optionalPair "constructorArgs" writeTexts snapshot.constructorArgs ++
    optionalPair "initArgs" writeTexts snapshot.initArgs ++
    optionalPair "creationCodeHash" writeBytes snapshot.creationCodeHash ++
    optionalPair "runtimeCodeHash" writeBytes snapshot.runtimeCodeHash ++
    optionalPair "txHash" writeBytes snapshot.txHash ++
    optionalPair "libraries" writeLibraries snapshot.libraries

/-- The fields of a form by name, those that are there. -/
def formPairs (fields : Snapshot) (proxy : Option Bool) (implementation : Option RecordForm) :
    List (String × Json) :=
  fields.pairs ++ optionalPair "proxy" Json.bool proxy ++
    optionalPair "implementation" RecordForm.toJson implementation

theorem Snapshot.members_eq (snapshot : Snapshot) :
    snapshot.members = namedMembers snapshot.pairs := by
  simp [Snapshot.members, Snapshot.pairs, optionalMember_eq, namedMembers]

theorem RecordForm.toJson_eq (fields : Snapshot) (proxy : Option Bool)
    (implementation : Option RecordForm) :
    (RecordForm.mk fields proxy implementation).toJson =
      Json.ofFields (namedMembers (formPairs fields proxy implementation)) := by
  cases implementation <;>
    simp [RecordForm.toJson, formPairs, Snapshot.members_eq, optionalMember_eq, namedMembers,
      optionalPair]

theorem sublist_optionalPair_append {α : Type} {name : String} {write : α → Json}
    {value : Option α} {pairs : List (String × Json)} {names : List String}
    (h : (pairs.map Prod.fst).Sublist names) :
    ((optionalPair name write value ++ pairs).map Prod.fst).Sublist (name :: names) := by
  cases value with
  | none => exact h.cons name
  | some present => exact h.cons_cons name

/-- The fields of a form come in the order of a record's fields, none of them twice. -/
theorem sublist_formPairs (fields : Snapshot) (proxy : Option Bool)
    (implementation : Option RecordForm) :
    ((formPairs fields proxy implementation).map Prod.fst).Sublist recordFieldNames := by
  have hend : ((optionalPair "implementation" RecordForm.toJson implementation).map
      Prod.fst).Sublist ["implementation"] := by
    cases implementation <;> simp [optionalPair]
  simp only [formPairs, Snapshot.pairs, List.append_assoc, List.singleton_append]
  refine List.Sublist.cons_cons "address" ?_
  iterate 7 refine sublist_optionalPair_append ?_
  exact hend

/-- Each field of a form is found under its name. -/
theorem lookupField_formPairs (fields : Snapshot) (proxy : Option Bool)
    (implementation : Option RecordForm) :
    let pairs := formPairs fields proxy implementation
    lookupField pairs "address" = some (writeBytes fields.address) ∧
    lookupField pairs "constructorArgs" = fields.constructorArgs.map writeTexts ∧
    lookupField pairs "initArgs" = fields.initArgs.map writeTexts ∧
    lookupField pairs "creationCodeHash" = fields.creationCodeHash.map writeBytes ∧
    lookupField pairs "runtimeCodeHash" = fields.runtimeCodeHash.map writeBytes ∧
    lookupField pairs "txHash" = fields.txHash.map writeBytes ∧
    lookupField pairs "libraries" = fields.libraries.map writeLibraries ∧
    lookupField pairs "proxy" = proxy.map Json.bool ∧
    lookupField pairs "implementation" = implementation.map RecordForm.toJson := by
  simp [formPairs, Snapshot.pairs, lookupField_cons, lookupField_append, lookupField_optionalPair]

/-- A form is read back if the implementation that it names is. -/
theorem readForm_toJson (depth : Nat) (fields : Snapshot) (proxy : Option Bool)
    (implementation : Option RecordForm)
    (h : ∀ inner ∈ implementation, readForm (depth + 1) inner.toJson = .ok inner) :
    readForm (depth + 2) (RecordForm.mk fields proxy implementation).toJson =
      .ok (.mk fields proxy implementation) := by
  have hinner : ∀ inner ∈ implementation,
      ReadsBack (readForm (depth + 1)) RecordForm.toJson inner := by
    intro inner hmem
    refine ⟨h inner hmem, ?_⟩
    cases inner
    simp [RecordForm.toJson_eq, Json.ofFields]
  obtain ⟨haddress, hconstructorArgs, hinitArgs, hcreationCodeHash, hruntimeCodeHash, htxHash,
    hlibraries, hproxy, himplementation⟩ := lookupField_formPairs fields proxy implementation
  rw [RecordForm.toJson_eq, readForm, Json.asFields_ofFields _ (by decide)
    (sublist_formPairs fields proxy implementation)]
  simp only [bind, Except.bind, Json.requireField, haddress, readAddress_writeBytes,
    optionalField_eq hconstructorArgs fun texts _ => readsBack_texts depth texts,
    optionalField_eq hinitArgs fun texts _ => readsBack_texts depth texts,
    optionalField_eq hcreationCodeHash fun hash _ => readsBack_bytes (depth + 1) hash,
    optionalField_eq hruntimeCodeHash fun hash _ => readsBack_bytes (depth + 1) hash,
    optionalField_eq htxHash fun hash _ => readsBack_bytes (depth + 1) hash,
    optionalField_eq hlibraries fun libraries _ => readsBack_libraries depth libraries,
    optionalField_eq hproxy fun flag _ => readsBack_flag flag,
    optionalField_eq himplementation hinner]
  rfl

/-- The document of a record is read as that record. -/
theorem Record.ofJson_toJson (depth : Nat) (record : Record) :
    Record.ofJson (depth + 3) record.toJson = .ok record := by
  have hform : readForm (depth + 3) record.toForm.toJson = .ok record.toForm := by
    cases record with
    | direct contract => exact readForm_toJson (depth + 1) contract none none (by simp)
    | proxied proxy implementation =>
      refine readForm_toJson (depth + 1) proxy (some true) _ fun inner hmem => ?_
      obtain rfl := Option.some.inj hmem
      exact readForm_toJson depth implementation none none (by simp)
  rw [Record.ofJson, Record.toJson, hform]
  show (Record.ofForm record.toForm).mapError _ = _
  rw [Record.ofForm_toForm]
  rfl

/-! ## Documents are texts -/

theorem textual_writeTexts (texts : List String) : (writeTexts texts).Textual :=
  Json.textual_ofList texts fun text _ => Json.textual_ofText text

theorem textual_writeBytes {n : Nat} (bytes : FixedBytes n) : (writeBytes bytes).Textual :=
  Json.textual_ofText bytes.hex

theorem textual_writeLibraries (libraries : Libraries) : (writeLibraries libraries).Textual :=
  Json.textual_members libraries.entries fun pair _ => textual_writeBytes pair.2

theorem textual_optionalPair {α : Type} {write : α → Json} {name : String} {value : Option α}
    (h : ∀ present ∈ value, (write present).Textual) :
    ∀ pair ∈ optionalPair name write value, pair.2.Textual := by
  intro pair hpair
  obtain ⟨present, hpresent, rfl⟩ := List.mem_map.1 hpair
  exact h present (Option.mem_toList.1 hpresent)

theorem RecordForm.textual_toJson (fields : Snapshot) (proxy : Option Bool)
    (implementation : Option RecordForm) (h : ∀ inner ∈ implementation, inner.toJson.Textual) :
    (RecordForm.mk fields proxy implementation).toJson.Textual := by
  have hpairs : ∀ pair ∈ formPairs fields proxy implementation, pair.2.Textual := by
    simp only [formPairs, Snapshot.pairs, List.forall_mem_append, List.forall_mem_singleton]
    refine ⟨⟨⟨⟨⟨⟨⟨⟨textual_writeBytes fields.address, ?_⟩, ?_⟩, ?_⟩, ?_⟩, ?_⟩, ?_⟩, ?_⟩, ?_⟩
    · exact textual_optionalPair fun texts _ => textual_writeTexts texts
    · exact textual_optionalPair fun texts _ => textual_writeTexts texts
    · exact textual_optionalPair fun hash _ => textual_writeBytes hash
    · exact textual_optionalPair fun hash _ => textual_writeBytes hash
    · exact textual_optionalPair fun hash _ => textual_writeBytes hash
    · exact textual_optionalPair fun libraries _ => textual_writeLibraries libraries
    · exact textual_optionalPair fun flag _ => trivial
    · exact textual_optionalPair h
  rw [RecordForm.toJson_eq]
  exact Json.textual_namedMembers (formPairs fields proxy implementation) hpairs

theorem Record.textual_toJson (record : Record) : record.toJson.Textual := by
  cases record with
  | direct contract => exact RecordForm.textual_toJson contract none none (by simp)
  | proxied proxy implementation =>
    refine RecordForm.textual_toJson proxy (some true) _ fun inner hmem => ?_
    obtain rfl := Option.some.inj hmem
    exact RecordForm.textual_toJson implementation none none (by simp)

/-! ## Address books -/

namespace BookDocument

/-- The text of an address book begins with a brace, so it is not taken for a blank file. -/
theorem allBlank_print (document : BookDocument) :
    Text.allBlank document.print.toList = false := by
  have hbrace : Text.isBlank '\x7b' = false := by decide
  have hprint : ∃ text, document.print.toList = '\x7b' :: text := by
    rw [print, Json.pretty, String.toList_ofList, writeMap, Json.ofFields]
    cases Json.Members.ofList _ <;> exact ⟨_, rfl⟩
  obtain ⟨text, htext⟩ := hprint
  simp [Text.allBlank, htext, hbrace]

/-- What is written of an address book reads back as that address book. -/
theorem parse_print (document : BookDocument) : parse document.print = .ok document := by
  have htextual : (writeMap (writeMap Record.toJson) document).Textual :=
    Json.textual_members document.entries fun network _ =>
      Json.textual_members network.2.entries fun entry _ => entry.2.textual_toJson
  have hnetwork : ∀ entries : NameMap Record,
      Json.asMapWith RegistryFault.shape 126 Record.ofJson (writeMap Record.toJson entries) =
        .ok entries :=
    fun entries => Json.asMapWith_ofFields 125 entries fun record => record.ofJson_toJson 122
  have hdocument : Json.asMapWith RegistryFault.shape Json.depthLimit
      (fun depth => Json.asMapWith .shape depth Record.ofJson)
      (writeMap (writeMap Record.toJson) document) = .ok document :=
    Json.asMapWith_ofFields 126 document hnetwork
  rw [parse, allBlank_print, print, Json.read_pretty htextual]
  simp only [hdocument]
  rfl

end BookDocument

end ContractDeploy
