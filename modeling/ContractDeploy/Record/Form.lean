import ContractDeploy.Json.Decode
import ContractDeploy.Json.Printer
import ContractDeploy.Record

/-!
# Records as they are written

A record's document is flatter than the record: the fields of what callers talk to, a flag that
says whether that is a proxy, and the implementation as a document of the same shape. Not every
such form is a record. A flagged form needs an implementation that is not flagged and has none of
its own; a form without the flag is a direct record, whatever implementation is left in it.
-/

namespace ContractDeploy

/-- The document of a record, before it is judged. -/
inductive RecordForm where
  /-- The document's own fields, its proxy flag, and the implementation it names. -/
  | mk (fields : Snapshot) (proxy : Option Bool) (implementation : Option RecordForm)

namespace RecordForm

/-- The document's own fields. -/
def fields : RecordForm → Snapshot
  | mk fields _ _ => fields

/-- Whether the document is flagged as a proxy. -/
def flagged : RecordForm → Bool
  | mk _ proxy _ => proxy = some true

/-- The implementation that the document names. -/
def implementation? : RecordForm → Option RecordForm
  | mk _ _ implementation => implementation

end RecordForm

/-- Why a well-shaped document is no record. -/
inductive RecordFault where
  /-- A proxy without an implementation. -/
  | noImplementation
  /-- A proxy whose implementation is a proxy, or names an implementation. -/
  | nestedProxy
deriving DecidableEq

/-- The sentence that names a fault. -/
def RecordFault.message : RecordFault → String
  | .noImplementation => "proxy record has no implementation"
  | .nestedProxy => "implementation of a proxy cannot itself be a proxy"

namespace Record

/-- The record that a form stands for. The flag decides: without it a left-over implementation is
dropped. -/
def ofForm (form : RecordForm) : Except RecordFault Record :=
  if form.flagged then
    match form.implementation? with
    | none => .error .noImplementation
    | some implementation =>
      if implementation.flagged || implementation.implementation?.isSome then .error .nestedProxy
      else .ok (.proxied form.fields implementation.fields)
  else .ok (.direct form.fields)

/-- The form of a record. -/
def toForm : Record → RecordForm
  | .direct contract => .mk contract none none
  | .proxied proxy implementation => .mk proxy (some true) (some (.mk implementation none none))

/-- A record's form stands for that record. -/
theorem ofForm_toForm (record : Record) : ofForm record.toForm = .ok record := by
  cases record <;> rfl

end Record

/-! ## Reading -/

/-- The names of the fields of a record's document, in the order in which they are written. -/
def recordFieldNames : List String :=
  ["address", "constructorArgs", "initArgs", "creationCodeHash", "runtimeCodeHash", "txHash",
   "libraries", "proxy", "implementation"]

/-- The address of a record: text, of which the empty one is the zero address. -/
def readAddress (value : Json) : Except Json.Fault Address := do
  let text ← value.asText
  if text = "" then return FixedBytes.zero
  else
    match Hex.decodeFixed 20 text with
    | .ok address => return address
    | .error _ => throw (.expected "an address")

/-- Reads a record's document; `depth` is how deep brackets may still nest. -/
def readForm : (depth : Nat) → Json → Except Json.Fault RecordForm
  | 0, _ => .error .tooDeep
  | depth + 1, value => do
    let fields ← value.asFields recordFieldNames
    let texts := Json.asList depth fun _ => Json.asText
    let hash := Json.asFixedBytes 32 depth
    let address ← Json.requireField fields "address" readAddress
    let constructorArgs ← Json.optionalField fields "constructorArgs" texts
    let initArgs ← Json.optionalField fields "initArgs" texts
    let creationCodeHash ← Json.optionalField fields "creationCodeHash" hash
    let runtimeCodeHash ← Json.optionalField fields "runtimeCodeHash" hash
    let txHash ← Json.optionalField fields "txHash" hash
    let libraries ← Json.optionalField fields "libraries"
      (Json.asMap depth (Json.asFixedBytes 20))
    let proxy ← Json.optionalField fields "proxy" Json.asBool
    let implementation ← Json.optionalField fields "implementation" (readForm depth)
    let own : Snapshot :=
      { address, constructorArgs, initArgs, creationCodeHash, runtimeCodeHash, txHash, libraries }
    return .mk own proxy implementation

/-- Why a document does not hold records. -/
inductive RegistryFault where
  /-- The document has the wrong shape. -/
  | shape (fault : Json.Fault)
  /-- A well-shaped part of it is no record. -/
  | record (fault : RecordFault)
deriving DecidableEq

/-- The sentence that names a fault. -/
def RegistryFault.message : RegistryFault → String
  | .shape fault => fault.message
  | .record fault => fault.message

/-- Reads a record; `depth` is how deep brackets may still nest. -/
def Record.ofJson (depth : Nat) (value : Json) : Except RegistryFault Record := do
  let form ← (readForm depth value).mapError .shape
  (Record.ofForm form).mapError .record

/-- Reads the text of one record. -/
def Record.parse (text : String) : Except RegistryFault Record := do
  let document := Json.read text
  let record ← Record.ofJson Json.depthLimit document.value
  if document.complete then return record else throw (.shape .syntaxError)

/-! ## Writing -/

/-- The member of a field that is left out when it holds nothing. -/
def optionalMember {α : Type} (name : String) (write : α → Json) :
    Option α → List (List Char × Json)
  | some value => [Json.field name (write value)]
  | none => []

/-- The document of a list of texts. -/
def writeTexts (texts : List String) : Json := Json.ofValues (texts.map Json.ofText)

/-- The document of a byte string. -/
def writeBytes {n : Nat} (bytes : FixedBytes n) : Json := Json.ofText bytes.hex

/-- The document of libraries by name. -/
def writeLibraries (libraries : Libraries) : Json :=
  Json.ofFields (libraries.entries.map fun (name, address) => Json.field name (writeBytes address))

/-- The members of one contract's fields. -/
def Snapshot.members (snapshot : Snapshot) : List (List Char × Json) :=
  [Json.field "address" (writeBytes snapshot.address)] ++
    optionalMember "constructorArgs" writeTexts snapshot.constructorArgs ++
    optionalMember "initArgs" writeTexts snapshot.initArgs ++
    optionalMember "creationCodeHash" writeBytes snapshot.creationCodeHash ++
    optionalMember "runtimeCodeHash" writeBytes snapshot.runtimeCodeHash ++
    optionalMember "txHash" writeBytes snapshot.txHash ++
    optionalMember "libraries" writeLibraries snapshot.libraries

/-- The document of a form. -/
def RecordForm.toJson : RecordForm → Json
  | .mk fields proxy none =>
    Json.ofFields (fields.members ++ optionalMember "proxy" Json.bool proxy)
  | .mk fields proxy (some implementation) =>
    Json.ofFields (fields.members ++ optionalMember "proxy" Json.bool proxy ++
      [Json.field "implementation" implementation.toJson])

/-- The document of a record. -/
def Record.toJson (record : Record) : Json := record.toForm.toJson

end ContractDeploy
