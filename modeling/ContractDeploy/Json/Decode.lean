import ContractDeploy.Hex
import ContractDeploy.NameMap
import ContractDeploy.Json.Double
import ContractDeploy.Json.Escape

/-!
# What a JSON value holds

Readers for the shapes that documents are made of: texts, flags, bounded numbers, byte strings,
lists, maps and records. A record is an object, or an array of its fields in order. Brackets may
nest 127 deep among the values that are looked at; what a record does not know is passed over at
any depth, but it has to be JSON. A reader judges the parts of a value in the order in which they
stand, so that the first fault of a document is the one reported.
-/

namespace ContractDeploy.Json

/-- Why a document does not have the shape that is asked for. -/
inductive Fault where
  /-- The text is not JSON. -/
  | syntaxError
  /-- Brackets nest too deep. -/
  | tooDeep
  /-- A value is not of the kind named. -/
  | expected (kind : String)
  /-- A record lacks a field. -/
  | missing (field : String)
  /-- A record has a field twice. -/
  | repeated (field : String)
deriving DecidableEq

/-- The sentence that names a fault. -/
def Fault.message : Fault → String
  | .syntaxError => "not a JSON document"
  | .tooDeep => "brackets nest too deep"
  | .expected kind => "expected " ++ kind
  | .missing field => "missing field " ++ field
  | .repeated field => "repeated field " ++ field

mutual

/-- Whether the text of a value is JSON to its end. -/
def intact : Json → Bool
  | .array items => items.intact
  | .object members => members.intact
  | .broken => false
  | _ => true

/-- Whether the text of an array is JSON to its closing bracket. -/
def Items.intact : Items → Bool
  | .done => true
  | .cut => false
  | .item value rest => value.intact && rest.intact

/-- Whether the text of an object is JSON to its closing brace. -/
def Members.intact : Members → Bool
  | .done => true
  | .cut => false
  | .member _ value rest => value.intact && rest.intact

end

/-- How deep brackets may nest among the values that are looked at. -/
def depthLimit : Nat := 127

/-- The fault of a value that is not of the kind named. -/
def mismatch (kind : String) : Json → Fault
  | .broken => .syntaxError
  | _ => .expected kind

/-- The text that a literal spells. -/
def textOf (literal : List Char) : Except Fault String :=
  match unescape literal with
  | some chars => .ok (String.ofList chars)
  | none => .error .syntaxError

/-- A string. -/
def asText : Json → Except Fault String
  | .string literal => textOf literal
  | value => .error (mismatch "a string" value)

/-- One of the two truth values. -/
def asBool : Json → Except Fault Bool
  | .bool value => .ok value
  | value => .error (mismatch "a boolean" value)

/-- A number below `limit` that is written with digits alone. -/
def asNatBelow (limit : Nat) : Json → Except Fault Nat
  | .number literal =>
    if literal.all isDigit && natOfDigits literal < limit then .ok (natOfDigits literal)
    else .error (.expected "an unsigned integer in range")
  | value => .error (mismatch "an unsigned integer" value)

/-- Nothing for `null`, else what the reader finds. -/
def asOptional {α : Type} (reader : Json → Except Fault α) : Json → Except Fault (Option α)
  | .null => .ok none
  | value => (reader value).map some

/-- The values of an array in order, up to and with the closing bracket. -/
def Items.traverse {α : Type} (reader : Json → Except Fault α) : Items → Except Fault (List α)
  | .done => .ok []
  | .cut => .error .syntaxError
  | .item value rest => do
    let head ← reader value
    let tail ← traverse reader rest
    return head :: tail

/-- A list; `depth` is how deep brackets may still nest, and the reader gets what is left. -/
def asList {α : Type} (depth : Nat) (reader : Nat → Json → Except Fault α) :
    Json → Except Fault (List α)
  | .array items =>
    match depth with
    | 0 => .error .tooDeep
    | depth + 1 => items.traverse (reader depth)
  | value => .error (mismatch "an array" value)

/-- The members of an object in order, up to and with the closing brace. -/
def Members.traverse {ε α : Type} (lift : Fault → ε) (reader : Json → Except ε α) :
    Members → Except ε (List (String × α))
  | .done => .ok []
  | .cut => .error (lift .syntaxError)
  | .member name value rest => do
    let name ← (textOf name).mapError lift
    let head ← reader value
    let tail ← traverse lift reader rest
    return (name, head) :: tail

/-- A map from names, of which the last value under a name counts. The reader's faults may be of
a kind of their own, into which the faults of shape are lifted. -/
def asMapWith {ε α : Type} (lift : Fault → ε) (depth : Nat) (reader : Nat → Json → Except ε α) :
    Json → Except ε (NameMap α)
  | .object members =>
    match depth with
    | 0 => .error (lift .tooDeep)
    | depth + 1 => (members.traverse lift (reader depth)).map NameMap.ofList
  | value => .error (lift (mismatch "an object" value))

/-- A map from names, of which the last value under a name counts. -/
def asMap {α : Type} (depth : Nat) (reader : Nat → Json → Except Fault α) :
    Json → Except Fault (NameMap α) :=
  asMapWith id depth reader

/-- A byte string of `n` bytes, as hexadecimal text or as an array of that many numbers. -/
def asFixedBytes (n : Nat) (depth : Nat) (value : Json) : Except Fault (FixedBytes n) :=
  match value with
  | .string literal => do
    let text ← textOf literal
    match Hex.decodeFixed n text with
    | .ok bytes => return bytes
    | .error _ => throw (.expected "hexadecimal digits of the right number")
  | .array _ => do
    let numbers ← asList depth (fun _ => asNatBelow 256) value
    match FixedBytes.ofBytes? (numbers.map UInt8.ofNat) with
    | some bytes => return bytes
    | none => throw (.expected "bytes of the right number")
  | _ => .error (mismatch "a byte string" value)

/-! ## Records -/

/-- The known members of an object, in order. An unknown member is passed over, a known one that
comes twice is refused. -/
def Members.known (names : List String) : List String → Members →
    Except Fault (List (String × Json))
  | _, .done => .ok []
  | _, .cut => .error .syntaxError
  | seen, .member name value rest => do
    let name ← textOf name
    if name ∈ names then
      if name ∈ seen then throw (.repeated name)
      else
        let tail ← known names (name :: seen) rest
        return (name, value) :: tail
    else if value.intact then known names seen rest
    else throw .syntaxError

/-- The fields of a record: the members of an object, or the values of an array that has no more
of them than there are names. -/
def asFields (names : List String) : Json → Except Fault (List (String × Json))
  | .object members => members.known names []
  | .array items =>
    if items.closed && items.toList.length ≤ names.length then .ok (names.zip items.toList)
    else .error (.expected "no more values than fields")
  | value => .error (mismatch "a record" value)

/-- The first field of this name. -/
def lookupField (fields : List (String × Json)) (name : String) : Option Json :=
  NameMap.lookupEntry name fields

/-- A field that has to be there. -/
def requireField {α : Type} (fields : List (String × Json)) (name : String)
    (reader : Json → Except Fault α) : Except Fault α :=
  match lookupField fields name with
  | some value => reader value
  | none => .error (.missing name)

/-- A field that may be absent or `null`. -/
def optionalField {α : Type} (fields : List (String × Json)) (name : String)
    (reader : Json → Except Fault α) : Except Fault (Option α) :=
  match lookupField fields name with
  | some value => asOptional reader value
  | none => .ok none

end ContractDeploy.Json
