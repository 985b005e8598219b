import ContractDeploy.Abi.Interface
import ContractDeploy.Json.Whole

/-!
# Reading interfaces

An interface is written as an array of items: at most one constructor, fallback and receive
function each, and any number of functions, events and errors. An item says what it is before the
rest of it can be judged, so it is read whole. All of it is checked, also the parts that no call
needs, so an interface that is accepted is well formed throughout.
-/

namespace ContractDeploy

namespace Abi

open Json (Fault)

/-- What an item of an interface adds to it. -/
inductive Item where
  /-- A constructor with its parameters. -/
  | construct (inputs : List Param)
  /-- A fallback function. -/
  | fallback
  /-- A receive function. -/
  | receive
  /-- A function. -/
  | function (function : Function)
  /-- An event or an error, which no call needs. -/
  | other

/-- A name, which is empty or an identifier. -/
def readName (value : Json) : Except Fault String := do
  let text ← value.asText
  if text = "" || isIdentifier text.toList then return text else throw (.expected "an identifier")

/-- Reads a parameter; `depth` is how deep brackets may still nest. Only the parameters of an event
may say whether they are indexed. A parameter with components has a type that starts with `tuple`,
any other a well-formed one. -/
def readParam : (ofEvent : Bool) → (depth : Nat) → Json → Except Fault Param
  | _, 0, _ => .error .tooDeep
  | ofEvent, depth + 1, value => do
    let fields ← value.asFields ["name", "type", "indexed", "internalType", "components"]
    let name ← match Json.lookupField fields "name" with
      | some value => readName value
      | none => pure ""
    let type ← Json.requireField fields "type" Json.asText
    let indexed ← Json.optionalField fields "indexed" Json.asBool
    let _ ← Json.optionalField fields "internalType" Json.asText
    let components ← match Json.lookupField fields "components" with
      | some value =>
        match depth with
        | 0 => throw .tooDeep
        | depth + 1 => value.asList (depth + 1) fun _ => readParam false depth
      | none => pure []
    if indexed.isSome && !ofEvent then throw (.expected "no flag outside events")
    let wellFormed :=
      if components.isEmpty then (readDeclared type).isSome
      else "tuple".toList.isPrefixOf type.toList
    if wellFormed then return .mk name type components else throw (.expected "a type")

/-- Parameters under a required field. -/
def readParams (ofEvent : Bool) (depth : Nat) (fields : List (String × Json)) (name : String) :
    Except Fault (List Param) :=
  Json.requireField fields name fun value => value.asList depth (readParam ofEvent)

/-- The name of a mutability, as a text or as an object with that single member, which says no
more. -/
def readMutability (value : Json) : Except Fault String := do
  let text ← match value with
    | .object (.member name .null .done) | .object (.member name (.object .done) .done) =>
      Json.textOf name
    | value => value.asText
  if text ∈ ["pure", "view", "nonpayable", "payable"] then return text
  else throw (.expected "a mutability")

/-- Checks what an item says about its use of state. Without a mutability the two older flags must
not both be set. -/
def checkMutability (fields : List (String × Json)) : Except Fault Unit := do
  let mutability ← Json.optionalField fields "stateMutability" readMutability
  let constant ← Json.optionalField fields "constant" Json.asBool
  let payable ← Json.optionalField fields "payable" Json.asBool
  if mutability.isNone && constant = some true && payable = some true then
    throw (.expected "one mutability flag")

/-- The fields that matter for an item of this kind. -/
def itemFieldNames : String → List String
  | "constructor" => ["type", "inputs", "stateMutability", "constant", "payable"]
  | "fallback" | "receive" => ["type", "stateMutability", "constant", "payable"]
  | "function" => ["type", "name", "inputs", "outputs", "stateMutability", "constant", "payable"]
  | "event" => ["type", "name", "inputs", "anonymous"]
  | "error" => ["type", "name", "inputs"]
  | _ => ["type"]

/-- The kind of an item and the fields that matter for it. Events and errors may be written as
arrays of their fields. -/
def itemFields (value : Json) : Except Fault (String × List (String × Json)) :=
  match value with
  | .object members => do
    let kindFields ← members.known ["type"] []
    let kind ← Json.requireField kindFields "type" Json.asText
    return (kind, ← members.known (itemFieldNames kind) [])
  | .array (.item first _) => do
    let kind ← first.asText
    if kind ∈ ["event", "error"] then return (kind, ← value.asFields (itemFieldNames kind))
    else throw (.expected "an object")
  | value => .error (Json.mismatch "an item" value)

/-- Reads an item; `depth` is how deep brackets may still nest. -/
def readItem : (depth : Nat) → Json → Except Fault Item
  | 0, _ => .error .tooDeep
  | depth + 1, value => do
    value.checkWhole (depth + 1)
    let (kind, fields) ← itemFields value
    match kind with
    | "constructor" =>
      let inputs ← readParams false depth fields "inputs"
      checkMutability fields
      return .construct inputs
    | "fallback" =>
      checkMutability fields
      return .fallback
    | "receive" =>
      checkMutability fields
      return .receive
    | "function" =>
      let name ← Json.requireField fields "name" readName
      let inputs ← readParams false depth fields "inputs"
      let _ ← readParams false depth fields "outputs"
      checkMutability fields
      return .function ⟨name, inputs⟩
    | "event" =>
      let _ ← Json.requireField fields "name" readName
      let _ ← readParams true depth fields "inputs"
      let _ ← Json.requireField fields "anonymous" Json.asBool
      return .other
    | "error" =>
      let _ ← Json.requireField fields "name" readName
      let _ ← readParams false depth fields "inputs"
      return .other
    | _ => throw (.expected "a kind of item")

/-- An interface under construction. -/
structure Draft where
  /-- The callable part so far. -/
  interface : Interface := {}
  /-- Whether a fallback function was seen. -/
  hasFallback : Bool := false
  /-- Whether a receive function was seen. -/
  hasReceive : Bool := false

/-- Adds an item, unless it is a second one of a kind that comes once. -/
def Draft.add (draft : Draft) (item : Item) : Except Fault Draft :=
  match item with
  | .construct inputs =>
    if draft.interface.constructorInputs.isSome then .error (.repeated "constructor")
    else .ok { draft with interface := { draft.interface with constructorInputs := some inputs } }
  | .fallback =>
    if draft.hasFallback then .error (.repeated "fallback")
    else .ok { draft with hasFallback := true }
  | .receive =>
    if draft.hasReceive then .error (.repeated "receive")
    else .ok { draft with hasReceive := true }
  | .function function =>
    let sameName := (draft.interface.functions.get? function.name).getD []
    let functions := draft.interface.functions.insert function.name (sameName ++ [function])
    .ok { draft with interface := { draft.interface with functions } }
  | .other => .ok draft

/-- Reads an interface; `depth` is how deep brackets may still nest. -/
def readInterface (depth : Nat) (value : Json) : Except Fault Interface := do
  let items ← value.asList depth readItem
  let draft ← items.foldlM Draft.add {}
  return draft.interface

end Abi

end ContractDeploy
