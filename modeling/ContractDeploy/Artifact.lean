import ContractDeploy.Abi.Interface
import ContractDeploy.Abi.InterfaceReader

/-!
# Artifacts

What a build leaves of one contract: its interface, the bytecode that creates it, and where in that
bytecode the addresses of libraries belong. Main statement: the libraries that an artifact names
come without repetition.
-/

namespace ContractDeploy

/-- A place in the bytecode where a library's address belongs. -/
structure LinkOffset where
  /-- The offset of its first byte in the decoded bytecode. -/
  start : Nat
  /-- How many bytes it takes up. -/
  length : Nat
deriving DecidableEq

/-- The places of each library, by the source file that declares it and by its name. -/
abbrev LinkReferences := NameMap (NameMap (List LinkOffset))

/-- A compiled contract. -/
structure Artifact where
  /-- The name of the contract. -/
  contractName : String
  /-- The contract's interface. -/
  interface : Interface
  /-- The bytecode in hexadecimal, with placeholders where libraries are to be linked. -/
  bytecode : String
  /-- Where libraries are to be linked. -/
  links : LinkReferences

namespace Artifact

/-- The libraries with their places, by source file and by name. -/
def references (artifact : Artifact) : List (String × List LinkOffset) :=
  artifact.links.entries.flatMap fun source => source.2.entries

/-- Keeps the first of equal names. -/
def firstOccurrences : List String → List String
  | [] => []
  | name :: rest => name :: (firstOccurrences rest).filter (· ≠ name)

/-- The libraries that the bytecode refers to, each once, in the order of the references. -/
def libraryNames (artifact : Artifact) : List String :=
  firstOccurrences (artifact.references.map (·.1))

/-- Whether the bytecode refers to any library. -/
def needsLinking (artifact : Artifact) : Bool :=
  artifact.links.entries.any fun source => !source.2.isEmpty

theorem nodup_firstOccurrences (names : List String) : (firstOccurrences names).Nodup := by
  induction names with
  | nil => exact List.nodup_nil
  | cons name rest ih =>
    refine List.nodup_cons.2 ⟨?_, ih.filter _⟩
    simp

/-- No library is named twice. -/
theorem nodup_libraryNames (artifact : Artifact) : artifact.libraryNames.Nodup :=
  nodup_firstOccurrences _

/-! ## Reading -/

open Json (Fault)

/-- Reads the place of a library; `depth` is how deep brackets may still nest. -/
def readOffset : (depth : Nat) → Json → Except Fault LinkOffset
  | 0, _ => .error .tooDeep
  | _ + 1, value => do
    let fields ← value.asFields ["start", "length"]
    let start ← Json.requireField fields "start" (Json.asNatBelow (Bytes.capacity 8))
    let length ← Json.requireField fields "length" (Json.asNatBelow (Bytes.capacity 8))
    return ⟨start, length⟩

/-- Reads the places of all libraries; `depth` is how deep brackets may still nest. -/
def readLinks (depth : Nat) (value : Json) : Except Fault LinkReferences :=
  Json.asMap depth (fun depth => Json.asMap depth fun depth value => value.asList depth readOffset)
    value

/-- Reads an artifact; `depth` is how deep brackets may still nest. -/
def ofJson : (depth : Nat) → Json → Except Fault Artifact
  | 0, _ => .error .tooDeep
  | depth + 1, value => do
    let fields ← value.asFields ["contractName", "abi", "bytecode", "linkReferences"]
    let contractName ← Json.requireField fields "contractName" Json.asText
    let interface ← Json.requireField fields "abi" (Abi.readInterface depth)
    let bytecode ← Json.requireField fields "bytecode" Json.asText
    let links ← match Json.lookupField fields "linkReferences" with
      | some value => readLinks depth value
      | none => pure NameMap.empty
    return { contractName, interface, bytecode, links }

/-- Reads the text of an artifact. -/
def parse (text : String) : Except Fault Artifact := do
  let document := Json.read text
  let artifact ← ofJson Json.depthLimit document.value
  if document.complete then return artifact else throw .syntaxError

end Artifact

end ContractDeploy
