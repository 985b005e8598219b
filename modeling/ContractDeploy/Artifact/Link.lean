import ContractDeploy.Artifact
import ContractDeploy.Record

/-!
# Linking

Bytecode that uses libraries holds a placeholder of forty characters wherever a library's address
belongs. Linking writes the address over each place that the artifact lists for the library; a
library without an address keeps its placeholders, and bytecode that still has one is not decoded.
Places are counted in bytes of the text, so a place must not begin or end inside a character.
-/

namespace ContractDeploy

/-- Why bytecode cannot be linked. -/
inductive LinkFault where
  /-- A placeholder is left; its first forty characters. -/
  | unresolved (placeholder : String)
  /-- A place of a library is not as long as an address. -/
  | wrongLength (library contract : String) (length : Nat)
  /-- A place of a library is not within the bytecode. -/
  | outOfRange (library contract : String)
deriving DecidableEq

/-- The sentence that names a fault. -/
def LinkFault.message : LinkFault → String
  | .unresolved placeholder => "unresolved library placeholder " ++ placeholder
  | .wrongLength library contract length =>
    "placeholder for " ++ library ++ " in " ++ contract ++ " is " ++ toString length ++
      " bytes long"
  | .outOfRange library contract =>
    "placeholder for " ++ library ++ " lies outside the bytecode of " ++ contract

/-- Why the bytecode of an artifact yields no code. -/
inductive CodeFault where
  /-- It cannot be linked. -/
  | link (fault : LinkFault)
  /-- It is not hexadecimal. -/
  | hex (fault : Hex.Fault)
deriving DecidableEq

/-- The number of bytes of an address. -/
def addressLength : Nat := 20

/-- An address as it stands in linked bytecode: its digits alone. -/
def Address.linkText (address : Address) : String := Hex.encode address.bytes

/-- The first `n` bytes of a text and the rest of it. None if there are not as many, or if the cut
falls inside a character. -/
def splitBytes : (n : Nat) → List Char → Option (List Char × List Char)
  | 0, text => some ([], text)
  | _ + 1, [] => none
  | n + 1, c :: rest =>
    if c.utf8Size ≤ n + 1 then
      (splitBytes (n + 1 - c.utf8Size) rest).map fun (front, back) => (c :: front, back)
    else none

/-- A text with the `length` bytes from `start` replaced. -/
def spliceBytes (start length : Nat) (filling text : List Char) : Option (List Char) := do
  let (front, rest) ← splitBytes start text
  let (_, back) ← splitBytes length rest
  return front ++ filling ++ back

/-- Where the digits of a bytecode text begin: behind the `0x`, if it has one. -/
def digitsStart (text : List Char) : Nat :=
  if ['0', 'x'].isPrefixOf text then 2 else 0

/-- A position in a text, if 64 bits can count up to it. -/
def countable? (position : Nat) : Option Nat :=
  if position < Bytes.capacity 8 then some position else none

/-- Where the place of an address stands in a text whose digits begin at `origin`; `start` counts
bytes of the decoded bytecode. None if 64 bits cannot count up to the end of the place. -/
def placeStart? (origin start : Nat) : Option Nat := do
  let digits ← countable? (2 * start)
  let position ← countable? (digits + origin)
  let _ ← countable? (position + 2 * addressLength)
  return position

/-- Writes one library's address over each of its places in turn. -/
def linkLibrary (contract library : String) (origin : Nat) (filling : List Char) :
    List LinkOffset → List Char → Except LinkFault (List Char)
  | [], text => .ok text
  | offset :: rest, text =>
    if offset.length ≠ addressLength then
      .error (.wrongLength library contract offset.length)
    else
      match (placeStart? origin offset.start).bind fun position =>
        spliceBytes position (2 * addressLength) filling text with
      | none => .error (.outOfRange library contract)
      | some text => linkLibrary contract library origin filling rest text

/-- Links every library that has an address, in the order of the references. -/
def linkAll (contract : String) (libraries : Libraries) (origin : Nat) :
    List (String × List LinkOffset) → List Char → Except LinkFault (List Char)
  | [], text => .ok text
  | (library, offsets) :: rest, text =>
    match libraries.get? library with
    -- Its placeholders stay, and are refused when the code is read.
    | none => linkAll contract libraries origin rest text
    | some address => do
      let text ← linkLibrary contract library origin address.linkText.toList offsets text
      linkAll contract libraries origin rest text

/-- The text from the first placeholder on. -/
def fromPlaceholder : List Char → Option (List Char)
  | '_' :: '_' :: rest => some ('_' :: '_' :: rest)
  | _ :: rest => fromPlaceholder rest
  | [] => none

/-- The code that a bytecode text spells. -/
def decodeBytecode (text : String) : Except CodeFault Bytes :=
  match fromPlaceholder text.toList with
  | some found => .error (.link (.unresolved (String.ofList (found.take 40))))
  | none => (Hex.decode text).mapError .hex

namespace Artifact

/-- The bytecode text with the given libraries linked. -/
def link (artifact : Artifact) (libraries : Libraries) : Except LinkFault String := do
  let text := artifact.bytecode.toList
  let linked ← linkAll artifact.contractName libraries (digitsStart text) artifact.references text
  return String.ofList linked

/-- The code with the given libraries linked. -/
def linkedCode (artifact : Artifact) (libraries : Libraries) : Except CodeFault Bytes := do
  let text ← (artifact.link libraries).mapError .link
  decodeBytecode text

end Artifact

end ContractDeploy
