import ContractDeploy.Abi.Listing
import ContractDeploy.Abi.Type

/-!
# Types as interfaces declare them

The text of a declared type: a stem followed by the sizes of the arrays around it. A stem is an
identifier, an identifier with a point and perhaps a second one behind it (an enumeration, which is
encoded as a `uint8`), or a parenthesised list of types. Only the lists count as nested, not the
sizes. Reading a text and knowing its type are two steps: an identifier that names no type is well
formed all the same, and fails only where an argument is encoded at it.
-/

namespace ContractDeploy

namespace Abi

/-- The stem of a declared type. -/
inductive Stem where
  /-- An identifier. -/
  | named (identifier : List Char)
  /-- An identifier with a point behind it, and perhaps a second identifier behind that. -/
  | enumeration
  /-- A parenthesised list of types, each with the sizes around its stem, the innermost first. -/
  | list (members : List (Stem × List (Option Nat)))

/-- A declared type: its stem and the sizes around it, the innermost first. A size is absent where
the array may have any length. -/
abbrev Declared := Stem × List (Option Nat)

/-! ## Reading -/

/-- Whether a character may begin an identifier. -/
def startsIdentifier (c : Char) : Bool := c.isAlpha || c = '_' || c = '$'

/-- Whether a character may stand in an identifier. -/
def continuesIdentifier (c : Char) : Bool := c.isAlphanum || c = '_' || c = '$'

/-- Whether a text is an identifier. -/
def isIdentifier : List Char → Bool
  | [] => false
  | c :: rest => startsIdentifier c && rest.all continuesIdentifier

/-- The identifier at the start of a text, and what follows it. -/
def scanIdentifier : List Char → Option (List Char × List Char)
  | [] => none
  | c :: rest =>
    if startsIdentifier c then
      some (c :: rest.takeWhile continuesIdentifier, rest.dropWhile continuesIdentifier)
    else none

/-- The value of a text of decimal digits. -/
def decimal (digits : List Char) : Nat :=
  digits.foldl (fun n c => n * 10 + (c.toNat - '0'.toNat)) 0

/-- A size in brackets, and what follows it. A size that is given is positive and takes up
at most eight bytes. -/
def scanSize : List Char → Option (Option Nat × List Char)
  | '[' :: rest =>
    match rest.takeWhile Char.isDigit, rest.dropWhile Char.isDigit with
    | [], ']' :: after => some (none, after)
    | digits@(_ :: _), ']' :: after =>
      let size := decimal digits
      if 0 < size && size < Bytes.capacity 8 then some (some size, after) else none
    | _, _ => none
  | _ => none

/-- All the sizes at the start of a text, and what follows them. A bracket that opens no size is
left where it is. -/
def scanSizes : (fuel : Nat) → List Char → List (Option Nat) × List Char
  | 0, text => ([], text)
  | fuel + 1, text =>
    match scanSize text with
    | none => ([], text)
    | some (size, rest) =>
      let (sizes, after) := scanSizes fuel rest
      (size :: sizes, after)

/-- The stem that begins with an identifier at the start of a text, and what follows it. -/
def scanNamed (text : List Char) : Option (Stem × List Char) := do
  let (identifier, rest) ← scanIdentifier text
  match scanChar '.' rest with
  | none => return (.named identifier, rest)
  | some rest =>
    match scanIdentifier rest with
    | some (_, after) => return (.enumeration, after)
    | none => return (.enumeration, rest)

/-- The stem at the start of a text, and what follows it; `member` scans the types in a list. The
word `tuple` may stand before a list. -/
def scanStem (member : List Char → Option (Declared × List Char)) (text : List Char) :
    Option (Stem × List Char) :=
  let list := fun text => (scanListBody ')' member text).map fun (members, after) =>
    (Stem.list members, after)
  match text with
  | '(' :: rest => list rest
  | 't' :: 'u' :: 'p' :: 'l' :: 'e' :: '(' :: rest => list rest
  | _ => scanNamed text

/-- The declared type at the start of a text, and what follows it; `member` scans the types in a
list. -/
def scanDeclaredOver (member : List Char → Option (Declared × List Char)) (text : List Char) :
    Option (Declared × List Char) := do
  let (stem, rest) ← scanStem member text
  let (sizes, after) := scanSizes rest.length rest
  return ((stem, sizes), after)

/-- The declared type at the start of a text, and what follows it; `room` is how many more lists
may stand around a type. -/
def scanDeclared : (room : Nat) → List Char → Option (Declared × List Char)
  | 0 => scanDeclaredOver fun _ => none
  | room + 1 => scanDeclaredOver (scanDeclared room)

/-- The declared type that a text spells. -/
def readDeclared (text : String) : Option Declared :=
  match scanDeclared listNesting text.toList with
  | some (declared, []) => some declared
  | _ => none

/-! ## Known types -/

/-- The number that follows a name, if nothing but digits follows it. -/
def suffixNumber? (marker text : List Char) : Option Nat :=
  if marker.isPrefixOf text then
    let digits := text.drop marker.length
    if !digits.isEmpty && digits.all Char.isDigit then some (decimal digits) else none
  else none

/-- The type that an identifier names. -/
def namedType? (identifier : List Char) : Option AbiType :=
  match String.ofList identifier with
  | "address" => some .address
  | "function" => some .function
  | "bool" => some .bool
  | "string" => some .string
  | "bytes" => some .bytes
  | "uint" => some (.uint 256)
  | "int" => some (.int 256)
  | _ =>
    match suffixNumber? "bytes".toList identifier, suffixNumber? "uint".toList identifier,
        suffixNumber? "int".toList identifier with
    | some size, _, _ => if 1 ≤ size && size ≤ 32 then some (.fixedBytes size) else none
    | _, some bits, _ => if 8 ≤ bits && bits ≤ 256 && bits % 8 = 0 then some (.uint bits) else none
    | _, _, some bits => if 8 ≤ bits && bits ≤ 256 && bits % 8 = 0 then some (.int bits) else none
    | none, none, none => none

/-- The type with arrays around it, the innermost size first. -/
def wrapSizes (type : AbiType) (sizes : List (Option Nat)) : AbiType :=
  sizes.foldl (fun inner size =>
    match size with
    | none => .array inner
    | some length => .fixedArray inner length) type

mutual

/-- The type that a stem stands for, if all its identifiers name types. -/
def Stem.type? : Stem → Option AbiType
  | .named identifier => namedType? identifier
  | .enumeration => some (.uint 8)
  | .list members => (memberTypes? members).map .tuple

/-- The types that the members of a list stand for. -/
def memberTypes? : List (Stem × List (Option Nat)) → Option (List AbiType)
  | [] => some []
  | (stem, sizes) :: rest =>
    match stem.type?, memberTypes? rest with
    | some type, some types => some (wrapSizes type sizes :: types)
    | _, _ => none

end

/-- The type that a declared type stands for. -/
def declaredType? (declared : Declared) : Option AbiType :=
  declared.1.type?.map (wrapSizes · declared.2)

end Abi

end ContractDeploy
