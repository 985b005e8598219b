import ContractDeploy.Abi.Number
import ContractDeploy.Text.Blank

/-!
# Arguments as they are given

Arguments come as texts, one for each parameter, and are read as values of the parameter's type.
Arrays and tuples are written with their brackets, bytes in hexadecimal, and text bare or between
quotes of either kind. Of the lists around a value only the arrays count as nested, not the tuples.
The whole text has to be used up.
-/

namespace ContractDeploy.Abi

/-- One of the two truth values, as a whole word. -/
def scanBool (text : List Char) : Option (Bool × List Char) :=
  match String.ofList (text.takeWhile Char.isAlpha) with
  | "true" => some (true, text.dropWhile Char.isAlpha)
  | "false" => some (false, text.dropWhile Char.isAlpha)
  | _ => none

/-- The text without the `0x` that it may begin with, and whether it did. -/
def dropMarker : List Char → Bool × List Char
  | '0' :: 'x' :: rest => (true, rest)
  | text => (false, text)

/-- A byte string in hexadecimal, and what follows it. The empty one needs its prefix. -/
def scanBytes (text : List Char) : Option (Bytes × List Char) :=
  let (marked, rest) := dropMarker text
  let isDigit := fun (c : Char) => (Hex.value? c.toNat).isSome
  let digits := rest.takeWhile isDigit
  if !marked && digits.isEmpty then none
  else
    match Hex.decode (String.ofList digits) with
    | .ok bytes => some (bytes, rest.dropWhile isDigit)
    | .error _ => none

/-- A byte string of this many bytes in hexadecimal, and what follows it. -/
def scanFixedBytes (size : Nat) (text : List Char) : Option (Bytes × List Char) := do
  let (bytes, rest) ← scanBytes text
  guard (bytes.length = size)
  return (bytes, rest)

/-- A text, and what follows it. Between quotes it ends at the next one of the same kind, and
nothing in it is an escape. Bare, it takes everything if it stands alone; in a list it takes at
least one character, up to a comma or the bracket that closes the list. White space at the end of a
bare text is dropped. -/
def scanText (close : Option Char) (text : List Char) : Option (List Char × List Char) :=
  match text with
  | [] => some ([], [])
  | c :: rest =>
    if c = '"' || c = '\x27' then
      match rest.dropWhile (· ≠ c) with
      | [] => none
      | _ :: after => some (rest.takeWhile (· ≠ c), after)
    else
      match close with
      | none => some (Text.trimEnd text, [])
      | some bracket =>
        let inside := fun (d : Char) => d ≠ ',' && d ≠ bracket
        match text.takeWhile inside with
        | [] => none
        | bare => some (Text.trimEnd bare, text.dropWhile inside)

/-- What an element of a list scans where `room` more lists may stand around it: nothing if the
list itself is already one too many, else with one list less to come. -/
def scanInside {α : Type} (room : Nat) (element : Nat → List Char → Option (α × List Char))
    (text : List Char) : Option (α × List Char) :=
  match room with
  | 0 => none
  | room + 1 => element room text

/-- A list in square brackets, and what follows it; `room` is how many more lists may stand around
an element. -/
def scanArray {α : Type} (room : Nat) (element : Nat → List Char → Option (α × List Char))
    (text : List Char) : Option (List α × List Char) := do
  scanListBody ']' (scanInside room element) (← scanChar '[' text)

mutual

/-- A value of this type, and what follows it. `close` is the bracket that closes the innermost
list around the value, and `room` is how many more arrays may stand around an element; tuples are
not counted. -/
def scanValue : AbiType → (room : Nat) → (close : Option Char) → List Char →
    Option (AbiValue × List Char)
  | .uint bits, _, _, text => (scanUnsigned bits text).map fun (n, rest) => (.uint n, rest)
  | .int bits, _, _, text => (scanSigned bits text).map fun (n, rest) => (.int n, rest)
  | .bool, _, _, text => (scanBool text).map fun (b, rest) => (.bool b, rest)
  | .address, _, _, text => do
    let (bytes, rest) ← scanFixedBytes 20 text
    let address ← FixedBytes.ofBytes? bytes
    return (.address address, rest)
  | .function, _, _, text => (scanFixedBytes 24 text).map fun (b, rest) => (.fixedBytes b, rest)
  | .fixedBytes size, _, _, text =>
    (scanFixedBytes size text).map fun (b, rest) => (.fixedBytes b, rest)
  | .bytes, _, _, text => (scanBytes text).map fun (b, rest) => (.bytes b, rest)
  | .string, _, close, text =>
    (scanText close text).map fun (chars, rest) => (.string (String.ofList chars), rest)
  | .array element, room, _, text => do
    let (elements, rest) ←
      scanArray room (fun room => scanValue element room (some ']')) text
    return (.array elements, rest)
  | .fixedArray element length, room, _, text => do
    let (elements, rest) ←
      scanArray room (fun room => scanValue element room (some ']')) text
    guard (elements.length = length)
    return (.fixedArray elements, rest)
  | .tuple members, room, _, text =>
    match skipSpace text with
    | '(' :: rest => do
      let (values, rest) ← scanMembersOf members room true rest
      match skipSpace rest with
      | ')' :: after => some (.tuple values, after)
      | _ => none
    | _ => none

/-- A value for each type in turn, with a comma between each two and space around it, and what
follows them. -/
def scanMembersOf : List AbiType → (room : Nat) → (atFirst : Bool) → List Char →
    Option (List AbiValue × List Char)
  | [], _, _, text => some ([], text)
  | type :: types, room, atFirst, text => do
    let text ←
      if atFirst then some text
      else
        match skipSpace text with
        | ',' :: rest => some rest
        | _ => none
    let (value, rest) ← scanValue type room (some ')') (skipSpace text)
    let (values, rest) ← scanMembersOf types room false rest
    return (value :: values, rest)

end

/-- The value of this type that a whole text spells. -/
def readValue? (type : AbiType) (text : String) : Option AbiValue :=
  match scanValue type listNesting none text.toList with
  | some (value, []) => some value
  | _ => none

end ContractDeploy.Abi
