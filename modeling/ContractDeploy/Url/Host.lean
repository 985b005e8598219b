import ContractDeploy.Hex

/-!
# Hosts

What may stand for the host in a URL: a name, four numbers joined by dots, or eight groups of
hexadecimal digits in brackets. A name whose last part is a number is taken for an address and has
to be one. Escaped bytes of a name are read before it is judged.
-/

namespace ContractDeploy.Url

/-- The text split at each occurrence of a separator. -/
def splitAt (separator : Char) : List Char → List (List Char)
  | [] => [[]]
  | c :: rest =>
    if c = separator then [] :: splitAt separator rest
    else
      match splitAt separator rest with
      | [] => [[c]]
      | first :: others => (c :: first) :: others

/-! ## Four numbers -/

/-- The value of digits of a base, none if there are others among them. -/
def digitsValue? (base : Nat) (digits : List Char) : Option Nat :=
  digits.foldlM (fun n c => do
    let value ← Hex.value? c.toNat
    if value < base then some (n * base + value) else none) 0

/-- A number as it may be written in an address: hexadecimal behind `0x`, octal behind a zero. -/
def addressNumber? : List Char → Option Nat
  | [] => none
  | ['0'] => some 0
  | '0' :: c :: rest =>
    if c = 'x' || c = 'X' then digitsValue? 16 rest else digitsValue? 8 (c :: rest)
  | digits => digitsValue? 10 digits

/-- Whether a part of a name makes the name an address. -/
def isNumberLike (part : List Char) : Bool :=
  !part.isEmpty && (part.all Char.isDigit || (addressNumber? part).isSome)

/-- Whether numbers make up an address: every one a byte but the last, which fills what is left. -/
def numbersFit : List Nat → Bool
  | [] => false
  | [last] => last < 256
  | [a, last] => a < 256 && last < Bytes.capacity 3
  | [a, b, last] => a < 256 && b < 256 && last < Bytes.capacity 2
  | [a, b, c, last] => a < 256 && b < 256 && c < 256 && last < 256
  | _ => false

/-- Whether the parts of a name make up an address of four bytes. -/
def isAddress (parts : List (List Char)) : Bool :=
  match parts.mapM addressNumber? with
  | some [only] => only < Bytes.capacity 4
  | some numbers => numbersFit numbers
  | none => false

/-! ## Eight groups -/

/-- How many groups of two bytes a part of an address in brackets stands for, none if it is not
well formed. The last part may be four numbers. -/
def groupCount? (isLast : Bool) (part : List Char) : Option Nat :=
  if 1 ≤ part.length && part.length ≤ 4 && part.all fun c => (Hex.value? c.toNat).isSome then some 1
  else
    let numbers := splitAt '.' part
    let isByte := fun (digits : List Char) =>
      !digits.isEmpty && digits.length ≤ 3 && digits.all Char.isDigit &&
        (digits.length = 1 || digits.head? ≠ some '0') && (digitsValue? 10 digits).any (· < 256)
    if isLast && numbers.length = 4 && numbers.all isByte then some 2 else none

/-- The number of groups that these parts stand for. -/
def groupsOf? (atEnd : Bool) : List (List Char) → Option Nat
  | [] => some 0
  | [part] => groupCount? atEnd part
  | part :: rest => do
    let first ← groupCount? false part
    let others ← groupsOf? atEnd rest
    return first + others

/-- The parts of a side of the gap, none of them for an empty side. -/
def sideParts (side : List Char) : List (List Char) :=
  if side.isEmpty then [] else splitAt ':' side

/-- The text in front of the first double colon and behind it. -/
def splitGap : List Char → Option (List Char × List Char)
  | ':' :: ':' :: rest => some ([], rest)
  | c :: rest => (splitGap rest).map fun (front, back) => (c :: front, back)
  | [] => none

/-- Whether a text is an address of eight groups, of which a gap may stand for one or more. -/
def isGroups (text : List Char) : Bool :=
  match splitGap text with
  | some (front, back) =>
    match groupsOf? false (sideParts front), groupsOf? true (sideParts back) with
    -- At least one group is left for the gap.
    | some a, some b => a + b ≤ 7
    | _, _ => false
  | none => groupsOf? true (splitAt ':' text) = some 8

/-! ## Names -/

/-- The text with escaped bytes below 128 read; others stand for some character that is not
judged. -/
def readEscapes : List Char → List Char
  | '%' :: high :: low :: rest =>
    match Hex.value? high.toNat, Hex.value? low.toNat with
    | some h, some l => Char.ofNat (16 * h + l) :: readEscapes rest
    | _, _ => '%' :: readEscapes (high :: low :: rest)
  | c :: rest => c :: readEscapes rest
  | [] => []

/-- Whether a character may not stand in a host. -/
def isForbidden (c : Char) : Bool :=
  c.toNat = 0 || "\t\n\r #/:<>?@[\\]^|".toList.contains c

/-- Whether a character may not stand in a name. -/
def isForbiddenInName (c : Char) : Bool :=
  isForbidden c || c.toNat < 32 || c = '%' || c.toNat = 127

/-- The parts of a name without the empty one behind a dot at its end. -/
def nameParts (name : List Char) : List (List Char) :=
  let parts := splitAt '.' name
  if 1 < parts.length && parts.getLast? = some [] then parts.dropLast else parts

/-- Whether a text is a host where names are names of machines. -/
def isHost (text : List Char) : Bool :=
  match text with
  | '[' :: rest => rest.getLast? = some ']' && isGroups rest.dropLast
  | _ =>
    let name := readEscapes text
    let parts := nameParts name
    !name.isEmpty && !name.any isForbiddenInName &&
      (!(parts.getLast?.any isNumberLike) || isAddress parts)

/-- Whether a text is a host where names have no meaning of their own. -/
def isOpaqueHost (text : List Char) : Bool :=
  match text with
  | '[' :: rest => rest.getLast? = some ']' && isGroups rest.dropLast
  | _ => !text.any isForbidden

end ContractDeploy.Url
