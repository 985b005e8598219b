import ContractDeploy.Hex
import ContractDeploy.Json.Basic

/-!
# Reading JSON

A strict reader of RFC 8259: no comments, no trailing commas, no byte order mark, blanks only where
the grammar has them. It never refuses a text; where the text stops being JSON, the tree says so.
String literals are scanned for the form of their escapes and number literals for the form of a
number, and nothing is converted.
-/

namespace ContractDeploy.Json

/-- The four blanks of the grammar. -/
def isBlank (c : Char) : Bool := c = ' ' || c = '\n' || c = '\t' || c = '\r'

/-- The text after its leading blanks. -/
def skipBlanks (text : List Char) : List Char := text.dropWhile isBlank

/-- Whether a character is a decimal digit. -/
def isDigit (c : Char) : Bool := '0' ≤ c && c ≤ '9'

/-- Whether a character is a hexadecimal digit. -/
def isHexDigit (c : Char) : Bool := (Hex.value? c.toNat).isSome

/-- The literal up to the closing quote, and what follows that quote. None if a control character
or a malformed escape comes first, or no quote at all. -/
def scanString : List Char → Option (List Char × List Char)
  | [] => none
  | '"' :: rest => some ([], rest)
  | '\\' :: 'u' :: a :: b :: c :: d :: rest =>
    if isHexDigit a && isHexDigit b && isHexDigit c && isHexDigit d then
      (scanString rest).map fun (literal, after) =>
        ('\\' :: 'u' :: a :: b :: c :: d :: literal, after)
    else none
  | '\\' :: letter :: rest =>
    if letter ∈ ['"', '\\', '/', 'b', 'f', 'n', 'r', 't'] then
      (scanString rest).map fun (literal, after) => ('\\' :: letter :: literal, after)
    else none
  | c :: rest =>
    if c = '\\' || c.toNat < 32 then none
    else (scanString rest).map fun (literal, after) => (c :: literal, after)

/-- A run of at least one digit, and what follows it. -/
def scanDigits (text : List Char) : Option (List Char × List Char) :=
  match text.takeWhile isDigit with
  | [] => none
  | digits => some (digits, text.dropWhile isDigit)

/-- The integer part of a number: a lone zero, or digits that begin with another one. -/
def scanInteger (text : List Char) : Option (List Char × List Char) :=
  match text with
  | '0' :: rest =>
    match rest with
    | c :: _ => if isDigit c then none else some (['0'], rest)
    | [] => some (['0'], [])
  | _ => scanDigits text

/-- The fraction of a number, if a point follows. -/
def scanFraction (text : List Char) : Option (List Char × List Char) :=
  match text with
  | '.' :: rest => (scanDigits rest).map fun (digits, after) => ('.' :: digits, after)
  | _ => some ([], text)

/-- The exponent of a number, if its letter follows. -/
def scanExponent (text : List Char) : Option (List Char × List Char) :=
  match text with
  | [] => some ([], [])
  | letter :: rest =>
    if letter = 'e' || letter = 'E' then
      match rest with
      | [] => none
      | sign :: tail =>
        if sign = '+' || sign = '-' then
          (scanDigits tail).map fun (digits, after) => (letter :: sign :: digits, after)
        else (scanDigits rest).map fun (digits, after) => (letter :: digits, after)
    else some ([], text)

/-- A number without its sign. -/
def scanMagnitude (text : List Char) : Option (List Char × List Char) := do
  let (integer, rest) ← scanInteger text
  let (fraction, rest) ← scanFraction rest
  let (exponent, rest) ← scanExponent rest
  return (integer ++ fraction ++ exponent, rest)

/-- A number. -/
def scanNumber (text : List Char) : Option (List Char × List Char) :=
  match text with
  | '-' :: rest => (scanMagnitude rest).map fun (literal, after) => ('-' :: literal, after)
  | _ => scanMagnitude text

mutual

/-- The value at the start of a text, and what follows it. The first argument bounds the calls
still to be made; twice the length of the text is enough. -/
def readValue : Nat → List Char → Json × List Char
  | 0, text => (.broken, text)
  | fuel + 1, text =>
    match skipBlanks text with
    | 'n' :: 'u' :: 'l' :: 'l' :: rest => (.null, rest)
    | 't' :: 'r' :: 'u' :: 'e' :: rest => (.bool true, rest)
    | 'f' :: 'a' :: 'l' :: 's' :: 'e' :: rest => (.bool false, rest)
    | '"' :: rest =>
      match scanString rest with
      | some (literal, rest) => (.string literal, rest)
      | none => (.broken, rest)
    | '[' :: rest =>
      match skipBlanks rest with
      | ']' :: rest => (.array .done, rest)
      | rest =>
        let (items, rest) := readItems fuel rest
        (.array items, rest)
    | '\x7b' :: rest =>
      match skipBlanks rest with
      | '\x7d' :: rest => (.object .done, rest)
      | rest =>
        let (members, rest) := readMembers fuel rest
        (.object members, rest)
    | rest =>
      match scanNumber rest with
      | some (literal, rest) => (.number literal, rest)
      | none => (.broken, rest)

/-- At least one value of an array, up to the closing bracket. -/
def readItems : Nat → List Char → Items × List Char
  | 0, text => (.cut, text)
  | fuel + 1, text =>
    match readValue fuel text with
    | (value, rest) =>
      match skipBlanks rest with
      | ']' :: rest => (.item value .done, rest)
      | ',' :: rest =>
        let (items, rest) := readItems fuel rest
        (.item value items, rest)
      | rest => (.item value .cut, rest)

/-- At least one member of an object, up to the closing brace. -/
def readMembers : Nat → List Char → Members × List Char
  | 0, text => (.cut, text)
  | fuel + 1, text =>
    match skipBlanks text with
    | '"' :: rest =>
      match scanString rest with
      | none => (.cut, rest)
      | some (name, rest) =>
        match skipBlanks rest with
        | ':' :: rest =>
          match readValue fuel rest with
          | (value, rest) =>
            match skipBlanks rest with
            | '\x7d' :: rest => (.member name value .done, rest)
            | ',' :: rest =>
              let (members, rest) := readMembers fuel rest
              (.member name value members, rest)
            | rest => (.member name value .cut, rest)
        | rest => (.member name .broken .cut, rest)
    | rest => (.cut, rest)

end

/-- A whole text: its value, and whether only blanks follow it. -/
structure Document where
  /-- The value at the start of the text. -/
  value : Json
  /-- Whether nothing but blanks follows the value. -/
  complete : Bool

/-- Reads a text. -/
def read (text : String) : Document :=
  let chars := text.toList
  let (value, rest) := readValue (2 * chars.length + 2) chars
  ⟨value, (skipBlanks rest).isEmpty⟩

end ContractDeploy.Json
