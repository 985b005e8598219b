import ContractDeploy.Abi.Signature
import ContractDeploy.Hex

/-!
# Numbers as they are given

An integer argument may be written in another base, with a fraction, with a decimal exponent and
with a unit of currency: `1.5 gwei`, `0x10`, `4.2e1`. Exponent and unit make up the scale, and the
value is the written number times ten to the scale. The scale has to cover the fraction, so that
the value is whole, and nothing on the way to it may exceed 256 bits.
-/

namespace ContractDeploy.Abi

/-- The value of a digit, if it is one of this base. -/
def digitIn? (base : Nat) (c : Char) : Option Nat :=
  (Hex.value? c.toNat).bind fun value => if value < base then some value else none

/-- The number of a run of digits of this base. -/
def numberIn (base : Nat) (digits : List Char) : Nat :=
  digits.foldl (fun n c => n * base + (digitIn? base c).getD 0) 0

/-- A run of at least one digit of this base, and what follows it. -/
def scanDigitsIn (base : Nat) (text : List Char) : Option (List Char × List Char) :=
  match text.takeWhile fun c => (digitIn? base c).isSome with
  | [] => none
  | digits => some (digits, text.dropWhile fun c => (digitIn? base c).isSome)

/-- The base that a marker after a leading zero announces. -/
def markedBase? (c : Char) : Option Nat :=
  if c = 'x' || c = 'X' then some 16
  else if c = 'o' || c = 'O' then some 8
  else if c = 'b' || c = 'B' then some 2
  else none

/-- An unsigned number of any base, and what follows it. Behind a marker of any base the number
takes all digits up to the hexadecimal ones, and those must then be of its base; so `0b1e1` is no
binary number with an exponent, and no number at all. -/
def scanNatural (text : List Char) : Option (Nat × List Char) :=
  let plain := (scanDigitsIn 10 text).map fun (digits, after) => (numberIn 10 digits, after)
  match text with
  | '0' :: marker :: rest =>
    match markedBase? marker with
    | some base => do
      let (digits, after) ← scanDigitsIn 16 rest
      guard (digits.all fun c => (digitIn? base c).isSome)
      return (numberIn base digits, after)
    | none => plain
  | _ => plain

/-- The digits behind a decimal point, if there is one, and what follows them. A point without a
digit behind it is an error. -/
def scanPoint : List Char → Option (Option (List Char) × List Char)
  | '.' :: rest => (scanDigitsIn 10 rest).map fun (digits, after) => (some digits, after)
  | text => some (none, text)

/-- The number of an exponent, behind its letter: a signed number without a leading zero, or a
lone unsigned zero. -/
def scanExponentValue : List Char → Option (Int × List Char)
  | '0' :: rest => some (0, rest)
  | '-' :: c :: rest =>
    if c = '0' then none
    else (scanDigitsIn 10 (c :: rest)).map fun (digits, after) =>
      (-(numberIn 10 digits : Int), after)
  | '+' :: c :: rest =>
    if c = '0' then none
    else (scanDigitsIn 10 (c :: rest)).map fun (digits, after) =>
      ((numberIn 10 digits : Int), after)
  | text => (scanDigitsIn 10 text).map fun (digits, after) => ((numberIn 10 digits : Int), after)

/-- The exponent at the start of a text, zero if there is none, and what follows it. A letter
without a complete exponent behind it is left where it is. -/
def scanExponent (text : List Char) : Int × List Char :=
  match text with
  | letter :: rest =>
    if letter = 'e' || letter = 'E' then (scanExponentValue rest).getD (0, text) else (0, text)
  | [] => (0, [])

/-- The decimal places of a unit of currency. -/
def unitScale? (name : String) : Option Nat :=
  match name with
  | "" | "wei" => some 0
  | "gwei" | "nano" | "nanoether" => some 9
  | "ether" => some 18
  | _ => none

/-- A product that fits 256 bits. -/
def fitting (n : Nat) : Option Nat := if n < Bytes.capacity 32 then some n else none

/-- A power of ten that fits 256 bits. -/
def powerOfTen? (exponent : Nat) : Option Nat :=
  if exponent ≤ 77 then some (Nat.pow 10 exponent) else none

/-- The value of a number with this integer part, fraction and scale. -/
def scaledValue? (integer : Nat) (fraction : Option (List Char)) (scale : Int) : Option Nat := do
  guard (0 ≤ scale)
  let scale := scale.toNat
  match fraction with
  | none => fitting (integer * (← powerOfTen? scale))
  | some digits =>
    let part ← fitting (numberIn 10 digits)
    guard (digits.length ≤ scale)
    let raised ← fitting (integer * (← powerOfTen? digits.length))
    let whole ← fitting (raised + part)
    fitting (whole * (← powerOfTen? (scale - digits.length)))

/-- An unsigned number of at most this many bits, and what follows it. -/
def scanUnsigned (bits : Nat) (text : List Char) : Option (Nat × List Char) := do
  let (integer, rest) ← scanNatural text
  let integer ← fitting integer
  let (fraction, rest) ← scanPoint rest
  let (exponent, rest) := scanExponent rest
  let rest := skipSpace rest
  let places ← unitScale? (String.ofList (rest.takeWhile Char.isAlpha))
  let value ← scaledValue? integer fraction (exponent + places)
  guard (value < Nat.pow 2 bits)
  return (value, rest.dropWhile Char.isAlpha)

/-- A signed number of this many bits, and what follows it. A number that is not negative has to
leave the sign bit free; the magnitude of a negative one has to fit the bits and the range of 256
bits, no more. -/
def scanSigned (bits : Nat) (text : List Char) : Option (Int × List Char) :=
  match text with
  | '-' :: rest => do
    let (magnitude, after) ← scanUnsigned bits rest
    guard (magnitude ≤ Nat.pow 2 255)
    return (-(magnitude : Int), after)
  | _ => do
    let rest := match text with
      | '+' :: rest => rest
      | rest => rest
    let (magnitude, after) ← scanUnsigned bits rest
    guard (magnitude < Nat.pow 2 (bits - 1))
    return ((magnitude : Int), after)

end ContractDeploy.Abi
