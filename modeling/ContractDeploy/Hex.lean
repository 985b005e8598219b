import ContractDeploy.Bytes

/-!
# Hexadecimal text

Byte strings are written in lower-case hexadecimal and read in either case, with an optional `0x`
in front. Reading works on the UTF-8 bytes of the text, since the position that an error reports
counts bytes. Main statement: what is written reads back, with the prefix and without.
-/

namespace ContractDeploy

namespace Hex

/-- Why a text is not the hexadecimal form of a byte string. -/
inductive Fault where
  /-- The text has an odd number of bytes. -/
  | oddLength
  /-- The number of digits is not the one that the size asks for. -/
  | wrongLength
  /-- The byte at `position`, counted after the prefix, is no digit. -/
  | badDigit (byte : UInt8) (position : Nat)
deriving DecidableEq

/-- The digit of a value below sixteen. -/
def digit (value : Nat) : Char :=
  Char.ofNat (if value < 10 then 48 + value else 87 + value)

/-- The value of a digit of either case, given by its character code. -/
def value? (code : Nat) : Option Nat :=
  if 48 ≤ code ∧ code ≤ 57 then some (code - 48)
  else if 97 ≤ code ∧ code ≤ 102 then some (code - 87)
  else if 65 ≤ code ∧ code ≤ 70 then some (code - 55)
  else none

/-- The two digits of a byte. -/
def digits (byte : UInt8) : List Char :=
  [digit (byte.toNat / 16), digit (byte.toNat % 16)]

/-- The digits of a byte string, two a byte, lower case. -/
def encode (bytes : Bytes) : String := String.ofList (bytes.flatMap digits)

/-- What hexadecimal text may begin with. -/
def marker : String := "0x"

/-- The digits of a byte string behind `0x`. -/
def encodePrefixed (bytes : Bytes) : String := marker ++ encode bytes

/-- Reads pairs of digits; `position` is where the remaining text starts. -/
def decodePairs (position : Nat) : List UInt8 → Except Fault Bytes
  | high :: low :: rest =>
    match value? high.toNat, value? low.toNat with
    | some h, some l => (decodePairs (position + 2) rest).map (UInt8.ofNat (16 * h + l) :: ·)
    | none, _ => .error (.badDigit high position)
    | some _, none => .error (.badDigit low (position + 1))
  | [_] => .error .oddLength
  | [] => .ok []

/-- The text without the `0x` that it may begin with. -/
def dropMarker : List UInt8 → List UInt8
  | 48 :: 120 :: rest => rest
  | text => text

/-- Reads a byte string of any size. -/
def decodeBytes (text : List UInt8) : Except Fault Bytes :=
  if text.length % 2 = 1 then .error .oddLength else decodePairs 0 (dropMarker text)

/-- Reads a byte string of any size. The length is judged first, then each digit in turn. -/
def decode (text : String) : Except Fault Bytes := decodeBytes (Bytes.ofString text)

/-- Reads a byte string of exactly `n` bytes. -/
def decodeFixed (n : Nat) (text : String) : Except Fault (FixedBytes n) :=
  let raw := Bytes.ofString text
  if raw.length % 2 = 1 then .error .oddLength
  else if (dropMarker raw).length ≠ 2 * n then .error .wrongLength
  else
    match decodePairs 0 (dropMarker raw) with
    | .error fault => .error fault
    | .ok bytes =>
      match FixedBytes.ofBytes? bytes with
      | some fixed => .ok fixed
      | none => .error .wrongLength

/-- A byte read as a Latin-1 character and quoted: control characters, spaces other than the
plain one and the invisible hyphen are written as escapes. -/
def quoteByte (byte : UInt8) : String :=
  let code := byte.toNat
  let shown :=
    if code = 0 then "\\0"
    else if code = 9 then "\\t"
    else if code = 10 then "\\n"
    else if code = 13 then "\\r"
    else if code = 39 then "\\\x27"
    else if code = 92 then "\\\\"
    else if code < 32 ∨ (127 ≤ code ∧ code ≤ 160) ∨ code = 173 then
      "\\u\x7b" ++ String.ofList (Nat.toDigits 16 code) ++ "\x7d"
    else String.singleton (Char.ofNat code)
  "\x27" ++ shown ++ "\x27"

/-- The sentence that names a fault. -/
def Fault.message : Fault → String
  | .oddLength => "odd number of digits"
  | .wrongLength => "invalid string length"
  | .badDigit byte position =>
    "invalid character " ++ quoteByte byte ++ " at position " ++ toString position

end Hex

/-- The lower-case hexadecimal form behind `0x`. -/
def FixedBytes.hex {n : Nat} (a : FixedBytes n) : String := Hex.encodePrefixed a.bytes

end ContractDeploy
