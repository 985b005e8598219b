import ContractDeploy.Hex
import ContractDeploy.Keccak

/-!
# Addresses

Two ways of writing and one way of making an address. The mixed-case form spells each letter in
upper case when the matching half-byte of the hash of the lower-case form is eight or more, so a
mistyped letter shows. The address of a created contract is the tail of the hash of the creator
and its nonce, in the length-prefixed encoding that transactions use.
-/

namespace ContractDeploy

namespace Rlp

/-- The bytes of a number without leading zeros; zero is the empty string. -/
def bytesOfNat (n : Nat) : Bytes :=
  if n = 0 then [] else bytesOfNat (n / 256) ++ [UInt8.ofNat (n % 256)]
termination_by n
decreasing_by omega

/-- The marker in front of a payload: one byte for a short payload, the length's own length and
the length for a long one. -/
def header (base : Nat) (length : Nat) : Bytes :=
  if length < 56 then [UInt8.ofNat (base + length)]
  else
    let size := bytesOfNat length
    UInt8.ofNat (base + 55 + size.length) :: size

/-- A byte string; a single byte below 128 stands for itself. -/
def encodeBytes (bytes : Bytes) : Bytes :=
  match bytes with
  | [b] => if b < 128 then [b] else header 128 1 ++ [b]
  | _ => header 128 bytes.length ++ bytes

/-- A list of items that are already encoded. -/
def encodeList (items : List Bytes) : Bytes :=
  let payload := items.flatten
  header 192 payload.length ++ payload

end Rlp

/-- The last twenty bytes of a hash. -/
def Hash.toAddress (hash : Hash) : Address where
  bytes := hash.bytes.drop 12
  length_bytes := by rw [List.length_drop, hash.length_bytes]

namespace Address

/-- The zero address, which stands for "not deployed". -/
def zero : Address := FixedBytes.zero

/-- The address of the contract that `creator` makes with its transaction number `nonce`. -/
def created (creator : Address) (nonce : Nat) : Address :=
  Hash.toAddress (keccak256 (Rlp.encodeList
    [Rlp.encodeBytes creator.bytes, Rlp.encodeBytes (Rlp.bytesOfNat nonce)]))

/-- The half-bytes of a byte string, the high one of each byte first. -/
def nibbles (bytes : Bytes) : List Nat :=
  bytes.flatMap fun b => [b.toNat / 16, b.toNat % 16]

/-- The digits of the mixed-case form. -/
def checksumDigits (address : Address) : List Char :=
  let lower := address.bytes.flatMap Hex.digits
  let hash := keccak256 (Bytes.ofString (String.ofList lower))
  List.zipWith (fun c weight => if 8 ≤ weight then c.toUpper else c) lower (nibbles hash.bytes)

/-- The mixed-case form behind `0x`, in which the case of the letters is a checksum. -/
def checksum (address : Address) : String := "0x" ++ String.ofList address.checksumDigits

end Address

end ContractDeploy
