import ContractDeploy.Address
import ContractDeploy.Secp256k1

/-!
# Private keys

A private key is written as thirty-two bytes in hexadecimal and stands for a number between one
and the order of the curve's group. The address of its account is the tail of the hash of the two
coordinates of the public key.
-/

namespace ContractDeploy

/-- A private key. -/
structure PrivateKey where
  /-- The number that it stands for. -/
  value : Nat
  /-- It is not zero. -/
  pos : 0 < value
  /-- It is below the order of the group. -/
  lt_groupOrder : value < Secp256k1.groupOrder

namespace PrivateKey

/-- The key that a text spells. -/
def parse? (text : String) : Option PrivateKey :=
  match Hex.decodeFixed 32 text with
  | .error _ => none
  | .ok bytes =>
    if h : 0 < bytes.bytes.toNat ∧ bytes.bytes.toNat < Secp256k1.groupOrder then
      some ⟨bytes.bytes.toNat, h.1, h.2⟩
    else none

/-- The public key, as the bytes of its coordinates. -/
def publicBytes (key : PrivateKey) : Bytes :=
  match Secp256k1.generator.multiple key.value with
  | .neutral => []
  | .affine x y => Bytes.ofNat 32 x ++ Bytes.ofNat 32 y

/-- The address of the key's account. -/
def address (key : PrivateKey) : Address := Hash.toAddress (keccak256 key.publicBytes)

end PrivateKey

end ContractDeploy
