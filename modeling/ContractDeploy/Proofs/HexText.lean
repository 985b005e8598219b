import ContractDeploy.Hex

/-!
# Reading back hexadecimal text

A byte string is read back from its hexadecimal form, with the size that it has. The reader works
on the UTF-8 bytes of the text; every character that is written is ASCII, so those bytes are the
character codes.
-/

namespace ContractDeploy

/-- The UTF-8 bytes of a text are those of its characters, one after the other. -/
theorem Bytes.ofString_ofList (chars : List Char) :
    Bytes.ofString (String.ofList chars) = chars.flatMap String.utf8EncodeChar := by
  simp [Bytes.ofString, List.utf8Encode]

theorem Bytes.ofString_append (a b : String) :
    Bytes.ofString (a ++ b) = Bytes.ofString a ++ Bytes.ofString b := by
  simp [Bytes.ofString]

namespace Hex

/-- The byte of a digit. -/
def digitByte (n : Nat) : UInt8 := UInt8.ofNat (digit n).toNat

/-- The bytes of the two digits of a byte. -/
def digitBytes (byte : UInt8) : Bytes :=
  [digitByte (byte.toNat / 16), digitByte (byte.toNat % 16)]

theorem utf8EncodeChar_digit : ∀ n, n < 16 →
    String.utf8EncodeChar (digit n) = [digitByte n] := by
  decide

theorem value?_digitByte : ∀ n, n < 16 → value? (digitByte n).toNat = some n := by
  decide

theorem high_lt (byte : UInt8) : byte.toNat / 16 < 16 := by
  have := byte.toNat_lt
  omega

theorem flatMap_digits (byte : UInt8) :
    (digits byte).flatMap String.utf8EncodeChar = digitBytes byte := by
  have hhigh := utf8EncodeChar_digit (byte.toNat / 16) (high_lt byte)
  have hlow := utf8EncodeChar_digit (byte.toNat % 16) (by omega)
  simp [digits, digitBytes, hhigh, hlow]

theorem ofString_encode (bytes : Bytes) :
    Bytes.ofString (encode bytes) = bytes.flatMap digitBytes := by
  simp only [encode, Bytes.ofString_ofList, List.flatMap_assoc, flatMap_digits]

/-- A byte string takes up two digits a byte. -/
theorem length_encode (bytes : Bytes) : (encode bytes).toList.length = 2 * bytes.length := by
  rw [encode, String.toList_ofList]
  induction bytes with
  | nil => rfl
  | cons byte bytes ih =>
    rw [List.flatMap_cons, List.length_append, ih, List.length_cons]
    show 2 + 2 * bytes.length = _
    omega

theorem length_flatMap_digitBytes (bytes : Bytes) :
    (bytes.flatMap digitBytes).length = 2 * bytes.length := by
  induction bytes with
  | nil => rfl
  | cons byte bytes ih =>
    simp [digitBytes, ih]
    omega

/-- Pairs of written digits are read as the bytes they were written from. -/
theorem decodePairs_digitBytes (bytes : Bytes) (position : Nat) :
    decodePairs position (bytes.flatMap digitBytes) = .ok bytes := by
  induction bytes generalizing position with
  | nil => rfl
  | cons byte bytes ih =>
    have hhigh := value?_digitByte (byte.toNat / 16) (high_lt byte)
    have hlow := value?_digitByte (byte.toNat % 16) (by omega)
    have hbyte : UInt8.ofNat (16 * (byte.toNat / 16) + byte.toNat % 16) = byte := by
      rw [Nat.div_add_mod, UInt8.ofNat_toNat]
    rw [List.flatMap_cons, digitBytes]
    simp only [List.cons_append, List.nil_append, decodePairs, hhigh, hlow, ih, hbyte]
    rfl

/-- A byte string of known size is read back from its form behind `0x`. -/
theorem decodeFixed_hex {n : Nat} (a : FixedBytes n) : decodeFixed n a.hex = .ok a := by
  have hraw : Bytes.ofString a.hex = 48 :: 120 :: a.bytes.flatMap digitBytes := by
    rw [FixedBytes.hex, encodePrefixed, Bytes.ofString_append, ofString_encode]
    rfl
  have hlength : (a.bytes.flatMap digitBytes).length = 2 * n := by
    rw [length_flatMap_digitBytes, a.length_bytes]
  have heven : (2 * n + 1 + 1) % 2 ≠ 1 := by omega
  simp [decodeFixed, hraw, dropMarker, hlength, heven, decodePairs_digitBytes]

end Hex

end ContractDeploy
