/-!
# Byte strings

Code, call data, addresses and hashes are all finite sequences of bytes. They are lists here, so
that what is said about them is said by list induction. Two views tie them to numbers: the
big-endian digits of a number in a fixed width, and the number that a byte string denotes. Main
statement: the number survives the trip through its digits whenever the width can hold it.
-/

namespace ContractDeploy

/-- A finite sequence of bytes. -/
abbrev Bytes := List UInt8

namespace Bytes

/-- The last `width` base-256 digits of `n`, most significant first. -/
def ofNat : (width : Nat) → (n : Nat) → Bytes
  | 0, _ => []
  | width + 1, n => ofNat width (n / 256) ++ [UInt8.ofNat (n % 256)]

/-- The number whose base-256 digits, most significant first, are these bytes. -/
def toNat (bytes : Bytes) : Nat :=
  bytes.foldl (fun n b => n * 256 + b.toNat) 0

/-- `n` zero bytes. -/
def zeros (n : Nat) : Bytes := List.replicate n 0

/-- The bytes of a text in UTF-8. -/
def ofString (text : String) : Bytes := text.toUTF8.data.toList

/-- How many numbers this many bytes have room for. -/
def capacity : (width : Nat) → Nat
  | 0 => 1
  | width + 1 => 256 * capacity width

/-- The text that these bytes spell in UTF-8, if they spell one. -/
def toString? (bytes : Bytes) : Option String := String.fromUTF8? ⟨bytes.toArray⟩

@[simp] theorem length_zeros (n : Nat) : (zeros n).length = n := by simp [zeros]

@[simp] theorem length_ofNat (width n : Nat) : (ofNat width n).length = width := by
  induction width generalizing n with
  | zero => rfl
  | succ width ih => simp [ofNat, ih]

theorem toNat_append_singleton (bytes : Bytes) (b : UInt8) :
    toNat (bytes ++ [b]) = toNat bytes * 256 + b.toNat := by
  simp [toNat]

/-- A number that `width` bytes have room for is the one that its `width` digits denote. -/
theorem toNat_ofNat {width n : Nat} (h : n < capacity width) : toNat (ofNat width n) = n := by
  induction width generalizing n with
  | zero =>
    have : n = 0 := by simpa [capacity] using h
    subst this
    rfl
  | succ width ih =>
    have hdiv : n / 256 < capacity width := Nat.div_lt_of_lt_mul h
    have hmod : (UInt8.ofNat (n % 256)).toNat = n % 256 := by
      simp
    rw [ofNat, toNat_append_singleton, ih hdiv, hmod]
    omega

end Bytes

/-- A byte string of exactly `n` bytes. -/
structure FixedBytes (n : Nat) where
  /-- The bytes themselves. -/
  bytes : Bytes
  /-- There are `n` of them. -/
  length_bytes : bytes.length = n
deriving DecidableEq

namespace FixedBytes

variable {n : Nat}

/-- Two byte strings of one size are equal when their bytes are. -/
theorem ext {a b : FixedBytes n} (h : a.bytes = b.bytes) : a = b := by
  cases a
  cases b
  simp_all

/-- The byte string made of these bytes, if there are `n` of them. -/
def ofBytes? (bytes : Bytes) : Option (FixedBytes n) :=
  if h : bytes.length = n then some ⟨bytes, h⟩ else none

/-- The byte string whose big-endian value is `value`, reduced to `n` bytes. -/
def ofNat (value : Nat) : FixedBytes n := ⟨Bytes.ofNat n value, Bytes.length_ofNat n value⟩

/-- `n` zero bytes. -/
def zero : FixedBytes n := ⟨Bytes.zeros n, Bytes.length_zeros n⟩

/-- Whether every byte is zero. -/
def isZero (a : FixedBytes n) : Bool := a = zero

instance : Inhabited (FixedBytes n) := ⟨zero⟩

@[simp] theorem ofBytes?_bytes (a : FixedBytes n) : ofBytes? a.bytes = some a := by
  simp [ofBytes?, a.length_bytes]

@[simp] theorem isZero_zero : (zero : FixedBytes n).isZero = true := by simp [isZero]

theorem isZero_iff (a : FixedBytes n) : a.isZero = true ↔ a = zero := by simp [isZero]

end FixedBytes

/-- The address of an account. -/
abbrev Address := FixedBytes 20

/-- A 256-bit hash, of code or of a transaction. -/
abbrev Hash := FixedBytes 32

end ContractDeploy
