import ContractDeploy.Abi.Calldata
import ContractDeploy.Proofs.HexText
import Mathlib.Data.List.Basic
import Mathlib.Data.List.TakeWhile

/-!
# Reading digits of either case

Digits are written in lower case and read in either. What pairs of digits denote is said here for
each pair on its own, without regard to the others (`Hex.pairAt?`), and the reader is shown to read
any even number of digits to just that. Addresses are handed to constructors in the form that mixes
both cases; an argument in that form is read as the address that it was written from.
-/

namespace ContractDeploy

/-! ## The bytes of a text -/

/-- The bytes of a text. -/
def textBytes (text : List Char) : Bytes := text.flatMap String.utf8EncodeChar

theorem Bytes.ofString_eq_textBytes (text : String) :
    Bytes.ofString text = textBytes text.toList := by
  have h := Bytes.ofString_ofList text.toList
  rwa [String.ofList_toList] at h

theorem textBytes_append (front back : List Char) :
    textBytes (front ++ back) = textBytes front ++ textBytes back := by
  unfold textBytes
  exact List.flatMap_append

theorem length_textBytes_cons (c : Char) (text : List Char) :
    (textBytes (c :: text)).length = c.utf8Size + (textBytes text).length := by
  unfold textBytes
  rw [List.flatMap_cons, List.length_append, String.length_utf8EncodeChar]

theorem eq_nil_of_length_textBytes {text : List Char} (h : (textBytes text).length = 0) :
    text = [] := by
  cases text with
  | nil => rfl
  | cons c text =>
    have hsize := c.utf8Size_pos
    rw [length_textBytes_cons] at h
    omega

/-! ## Reading digits -/

namespace Hex

/-- The byte that the `k`-th pair of digits denotes. -/
def pairAt? (digits : Bytes) (k : Nat) : Option UInt8 := do
  let high ← digits[2 * k]?
  let low ← digits[2 * k + 1]?
  let h ← value? high.toNat
  let l ← value? low.toNat
  return UInt8.ofNat (16 * h + l)

/-- Every byte of a text is a digit, of either case. -/
def AllDigits (digits : Bytes) : Prop := ∀ byte ∈ digits, (value? byte.toNat).isSome

theorem pairAt?_cons_zero {high low : UInt8} {h l : Nat} (digits : Bytes)
    (hhigh : value? high.toNat = some h) (hlow : value? low.toNat = some l) :
    pairAt? (high :: low :: digits) 0 = some (UInt8.ofNat (16 * h + l)) := by
  unfold pairAt?
  show (do
    let h ← value? high.toNat
    let l ← value? low.toNat
    pure (UInt8.ofNat (16 * h + l))) = _
  rw [hhigh, hlow]
  rfl

theorem pairAt?_cons_succ (high low : UInt8) (digits : Bytes) (k : Nat) :
    pairAt? (high :: low :: digits) (k + 1) = pairAt? digits k := by
  unfold pairAt?
  have hhigh : (high :: low :: digits)[2 * (k + 1)]? = digits[2 * k]? := by
    rw [Nat.mul_succ, List.getElem?_cons_succ, List.getElem?_cons_succ]
  have hlow : (high :: low :: digits)[2 * (k + 1) + 1]? = digits[2 * k + 1]? := by
    rw [Nat.mul_succ, Nat.add_right_comm, List.getElem?_cons_succ, List.getElem?_cons_succ]
  rw [hhigh, hlow]

/-- A pair is decided by its own two digits. -/
theorem pairAt?_congr {digits others : Bytes} {j k : Nat}
    (hhigh : digits[2 * j]? = others[2 * k]?) (hlow : digits[2 * j + 1]? = others[2 * k + 1]?) :
    pairAt? digits j = pairAt? others k := by
  unfold pairAt?
  rw [hhigh, hlow]

/-- An even number of digits is read, and what is read holds the bytes that the pairs denote. -/
theorem decodePairs_of_allDigits {digits : Bytes} {n : Nat} (hdigits : AllDigits digits)
    (hlength : digits.length = 2 * n) (position : Nat) :
    ∃ bytes, decodePairs position digits = .ok bytes ∧ bytes.length = n ∧
      ∀ k, bytes[k]? = pairAt? digits k := by
  induction n generalizing digits position with
  | zero =>
    obtain rfl := List.eq_nil_of_length_eq_zero hlength
    exact ⟨[], rfl, rfl, fun _ => rfl⟩
  | succ n ih =>
    match digits, hlength with
    | high :: low :: rest, hlength =>
      obtain ⟨hhigh, hlow, hrest⟩ : _ ∧ _ ∧ AllDigits rest := by
        simpa only [AllDigits, List.forall_mem_cons] using hdigits
      obtain ⟨h, hhigh⟩ := Option.isSome_iff_exists.1 hhigh
      obtain ⟨l, hlow⟩ := Option.isSome_iff_exists.1 hlow
      have hcount : rest.length = 2 * n := by
        rw [List.length_cons, List.length_cons] at hlength
        omega
      obtain ⟨bytes, hread, hsize, hpairs⟩ := ih hrest hcount (position + 2)
      refine ⟨UInt8.ofNat (16 * h + l) :: bytes, ?_, ?_, ?_⟩
      · rw [decodePairs, hhigh, hlow]
        simp only [hread]
        rfl
      · rw [List.length_cons, hsize]
      · intro k
        cases k with
        | zero => rw [pairAt?_cons_zero rest hhigh hlow, List.getElem?_cons_zero]
        | succ k => rw [pairAt?_cons_succ, List.getElem?_cons_succ, hpairs]

theorem allDigits_digitBytes (bytes : Bytes) : AllDigits (bytes.flatMap digitBytes) := by
  intro digit hdigit
  obtain ⟨byte, -, hdigit⟩ := List.mem_flatMap.1 hdigit
  rcases List.mem_pair.1 hdigit with rfl | rfl
  · rw [value?_digitByte _ (high_lt byte)]
    rfl
  · rw [value?_digitByte _ (Nat.mod_lt _ (by decide))]
    rfl

/-- The digits of a byte string denote it. -/
theorem pairAt?_digitBytes (bytes : Bytes) (k : Nat) :
    pairAt? (bytes.flatMap digitBytes) k = bytes[k]? := by
  obtain ⟨others, hread, -, hpairs⟩ := decodePairs_of_allDigits (allDigits_digitBytes bytes)
    (length_flatMap_digitBytes bytes) 0
  rw [decodePairs_digitBytes] at hread
  cases hread
  exact (hpairs k).symm

/-- There is no marker in front of digits. -/
theorem dropMarker_of_allDigits {digits : Bytes} (h : AllDigits digits) :
    dropMarker digits = digits := by
  unfold dropMarker
  split
  · have hx := h 120 (List.mem_cons_of_mem _ List.mem_cons_self)
    exact absurd hx (by decide)
  · rfl

end Hex

/-! ## Addresses as arguments -/

namespace Hex

/-- A digit in the case that a weight asks for. -/
def cased (c : Char) (weight : Nat) : Char := if 8 ≤ weight then c.toUpper else c

/-- Either case of a digit has its value and is one byte. -/
theorem cased_digit {n : Nat} (hn : n < 16) (weight : Nat) :
    value? (cased (digit n) weight).toNat = some n ∧
      String.utf8EncodeChar (cased (digit n) weight) =
        [UInt8.ofNat (cased (digit n) weight).toNat] ∧
      value? (UInt8.ofNat (cased (digit n) weight).toNat).toNat = some n := by
  have hupper : ∀ n, n < 16 → value? (digit n).toUpper.toNat = some n ∧
      String.utf8EncodeChar (digit n).toUpper = [UInt8.ofNat (digit n).toUpper.toNat] ∧
      value? (UInt8.ofNat (digit n).toUpper.toNat).toNat = some n := by
    decide
  have hlower : ∀ n, n < 16 → value? (digit n).toNat = some n ∧
      String.utf8EncodeChar (digit n) = [UInt8.ofNat (digit n).toNat] ∧
      value? (UInt8.ofNat (digit n).toNat).toNat = some n := by
    decide
  unfold cased
  by_cases hweight : 8 ≤ weight
  · rw [if_pos hweight]
    exact hupper n hn
  · rw [if_neg hweight]
    exact hlower n hn

/-- Whatever case each digit of a byte string is in, they are digits, and they are read as the bytes
that they were written from. -/
theorem decodePairs_cased (bytes : Bytes) {weights : List Nat}
    (hweights : 2 * bytes.length ≤ weights.length) (position : Nat) :
    let chars := List.zipWith cased (bytes.flatMap digits) weights
    (∀ c ∈ chars, (value? c.toNat).isSome) ∧ AllDigits (textBytes chars) ∧
      (textBytes chars).length = 2 * bytes.length ∧
      decodePairs position (textBytes chars) = .ok bytes := by
  induction bytes generalizing weights position with
  | nil => exact ⟨List.forall_mem_nil _, List.forall_mem_nil _, rfl, rfl⟩
  | cons byte bytes ih =>
    match weights, hweights with
    | first :: second :: weights, hweights =>
      have hrest : 2 * bytes.length ≤ weights.length := by
        rw [List.length_cons, List.length_cons, List.length_cons] at hweights
        omega
      obtain ⟨hvalues, hdigits, hlength, hread⟩ := ih hrest (position + 2)
      obtain ⟨hhigh, hhighByte, hhighValue⟩ := cased_digit (high_lt byte) first
      obtain ⟨hlow, hlowByte, hlowValue⟩ :=
        cased_digit (Nat.mod_lt byte.toNat (by decide : 16 > 0)) second
      have hchars : List.zipWith cased ((byte :: bytes).flatMap digits)
          (first :: second :: weights) =
          cased (digit (byte.toNat / 16)) first :: cased (digit (byte.toNat % 16)) second ::
            List.zipWith cased (bytes.flatMap digits) weights := rfl
      have htext : textBytes (List.zipWith cased ((byte :: bytes).flatMap digits)
          (first :: second :: weights)) =
          UInt8.ofNat (cased (digit (byte.toNat / 16)) first).toNat ::
            UInt8.ofNat (cased (digit (byte.toNat % 16)) second).toNat ::
            textBytes (List.zipWith cased (bytes.flatMap digits) weights) := by
        rw [hchars]
        unfold textBytes
        rw [List.flatMap_cons, List.flatMap_cons, hhighByte, hlowByte]
        rfl
      have hbyte : UInt8.ofNat (16 * (byte.toNat / 16) + byte.toNat % 16) = byte := by
        rw [Nat.div_add_mod, UInt8.ofNat_toNat]
      refine ⟨?_, ?_, ?_, ?_⟩
      · rw [hchars]
        refine List.forall_mem_cons.2 ⟨?_, List.forall_mem_cons.2 ⟨?_, hvalues⟩⟩
        · rw [hhigh]
          rfl
        · rw [hlow]
          rfl
      · rw [htext]
        refine List.forall_mem_cons.2 ⟨?_, List.forall_mem_cons.2 ⟨?_, hdigits⟩⟩
        · rw [hhighValue]
          rfl
        · rw [hlowValue]
          rfl
      · rw [htext, List.length_cons, List.length_cons, List.length_cons, hlength]
        omega
      · rw [htext, decodePairs, hhighValue, hlowValue]
        simp only [hread, hbyte]
        rfl

end Hex

namespace Abi

/-- A byte string behind `0x`, whatever case each digit is in, is read up to its end. -/
theorem scanBytes_cased (bytes : Bytes) {weights : List Nat}
    (hweights : 2 * bytes.length ≤ weights.length) :
    scanBytes ('0' :: 'x' :: List.zipWith Hex.cased (bytes.flatMap Hex.digits) weights) =
      some (bytes, []) := by
  obtain ⟨hvalues, hall, hlength, hread⟩ := Hex.decodePairs_cased bytes hweights 0
  generalize List.zipWith Hex.cased (bytes.flatMap Hex.digits) weights = digits at *
  have htake : digits.takeWhile (fun c => (Hex.value? c.toNat).isSome) = digits := by
    rw [List.takeWhile_eq_self_iff]
    exact hvalues
  have hdrop : digits.dropWhile (fun c => (Hex.value? c.toNat).isSome) = [] := by
    rw [List.dropWhile_eq_nil_iff]
    exact hvalues
  have hdecode : Hex.decode (String.ofList digits) = .ok bytes := by
    have heven : ¬ (textBytes digits).length % 2 = 1 := by
      rw [hlength]
      omega
    rw [Hex.decode, Bytes.ofString_ofList]
    show Hex.decodeBytes (textBytes digits) = _
    rw [Hex.decodeBytes, if_neg heven, Hex.dropMarker_of_allDigits hall, hread]
  rw [scanBytes]
  simp only [dropMarker, htake, hdrop, hdecode]
  rfl

/-- A byte string of any length is read from its form behind `0x`. -/
theorem readValue?_encodePrefixed (bytes : Bytes) :
    readValue? .bytes (Hex.encodePrefixed bytes) = some (.bytes bytes) := by
  -- The digits are written in lower case, which is what the weight zero asks for.
  have hplain : ∀ digits : List Char,
      List.zipWith Hex.cased digits (List.replicate digits.length 0) = digits := by
    intro digits
    induction digits with
    | nil => rfl
    | cons digit digits ih =>
      rw [List.length_cons, List.replicate_succ, List.zipWith_cons_cons, ih]
      rfl
  have hdigits : (Hex.encode bytes).toList = bytes.flatMap Hex.digits := String.toList_ofList
  have hlength := Hex.length_encode bytes
  rw [hdigits] at hlength
  have hscan := scanBytes_cased bytes (Nat.le_of_eq
    (hlength.symm.trans (List.length_replicate (n := (bytes.flatMap Hex.digits).length)
      (a := 0)).symm))
  rw [hplain] at hscan
  have htext : (Hex.encodePrefixed bytes).toList = '0' :: 'x' :: bytes.flatMap Hex.digits := by
    rw [Hex.encodePrefixed, String.toList_append, hdigits]
    rfl
  have hvalue : scanValue .bytes listNesting none (Hex.encodePrefixed bytes).toList =
      some (.bytes bytes, []) := by
    show (scanBytes (Hex.encodePrefixed bytes).toList).map _ = _
    rw [htext, hscan]
    rfl
  rw [readValue?, hvalue]

end Abi

/-- There is a half-byte of the hash for every digit of an address. -/
theorem Address.length_nibbles (bytes : Bytes) : (nibbles bytes).length = 2 * bytes.length := by
  unfold nibbles
  induction bytes with
  | nil => rfl
  | cons byte bytes ih =>
    rw [List.flatMap_cons, List.length_append, ih]
    show 2 + 2 * bytes.length = 2 * (bytes.length + 1)
    omega

/-- An address is read back from its mixed-case form. -/
theorem Abi.readValue?_checksum (address : Address) :
    readValue? .address address.checksum = some (.address address) := by
  obtain ⟨weights, hweights, hdigits⟩ : ∃ weights : List Nat,
      2 * address.bytes.length ≤ weights.length ∧
      address.checksumDigits =
        List.zipWith Hex.cased (address.bytes.flatMap Hex.digits) weights := by
    refine ⟨_, ?_, rfl⟩
    rw [Address.length_nibbles, address.length_bytes, FixedBytes.length_bytes]
    decide
  have htext : address.checksum.toList = '0' :: 'x' :: address.checksumDigits := by
    rw [Address.checksum, String.toList_append]
    exact congrArg ('0' :: 'x' :: ·) String.toList_ofList
  have hfixed : scanFixedBytes 20 address.checksum.toList = some (address.bytes, []) := by
    have hguard : (guard (address.bytes.length = 20) : Option Unit) = some () :=
      if_pos address.length_bytes
    rw [scanFixedBytes, htext, hdigits, scanBytes_cased address.bytes hweights]
    exact congrArg (fun passed : Option Unit => passed >>= fun _ => some (address.bytes, []))
      hguard
  have hvalue : scanValue .address listNesting none address.checksum.toList =
      some (.address address, []) := by
    show ((scanFixedBytes 20 address.checksum.toList).bind fun parts =>
      (FixedBytes.ofBytes? parts.1).bind fun address =>
        some (AbiValue.address address, parts.2)) = _
    rw [hfixed, Option.bind_some, FixedBytes.ofBytes?_bytes]
    rfl
  rw [readValue?, hvalue]

end ContractDeploy
