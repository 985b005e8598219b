import ContractDeploy.Abi.Encode
import Mathlib.Data.List.Forall2

/-!
# Reading the contract ABI encoding back

How a contract reads its arguments: type by type, following the offsets in the heads to the tails.
Integers are read as whole words, whatever their type's width. What was encoded is read back as it
was, wherever it stands and whatever follows it, as long as offsets and lengths fit a word. The
values of a sequence need not be of one kind: one lemma about slots serves arguments, tuples and
arrays alike.
-/

namespace ContractDeploy

namespace Abi

/-! ## The decoder -/

/-- The number in the word at the start of some bytes. -/
def readWord? (bytes : Bytes) : Option Nat :=
  if 32 ≤ bytes.length then some (Bytes.toNat (bytes.take 32)) else none

/-- The signed number that a word stands for in two's complement. -/
def signedOf (n : Nat) : Int :=
  if n < Nat.pow 2 255 then (n : Int) else (n : Int) - (Bytes.capacity 32 : Int)

/-- The bytes behind their number. -/
def readCounted? (bytes : Bytes) : Option Bytes :=
  (readWord? bytes).bind fun count =>
    if count ≤ (bytes.drop 32).length then some ((bytes.drop 32).take count) else none

/-- The truth value that a number stands for. -/
def boolOf? : Nat → Option Bool
  | 0 => some false
  | 1 => some true
  | _ => none

/-- The address at the end of the word at the start of some bytes. -/
def readAddress? (bytes : Bytes) : Option Address := FixedBytes.ofBytes? ((bytes.take 32).drop 12)

/-- This many bytes at the start of a word. -/
def readFixed? (size : Nat) (bytes : Bytes) : Option Bytes :=
  if 32 ≤ bytes.length then some (bytes.take size) else none

/-- How a value in a sequence is read. -/
structure Slot where
  /-- Whether the value stands in the tail, with its offset in the head. -/
  isDynamic : Bool
  /-- The bytes that it takes up in the head. -/
  headSize : Nat
  /-- The value at the start of some bytes. -/
  read : Bytes → Option AbiValue

/-- The slot of a value that takes up one word. -/
def Slot.ofWord (read : Bytes → Option AbiValue) : Slot := ⟨false, 32, read⟩

/-- The slot of a value in the tail. -/
def Slot.ofTail (read : Bytes → Option AbiValue) : Slot := ⟨true, 32, read⟩

/-- The value of a slot in a sequence that begins with `base`; `head` is the head from the slot
on. -/
def Slot.readAt (slot : Slot) (base head : Bytes) : Option AbiValue :=
  if slot.isDynamic then (readWord? head).bind fun offset => slot.read (base.drop offset)
  else slot.read head

/-- The values of slots in a sequence that begins with `base`; `head` is the head from the first
of them on. -/
def readSlots (base : Bytes) : List Slot → Bytes → Option (List AbiValue)
  | [], _ => some []
  | slot :: slots, head => do
    let value ← slot.readAt base head
    let values ← readSlots base slots (head.drop slot.headSize)
    return value :: values

/-- The values of a sequence at the start of some bytes. -/
def readSequence (slots : List Slot) (bytes : Bytes) : Option (List AbiValue) :=
  readSlots bytes slots bytes

/-- The bytes that the heads of slots take up. -/
def slotsSize : List Slot → Nat
  | [] => 0
  | slot :: slots => slot.headSize + slotsSize slots

/-- The slot of a value that is a sequence. It stands in the tail if one of its members does. -/
def Slot.ofSequence (make : List AbiValue → AbiValue) (slots : List Slot) : Slot where
  isDynamic := slots.any (·.isDynamic)
  headSize := if slots.any (·.isDynamic) then 32 else slotsSize slots
  read bytes := (readSequence slots bytes).map make

end Abi

open Abi

mutual

/-- How a value of a type is read. -/
def AbiType.slot : AbiType → Slot
  | .uint _ => .ofWord fun bytes => (readWord? bytes).map .uint
  | .int _ => .ofWord fun bytes => (readWord? bytes).map fun n => .int (signedOf n)
  | .bool => .ofWord fun bytes => ((readWord? bytes).bind boolOf?).map .bool
  | .address => .ofWord fun bytes => (readAddress? bytes).map .address
  | .function => .ofWord fun bytes => (readFixed? 24 bytes).map .fixedBytes
  | .fixedBytes size => .ofWord fun bytes => (readFixed? size bytes).map .fixedBytes
  | .bytes => .ofTail fun bytes => (readCounted? bytes).map .bytes
  | .string => .ofTail fun bytes => ((readCounted? bytes).bind Bytes.toString?).map .string
  | .array element => .ofTail fun bytes => (readWord? bytes).bind fun count =>
    (readSequence (List.replicate count element.slot) (bytes.drop 32)).map .array
  | .fixedArray element length => .ofSequence .fixedArray (List.replicate length element.slot)
  | .tuple members => .ofSequence .tuple (slots members)

/-- How values of types are read, one of each. -/
def slots : List AbiType → List Slot
  | [] => []
  | type :: types => type.slot :: slots types

end

/-- The arguments that a contract whose parameters are of these types reads. -/
def decodeArguments (types : List AbiType) (bytes : Bytes) : Option (List AbiValue) :=
  readSequence (slots types) bytes

/-! ## The values of a type -/

mutual

/-- A value is one of a type, as far as its encoding tells. The width of an integer type is not
part of that. -/
inductive AbiType.Admits : AbiType → AbiValue → Prop
  | uint {bits n : Nat} (hword : n < Bytes.capacity 32) : AbiType.Admits (.uint bits) (.uint n)
  | int {bits : Nat} {n : Int} (hlow : -(Nat.pow 2 255 : Int) ≤ n) (hhigh : n < Nat.pow 2 255) :
      AbiType.Admits (.int bits) (.int n)
  | bool (value : Bool) : AbiType.Admits .bool (.bool value)
  | address (value : Address) : AbiType.Admits .address (.address value)
  | function {value : Bytes} (hlength : value.length = 24) :
      AbiType.Admits .function (.fixedBytes value)
  | fixedBytes {size : Nat} {value : Bytes} (hlength : value.length = size) (hpos : 0 < size)
      (hword : size ≤ 32) :
      AbiType.Admits (.fixedBytes size) (.fixedBytes value)
  | bytes (value : Bytes) : AbiType.Admits .bytes (.bytes value)
  | string (value : String) : AbiType.Admits .string (.string value)
  | array {element : AbiType} {elements : List AbiValue}
      (helements : ∀ value ∈ elements, AbiType.Admits element value) :
      AbiType.Admits (.array element) (.array elements)
  | fixedArray {element : AbiType} {length : Nat} {elements : List AbiValue}
      (hlength : elements.length = length)
      (helements : ∀ value ∈ elements, AbiType.Admits element value) :
      AbiType.Admits (.fixedArray element length) (.fixedArray elements)
  | tuple {types : List AbiType} {values : List AbiValue} (hmembers : AllAdmit types values) :
      AbiType.Admits (.tuple types) (.tuple values)

/-- Each of several values is one of its type. -/
inductive AllAdmit : List AbiType → List AbiValue → Prop
  | nil : AllAdmit [] []
  | cons {type : AbiType} {value : AbiValue} {types : List AbiType} {values : List AbiValue}
      (hvalue : type.Admits value) (hvalues : AllAdmit types values) :
      AllAdmit (type :: types) (value :: values)

end

/-! ## How much room values take -/

mutual

/-- A bound on the bytes of a value's encoding, its offset included, that also counts the elements
of lists. -/
def AbiValue.weight : AbiValue → Nat
  | .fixedBytes value => 64 + value.length
  | .bytes value => 96 + value.length
  | .string value => 96 + (Bytes.ofString value).length
  | .array elements => 96 + weights elements
  | .fixedArray elements => 32 + weights elements
  | .tuple members => 32 + weights members
  | _ => 64

/-- The bounds of several values together. -/
def weights : List AbiValue → Nat
  | [] => 0
  | value :: values => value.weight + weights values

end

namespace Abi

@[simp] theorem length_word (n : Nat) : (word n).length = 32 := Bytes.length_ofNat 32 n

@[simp] theorem length_padding (length : Nat) : (padding length).length = (32 - length % 32) % 32 :=
  Bytes.length_zeros _

theorem length_heads (offset : Nat) (parts : List Part) :
    (heads offset parts).length = headsSize parts := by
  induction parts generalizing offset with
  | nil => rfl
  | cons part parts ih =>
    rw [heads, headsSize, Part.headSize]
    split <;> simp [ih]

theorem length_layOut (parts : List Part) :
    (layOut parts).length = headsSize parts + (tails parts).length := by
  rw [layOut, List.length_append, length_heads]

end Abi

mutual

theorem AbiValue.length_encode_le : ∀ value : AbiValue, 32 + value.encode.length ≤ value.weight
  | .uint n => by simp [AbiValue.encode, AbiValue.weight]
  | .int n => by simp [AbiValue.encode, AbiValue.weight, signedWord]
  | .bool b => by simp [AbiValue.encode, AbiValue.weight]
  | .address a => by simp [AbiValue.encode, AbiValue.weight, a.length_bytes]
  | .fixedBytes b => by
    simp only [AbiValue.encode, AbiValue.weight, List.length_append, length_padding]
    omega
  | .bytes b => by
    simp only [AbiValue.encode, AbiValue.weight, counted, List.length_append, length_word,
      length_padding]
    omega
  | .string s => by
    simp only [AbiValue.encode, AbiValue.weight, counted, List.length_append, length_word,
      length_padding]
    omega
  | .array elements => by
    have hlayOut := length_layOut_le elements
    simp only [AbiValue.encode, AbiValue.weight, List.length_append, length_word]
    omega
  | .fixedArray elements => by
    have hlayOut := length_layOut_le elements
    simp only [AbiValue.encode, AbiValue.weight]
    omega
  | .tuple members => by
    have hlayOut := length_layOut_le members
    simp only [AbiValue.encode, AbiValue.weight]
    omega

/-- The layout of values is no longer than their bounds together. -/
theorem length_layOut_le : ∀ values : List AbiValue, (layOut (parts values)).length ≤ weights values
  | [] => Nat.zero_le _
  | value :: values => by
    have hvalue := value.length_encode_le
    have hvalues := length_layOut_le values
    rw [length_layOut] at hvalues ⊢
    rw [parts, headsSize, tails, weights, Part.headSize]
    split
    · rw [List.length_append]
      show 32 + _ + (value.encode.length + _) ≤ _
      omega
    · show value.encode.length + _ + _ ≤ _
      omega

end

theorem length_le_weights : ∀ values : List AbiValue, values.length ≤ weights values
  | [] => Nat.le_refl 0
  | value :: values => by
    have hvalue := value.length_encode_le
    have hvalues := length_le_weights values
    rw [weights, List.length_cons]
    omega

theorem weight_le_weights {value : AbiValue} {values : List AbiValue} (h : value ∈ values) :
    value.weight ≤ weights values := by
  induction values with
  | nil => cases h
  | cons first values ih =>
    rw [weights]
    rcases List.mem_cons.1 h with rfl | hmem
    · exact Nat.le_add_right _ _
    · exact Nat.le_trans (ih hmem) (Nat.le_add_left _ _)

/-! ## What is encoded is read back -/

namespace Abi

theorem capacity_word : Bytes.capacity 32 = 2 * Nat.pow 2 255 := by decide

section Words

variable {n : Nat} {bytes rest : Bytes}

theorem readWord?_word (h : n < Bytes.capacity 32) : readWord? (word n ++ rest) = some n := by
  have hlength : 32 ≤ (word n ++ rest).length := by
    rw [List.length_append, length_word]
    omega
  rw [readWord?, if_pos hlength, List.take_left' (length_word n), word, Bytes.toNat_ofNat h]

theorem drop_word : (word n ++ rest).drop 32 = rest := List.drop_left' (length_word n)

theorem signedOf_mod {n : Int} (hlow : -(Nat.pow 2 255 : Int) ≤ n) (hhigh : n < Nat.pow 2 255) :
    signedOf (n % (Bytes.capacity 32 : Int)).toNat = n := by
  have hcapacity := capacity_word
  unfold signedOf
  rcases Int.lt_or_le n 0 with hneg | hpos
  · have hmod : n % (Bytes.capacity 32 : Int) = n + Bytes.capacity 32 := by
      rw [Int.emod_eq_add_self_emod, Int.emod_eq_of_lt (by omega) (by omega)]
    rw [hmod, if_neg (by omega)]
    omega
  · rw [Int.emod_eq_of_lt hpos (by omega), if_pos (by omega)]
    exact Int.toNat_of_nonneg hpos

/-- A signed number of 256 bits is read back from its two's complement. -/
theorem readWord?_signedWord {n : Int} (hlow : -(Nat.pow 2 255 : Int) ≤ n)
    (hhigh : n < Nat.pow 2 255) :
    (readWord? (signedWord n ++ rest)).map signedOf = some n := by
  have hcapacity := capacity_word
  have hpos : (0 : Int) < Bytes.capacity 32 := by omega
  have hmod := Int.emod_lt_of_pos n hpos
  rw [signedWord, readWord?_word (by omega), Option.map_some, signedOf_mod hlow hhigh]

theorem readCounted?_counted (h : bytes.length < Bytes.capacity 32) :
    readCounted? (counted bytes ++ rest) = some bytes := by
  have hcounted : counted bytes ++ rest =
      word bytes.length ++ (bytes ++ (padding bytes.length ++ rest)) := by
    simp [counted]
  have hlength : bytes.length ≤ (bytes ++ (padding bytes.length ++ rest)).length := by
    rw [List.length_append]
    omega
  rw [hcounted, readCounted?, readWord?_word h, Option.bind_some, drop_word, if_pos hlength,
    List.take_left]

theorem readFixed?_padded {size : Nat} (hlength : bytes.length = size) (hpos : 0 < size)
    (hword : size ≤ 32) :
    readFixed? size (bytes ++ padding size ++ rest) = some bytes := by
  have htotal : 32 ≤ (bytes ++ padding size ++ rest).length := by
    simp only [List.length_append, length_padding]
    omega
  rw [readFixed?, if_pos htotal, List.append_assoc, List.take_left' hlength]

theorem readAddress?_padded (address : Address) :
    readAddress? (Bytes.zeros 12 ++ address.bytes ++ rest) = some address := by
  have hlength : (Bytes.zeros 12 ++ address.bytes).length = 32 := by
    rw [List.length_append, Bytes.length_zeros, address.length_bytes]
  rw [readAddress?, List.take_left' hlength, List.drop_left' (Bytes.length_zeros 12),
    FixedBytes.ofBytes?_bytes]

end Words

end Abi

theorem Bytes.toString?_ofString (text : String) : toString? (ofString text) = some text := by
  unfold toString? ofString String.fromUTF8?
  rw [dif_pos (by simpa using text.isValidUTF8)]
  rfl

namespace Abi

/-- A slot reads a value: it takes up in a head what the value does, and finds it in front of
whatever follows it. -/
structure Slot.Reads (slot : Slot) (value : AbiValue) : Prop where
  isDynamic : slot.isDynamic = value.isDynamic
  headSize : slot.headSize = (Part.mk value.isDynamic value.encode).headSize
  read (rest : Bytes) : slot.read (value.encode ++ rest) = some value

section Sequences

variable {slot : Slot} {slots : List Slot} {value : AbiValue} {values : List AbiValue}

theorem Slot.reads_ofWord {read : Bytes → Option AbiValue} (hdynamic : value.isDynamic = false)
    (hlength : value.encode.length = 32)
    (hread : ∀ rest, read (value.encode ++ rest) = some value) :
    (Slot.ofWord read).Reads value where
  isDynamic := hdynamic.symm
  headSize := by rw [Part.headSize, hdynamic, if_neg Bool.false_ne_true, hlength, Slot.ofWord]
  read := hread

theorem Slot.reads_ofTail {read : Bytes → Option AbiValue} (hdynamic : value.isDynamic = true)
    (hread : ∀ rest, read (value.encode ++ rest) = some value) :
    (Slot.ofTail read).Reads value where
  isDynamic := hdynamic.symm
  headSize := by rw [Part.headSize, hdynamic, if_pos rfl, Slot.ofTail]
  read := hread

/-- Slots read values from a head that stands for them and from the tails that its offsets lead
to. The induction moves along the head and the tails; the start of the sequence, from which offsets
count, stays where it is. -/
theorem readSlots_of_reads (h : List.Forall₂ Slot.Reads slots values) {base head : Bytes}
    {offset : Nat} (hhead : ∃ rest, head = heads offset (parts values) ++ rest)
    (hbase : ∃ rest, base.drop offset = tails (parts values) ++ rest)
    (hbound : offset + (tails (parts values)).length < Bytes.capacity 32) :
    readSlots base slots head = some values := by
  induction h generalizing head offset with
  | nil => rfl
  | @cons slot value slots values hreads _ ih =>
    obtain ⟨after, rfl⟩ := hhead
    obtain ⟨behind, hbase⟩ := hbase
    have hsize := hreads.headSize
    rw [Part.headSize] at hsize
    rw [parts, heads]
    rw [parts, tails] at hbase hbound
    cases hdynamic : value.isDynamic with
    | true =>
      simp only [hdynamic, if_true, List.length_append, List.append_assoc] at hsize hbase hbound ⊢
      have hvalue : slot.readAt base (word offset ++
          (heads (offset + value.encode.length) (parts values) ++ after)) = some value := by
        rw [Slot.readAt, hreads.isDynamic, hdynamic, if_pos rfl, readWord?_word (by omega),
          Option.bind_some, hbase, hreads.read]
      have htail : base.drop (offset + value.encode.length) = tails (parts values) ++ behind := by
        rw [← List.drop_drop, hbase, List.drop_left]
      have hothers := ih ⟨after, rfl⟩ ⟨behind, htail⟩ (by omega)
      rw [readSlots, hvalue, hsize, drop_word]
      simp only [Option.bind_eq_bind, Option.bind_some, hothers]
      rfl
    | false =>
      simp only [hdynamic, Bool.false_eq_true, if_false] at hsize hbase hbound ⊢
      rw [List.append_assoc]
      have hvalue : slot.readAt base
          (value.encode ++ (heads offset (parts values) ++ after)) = some value := by
        rw [Slot.readAt, hreads.isDynamic, hdynamic]
        exact hreads.read _
      have hothers := ih ⟨after, rfl⟩ ⟨behind, hbase⟩ hbound
      rw [readSlots, hvalue, hsize, List.drop_left]
      simp only [Option.bind_eq_bind, Option.bind_some, hothers]
      rfl

theorem readSequence_layOut (h : List.Forall₂ Slot.Reads slots values)
    (hbound : (layOut (parts values)).length < Bytes.capacity 32) (rest : Bytes) :
    readSequence slots (layOut (parts values) ++ rest) = some values := by
  rw [length_layOut] at hbound
  have hlayOut : layOut (parts values) ++ rest =
      heads (headsSize (parts values)) (parts values) ++ (tails (parts values) ++ rest) := by
    rw [layOut, List.append_assoc]
  refine readSlots_of_reads h ⟨_, hlayOut⟩ ⟨rest, ?_⟩ hbound
  rw [hlayOut, List.drop_left' (length_heads _ _)]

theorem any_isDynamic (h : List.Forall₂ Slot.Reads slots values) :
    slots.any (·.isDynamic) = anyDynamic values := by
  induction h with
  | nil => rfl
  | cons hreads _ ih => rw [List.any_cons, anyDynamic, hreads.isDynamic, ih]

theorem slotsSize_eq (h : List.Forall₂ Slot.Reads slots values) :
    slotsSize slots = headsSize (parts values) := by
  induction h with
  | nil => rfl
  | cons hreads _ ih => rw [slotsSize, parts, headsSize, hreads.headSize, ih]

/-- Values of fixed size have no tail. -/
theorem tails_of_not_dynamic : ∀ {values : List AbiValue}, anyDynamic values = false →
    tails (parts values) = []
  | [], _ => rfl
  | value :: values, h => by
    rw [anyDynamic, Bool.or_eq_false_iff] at h
    rw [parts, tails, h.1]
    exact tails_of_not_dynamic h.2

/-- A sequence is read by the slot for it, if its members are by theirs. -/
theorem Slot.reads_ofSequence {make : List AbiValue → AbiValue}
    (h : List.Forall₂ Slot.Reads slots values)
    (hdynamic : (make values).isDynamic = anyDynamic values)
    (hencode : (make values).encode = layOut (parts values))
    (hbound : (layOut (parts values)).length < Bytes.capacity 32) :
    (Slot.ofSequence make slots).Reads (make values) where
  isDynamic := (any_isDynamic h).trans hdynamic.symm
  headSize := by
    rw [Slot.ofSequence, any_isDynamic h, slotsSize_eq h, Part.headSize, hdynamic, hencode]
    cases hany : anyDynamic values with
    | true => rfl
    | false =>
      rw [length_layOut, tails_of_not_dynamic hany]
      rfl
  read rest := by
    show (readSequence slots ((make values).encode ++ rest)).map make = _
    rw [hencode, readSequence_layOut h hbound, Option.map_some]

theorem forall₂_replicate (h : ∀ value ∈ values, slot.Reads value) :
    List.Forall₂ Slot.Reads (List.replicate values.length slot) values := by
  induction values with
  | nil => exact .nil
  | cons value values ih =>
    rw [List.forall_mem_cons] at h
    exact .cons h.1 (ih h.2)

end Sequences

end Abi

mutual

/-- A value of a type is read back as it was encoded. -/
theorem AbiType.Admits.reads {type : AbiType} {value : AbiValue} :
    type.Admits value → value.weight < Bytes.capacity 32 → type.slot.Reads value
  | .uint hword, _ => by
    refine Slot.reads_ofWord rfl (length_word _) fun rest => ?_
    rw [AbiValue.encode, readWord?_word hword]
    rfl
  | .int hlow hhigh, _ => by
    refine Slot.reads_ofWord rfl (length_word _) fun rest => ?_
    obtain ⟨word, hword, hsigned⟩ := Option.map_eq_some_iff.1 (readWord?_signedWord hlow hhigh)
    rw [AbiValue.encode, hword, Option.map_some, hsigned]
  | .bool value, _ => by
    refine Slot.reads_ofWord rfl (length_word _) fun rest => ?_
    cases value <;> rw [AbiValue.encode, readWord?_word (by decide)] <;> rfl
  | .address value, _ => by
    refine Slot.reads_ofWord rfl ?_ fun rest => ?_
    · rw [AbiValue.encode, List.length_append, Bytes.length_zeros, value.length_bytes]
    · rw [AbiValue.encode, readAddress?_padded, Option.map_some]
  | .function hlength, _ => by
    refine Slot.reads_ofWord rfl ?_ fun rest => ?_
    · rw [AbiValue.encode, List.length_append, length_padding, hlength]
    · rw [AbiValue.encode, hlength, readFixed?_padded hlength (by omega) (by omega),
        Option.map_some]
  | .fixedBytes hlength hpos hword, _ => by
    refine Slot.reads_ofWord rfl ?_ fun rest => ?_
    · rw [AbiValue.encode, List.length_append, length_padding]
      omega
    · rw [AbiValue.encode, hlength, readFixed?_padded hlength hpos hword, Option.map_some]
  | .bytes value, hbound => by
    rw [AbiValue.weight] at hbound
    refine Slot.reads_ofTail rfl fun rest => ?_
    rw [AbiValue.encode, readCounted?_counted (by omega), Option.map_some]
  | .string value, hbound => by
    rw [AbiValue.weight] at hbound
    refine Slot.reads_ofTail rfl fun rest => ?_
    rw [AbiValue.encode, readCounted?_counted (by omega), Option.bind_some,
      Bytes.toString?_ofString, Option.map_some]
  | @AbiType.Admits.array _ elements helements, hbound => by
    rw [AbiValue.weight] at hbound
    have hlayOut := length_layOut_le elements
    have hcount := length_le_weights elements
    have hreads := forall₂_replicate fun value hmem =>
      (helements value hmem).reads (by have := weight_le_weights hmem; omega)
    refine Slot.reads_ofTail rfl fun rest => ?_
    rw [AbiValue.encode, List.append_assoc, readWord?_word (by omega), Option.bind_some, drop_word,
      readSequence_layOut hreads (by omega), Option.map_some]
  | @AbiType.Admits.fixedArray _ _ elements hlength helements, hbound => by
    rw [AbiValue.weight] at hbound
    have hlayOut := length_layOut_le elements
    have hreads := forall₂_replicate fun value hmem =>
      (helements value hmem).reads (by have := weight_le_weights hmem; omega)
    rw [hlength] at hreads
    exact Slot.reads_ofSequence hreads rfl rfl (by omega)
  | @AbiType.Admits.tuple _ values hmembers, hbound => by
    rw [AbiValue.weight] at hbound
    have hlayOut := length_layOut_le values
    exact Slot.reads_ofSequence (hmembers.reads (by omega)) rfl rfl (by omega)

/-- Values of types are read back as they were encoded. -/
theorem AllAdmit.reads {types : List AbiType} {values : List AbiValue} :
    AllAdmit types values → weights values < Bytes.capacity 32 →
      List.Forall₂ Slot.Reads (slots types) values
  | .nil, _ => .nil
  | .cons hvalue hvalues, hbound => by
    rw [weights] at hbound
    exact .cons (hvalue.reads (by omega)) (hvalues.reads (by omega))

end

/-- Arguments are read back as they were encoded. -/
theorem decodeArguments_encodeArguments {types : List AbiType} {values : List AbiValue}
    (h : AllAdmit types values) (hbound : weights values < Bytes.capacity 32) :
    decodeArguments types (encodeArguments values) = some values := by
  have hlayOut := Nat.lt_of_le_of_lt (length_layOut_le values) hbound
  have hread := readSequence_layOut (h.reads hbound) hlayOut []
  rwa [List.append_nil] at hread

end ContractDeploy
