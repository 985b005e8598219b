import ContractDeploy.Abi.Type

/-!
# The contract ABI encoding

Values are laid out in 32-byte words. A sequence has a head and a tail: a value of fixed size
stands in the head itself, any other in the tail, with its offset from the start of the sequence in
the head. The layout is a function of its own on the encoded parts.
-/

namespace ContractDeploy

namespace Abi

/-- A number as a word. -/
def word (n : Nat) : Bytes := Bytes.ofNat 32 n

/-- A signed number as a word, in two's complement. -/
def signedWord (n : Int) : Bytes := word (n % (Bytes.capacity 32 : Int)).toNat

/-- Zero bytes up to the next multiple of 32. -/
def padding (length : Nat) : Bytes := Bytes.zeros ((32 - length % 32) % 32)

/-- Bytes behind their number, filled up to whole words. -/
def counted (bytes : Bytes) : Bytes := word bytes.length ++ bytes ++ padding bytes.length

/-- One encoded value of a sequence. -/
structure Part where
  /-- Whether it stands in the tail, with its offset in the head. -/
  isDynamic : Bool
  /-- Its encoding. -/
  encoding : Bytes

/-- The bytes that a part takes up in the head. -/
def Part.headSize (part : Part) : Nat := if part.isDynamic then 32 else part.encoding.length

/-- The bytes that the heads of parts take up. -/
def headsSize : List Part → Nat
  | [] => 0
  | part :: rest => part.headSize + headsSize rest

/-- The heads of parts whose tails begin at `offset`. -/
def heads (offset : Nat) : List Part → Bytes
  | [] => []
  | part :: rest =>
    if part.isDynamic then word offset ++ heads (offset + part.encoding.length) rest
    else part.encoding ++ heads offset rest

/-- The tails of parts. -/
def tails : List Part → Bytes
  | [] => []
  | part :: rest => if part.isDynamic then part.encoding ++ tails rest else tails rest

/-- A sequence of parts: all heads, then all tails. -/
def layOut (parts : List Part) : Bytes := heads (headsSize parts) parts ++ tails parts

end Abi

open Abi

mutual

/-- Whether the size of a value's encoding depends on the value. -/
def AbiValue.isDynamic : AbiValue → Bool
  | .bytes _ | .string _ | .array _ => true
  | .fixedArray elements => anyDynamic elements
  | .tuple members => anyDynamic members
  | _ => false

/-- Whether some value's encoding has a size that depends on the value. -/
def anyDynamic : List AbiValue → Bool
  | [] => false
  | value :: rest => value.isDynamic || anyDynamic rest

end

mutual

/-- The encoding of a value. -/
def AbiValue.encode : AbiValue → Bytes
  | .uint n => word n
  | .int n => signedWord n
  | .bool b => word (if b then 1 else 0)
  | .address a => Bytes.zeros 12 ++ a.bytes
  | .fixedBytes b => b ++ padding b.length
  | .bytes b => counted b
  | .string s => counted (Bytes.ofString s)
  | .array elements => word elements.length ++ layOut (parts elements)
  | .fixedArray elements => layOut (parts elements)
  | .tuple members => layOut (parts members)

/-- The encoded parts of a sequence. -/
def parts : List AbiValue → List Part
  | [] => []
  | value :: rest => ⟨value.isDynamic, value.encode⟩ :: parts rest

end

/-- The encoding of arguments in a row. -/
def encodeArguments (values : List AbiValue) : Bytes := layOut (parts values)

end ContractDeploy
