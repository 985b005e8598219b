import ContractDeploy.Bytes

/-!
# Types of the contract ABI

The types that arguments are encoded at, and their values. A value carries what its encoding needs;
widths matter only where a text is read as a value, so the values of all unsigned types are one
kind, and likewise for the signed ones.
-/

namespace ContractDeploy

/-- A type of the contract ABI. -/
inductive AbiType where
  /-- Unsigned integers of this many bits. -/
  | uint (bits : Nat)
  /-- Signed integers of this many bits. -/
  | int (bits : Nat)
  /-- Truth values. -/
  | bool
  /-- Account addresses. -/
  | address
  /-- An address with a selector, 24 bytes. -/
  | function
  /-- Exactly this many bytes, one to thirty-two. -/
  | fixedBytes (size : Nat)
  /-- Bytes of any number. -/
  | bytes
  /-- Text. -/
  | string
  /-- Lists of any length. -/
  | array (element : AbiType)
  /-- Lists of exactly this length. -/
  | fixedArray (element : AbiType) (length : Nat)
  /-- One value of each type in turn. -/
  | tuple (members : List AbiType)

/-- A value of a type of the contract ABI. -/
inductive AbiValue where
  /-- An unsigned integer. -/
  | uint (value : Nat)
  /-- A signed integer. -/
  | int (value : Int)
  /-- A truth value. -/
  | bool (value : Bool)
  /-- An account address. -/
  | address (value : Address)
  /-- Bytes of a number that the type fixes, at most thirty-two. -/
  | fixedBytes (value : Bytes)
  /-- Bytes of any number. -/
  | bytes (value : Bytes)
  /-- Text. -/
  | string (value : String)
  /-- A list whose length is part of the value. -/
  | array (elements : List AbiValue)
  /-- A list whose length is part of the type. -/
  | fixedArray (elements : List AbiValue)
  /-- One value for each member. -/
  | tuple (members : List AbiValue)

end ContractDeploy
