import ContractDeploy.Abi.Signature
import ContractDeploy.Address
import ContractDeploy.NameMap

/-!
# Contract interfaces

What a contract's interface says about calling it: the parameters of its constructor and of its
functions. A function is known on the chain by its selector, the start of the hash of its name and
its parameter types as declared; a structured parameter stands there as the list of its components.
-/

namespace ContractDeploy

namespace Abi

/-- A parameter: its name, its type as declared, and its components if it is structured. -/
inductive Param where
  /-- A parameter from its three parts. -/
  | mk (name type : String) (components : List Param)

namespace Param

/-- The name, which may be empty. -/
def name : Param → String
  | mk name _ _ => name

/-- The type as declared. -/
def type : Param → String
  | mk _ type _ => type

/-- The parts of a structured parameter, none for any other. -/
def components : Param → List Param
  | mk _ _ components => components

end Param

mutual

/-- The type that a parameter stands for. A structured one is the tuple of its components, with the
sizes of its declared type around it. -/
def Param.resolve? : Param → Option AbiType
  | .mk _ type [] =>
    match readDeclared type with
    | some declared => declaredType? declared
    | none => none
  | .mk _ type (first :: rest) =>
    match readDeclared type, first.resolve?, resolveAll? rest with
    | some declared, some head, some tail => some (wrapSizes (.tuple (head :: tail)) declared.2)
    | _, _, _ => none

/-- The types that parameters stand for. -/
def resolveAll? : List Param → Option (List AbiType)
  | [] => some []
  | first :: rest =>
    match first.resolve?, resolveAll? rest with
    | some head, some tail => some (head :: tail)
    | _, _ => none

end

mutual

/-- The text of a parameter's type in a selector. -/
def Param.selectorText : Param → String
  | .mk _ type [] => type
  | .mk _ type (first :: rest) =>
    "(" ++ first.selectorText ++ selectorTail rest ++ ")" ++ String.ofList (type.toList.drop 5)

/-- The types of further parameters, each behind a comma. -/
def selectorTail : List Param → String
  | [] => ""
  | first :: rest => "," ++ first.selectorText ++ selectorTail rest

end

/-- The types of parameters, separated by commas. -/
def selectorTexts : List Param → String
  | [] => ""
  | first :: rest => first.selectorText ++ selectorTail rest

/-- A function of an interface. -/
structure Function where
  /-- The name. -/
  name : String
  /-- The parameters. -/
  inputs : List Param

/-- The name and the parameter types. -/
def Function.signature (function : Function) : String :=
  function.name ++ "(" ++ selectorTexts function.inputs ++ ")"

/-- The first four bytes of the hash of a signature. -/
def selectorOf (signature : String) : Bytes := (keccak256 (Bytes.ofString signature)).bytes.take 4

/-- The four bytes by which the function is called. -/
def Function.selector (function : Function) : Bytes := selectorOf function.signature

end Abi

/-- The callable part of a contract's interface. -/
structure Interface where
  /-- The constructor's parameters, if a constructor is declared. -/
  constructorInputs : Option (List Abi.Param) := none
  /-- The functions of each name, in the order in which they are declared. -/
  functions : NameMap (List Abi.Function) := NameMap.empty

end ContractDeploy
