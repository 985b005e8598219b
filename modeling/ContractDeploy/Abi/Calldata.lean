import ContractDeploy.Abi.Argument
import ContractDeploy.Abi.Encode
import ContractDeploy.Abi.Interface

/-!
# Call data

The input of a transaction that calls a contract: the selector of the function and its arguments,
or the arguments of the constructor behind the contract's code. Arguments come as texts. The first
overload that takes as many arguments as are given is the one that is called; arguments are read
from left to right, each parameter's type being looked up just before its argument is read.
-/

namespace ContractDeploy

/-- Why arguments make no call. -/
inductive CalldataFault where
  /-- Arguments for a contract that declares no constructor. -/
  | noConstructor (given : Nat)
  /-- No function of this name. -/
  | noFunction (name : String)
  /-- No function of this name takes this many arguments. -/
  | noOverload (name : String) (given : Nat)
  /-- Too many or too few arguments. -/
  | wrongCount (name : String) (takes given : Nat)
  /-- A parameter's type is not known. -/
  | unknownType (type : String)
  /-- An argument is no value of its parameter's type. -/
  | badArgument (param name : String)
deriving DecidableEq

/-- The sentence that names a fault. -/
def CalldataFault.message : CalldataFault → String
  | .noConstructor given => "constructor takes no arguments, got " ++ toString given
  | .noFunction name => "no function named " ++ name
  | .noOverload name given =>
    "no overload of " ++ name ++ " takes " ++ toString given ++ " arguments"
  | .wrongCount name takes given =>
    name ++ " takes " ++ toString takes ++ " arguments, got " ++ toString given
  | .unknownType type => "unknown type " ++ type
  | .badArgument param name =>
    "argument " ++ param ++ " of " ++ name ++ ": not a value of its type"

/-- The name under which a constructor call goes. -/
def constructorName : String := "constructor"

namespace Abi

/-- The values that arguments spell at the types of parameters, paired from the left. -/
def readPaired (name : String) : List Param → List String →
    Except CalldataFault (List AbiValue)
  | param :: params, arg :: args => do
    let some type := param.resolve? | throw (.unknownType param.type)
    let some value := readValue? type arg | throw (.badArgument param.name name)
    let values ← readPaired name params args
    return value :: values
  | _, _ => .ok []

/-- The values that arguments spell at the types of parameters, as many as there are of those. -/
def readArguments (name : String) (params : List Param) (args : List String) :
    Except CalldataFault (List AbiValue) :=
  if params.length ≠ args.length then .error (.wrongCount name params.length args.length)
  else readPaired name params args

end Abi

namespace Interface

/-- The encoded arguments of a constructor call. -/
def encodeConstructor (interface : Interface) (args : List String) :
    Except CalldataFault Bytes :=
  match interface.constructorInputs with
  | some inputs => (Abi.readArguments constructorName inputs args).map encodeArguments
  | none => if args.isEmpty then .ok [] else .error (.noConstructor args.length)

/-- The function that a call with this many arguments goes to. -/
def overload (interface : Interface) (name : String) (arity : Nat) :
    Except CalldataFault Abi.Function :=
  match interface.functions.get? name with
  | none => .error (.noFunction name)
  | some overloads =>
    match overloads.find? fun function => function.inputs.length = arity with
    | some function => .ok function
    | none => .error (.noOverload name arity)

/-- The input of a call to a function. -/
def encodeCall (interface : Interface) (name : String) (args : List String) :
    Except CalldataFault Bytes := do
  let function ← interface.overload name args.length
  let values ← Abi.readArguments name function.inputs args
  return function.selector ++ encodeArguments values

end Interface

end ContractDeploy
