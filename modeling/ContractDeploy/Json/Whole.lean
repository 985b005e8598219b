import ContractDeploy.Json.Decode

/-!
# Values read whole

Some values are read whole before it is known what is wanted of them. Then no part is passed over:
every string and every name has to spell a text, no number may overflow, and brackets may not nest
too deep in any place.
-/

namespace ContractDeploy.Json

mutual

/-- Checks a value to its end; `depth` is how deep brackets may still nest. -/
def checkWhole (depth : Nat) : Json → Except Fault Unit
  | .null | .bool _ => .ok ()
  | .number literal =>
    if isFinite literal then .ok () else .error (.expected "a number that does not overflow")
  | .string literal => (textOf literal).map fun _ => ()
  | .array items =>
    match depth with
    | 0 => .error .tooDeep
    | depth + 1 => items.checkWhole depth
  | .object members =>
    match depth with
    | 0 => .error .tooDeep
    | depth + 1 => members.checkWhole depth
  | .broken => .error .syntaxError

/-- Checks the values of an array to the closing bracket. -/
def Items.checkWhole (depth : Nat) : Items → Except Fault Unit
  | .done => .ok ()
  | .cut => .error .syntaxError
  | .item value rest => do
    value.checkWhole depth
    rest.checkWhole depth

/-- Checks the members of an object, names and values, to the closing brace. -/
def Members.checkWhole (depth : Nat) : Members → Except Fault Unit
  | .done => .ok ()
  | .cut => .error .syntaxError
  | .member name value rest => do
    let _ ← textOf name
    value.checkWhole depth
    rest.checkWhole depth

end

end ContractDeploy.Json
