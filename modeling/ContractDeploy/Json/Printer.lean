import ContractDeploy.Json.Basic
import ContractDeploy.Json.Escape

/-!
# Writing JSON

Two forms of a document. The indented one has two blanks a level, one value or member a line, a
blank after each colon, nothing between the brackets of an empty array or object, and no line end
after the last bracket. The compact one has no white space between its parts.
-/

namespace ContractDeploy.Json

/-- A line end and the blanks of a level. -/
def newLine (level : Nat) : List Char := '\n' :: List.replicate (2 * level) ' '

/-- A literal between its quotes. -/
def quoted (literal : List Char) : List Char := '"' :: (literal ++ ['"'])

mutual

/-- The indented form of a value that stands on the given level. -/
def writeValue (level : Nat) : Json → List Char
  | .null => "null".toList
  | .bool true => "true".toList
  | .bool false => "false".toList
  | .number literal => literal
  | .string literal => quoted literal
  | .array .done => ['[', ']']
  | .array items => '[' :: writeItems (level + 1) items ++ newLine level ++ [']']
  | .object .done => ['\x7b', '\x7d']
  | .object members => '\x7b' :: writeMembers (level + 1) members ++ newLine level ++ ['\x7d']
  | .broken => []

/-- The values of an array, each on a line of its own. -/
def writeItems (level : Nat) : Items → List Char
  | .done | .cut => []
  | .item value .done => newLine level ++ writeValue level value
  | .item value rest => newLine level ++ writeValue level value ++ [','] ++ writeItems level rest

/-- The members of an object, each on a line of its own. -/
def writeMembers (level : Nat) : Members → List Char
  | .done | .cut => []
  | .member name value .done =>
    newLine level ++ quoted name ++ [':', ' '] ++ writeValue level value
  | .member name value rest =>
    newLine level ++ quoted name ++ [':', ' '] ++ writeValue level value ++ [','] ++
      writeMembers level rest

end

mutual

/-- The compact form of a value. -/
def writeCompact : Json → List Char
  | .null => "null".toList
  | .bool true => "true".toList
  | .bool false => "false".toList
  | .number literal => literal
  | .string literal => quoted literal
  | .array items => '[' :: writeCompactItems true items ++ [']']
  | .object members => '\x7b' :: writeCompactMembers true members ++ ['\x7d']
  | .broken => []

/-- The values of an array, with a comma in front of each but the first. -/
def writeCompactItems (atFirst : Bool) : Items → List Char
  | .done | .cut => []
  | .item value rest =>
    (if atFirst then [] else [',']) ++ writeCompact value ++ writeCompactItems false rest

/-- The members of an object, with a comma in front of each but the first. -/
def writeCompactMembers (atFirst : Bool) : Members → List Char
  | .done | .cut => []
  | .member name value rest =>
    (if atFirst then [] else [',']) ++ quoted name ++ ':' :: writeCompact value ++
      writeCompactMembers false rest

end

/-- The compact form of a document. -/
def compact (value : Json) : String := String.ofList (writeCompact value)

/-- The indented form of a document. -/
def pretty (value : Json) : String := String.ofList (writeValue 0 value)

/-- The value that spells a text. -/
def ofText (text : String) : Json := .string (escape text.toList)

/-- The value that is a number. -/
def ofNat (n : Nat) : Json := .number (Nat.toDigits 10 n)

/-- The value of something that may be absent, `null` if it is. -/
def ofOption {α : Type} (write : α → Json) : Option α → Json
  | some value => write value
  | none => .null

/-- The member of this name. -/
def field (name : String) (value : Json) : List Char × Json := (escape name.toList, value)

/-- The object of these members. -/
def ofFields (members : List (List Char × Json)) : Json := .object (Members.ofList members)

/-- The array of these values. -/
def ofValues (values : List Json) : Json := .array (Items.ofList values)

end ContractDeploy.Json
