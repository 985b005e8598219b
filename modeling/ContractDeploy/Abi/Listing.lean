/-!
# Bracketed lists

Declared types and arguments write lists alike: between brackets, the elements separated by commas,
with spaces and tabs behind the opening bracket, behind a comma and before the closing bracket. A
list is empty, or has an element; behind its last element a further comma may stand. Lists may
stand in lists, but no element may be surrounded by more than `listNesting` of them.
-/

namespace ContractDeploy.Abi

/-- How many lists may stand around an element. A list is itself an element of the one around it, so
an empty list may stand inside this many others. -/
def listNesting : Nat := 79

/-- The text after its leading spaces and tabs. -/
def skipSpace (text : List Char) : List Char := text.dropWhile fun c => c = ' ' || c = '\t'

/-- The text behind this character, if it begins with it. -/
def scanChar (c : Char) : List Char → Option (List Char)
  | [] => none
  | d :: rest => if d = c then some rest else none

/-- The elements at the start of a text, separated by commas and the space after them; a comma that
no element follows is left where it is. The first argument bounds the elements still to be read;
one more than the text has characters is enough. -/
def scanElements {α : Type} (element : List Char → Option (α × List Char)) :
    (fuel : Nat) → List Char → List α × List Char
  | 0, text => ([], text)
  | fuel + 1, text =>
    match element text with
    | none => ([], text)
    | some (first, rest) =>
      match scanChar ',' rest with
      | none => ([first], rest)
      | some after =>
        match scanElements element fuel (skipSpace after) with
        | ([], _) => ([first], rest)
        | (others, after) => (first :: others, after)

/-- A list from behind its opening bracket to its closing one, and what follows that. -/
def scanListBody {α : Type} (closing : Char) (element : List Char → Option (α × List Char))
    (text : List Char) : Option (List α × List Char) :=
  let text := skipSpace text
  match scanChar closing text with
  | some after => some ([], after)
  | none =>
    match scanElements element (text.length + 1) text with
    | ([], _) => none
    | (elements, rest) =>
      let rest := (scanChar ',' rest).getD rest
      (scanChar closing (skipSpace rest)).map fun after => (elements, after)

end ContractDeploy.Abi
