/-!
# JSON documents

A document is kept as it is written: string and number literals stay unread, and a text that
stops being JSON somewhere yields the tree up to that place. A reader of records can so judge the
parts of a document in the order in which they stand, find the first fault whether it is one of
form or of content, and pass over what it does not know without reading it.
-/

namespace ContractDeploy

mutual

/-- A JSON value as it is written. -/
inductive Json where
  /-- The literal `null`. -/
  | null
  /-- The literal `true` or `false`. -/
  | bool (value : Bool)
  /-- A number, as its characters. -/
  | number (literal : List Char)
  /-- A string, as the characters between its quotes with the escapes unread. -/
  | string (literal : List Char)
  /-- A list of values. -/
  | array (items : Json.Items)
  /-- A list of named values, which may repeat a name. -/
  | object (members : Json.Members)
  /-- The text stops being JSON here. -/
  | broken

/-- The values of an array. -/
inductive Json.Items where
  /-- The closing bracket. -/
  | done
  /-- The text stops being JSON before the next value. -/
  | cut
  /-- A value and what follows it. -/
  | item (value : Json) (rest : Json.Items)

/-- The members of an object. -/
inductive Json.Members where
  /-- The closing brace. -/
  | done
  /-- The text stops being JSON before the next member. -/
  | cut
  /-- A member, its name as written, and what follows it. -/
  | member (name : List Char) (value : Json) (rest : Json.Members)

end

namespace Json

/-- Whether an array ends with its closing bracket. -/
def Items.closed : Items → Bool
  | .done => true
  | .cut => false
  | .item _ rest => rest.closed

/-- The values of an array that were read. -/
def Items.toList : Items → List Json
  | .done | .cut => []
  | .item value rest => value :: rest.toList

/-- The array of these values. -/
def Items.ofList : List Json → Items
  | [] => .done
  | value :: rest => .item value (ofList rest)

/-- The object of these members. -/
def Members.ofList : List (List Char × Json) → Members
  | [] => .done
  | (name, value) :: rest => .member name value (ofList rest)

@[simp] theorem Items.closed_ofList (values : List Json) : (Items.ofList values).closed = true := by
  induction values with
  | nil => rfl
  | cons _ _ ih => simpa [ofList, closed] using ih

@[simp] theorem Items.toList_ofList (values : List Json) :
    (Items.ofList values).toList = values := by
  induction values with
  | nil => rfl
  | cons _ _ ih => simp [ofList, toList, ih]

end Json

end ContractDeploy
