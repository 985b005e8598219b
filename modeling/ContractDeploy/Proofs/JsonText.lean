import ContractDeploy.Json.Printer
import ContractDeploy.Json.Reader

/-!
# Reading back what is printed

The indented form of a document without numbers is read back as the document it was printed from.
The reader takes the text apart from the left, so the statement is about a printed value with any
text behind it: the value is read, and that text is left. Numbers are left out because where one
ends depends on what follows; address books hold none.
-/

namespace ContractDeploy.Json

mutual

/-- A document of texts, flags, arrays and objects, written to its end. -/
def Textual : Json → Prop
  | .null | .bool _ => True
  | .number _ | .broken => False
  | .string literal => ∃ text, literal = escape text
  | .array items => items.Textual
  | .object members => members.Textual

/-- The values of an array are such documents, and its bracket is closed. -/
def Items.Textual : Items → Prop
  | .done => True
  | .cut => False
  | .item value rest => value.Textual ∧ rest.Textual

/-- The members of an object are such documents under escaped names, and its brace is closed. -/
def Members.Textual : Members → Prop
  | .done => True
  | .cut => False
  | .member name value rest => (∃ text, name = escape text) ∧ value.Textual ∧ rest.Textual

end

/-! ## Blanks -/

theorem skipBlanks_newLine (level : Nat) (text : List Char) :
    skipBlanks (newLine level ++ text) = skipBlanks text := by
  have hblank : ∀ n, (List.replicate n ' ' ++ text).dropWhile isBlank = text.dropWhile isBlank := by
    intro n
    induction n with
    | zero => rfl
    | succ n ih => simpa [List.replicate_succ, isBlank] using ih
  have hline : isBlank '\n' = true := by decide
  rw [newLine, List.cons_append, skipBlanks, List.dropWhile_cons_of_pos hline, hblank]
  rfl

theorem skipBlanks_cons {c : Char} (h : isBlank c = false) (text : List Char) :
    skipBlanks (c :: text) = c :: text := by
  simp [skipBlanks, h]

theorem skipBlanks_skipBlanks (text : List Char) :
    skipBlanks (skipBlanks text) = skipBlanks text := by
  induction text with
  | nil => rfl
  | cons c text ih => cases h : isBlank c <;> simp_all [skipBlanks]

/-- Blanks in front of a value make no difference. -/
theorem readValue_skipBlanks (fuel : Nat) (text : List Char) :
    readValue (fuel + 1) (skipBlanks text) = readValue (fuel + 1) text := by
  rw [readValue, readValue, skipBlanks_skipBlanks]

/-- The line end in front of a value makes no difference. -/
theorem readValue_newLine (fuel level : Nat) (text : List Char) :
    readValue (fuel + 1) (newLine level ++ text) = readValue (fuel + 1) text := by
  rw [← readValue_skipBlanks, skipBlanks_newLine, readValue_skipBlanks]

/-- The blank behind a colon makes no difference. -/
theorem readValue_blank (fuel : Nat) (text : List Char) :
    readValue (fuel + 1) (' ' :: text) = readValue (fuel + 1) text := by
  rw [← readValue_skipBlanks, ← readValue_skipBlanks fuel text]
  rfl

theorem readItems_skipBlanks (fuel : Nat) (text : List Char) :
    readItems (fuel + 2) (skipBlanks text) = readItems (fuel + 2) text := by
  rw [readItems, readItems, readValue_skipBlanks]

theorem readMembers_skipBlanks (fuel : Nat) (text : List Char) :
    readMembers (fuel + 1) (skipBlanks text) = readMembers (fuel + 1) text := by
  rw [readMembers, readMembers, skipBlanks_skipBlanks]

/-! ## String literals -/

theorem isHexDigit_digit : ∀ n, n < 16 → isHexDigit (Hex.digit n) = true := by
  decide

/-- A written character is scanned as it stands. -/
theorem scanString_escapeChar (c : Char) (rest : List Char) :
    scanString (escapeChar c ++ rest) =
      (scanString rest).map fun (literal, after) => (escapeChar c ++ literal, after) := by
  unfold escapeChar
  split
  · next h => simp [scanString]
  split
  · next h => simp [scanString]
  split
  · next hlt =>
    split
    · simp [scanString]
    split
    · simp [scanString]
    split
    · simp [scanString]
    split
    · simp [scanString]
    split
    · simp [scanString]
    · have hhigh := isHexDigit_digit (c.toNat / 16) (by omega)
      have hlow := isHexDigit_digit (c.toNat % 16) (by omega)
      have hzero : isHexDigit '0' = true := by decide
      simp [scanString, hhigh, hlow, hzero]
  · next hq hb hlt =>
    rw [List.singleton_append, scanString]
    · simp [hb, hlt]
    · exact hq
    · intro a b d e r h
      exact absurd h hb
    · intro letter r h
      exact absurd h hb

/-- A written text is scanned up to the quote behind it. -/
theorem scanString_escape (text rest : List Char) :
    scanString (escape text ++ '"' :: rest) = some (escape text, rest) := by
  induction text with
  | nil => simp [escape, scanString]
  | cons c text ih =>
    rw [escape, List.flatMap_cons, List.append_assoc, scanString_escapeChar, ← escape, ih]
    rfl

/-! ## Values -/

/-- A printed document begins with a character that is neither blank nor closes anything. -/
theorem writeValue_head {value : Json} (h : value.Textual) (level : Nat) :
    ∃ c text, writeValue level value = c :: text ∧ isBlank c = false ∧ c ≠ ']' := by
  cases value with
  | null => exact ⟨'n', _, rfl, by decide, by decide⟩
  | bool b => cases b <;> exact ⟨_, _, rfl, by decide, by decide⟩
  | number literal => exact absurd h (by simp [Textual])
  | string literal => exact ⟨'"', _, rfl, by decide, by decide⟩
  | array items => cases items <;> exact ⟨'[', _, rfl, by decide, by decide⟩
  | object members => cases members <;> exact ⟨'\x7b', _, rfl, by decide, by decide⟩
  | broken => exact absurd h (by simp [Textual])

/-! ## One step of the reader -/

section Step

variable {fuel : Nat} {text rest after : List Char}

theorem readValue_string {literal : List Char} (h : skipBlanks text = '"' :: rest)
    (hscan : scanString rest = some (literal, after)) :
    readValue (fuel + 1) text = (.string literal, after) := by
  rw [readValue, h]
  simp only [hscan]

theorem readValue_array {items : Items} (h : skipBlanks text = '[' :: rest)
    (hopen : ∀ more, skipBlanks rest ≠ ']' :: more)
    (hitems : readItems fuel (skipBlanks rest) = (items, after)) :
    readValue (fuel + 1) text = (.array items, after) := by
  rw [readValue, h]
  simp only [hitems]

theorem readValue_object {members : Members} (h : skipBlanks text = '\x7b' :: rest)
    (hopen : ∀ more, skipBlanks rest ≠ '\x7d' :: more)
    (hmembers : readMembers fuel (skipBlanks rest) = (members, after)) :
    readValue (fuel + 1) text = (.object members, after) := by
  rw [readValue, h]
  simp only [hmembers]

theorem readItems_last {value : Json} (hvalue : readValue fuel text = (value, rest))
    (hclose : skipBlanks rest = ']' :: after) :
    readItems (fuel + 1) text = (.item value .done, after) := by
  rw [readItems, hvalue]
  simp only [hclose]

theorem readItems_more {value : Json} {items : Items} {next : List Char}
    (hvalue : readValue fuel text = (value, rest)) (hcomma : skipBlanks rest = ',' :: next)
    (hitems : readItems fuel next = (items, after)) :
    readItems (fuel + 1) text = (.item value items, after) := by
  rw [readItems, hvalue]
  simp only [hcomma, hitems]

theorem readMembers_last {name inner value rest : List Char} {found : Json}
    (h : skipBlanks text = '"' :: inner) (hname : scanString inner = some (name, value))
    (hcolon : skipBlanks value = ':' :: rest) {last : List Char}
    (hvalue : readValue fuel rest = (found, last)) (hclose : skipBlanks last = '\x7d' :: after) :
    readMembers (fuel + 1) text = (.member name found .done, after) := by
  rw [readMembers, h]
  simp only [hname, hcolon, hvalue, hclose]

theorem readMembers_more {name inner value rest : List Char} {found : Json} {members : Members}
    (h : skipBlanks text = '"' :: inner) (hname : scanString inner = some (name, value))
    (hcolon : skipBlanks value = ':' :: rest) {last next : List Char}
    (hvalue : readValue fuel rest = (found, last)) (hcomma : skipBlanks last = ',' :: next)
    (hmembers : readMembers fuel next = (members, after)) :
    readMembers (fuel + 1) text = (.member name found members, after) := by
  rw [readMembers, h]
  simp only [hname, hcolon, hvalue, hcomma, hmembers]

end Step

/-- Behind its bracket, an array that holds something does not close at once. -/
theorem skipBlanks_writeItems_ne {value : Json} (h : value.Textual) (level : Nat) (items : Items)
    (text more : List Char) :
    skipBlanks (writeItems level (.item value items) ++ text) ≠ ']' :: more := by
  obtain ⟨c, tail, hwritten, hblank, hclose⟩ := writeValue_head h level
  have hhead : ∃ next, writeItems level (.item value items) ++ text =
      newLine level ++ (c :: next) := by
    cases items <;> simp [writeItems, hwritten]
  obtain ⟨next, hnext⟩ := hhead
  rw [hnext, skipBlanks_newLine, skipBlanks_cons hblank]
  simp [hclose]

/-- Behind the brace or the comma in front of it, a member begins with the quote of its name. -/
theorem skipBlanks_writeMember (level : Nat) (name text : List Char) :
    skipBlanks (newLine level ++ (quoted name ++ text)) = '"' :: (name ++ '"' :: text) := by
  rw [skipBlanks_newLine, quoted, List.cons_append, skipBlanks_cons (by decide)]
  simp

theorem writeMembers_member (level : Nat) (name : List Char) (value : Json) (members : Members)
    (text : List Char) :
    ∃ more, writeMembers level (.member name value members) ++ text =
      newLine level ++ (quoted name ++ (':' :: ' ' :: (writeValue level value ++ more))) := by
  cases members <;> simp [writeMembers]

-- The induction is on the document. Fuel is counted in characters of its text: each bracket, name
-- or separator that is read pays for the call of the reader behind it.
mutual

/-- A printed document is read as that document, whatever follows. -/
theorem readValue_writeValue : ∀ (value : Json), value.Textual → ∀ (level fuel : Nat)
    (rest : List Char), (writeValue level value).length ≤ fuel →
      readValue (fuel + 1) (writeValue level value ++ rest) = (value, rest)
  | .null, _, _, _, _, _ => rfl
  | .bool true, _, _, _, _, _ => rfl
  | .bool false, _, _, _, _, _ => rfl
  | .string _, ⟨text, rfl⟩, level, fuel, rest, _ => by
    have hquote : skipBlanks (writeValue level (.string (escape text)) ++ rest) =
        '"' :: (escape text ++ '"' :: rest) := by
      simp [writeValue, quoted, skipBlanks, isBlank]
    exact readValue_string hquote (scanString_escape text rest)
  | .array .done, _, _, _, _, _ => rfl
  | .array (.item value items), ⟨hvalue, hitems⟩, level, fuel, rest, hfuel => by
    have hlength : (writeItems (level + 1) (.item value items)).length + 2 ≤ fuel := by
      simp [writeValue, newLine] at hfuel
      omega
    obtain ⟨fuel, rfl⟩ : ∃ n, fuel = n + 2 := ⟨fuel - 2, by omega⟩
    have hwritten : writeValue level (.array (.item value items)) ++ rest =
        '[' :: (writeItems (level + 1) (.item value items) ++ (newLine level ++ ']' :: rest)) := by
      simp [writeValue]
    rw [hwritten]
    refine readValue_array (skipBlanks_cons (by decide) _) ?_ ?_
    · exact skipBlanks_writeItems_ne hvalue (level + 1) items _
    · rw [readItems_skipBlanks]
      exact readItems_writeItems value items hvalue hitems (level + 1) level (fuel + 1) rest
        (by omega)
  | .object .done, _, _, _, _, _ => rfl
  | .object (.member name value members), ⟨hname, hvalue, hmembers⟩, level, fuel, rest, hfuel => by
    have hlength : (writeMembers (level + 1) (.member name value members)).length + 2 ≤ fuel := by
      simp [writeValue, newLine] at hfuel
      omega
    obtain ⟨fuel, rfl⟩ : ∃ n, fuel = n + 1 := ⟨fuel - 1, by omega⟩
    have hwritten : writeValue level (.object (.member name value members)) ++ rest =
        '\x7b' :: (writeMembers (level + 1) (.member name value members) ++
          (newLine level ++ '\x7d' :: rest)) := by
      simp [writeValue]
    rw [hwritten]
    refine readValue_object (skipBlanks_cons (by decide) _) ?_ ?_
    · intro more hmore
      obtain ⟨text, htext⟩ := writeMembers_member (level + 1) name value members
        (newLine level ++ '\x7d' :: rest)
      rw [htext, skipBlanks_writeMember] at hmore
      exact absurd (List.cons.inj hmore).1 (by decide)
    · rw [readMembers_skipBlanks]
      exact readMembers_writeMembers name value members hname hvalue hmembers (level + 1) level
        fuel rest (by omega)
termination_by value => sizeOf value

/-- The values of a printed array are read up to the bracket that closes it. -/
theorem readItems_writeItems : ∀ (value : Json) (items : Items), value.Textual → items.Textual →
    ∀ (level outer fuel : Nat) (rest : List Char),
      (writeItems level (.item value items)).length ≤ fuel →
      readItems (fuel + 1)
          (writeItems level (.item value items) ++ (newLine outer ++ ']' :: rest)) =
        (.item value items, rest)
  | value, .done, hvalue, _, level, outer, fuel, rest, hfuel => by
    have hlength : (writeValue level value).length + 1 ≤ fuel := by
      simp [writeItems, newLine] at hfuel
      omega
    obtain ⟨fuel, rfl⟩ : ∃ n, fuel = n + 1 := ⟨fuel - 1, by omega⟩
    have htext : skipBlanks (newLine outer ++ ']' :: rest) = ']' :: rest := by
      rw [skipBlanks_newLine, skipBlanks_cons (by decide)]
    have hread : readValue (fuel + 1) (writeItems level (.item value .done) ++
        (newLine outer ++ ']' :: rest)) = (value, newLine outer ++ ']' :: rest) := by
      rw [writeItems, List.append_assoc, readValue_newLine]
      exact readValue_writeValue value hvalue level fuel _ (by omega)
    exact readItems_last hread htext
  | value, .item next items, hvalue, hitems, level, outer, fuel, rest, hfuel => by
    have hlength : (writeValue level value).length + 1 ≤ fuel ∧
        (writeItems level (.item next items)).length + 1 ≤ fuel := by
      simp [writeItems, newLine] at hfuel
      omega
    obtain ⟨fuel, rfl⟩ : ∃ n, fuel = n + 1 := ⟨fuel - 1, by omega⟩
    have hrest := readItems_writeItems next items hitems.1 hitems.2 level outer fuel rest (by omega)
    have hwritten : writeItems level (.item value (.item next items)) = newLine level ++
        (writeValue level value ++ (',' :: writeItems level (.item next items))) := by
      simp [writeItems]
    rw [hwritten, List.append_assoc, List.append_assoc]
    refine readItems_more ?_ (skipBlanks_cons (by decide) _) hrest
    rw [readValue_newLine]
    exact readValue_writeValue value hvalue level fuel _ (by omega)
termination_by value items => sizeOf value + sizeOf items

/-- The members of a printed object are read up to the brace that closes it. -/
theorem readMembers_writeMembers : ∀ (name : List Char) (value : Json) (members : Members),
    (∃ text, name = escape text) → value.Textual → members.Textual →
    ∀ (level outer fuel : Nat) (rest : List Char),
      (writeMembers level (.member name value members)).length ≤ fuel →
      readMembers (fuel + 1) (writeMembers level (.member name value members) ++
          (newLine outer ++ '\x7d' :: rest)) = (.member name value members, rest)
  | _, value, .done, ⟨text, rfl⟩, hvalue, _, level, outer, fuel, rest, hfuel => by
    have hlength : (writeValue level value).length + 1 ≤ fuel := by
      simp [writeMembers, newLine] at hfuel
      omega
    obtain ⟨fuel, rfl⟩ : ∃ n, fuel = n + 1 := ⟨fuel - 1, by omega⟩
    have htext : skipBlanks (newLine outer ++ '\x7d' :: rest) = '\x7d' :: rest := by
      rw [skipBlanks_newLine, skipBlanks_cons (by decide)]
    have hwritten : writeMembers level (.member (escape text) value .done) ++
        (newLine outer ++ '\x7d' :: rest) = newLine level ++ (quoted (escape text) ++
          (':' :: ' ' :: (writeValue level value ++ (newLine outer ++ '\x7d' :: rest)))) := by
      simp [writeMembers]
    rw [hwritten]
    refine readMembers_last (skipBlanks_writeMember level _ _) (scanString_escape text _)
      (skipBlanks_cons (by decide) _) ?_ htext
    rw [readValue_blank]
    exact readValue_writeValue value hvalue level fuel _ (by omega)
  | _, value, .member next found members, ⟨text, rfl⟩, hvalue, ⟨hnext, hfound, hmembers⟩, level,
      outer, fuel, rest, hfuel => by
    have hlength : (writeValue level value).length + 1 ≤ fuel ∧
        (writeMembers level (.member next found members)).length + 1 ≤ fuel := by
      simp [writeMembers, newLine] at hfuel
      omega
    obtain ⟨fuel, rfl⟩ : ∃ n, fuel = n + 1 := ⟨fuel - 1, by omega⟩
    have hrest := readMembers_writeMembers next found members hnext hfound hmembers level outer
      fuel rest (by omega)
    have hwritten : writeMembers level (.member (escape text) value (.member next found members)) ++
        (newLine outer ++ '\x7d' :: rest) = newLine level ++ (quoted (escape text) ++
          (':' :: ' ' :: (writeValue level value ++ (',' ::
            (writeMembers level (.member next found members) ++
              (newLine outer ++ '\x7d' :: rest)))))) := by
      simp [writeMembers]
    rw [hwritten]
    refine readMembers_more (skipBlanks_writeMember level _ _) (scanString_escape text _)
      (skipBlanks_cons (by decide) _) ?_ (skipBlanks_cons (by decide) _) hrest
    rw [readValue_blank]
    exact readValue_writeValue value hvalue level fuel _ (by omega)
termination_by _ value members => sizeOf value + sizeOf members

end

/-- The text of a document reads back as the whole document. -/
theorem read_pretty {value : Json} (h : value.Textual) : read (pretty value) = ⟨value, true⟩ := by
  have hread := readValue_writeValue value h 0 (2 * (writeValue 0 value).length + 1) [] (by omega)
  rw [List.append_nil] at hread
  simp [read, pretty, hread, skipBlanks]

end ContractDeploy.Json
