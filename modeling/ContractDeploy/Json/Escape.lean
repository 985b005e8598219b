import ContractDeploy.Hex

/-!
# String literals of JSON

What stands between the quotes of a JSON string. A control character, a quote and a backslash are
escaped; every other character stands for itself, whatever its script. The reader takes all the
escapes of the format, with characters beyond the first plane written as a pair of surrogates; a
surrogate that stands alone is no character. Main statement: what is written reads back.
-/

namespace ContractDeploy.Json

/-- A character as it is written in a string literal. -/
def escapeChar (c : Char) : List Char :=
  if c = '"' then ['\\', '"']
  else if c = '\\' then ['\\', '\\']
  else if c.toNat < 32 then
    if c.toNat = 8 then ['\\', 'b']
    else if c.toNat = 9 then ['\\', 't']
    else if c.toNat = 10 then ['\\', 'n']
    else if c.toNat = 12 then ['\\', 'f']
    else if c.toNat = 13 then ['\\', 'r']
    else ['\\', 'u', '0', '0', Hex.digit (c.toNat / 16), Hex.digit (c.toNat % 16)]
  else [c]

/-- A text as a string literal, without the quotes. -/
def escape (text : List Char) : List Char := text.flatMap escapeChar

/-- The character of a one-letter escape. -/
def simpleEscape? : Char → Option Char
  | '"' => some '"'
  | '\\' => some '\\'
  | '/' => some '/'
  | 'b' => some (Char.ofNat 8)
  | 't' => some (Char.ofNat 9)
  | 'n' => some (Char.ofNat 10)
  | 'f' => some (Char.ofNat 12)
  | 'r' => some (Char.ofNat 13)
  | _ => none

/-- The number that four hexadecimal digits denote. -/
def unit? (a b c d : Char) : Option Nat :=
  match Hex.value? a.toNat, Hex.value? b.toNat, Hex.value? c.toNat, Hex.value? d.toNat with
  | some a, some b, some c, some d => some (((a * 16 + b) * 16 + c) * 16 + d)
  | _, _, _, _ => none

/-- What one step of reading a literal yields. -/
inductive Piece where
  /-- A character that stands for itself, or a one-letter escape. -/
  | char (c : Char)
  /-- A numeric escape, still to be joined with its neighbour if it is a surrogate. -/
  | unit (code : Nat)

/-- The pieces of a string literal, if all its escapes are well formed. -/
def pieces : List Char → Option (List Piece)
  | [] => some []
  | '\\' :: 'u' :: a :: b :: c :: d :: rest =>
    match unit? a b c d with
    | some code => (pieces rest).map (.unit code :: ·)
    | none => none
  | '\\' :: letter :: rest =>
    match simpleEscape? letter with
    | some c => (pieces rest).map (.char c :: ·)
    | none => none
  | c :: rest => if c = '\\' then none else (pieces rest).map (.char c :: ·)

/-- The text that pieces spell: a high surrogate takes the low one that follows it. -/
def joinPieces : List Piece → Option (List Char)
  | [] => some []
  | .char c :: rest => (joinPieces rest).map (c :: ·)
  | .unit high :: rest =>
    if high < 0xD800 ∨ 0xE000 ≤ high then (joinPieces rest).map (Char.ofNat high :: ·)
    else
      match rest with
      | .unit low :: rest =>
        if high < 0xDC00 ∧ 0xDC00 ≤ low ∧ low < 0xE000 then
          (joinPieces rest).map
            (Char.ofNat (0x10000 + (high - 0xD800) * 0x400 + (low - 0xDC00)) :: ·)
        else none
      | _ => none

/-- The text that a string literal spells, if it spells one. -/
def unescape (literal : List Char) : Option (List Char) := (pieces literal).bind joinPieces

/-- The piece that a written character reads back as. -/
def pieceOf (c : Char) : Piece :=
  if c.toNat < 32 ∧ c.toNat ≠ 8 ∧ c.toNat ≠ 9 ∧ c.toNat ≠ 10 ∧ c.toNat ≠ 12 ∧ c.toNat ≠ 13 then
    .unit c.toNat
  else .char c

theorem unit?_control : ∀ n, n < 32 →
    unit? '0' '0' (Hex.digit (n / 16)) (Hex.digit (n % 16)) = some n := by
  decide

theorem pieces_escapeChar (c : Char) (rest : List Char) :
    pieces (escapeChar c ++ rest) = (pieces rest).map (pieceOf c :: ·) := by
  have ofNat_toNat (n : Nat) (h : c.toNat = n) : Char.ofNat n = c := by
    rw [← h, Char.ofNat_toNat]
  unfold escapeChar
  split
  · next h => subst h; simp [pieces, simpleEscape?, pieceOf]
  split
  · next h => subst h; simp [pieces, simpleEscape?, pieceOf]
  split
  · next hlt =>
    split
    · next h =>
      obtain rfl := ofNat_toNat 8 h
      rfl
    split
    · next h =>
      obtain rfl := ofNat_toNat 9 h
      rfl
    split
    · next h =>
      obtain rfl := ofNat_toNat 10 h
      rfl
    split
    · next h =>
      obtain rfl := ofNat_toNat 12 h
      rfl
    split
    · next h =>
      obtain rfl := ofNat_toNat 13 h
      rfl
    · simp [pieces, unit?_control c.toNat hlt, pieceOf, *]
  · next hq hb hlt =>
    have hp : pieceOf c = .char c := by simp [pieceOf, hlt]
    rw [hp, List.singleton_append, pieces]
    · simp [hb]
    · intro a b d e r h
      exact absurd h hb
    · intro letter r h
      exact absurd h hb

theorem pieces_escape (text : List Char) : pieces (escape text) = some (text.map pieceOf) := by
  induction text with
  | nil => rfl
  | cons c text ih =>
    rw [escape, List.flatMap_cons, pieces_escapeChar, ← escape, ih]
    rfl

theorem joinPieces_pieceOf (text : List Char) : joinPieces (text.map pieceOf) = some text := by
  induction text with
  | nil => rfl
  | cons c text ih =>
    by_cases h : c.toNat < 32 ∧ c.toNat ≠ 8 ∧ c.toNat ≠ 9 ∧ c.toNat ≠ 10 ∧ c.toNat ≠ 12 ∧
        c.toNat ≠ 13
    · have hp : pieceOf c = .unit c.toNat := if_pos h
      have hlow : c.toNat < 0xD800 := by omega
      rw [List.map_cons, hp, joinPieces.eq_def]
      simp [hlow, ih]
    · have hp : pieceOf c = .char c := if_neg h
      rw [List.map_cons, hp, joinPieces.eq_def]
      simp [ih]

/-- What is written reads back. -/
theorem unescape_escape (text : List Char) : unescape (escape text) = some text := by
  simp [unescape, pieces_escape, joinPieces_pieceOf]

end ContractDeploy.Json
