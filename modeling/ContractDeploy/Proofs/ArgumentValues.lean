import ContractDeploy.Abi.Calldata
import ContractDeploy.Proofs.AbiDecoding
import ContractDeploy.Proofs.DigitText
import ContractDeploy.Proofs.Runs
import Mathlib.Data.Option.Basic

/-!
# What arguments are read as

What an argument of a known type is read as is a value of that type, so its encoding reads back.
Nor is it too large for that: the characters of an argument bound the bytes of its encoding and the
numbers of elements in it. Scanners are followed to where they stop. What each of them leaves is an
end of the text that it was given, and what it takes pays for the value that it gives.
-/

namespace ContractDeploy

namespace Abi

/-! ## Rests of a line -/

/-- What a text leaves on its line: whatever was taken off its start holds no line feed. -/
def SameLine (rest text : List Char) : Prop := ∃ taken, '\n' ∉ taken ∧ taken ++ rest = text

namespace SameLine

variable {rest middle text : List Char}

theorem refl (text : List Char) : SameLine text text := ⟨[], List.not_mem_nil, rfl⟩

theorem trans (h : SameLine rest middle) (hmiddle : SameLine middle text) :
    SameLine rest text := by
  obtain ⟨last, hlast, rfl⟩ := h
  obtain ⟨first, hfirst, rfl⟩ := hmiddle
  refine ⟨first ++ last, ?_, List.append_assoc _ _ _⟩
  rw [List.mem_append, not_or]
  exact ⟨hfirst, hlast⟩

theorem cons {c : Char} (hc : c ≠ '\n') (text : List Char) : SameLine text (c :: text) :=
  ⟨[c], by simpa using hc.symm, rfl⟩

theorem dropWhile {p : Char → Bool} (hp : p '\n' = false) (text : List Char) :
    SameLine (text.dropWhile p) text := by
  refine ⟨text.takeWhile p, fun hmem => ?_, List.takeWhile_append_dropWhile⟩
  rw [List.mem_takeWhile_imp hmem] at hp
  cases hp

theorem suffix (h : SameLine rest text) : rest <:+ text := by
  obtain ⟨taken, -, rfl⟩ := h
  exact List.suffix_append _ _

theorem length_le (h : SameLine rest text) : rest.length ≤ text.length := h.suffix.length_le

end SameLine

/-! ## Numbers -/

section Numbers

variable {base bits : Nat} {text rest : List Char}

theorem skipSpace_sameLine (text : List Char) : SameLine (skipSpace text) text :=
  .dropWhile (by decide) text

theorem scanDigitsIn_sameLine {digits : List Char}
    (h : scanDigitsIn base text = some (digits, rest)) : SameLine rest text := by
  unfold scanDigitsIn at h
  split at h
  · cases h
  · cases h
    exact .dropWhile rfl text

theorem scanDigitsIn_map_sameLine {α : Type} {f : List Char × List Char → α × List Char} {found : α}
    (hf : ∀ digits after, (f (digits, after)).2 = after)
    (h : (scanDigitsIn base text).map f = some (found, rest)) : SameLine rest text := by
  obtain ⟨⟨digits, after⟩, hdigits, hpair⟩ := Option.map_eq_some_iff.1 h
  have hrest : rest = after := (congrArg Prod.snd hpair).symm.trans (hf digits after)
  rw [hrest]
  exact scanDigitsIn_sameLine hdigits

theorem scanNatural_sameLine {n : Nat} (h : scanNatural text = some (n, rest)) :
    SameLine rest text := by
  unfold scanNatural at h
  split at h
  · next marker after =>
    split at h
    · next marked hmarked =>
      obtain ⟨⟨digits, left⟩, hdigits, h⟩ := Option.bind_eq_some_iff.1 h
      obtain ⟨-, -, h⟩ := Option.bind_eq_some_iff.1 h
      cases h
      have hmarker : marker ≠ '\n' := by
        rintro rfl
        cases hmarked
      exact (scanDigitsIn_sameLine hdigits).trans
        ((SameLine.cons hmarker after).trans (.cons (by decide) _))
    · exact scanDigitsIn_map_sameLine (fun _ _ => rfl) h
  · exact scanDigitsIn_map_sameLine (fun _ _ => rfl) h

theorem scanPoint_sameLine {fraction : Option (List Char)}
    (h : scanPoint text = some (fraction, rest)) : SameLine rest text := by
  unfold scanPoint at h
  split at h
  · exact (scanDigitsIn_map_sameLine (fun _ _ => rfl) h).trans (.cons (by decide) _)
  · cases h
    exact .refl _

theorem scanExponentValue_sameLine {exponent : Int}
    (h : scanExponentValue text = some (exponent, rest)) : SameLine rest text := by
  unfold scanExponentValue at h
  split at h
  · cases h
    exact .cons (by decide) _
  · split at h
    · cases h
    · exact (scanDigitsIn_map_sameLine (fun _ _ => rfl) h).trans (.cons (by decide) _)
  · split at h
    · cases h
    · exact (scanDigitsIn_map_sameLine (fun _ _ => rfl) h).trans (.cons (by decide) _)
  · exact scanDigitsIn_map_sameLine (fun _ _ => rfl) h

theorem scanExponent_sameLine (text : List Char) : SameLine (scanExponent text).2 text := by
  unfold scanExponent
  split
  · next letter after =>
    split
    · next hletter =>
      cases hvalue : scanExponentValue after with
      | none => exact .refl _
      | some found =>
        have hfeed : letter ≠ '\n' := by
          rintro rfl
          exact absurd hletter (by decide)
        exact (scanExponentValue_sameLine hvalue).trans (.cons hfeed _)
    · exact .refl _
  · exact .refl _

theorem fitting_lt {n m : Nat} (h : fitting n = some m) : m < Bytes.capacity 32 := by
  unfold fitting at h
  split at h
  · next hfits =>
    cases h
    exact hfits
  · cases h

theorem scaledValue?_lt {integer value : Nat} {fraction : Option (List Char)} {scale : Int}
    (h : scaledValue? integer fraction scale = some value) : value < Bytes.capacity 32 := by
  obtain ⟨-, -, h⟩ := Option.bind_eq_some_iff.1 h
  cases fraction with
  | none =>
    obtain ⟨power, -, h⟩ := Option.bind_eq_some_iff.1 h
    exact fitting_lt h
  | some digits =>
    obtain ⟨part, -, h⟩ := Option.bind_eq_some_iff.1 h
    obtain ⟨-, -, h⟩ := Option.bind_eq_some_iff.1 h
    obtain ⟨power, -, h⟩ := Option.bind_eq_some_iff.1 h
    obtain ⟨raised, -, h⟩ := Option.bind_eq_some_iff.1 h
    obtain ⟨whole, -, h⟩ := Option.bind_eq_some_iff.1 h
    obtain ⟨power, -, h⟩ := Option.bind_eq_some_iff.1 h
    exact fitting_lt h

theorem scanUnsigned_eq_some {n : Nat} (h : scanUnsigned bits text = some (n, rest)) :
    n < Bytes.capacity 32 ∧ SameLine rest text := by
  obtain ⟨⟨integer, afterInteger⟩, hinteger, h⟩ := Option.bind_eq_some_iff.1 h
  obtain ⟨fitted, -, h⟩ := Option.bind_eq_some_iff.1 h
  obtain ⟨⟨fraction, afterFraction⟩, hfraction, h⟩ := Option.bind_eq_some_iff.1 h
  have hexponent := scanExponent_sameLine afterFraction
  dsimp only at h
  obtain ⟨places, -, h⟩ := Option.bind_eq_some_iff.1 h
  obtain ⟨value, hvalue, h⟩ := Option.bind_eq_some_iff.1 h
  obtain ⟨-, -, h⟩ := Option.bind_eq_some_iff.1 h
  cases h
  refine ⟨scaledValue?_lt hvalue, (SameLine.dropWhile (by decide) _).trans ?_⟩
  exact (skipSpace_sameLine _).trans (hexponent.trans
    ((scanPoint_sameLine hfraction).trans (scanNatural_sameLine hinteger)))

theorem scanSigned_eq_some {n : Int} (hbits : bits ≤ 256)
    (h : scanSigned bits text = some (n, rest)) :
    -(Nat.pow 2 255 : Int) ≤ n ∧ n < Nat.pow 2 255 := by
  have hsign : Nat.pow 2 (bits - 1) ≤ Nat.pow 2 255 := Nat.pow_le_pow_right (by decide) (by omega)
  have hhalf : 0 < Nat.pow 2 255 := Nat.pow_pos (by decide)
  unfold scanSigned at h
  split at h
  · obtain ⟨⟨magnitude, after⟩, -, h⟩ := Option.bind_eq_some_iff.1 h
    obtain ⟨_, hguard, h⟩ := Option.bind_eq_some_iff.1 h
    cases h
    have hfits := (Option.guard_eq_some' _).1 hguard
    exact ⟨by omega, by omega⟩
  · obtain ⟨⟨magnitude, after⟩, -, h⟩ := Option.bind_eq_some_iff.1 h
    obtain ⟨_, hguard, h⟩ := Option.bind_eq_some_iff.1 h
    cases h
    have hfits := (Option.guard_eq_some' _).1 hguard
    exact ⟨by omega, by omega⟩

theorem scanSigned_sameLine {n : Int} (h : scanSigned bits text = some (n, rest)) :
    SameLine rest text := by
  unfold scanSigned at h
  split at h
  · obtain ⟨⟨magnitude, after⟩, hmagnitude, h⟩ := Option.bind_eq_some_iff.1 h
    obtain ⟨_, -, h⟩ := Option.bind_eq_some_iff.1 h
    cases h
    exact (scanUnsigned_eq_some hmagnitude).2.trans (.cons (by decide) _)
  · obtain ⟨⟨magnitude, after⟩, hmagnitude, h⟩ := Option.bind_eq_some_iff.1 h
    obtain ⟨_, -, h⟩ := Option.bind_eq_some_iff.1 h
    cases h
    refine (scanUnsigned_eq_some hmagnitude).2.trans ?_
    split
    · exact .cons (by decide) _
    · exact .refl _

end Numbers

/-! ## Bytes and texts -/

section Leaves

variable {text rest : List Char}

theorem length_of_decodePairs {position : Nat} {digits bytes : Bytes}
    (h : Hex.decodePairs position digits = .ok bytes) : bytes.length ≤ digits.length := by
  fun_induction Hex.decodePairs position digits generalizing bytes with
  | case1 position high low rest h l hhigh hlow ih =>
    obtain ⟨others, hothers, rfl⟩ := Except.map_eq_ok h
    have hlength := ih hothers
    simp only [List.length_cons]
    omega
  | case2 => cases h
  | case3 => cases h
  | case4 => cases h
  | case5 => cases h; exact Nat.le_refl 0

theorem length_textBytes_le (text : List Char) : (textBytes text).length ≤ 4 * text.length := by
  induction text with
  | nil => exact Nat.le_refl 0
  | cons c text ih =>
    have hsize := c.utf8Size_le_four
    rw [length_textBytes_cons, List.length_cons]
    omega

theorem length_of_decode {digits : List Char} {bytes : Bytes}
    (h : Hex.decode (String.ofList digits) = .ok bytes) : bytes.length ≤ 4 * digits.length := by
  have hmarker : ∀ text : Bytes, (Hex.dropMarker text).length ≤ text.length := by
    intro text
    unfold Hex.dropMarker
    split
    · exact ((List.suffix_cons _ _).trans (List.suffix_cons _ _)).length_le
    · exact Nat.le_refl _
  rw [Hex.decode, Bytes.ofString_ofList] at h
  unfold Hex.decodeBytes at h
  split at h
  · cases h
  · exact (length_of_decodePairs h).trans ((hmarker _).trans (length_textBytes_le digits))

theorem length_takeWhile_add (p : Char → Bool) (text : List Char) :
    (text.takeWhile p).length + (text.dropWhile p).length = text.length := by
  rw [← List.length_append, List.takeWhile_append_dropWhile]

theorem dropMarker_sameLine (text : List Char) : SameLine (dropMarker text).2 text := by
  unfold dropMarker
  split
  · exact (SameLine.cons (by decide) _).trans (.cons (by decide) _)
  · exact .refl _

theorem scanBytes_sameLine {bytes : Bytes} (h : scanBytes text = some (bytes, rest)) :
    SameLine rest text := by
  have hmarker := dropMarker_sameLine text
  unfold scanBytes at h
  generalize dropMarker text = marked at h hmarker
  obtain ⟨isMarked, digits⟩ := marked
  dsimp only at h hmarker
  split at h
  · cases h
  · split at h
    · cases h
      exact (SameLine.dropWhile rfl _).trans hmarker
    · cases h

theorem scanFixedBytes_sameLine {size : Nat} {bytes : Bytes}
    (h : scanFixedBytes size text = some (bytes, rest)) : SameLine rest text := by
  obtain ⟨⟨found, after⟩, hfound, h⟩ := Option.bind_eq_some_iff.1 h
  obtain ⟨_, -, h⟩ := Option.bind_eq_some_iff.1 h
  cases h
  exact scanBytes_sameLine hfound

theorem scanBytes_length {bytes : Bytes} (h : scanBytes text = some (bytes, rest)) :
    bytes.length + 4 * rest.length ≤ 4 * text.length := by
  have hmarker := (dropMarker_sameLine text).length_le
  unfold scanBytes at h
  generalize dropMarker text = marked at h hmarker
  obtain ⟨isMarked, digits⟩ := marked
  dsimp only at h hmarker
  split at h
  · cases h
  · split at h
    · next found hdecode =>
      cases h
      have hpairs := length_of_decode hdecode
      have hcut := length_takeWhile_add (fun c => (Hex.value? c.toNat).isSome) digits
      omega
    · cases h

theorem scanFixedBytes_length {size : Nat} {bytes : Bytes}
    (h : scanFixedBytes size text = some (bytes, rest)) :
    bytes.length = size ∧ bytes.length + 4 * rest.length ≤ 4 * text.length := by
  obtain ⟨⟨found, after⟩, hfound, h⟩ := Option.bind_eq_some_iff.1 h
  obtain ⟨_, hguard, h⟩ := Option.bind_eq_some_iff.1 h
  cases h
  exact ⟨(Option.guard_eq_some' _).1 hguard, scanBytes_length hfound⟩

theorem scanBool_sameLine {value : Bool} (h : scanBool text = some (value, rest)) :
    SameLine rest text := by
  unfold scanBool at h
  split at h
  · cases h
    exact .dropWhile (by decide) text
  · cases h
    exact .dropWhile (by decide) text
  · cases h

theorem length_trimEnd_le (text : List Char) : (Text.trimEnd text).length ≤ text.length := by
  rw [Text.trimEnd, List.length_reverse]
  have h := (List.dropWhile_suffix (l := text.reverse) Text.isBlank).length_le
  rwa [List.length_reverse] at h

theorem scanText_length {close : Option Char} {chars : List Char}
    (h : scanText close text = some (chars, rest)) :
    chars.length + rest.length ≤ text.length := by
  unfold scanText at h
  split at h
  · cases h
    exact Nat.le_refl 0
  · next c after =>
    split at h
    · split at h
      · cases h
      · next behind hdrop =>
        cases h
        have hcut := length_takeWhile_add (fun d => decide (d ≠ c)) after
        rw [hdrop, List.length_cons] at hcut
        rw [List.length_cons]
        omega
    · split at h
      · cases h
        exact length_trimEnd_le _
      · next bracket =>
        dsimp only at h
        split at h
        · cases h
        · next htake =>
          cases h
          have htrim := length_trimEnd_le ((c :: after).takeWhile fun d => d ≠ ',' && d ≠ bracket)
          have hcut := length_takeWhile_add (fun d => d ≠ ',' && d ≠ bracket) (c :: after)
          omega

end Leaves

/-! ## Paying for values -/

/-- A scanner takes values of a kind off the start of a text, and the characters that it takes pay
for the room that the values need. One character more than it takes is counted, since the text of a
value may be empty; in a list the comma or the bracket behind the value makes up for it. -/
def Scans (admits : AbiValue → Prop) (scanner : List Char → Option (AbiValue × List Char)) : Prop :=
  ∀ text value rest, scanner text = some (value, rest) →
    admits value ∧ value.weight + 96 * rest.length ≤ 96 * (text.length + 1)

section Lists

variable {admits : AbiValue → Prop} {text rest : List Char} {values : List AbiValue}

theorem length_of_scanChar {c : Char} (h : scanChar c text = some rest) :
    rest.length + 1 = text.length := by
  cases text with
  | nil => cases h
  | cons d after =>
    rw [scanChar] at h
    split at h
    · cases h
      rfl
    · cases h

theorem length_skipSpace_le (text : List Char) : (skipSpace text).length ≤ text.length :=
  (skipSpace_sameLine text).length_le

theorem Scans.elements {element : List Char → Option (AbiValue × List Char)}
    (h : Scans admits element) {fuel : Nat}
    (hscan : scanElements element fuel text = (values, rest)) :
    (∀ value ∈ values, admits value) ∧
      weights values + 96 * rest.length ≤ 96 * (text.length + 1) := by
  induction fuel generalizing text values rest with
  | zero =>
    cases hscan
    exact ⟨nofun, by rw [weights]; omega⟩
  | succ fuel ih =>
    rw [scanElements] at hscan
    split at hscan
    · cases hscan
      exact ⟨nofun, by rw [weights]; omega⟩
    · next first after hfirst =>
      obtain ⟨hadmits, hweight⟩ := h _ _ _ hfirst
      have halone : (∀ value ∈ [first], admits value) ∧
          weights [first] + 96 * after.length ≤ 96 * (text.length + 1) :=
        ⟨by simpa using hadmits, by simpa [weights] using hweight⟩
      split at hscan
      · cases hscan
        exact halone
      · next behind hcomma =>
        have hlength := length_of_scanChar hcomma
        have hspace := length_skipSpace_le behind
        split at hscan
        · cases hscan
          exact halone
        · next others left hothers hscanned =>
          cases hscan
          obtain ⟨hall, htotal⟩ := ih hscanned
          refine ⟨List.forall_mem_cons.2 ⟨hadmits, hall⟩, ?_⟩
          rw [weights]
          omega

theorem Scans.listBody {element : List Char → Option (AbiValue × List Char)} {closing : Char}
    (h : Scans admits element) (hscan : scanListBody closing element text = some (values, rest)) :
    (∀ value ∈ values, admits value) ∧ weights values + 96 * rest.length ≤ 96 * text.length := by
  have hspace := length_skipSpace_le text
  unfold scanListBody at hscan
  dsimp only at hscan
  split at hscan
  · next after hclosing =>
    cases hscan
    have hlength := length_of_scanChar hclosing
    exact ⟨nofun, by rw [weights]; omega⟩
  · split at hscan
    · cases hscan
    · next elements left hnonempty hscanned =>
      obtain ⟨hall, htotal⟩ := h.elements hscanned
      obtain ⟨after, hafter, hpair⟩ := Option.map_eq_some_iff.1 hscan
      cases hpair
      have hcomma : ((scanChar ',' left).getD left).length ≤ left.length := by
        cases hchar : scanChar ',' left with
        | none => exact Nat.le_refl _
        | some behind =>
          have hlength := length_of_scanChar hchar
          show behind.length ≤ left.length
          omega
      have hclosing := length_of_scanChar hafter
      have hskip := length_skipSpace_le ((scanChar ',' left).getD left)
      exact ⟨hall, by omega⟩

theorem Scans.array {element : Nat → List Char → Option (AbiValue × List Char)} {room : Nat}
    (h : ∀ room, Scans admits (element room))
    (hscan : scanArray room element text = some (values, rest)) :
    (∀ value ∈ values, admits value) ∧
      weights values + 96 * (rest.length + 1) ≤ 96 * text.length := by
  obtain ⟨inner, hopen, hbody⟩ := Option.bind_eq_some_iff.1 hscan
  have hbracket := length_of_scanChar hopen
  have hinside : Scans admits (scanInside room element) := by
    cases room with
    | zero => exact nofun
    | succ room => exact h room
  obtain ⟨hall, htotal⟩ := hinside.listBody hbody
  exact ⟨hall, by omega⟩

end Lists

end Abi

open Abi

/-! ## Values of a type -/

mutual

/-- The widths of a type fit a word. -/
def AbiType.Fits : AbiType → Prop
  | .uint bits => bits ≤ 256
  | .int bits => bits ≤ 256
  | .fixedBytes size => 0 < size ∧ size ≤ 32
  | .array element => element.Fits
  | .fixedArray element _ => element.Fits
  | .tuple members => AllFit members
  | _ => True

/-- The widths of types fit a word. -/
def AllFit : List AbiType → Prop
  | [] => True
  | type :: types => type.Fits ∧ AllFit types

end

namespace Abi

/-- A scanner whose results are made into values. -/
theorem Scans.ofMap {α : Type} {admits : AbiValue → Prop}
    {scanner : List Char → Option (α × List Char)} {make : α → AbiValue}
    {f : α × List Char → AbiValue × List Char}
    (hf : ∀ found after, f (found, after) = (make found, after))
    (h : ∀ text found rest, scanner text = some (found, rest) →
      admits (make found) ∧ (make found).weight + 96 * rest.length ≤ 96 * (text.length + 1)) :
    Scans admits fun text => (scanner text).map f := by
  intro text value rest hscan
  obtain ⟨⟨found, after⟩, hfound, hpair⟩ := Option.map_eq_some_iff.1 hscan
  cases (hf found after).symm.trans hpair
  exact h text found _ hfound

/-- The first member of a tuple begins behind the comma in front of it, unless it comes first. -/
theorem scanMembersOf_cons {type : AbiType} {types : List AbiType} {room : Nat} {atFirst : Bool}
    {text rest : List Char} {values : List AbiValue}
    (h : scanMembersOf (type :: types) room atFirst text = some (values, rest)) :
    ∃ start value after others, SameLine start text ∧
      start.length + 1 ≤ text.length + atFirst.toNat ∧
      scanValue type room (some ')') (skipSpace start) = some (value, after) ∧
      scanMembersOf types room false after = some (others, rest) ∧ values = value :: others := by
  obtain ⟨start, hline, hbegin, h⟩ : ∃ start, SameLine start text ∧
      start.length + 1 ≤ text.length + atFirst.toNat ∧
      ((scanValue type room (some ')') (skipSpace start)).bind fun found =>
        (scanMembersOf types room false found.2).bind fun others =>
          some (found.1 :: others.1, others.2)) = some (values, rest) := by
    rw [scanMembersOf] at h
    cases atFirst with
    | true => exact ⟨text, .refl text, Nat.le_refl _, h⟩
    | false =>
      have hspace := skipSpace_sameLine text
      rw [if_neg Bool.false_ne_true] at h
      split at h
      · next behind hcomma =>
        rw [hcomma] at hspace
        exact ⟨behind, (SameLine.cons (by decide) behind).trans hspace, hspace.length_le, h⟩
      · cases h
  obtain ⟨⟨value, after⟩, hscan, h⟩ := Option.bind_eq_some_iff.1 h
  obtain ⟨⟨others, left⟩, hscanned, h⟩ := Option.bind_eq_some_iff.1 h
  cases h
  exact ⟨start, value, after, others, hline, hbegin, hscan, hscanned, rfl⟩

mutual

/-- What is scanned as a value of a type is one. -/
theorem scanValue_scans : ∀ (type : AbiType), type.Fits → ∀ (room : Nat) (close : Option Char),
    Scans type.Admits (scanValue type room close)
  | .uint bits, _, room, close => .ofMap (fun _ _ => rfl) fun text n rest h => by
    obtain ⟨hword, hline⟩ := scanUnsigned_eq_some h
    have hlength := hline.length_le
    exact ⟨.uint hword, by simp only [AbiValue.weight]; omega⟩
  | .int bits, hfits, room, close => .ofMap (fun _ _ => rfl) fun text n rest h => by
    obtain ⟨hlow, hhigh⟩ := scanSigned_eq_some hfits h
    have hlength := (scanSigned_sameLine h).length_le
    exact ⟨.int hlow hhigh, by simp only [AbiValue.weight]; omega⟩
  | .bool, _, room, close => .ofMap (fun _ _ => rfl) fun text n rest h => by
    have hlength := (scanBool_sameLine h).length_le
    exact ⟨.bool n, by simp only [AbiValue.weight]; omega⟩
  | .address, _, room, close => by
    intro text value rest h
    obtain ⟨⟨bytes, after⟩, hscan, h⟩ := Option.bind_eq_some_iff.1 h
    obtain ⟨address, -, h⟩ := Option.bind_eq_some_iff.1 h
    cases h
    obtain ⟨-, hlength⟩ := scanFixedBytes_length hscan
    exact ⟨.address address, by simp only [AbiValue.weight]; omega⟩
  | .function, _, room, close => .ofMap (fun _ _ => rfl) fun text bytes rest h => by
    obtain ⟨hsize, hlength⟩ := scanFixedBytes_length h
    exact ⟨.function hsize, by simp only [AbiValue.weight]; omega⟩
  | .fixedBytes size, hfits, room, close => .ofMap (fun _ _ => rfl) fun text bytes rest h => by
    obtain ⟨hsize, hlength⟩ := scanFixedBytes_length h
    exact ⟨.fixedBytes hsize hfits.1 hfits.2, by simp only [AbiValue.weight]; omega⟩
  | .bytes, _, room, close => .ofMap (fun _ _ => rfl) fun text bytes rest h => by
    have hlength := scanBytes_length h
    exact ⟨.bytes bytes, by simp only [AbiValue.weight]; omega⟩
  | .string, _, room, close => .ofMap (fun _ _ => rfl) fun text chars rest h => by
    have hlength := scanText_length h
    have hbytes := length_textBytes_le chars
    have hstring : Bytes.ofString (String.ofList chars) = textBytes chars :=
      Bytes.ofString_ofList chars
    exact ⟨.string _, by simp only [AbiValue.weight, hstring]; omega⟩
  | .array element, hfits, room, close => by
    intro text value rest h
    have helement := fun room => scanValue_scans element hfits room (some ']')
    obtain ⟨⟨elements, after⟩, hscan, h⟩ := Option.bind_eq_some_iff.1 h
    cases h
    obtain ⟨hall, htotal⟩ := Scans.array helement hscan
    exact ⟨.array hall, by simp only [AbiValue.weight]; omega⟩
  | .fixedArray element length, hfits, room, close => by
    intro text value rest h
    have helement := fun room => scanValue_scans element hfits room (some ']')
    obtain ⟨⟨elements, after⟩, hscan, h⟩ := Option.bind_eq_some_iff.1 h
    obtain ⟨_, hguard, h⟩ := Option.bind_eq_some_iff.1 h
    cases h
    obtain ⟨hall, htotal⟩ := Scans.array helement hscan
    exact ⟨.fixedArray ((Option.guard_eq_some' _).1 hguard) hall, by
      simp only [AbiValue.weight]; omega⟩
  | .tuple members, hfits, room, close => by
    intro text value rest h
    have hmembers := scanMembersOf_scans members hfits room true
    have hspace := length_skipSpace_le text
    rw [scanValue] at h
    split at h
    · next inner hopen =>
      obtain ⟨⟨values, after⟩, hscan, h⟩ := Option.bind_eq_some_iff.1 h
      obtain ⟨hall, htotal⟩ := hmembers _ _ _ hscan
      have hafter := length_skipSpace_le after
      dsimp only at h
      split at h
      · next behind hclose =>
        cases h
        rw [hopen, List.length_cons] at hspace
        rw [hclose, List.length_cons] at hafter
        rw [Bool.toNat_true] at htotal
        exact ⟨.tuple hall, by simp only [AbiValue.weight]; omega⟩
      · cases h
    · cases h

/-- What is scanned as the members of a tuple are values of their types. The commas between them
pay for one more character each. -/
theorem scanMembersOf_scans : ∀ (types : List AbiType), AllFit types → ∀ (room : Nat)
    (atFirst : Bool) (text : List Char) (values : List AbiValue) (rest : List Char),
    scanMembersOf types room atFirst text = some (values, rest) →
      AllAdmit types values ∧
        weights values + 96 * rest.length ≤ 96 * (text.length + atFirst.toNat)
  | [], _, room, atFirst, text, values, rest, h => by
    rw [scanMembersOf] at h
    cases h
    exact ⟨.nil, by rw [weights]; omega⟩
  | type :: types, hfits, room, atFirst, text, values, rest, h => by
    have hvalue := scanValue_scans type hfits.1 room (some ')')
    have hvalues := scanMembersOf_scans types hfits.2 room false
    obtain ⟨start, value, after, others, -, hbegin, hscan, hscanned, rfl⟩ := scanMembersOf_cons h
    obtain ⟨hadmits, hweight⟩ := hvalue _ _ _ hscan
    obtain ⟨hall, htotal⟩ := hvalues _ _ _ hscanned
    have hspace := length_skipSpace_le start
    refine ⟨.cons hadmits hall, ?_⟩
    rw [Bool.toNat_false] at htotal
    rw [weights]
    omega

end

/-- What an argument is read as is a value of its type, and the characters of the argument pay for
the room that it needs. -/
theorem readValue?_eq_some {type : AbiType} {arg : String} {value : AbiValue} (hfits : type.Fits)
    (h : readValue? type arg = some value) :
    type.Admits value ∧ value.weight ≤ 96 * (arg.length + 1) := by
  unfold readValue? at h
  split at h
  · next hscan =>
    cases h
    exact scanValue_scans type hfits _ _ _ _ _ hscan
  · cases h

/-! ## Types that are known -/

theorem wrapSizes_fits {type : AbiType} {sizes : List (Option Nat)} (h : type.Fits) :
    (wrapSizes type sizes).Fits := by
  induction sizes generalizing type with
  | nil => exact h
  | cons size sizes ih =>
    cases size with
    | none => exact ih h
    | some length => exact ih h

theorem namedType?_fits {identifier : List Char} {type : AbiType}
    (h : namedType? identifier = some type) : type.Fits := by
  unfold namedType? at h
  split at h
  -- the five names without a width, and the two that mean 256 bits
  iterate 5
    · cases h
      trivial
  iterate 2
    · cases h
      exact Nat.le_refl _
  · split at h
    · split at h
      · next hwidth =>
        cases h
        simp only [Bool.and_eq_true, decide_eq_true_eq] at hwidth
        exact hwidth
      · cases h
    · split at h
      · next hwidth =>
        cases h
        simp only [Bool.and_eq_true, decide_eq_true_eq] at hwidth
        exact hwidth.1.2
      · cases h
    · split at h
      · next hwidth =>
        cases h
        simp only [Bool.and_eq_true, decide_eq_true_eq] at hwidth
        exact hwidth.1.2
      · cases h
    · cases h

mutual

theorem Stem.fits : ∀ {stem : Stem} {type : AbiType}, stem.type? = some type → type.Fits
  | .named identifier, type, h => by
    rw [Stem.type?] at h
    exact namedType?_fits h
  | .enumeration, type, h => by
    cases h
    show 8 ≤ 256
    omega
  | .list members, type, h => by
    rw [Stem.type?] at h
    obtain ⟨types, htypes, rfl⟩ := Option.map_eq_some_iff.1 h
    exact memberTypes?_fit htypes

theorem memberTypes?_fit : ∀ {members : List (Stem × List (Option Nat))} {types : List AbiType},
    memberTypes? members = some types → AllFit types
  | [], types, h => by
    cases h
    trivial
  | (stem, sizes) :: rest, types, h => by
    rw [memberTypes?] at h
    split at h
    · next type others htype hothers =>
      cases h
      exact ⟨wrapSizes_fits (Stem.fits htype), memberTypes?_fit hothers⟩
    · cases h

end

mutual

/-- The widths of a type that a parameter stands for fit a word. -/
theorem Param.fits : ∀ {param : Param} {type : AbiType}, param.resolve? = some type → type.Fits
  | .mk _ declared [], type, h => by
    rw [Param.resolve?] at h
    split at h
    · obtain ⟨stem, hstem, rfl⟩ := Option.map_eq_some_iff.1 h
      exact wrapSizes_fits (Stem.fits hstem)
    · cases h
  | .mk _ declared (first :: rest), type, h => by
    rw [Param.resolve?] at h
    split at h
    · next hfirst hrest =>
      cases h
      exact wrapSizes_fits ⟨Param.fits hfirst, resolveAll?_fit hrest⟩
    · cases h

theorem resolveAll?_fit : ∀ {params : List Param} {types : List AbiType},
    resolveAll? params = some types → AllFit types
  | [], types, h => by
    cases h
    trivial
  | first :: rest, types, h => by
    rw [resolveAll?] at h
    split at h
    · next hfirst hrest =>
      cases h
      exact ⟨Param.fits hfirst, resolveAll?_fit hrest⟩
    · cases h

end

end Abi

end ContractDeploy
