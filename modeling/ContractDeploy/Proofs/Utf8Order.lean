import ContractDeploy.Proofs.HexText

/-!
# The order of names

Names are ordered by their characters. That is also the order of their UTF-8 bytes: of two
characters the smaller one has the smaller bytes, and the bytes of neither begin with those of the
other.
-/

namespace ContractDeploy

/-- Byte strings that differ, the first with the smaller byte where they do so for the first
time. -/
inductive Bytes.Below : Bytes → Bytes → Prop where
  /-- They differ at once. -/
  | here {x y : UInt8} {a b : Bytes} (h : x < y) : Below (x :: a) (y :: b)
  /-- They begin with the same byte. -/
  | there {x : UInt8} {a b : Bytes} (h : Below a b) : Below (x :: a) (x :: b)

/-- What stands behind such byte strings does not matter for their order. -/
theorem Bytes.Below.append_lt {a b : Bytes} (h : Bytes.Below a b) (moreA moreB : Bytes) :
    a ++ moreA < b ++ moreB := by
  induction h with
  | here h => exact List.Lex.rel h
  | there _ ih => exact List.Lex.cons ih

theorem Bytes.below_of_digits {m n : Nat} {a b : Bytes} (hn : n < 256)
    (h : m < n ∨ m = n ∧ Bytes.Below a b) :
    Bytes.Below (UInt8.ofNat m :: a) (UInt8.ofNat n :: b) := by
  rcases h with hlt | ⟨rfl, hbelow⟩
  · refine .here ?_
    rw [UInt8.lt_iff_toNat_lt, UInt8.toNat_ofNat', UInt8.toNat_ofNat']
    omega
  · exact .there hbelow

theorem toNat_val_lt (c : Char) : c.val.toNat < 1114112 := by
  have hvalid : c.val.toNat < 55296 ∨ 57343 < c.val.toNat ∧ c.val.toNat < 1114112 := c.valid
  omega

section Codes

variable {m n : Nat}

theorem below_last (h : m % 64 < n % 64) :
    Bytes.Below [UInt8.ofNat (m % 64 + 128)] [UInt8.ofNat (n % 64 + 128)] :=
  Bytes.below_of_digits (by omega) (.inl (by omega))

theorem below_two (h : m < n) (hn : n ≤ 2047) :
    Bytes.Below [UInt8.ofNat (m / 64 % 32 + 192), UInt8.ofNat (m % 64 + 128)]
      [UInt8.ofNat (n / 64 % 32 + 192), UInt8.ofNat (n % 64 + 128)] := by
  refine Bytes.below_of_digits (by omega) ?_
  by_cases hfirst : m / 64 = n / 64
  · exact .inr ⟨by omega, below_last (by omega)⟩
  · exact .inl (by omega)

theorem below_lastTwo (h : m % 4096 < n % 4096) :
    Bytes.Below [UInt8.ofNat (m / 64 % 64 + 128), UInt8.ofNat (m % 64 + 128)]
      [UInt8.ofNat (n / 64 % 64 + 128), UInt8.ofNat (n % 64 + 128)] := by
  refine Bytes.below_of_digits (by omega) ?_
  by_cases hfirst : m / 64 % 64 = n / 64 % 64
  · exact .inr ⟨by omega, below_last (by omega)⟩
  · exact .inl (by omega)

theorem below_three (h : m < n) (hn : n ≤ 65535) :
    Bytes.Below [UInt8.ofNat (m / 4096 % 16 + 224), UInt8.ofNat (m / 64 % 64 + 128),
        UInt8.ofNat (m % 64 + 128)]
      [UInt8.ofNat (n / 4096 % 16 + 224), UInt8.ofNat (n / 64 % 64 + 128),
        UInt8.ofNat (n % 64 + 128)] := by
  refine Bytes.below_of_digits (by omega) ?_
  by_cases hfirst : m / 4096 = n / 4096
  · exact .inr ⟨by omega, below_lastTwo (by omega)⟩
  · exact .inl (by omega)

theorem below_lastThree (h : m % 262144 < n % 262144) :
    Bytes.Below [UInt8.ofNat (m / 4096 % 64 + 128), UInt8.ofNat (m / 64 % 64 + 128),
        UInt8.ofNat (m % 64 + 128)]
      [UInt8.ofNat (n / 4096 % 64 + 128), UInt8.ofNat (n / 64 % 64 + 128),
        UInt8.ofNat (n % 64 + 128)] := by
  refine Bytes.below_of_digits (by omega) ?_
  by_cases hfirst : m / 4096 % 64 = n / 4096 % 64
  · exact .inr ⟨by omega, below_lastTwo (by omega)⟩
  · exact .inl (by omega)

theorem below_four (h : m < n) (hn : n < 1114112) :
    Bytes.Below [UInt8.ofNat (m / 262144 % 8 + 240), UInt8.ofNat (m / 4096 % 64 + 128),
        UInt8.ofNat (m / 64 % 64 + 128), UInt8.ofNat (m % 64 + 128)]
      [UInt8.ofNat (n / 262144 % 8 + 240), UInt8.ofNat (n / 4096 % 64 + 128),
        UInt8.ofNat (n / 64 % 64 + 128), UInt8.ofNat (n % 64 + 128)] := by
  refine Bytes.below_of_digits (by omega) ?_
  by_cases hfirst : m / 262144 = n / 262144
  · exact .inr ⟨by omega, below_lastThree (by omega)⟩
  · exact .inl (by omega)

end Codes

/-- The bytes of the smaller of two characters are below those of the other. -/
theorem below_utf8EncodeChar {c d : Char} (h : c < d) :
    Bytes.Below (String.utf8EncodeChar c) (String.utf8EncodeChar d) := by
  have hlt : c.val.toNat < d.val.toNat := h
  have hd := toNat_val_lt d
  simp only [String.utf8EncodeChar]
  generalize c.val.toNat = m at hlt
  generalize d.val.toNat = n at hlt hd
  -- A longer code has the larger first byte, so only codes of one length are compared further.
  split
  · split
    · exact Bytes.below_of_digits (by omega) (.inl hlt)
    · split
      · exact Bytes.below_of_digits (by omega) (.inl (by omega))
      · split <;> exact Bytes.below_of_digits (by omega) (.inl (by omega))
  · rw [if_neg (show ¬ n ≤ 127 by omega)]
    split
    · split
      · next hn => exact below_two hlt hn
      · split <;> exact Bytes.below_of_digits (by omega) (.inl (by omega))
    · rw [if_neg (show ¬ n ≤ 2047 by omega)]
      split
      · split
        · next hn => exact below_three hlt hn
        · exact Bytes.below_of_digits (by omega) (.inl (by omega))
      · rw [if_neg (show ¬ n ≤ 65535 by omega)]
        exact below_four hlt hd

theorem flatMap_utf8EncodeChar_lt {a b : List Char} (h : a < b) :
    a.flatMap String.utf8EncodeChar < b.flatMap String.utf8EncodeChar := by
  induction h with
  | @nil c b =>
    rw [List.flatMap_cons]
    cases hcode : String.utf8EncodeChar c with
    | nil => exact absurd hcode String.utf8EncodeChar_ne_nil
    | cons byte bytes => exact List.Lex.nil
  | cons _ ih =>
    rw [List.flatMap_cons, List.flatMap_cons]
    exact List.append_left_lt ih
  | rel h =>
    rw [List.flatMap_cons, List.flatMap_cons]
    exact (below_utf8EncodeChar h).append_lt _ _

/-- Names in increasing order are in increasing order of their bytes. -/
theorem Bytes.ofString_lt {a b : String} (h : a < b) : Bytes.ofString a < Bytes.ofString b := by
  have hchars : a.toList < b.toList := h
  have hbytes := flatMap_utf8EncodeChar_lt hchars
  rwa [← Bytes.ofString_ofList, ← Bytes.ofString_ofList, String.ofList_toList,
    String.ofList_toList] at hbytes

end ContractDeploy
