import ContractDeploy.Error
import ContractDeploy.Proofs.HexText
import Mathlib.Data.List.Basic

/-!
# Linking as overwriting

The references of an artifact are a list of places, source file by source file and library by
library, and linking goes through those of them whose library has an address. Each place either is
at fault, which ends it, or has forty digits written over what stands there. The loops over
libraries and over the places of each are one pass over that list (`linkAll_eq_foldlM`), and what a
pass leaves in a text is what the last place to cover each character wrote (`Patch.applyAll`). The
positions count bytes; in ASCII text these are the characters.
-/

namespace ContractDeploy

/-! ## Overwriting stretches of a list -/

/-- Something to be written over a list from a position on. -/
structure Patch (α : Type) where
  /-- Where it begins. -/
  position : Nat
  /-- What is written. -/
  filling : List α

/-- The last element of a list with a property, and what stands around it. -/
theorem exists_last_of_mem {α : Type} {P : α → Prop} {items : List α}
    (h : ∃ item ∈ items, P item) :
    ∃ before item after, items = before ++ item :: after ∧ P item ∧ ∀ later ∈ after, ¬ P later := by
  induction items with
  | nil =>
    obtain ⟨item, hmem, -⟩ := h
    cases hmem
  | cons first rest ih =>
    by_cases hrest : ∃ item ∈ rest, P item
    · obtain ⟨before, item, after, hitems, hitem, hafter⟩ := ih hrest
      refine ⟨first :: before, item, after, ?_, hitem, hafter⟩
      rw [hitems, List.cons_append]
    · have hnone : ∀ later ∈ rest, ¬ P later := fun later hmem hlater => hrest ⟨later, hmem, hlater⟩
      obtain ⟨item, hmem, hitem⟩ := h
      rcases List.mem_cons.1 hmem with rfl | hmem
      · exact ⟨[], item, rest, rfl, hitem, hnone⟩
      · exact absurd hitem (hnone item hmem)

/-- A property holds of all elements of a list, or there is a first one that lacks it. -/
theorem forall_or_exists_first {α : Type} (P : α → Prop) (items : List α) :
    (∀ item ∈ items, P item) ∨
      ∃ before item after, items = before ++ item :: after ∧ (∀ earlier ∈ before, P earlier) ∧
        ¬ P item := by
  induction items with
  | nil => exact .inl (List.forall_mem_nil _)
  | cons first rest ih =>
    by_cases hfirst : P first
    · rcases ih with hall | ⟨before, item, after, hitems, hbefore, hitem⟩
      · exact .inl (List.forall_mem_cons.2 ⟨hfirst, hall⟩)
      · refine .inr ⟨first :: before, item, after, ?_, ?_, hitem⟩
        · rw [hitems, List.cons_append]
        · exact List.forall_mem_cons.2 ⟨hfirst, hbefore⟩
    · exact .inr ⟨[], first, rest, rfl, List.forall_mem_nil _, hfirst⟩

namespace Patch

variable {α : Type}

/-- Where a patch ends. -/
def stop (patch : Patch α) : Nat := patch.position + patch.filling.length

/-- Whether a patch covers an index. -/
def Covers (patch : Patch α) (i : Nat) : Prop := patch.position ≤ i ∧ i < patch.stop

/-- A list with a patch written over it. -/
def apply (patch : Patch α) (items : List α) : List α :=
  items.take patch.position ++ patch.filling ++ items.drop patch.stop

/-- A list with patches written over it, one after the other. -/
def applyAll (patches : List (Patch α)) (items : List α) : List α :=
  patches.foldl (fun items patch => patch.apply items) items

variable {patch : Patch α} {patches : List (Patch α)} {items : List α} {i : Nat}

theorem length_apply (h : patch.stop ≤ items.length) :
    (patch.apply items).length = items.length := by
  unfold stop at h
  rw [apply, stop, List.length_append, List.length_append, List.length_take, List.length_drop]
  omega

/-- A patch decides what it covers, and leaves the rest alone. -/
theorem getElem?_apply (h : patch.stop ≤ items.length) (i : Nat) :
    (patch.apply items)[i]? =
      if patch.position ≤ i ∧ i < patch.stop then patch.filling[i - patch.position]?
      else items[i]? := by
  unfold stop at h
  have hfront : (items.take patch.position).length = patch.position := by
    rw [List.length_take]
    omega
  rw [apply, stop, List.append_assoc]
  by_cases hbefore : i < patch.position
  · rw [List.getElem?_append_left (by omega), List.getElem?_take_of_lt hbefore, if_neg (by omega)]
  · rw [List.getElem?_append_right (by omega), hfront]
    by_cases hinside : i - patch.position < patch.filling.length
    · rw [List.getElem?_append_left hinside, if_pos (by omega)]
    · rw [List.getElem?_append_right (by omega), if_neg (by omega), List.getElem?_drop]
      congr 1
      omega

theorem length_applyAll (h : ∀ patch ∈ patches, patch.stop ≤ items.length) :
    (applyAll patches items).length = items.length := by
  induction patches generalizing items with
  | nil => rfl
  | cons patch patches ih =>
    obtain ⟨hpatch, hpatches⟩ := List.forall_mem_cons.1 h
    have hlength := length_apply hpatch
    show (applyAll patches (patch.apply items)).length = items.length
    rw [ih (hlength.symm ▸ hpatches), hlength]

/-- What no patch covers stays. -/
theorem getElem?_applyAll_of_uncovered (h : ∀ patch ∈ patches, patch.stop ≤ items.length)
    (huncovered : ∀ patch ∈ patches, ¬ patch.Covers i) :
    (applyAll patches items)[i]? = items[i]? := by
  induction patches generalizing items with
  | nil => rfl
  | cons patch patches ih =>
    obtain ⟨hpatch, hpatches⟩ := List.forall_mem_cons.1 h
    obtain ⟨hfirst, hothers⟩ := List.forall_mem_cons.1 huncovered
    have hlength := length_apply hpatch
    show (applyAll patches (patch.apply items))[i]? = items[i]?
    rw [ih (hlength.symm ▸ hpatches) hothers, getElem?_apply hpatch]
    exact if_neg hfirst

/-- Where patches overlap the last one prevails. -/
theorem getElem?_applyAll_of_last {before after : List (Patch α)}
    (h : ∀ other ∈ before ++ patch :: after, other.stop ≤ items.length) (hcovers : patch.Covers i)
    (hafter : ∀ later ∈ after, ¬ later.Covers i) :
    (applyAll (before ++ patch :: after) items)[i]? = patch.filling[i - patch.position]? := by
  have hbefore : ∀ other ∈ before, other.stop ≤ items.length := fun other hmem =>
    h other (List.mem_append_left _ hmem)
  obtain ⟨hpatch, hlater⟩ := List.forall_mem_cons.1 (List.forall_mem_append.1 h).2
  have hlength := length_applyAll hbefore
  rw [← hlength] at hpatch hlater
  have happlied := length_apply hpatch
  show (List.foldl _ items (before ++ patch :: after))[i]? = _
  rw [List.foldl_append, List.foldl_cons]
  show (applyAll after (patch.apply (applyAll before items)))[i]? = _
  rw [getElem?_applyAll_of_uncovered (happlied.symm ▸ hlater) hafter, getElem?_apply hpatch]
  exact if_pos hcovers

/-- Patches that are written a second time change nothing. -/
theorem applyAll_applyAll (h : ∀ patch ∈ patches, patch.stop ≤ items.length) :
    applyAll patches (applyAll patches items) = applyAll patches items := by
  have hlength := length_applyAll h
  have hagain : ∀ patch ∈ patches, patch.stop ≤ (applyAll patches items).length :=
    fun patch hmem => hlength.symm ▸ h patch hmem
  apply List.ext_getElem?
  intro i
  by_cases hcovered : ∃ patch ∈ patches, patch.Covers i
  · obtain ⟨before, patch, after, hpatches, hcovers, hafter⟩ := exists_last_of_mem hcovered
    rw [hpatches] at h hagain ⊢
    rw [getElem?_applyAll_of_last hagain hcovers hafter,
      getElem?_applyAll_of_last h hcovers hafter]
  · exact getElem?_applyAll_of_uncovered hagain fun patch hmem hcovers =>
      hcovered ⟨patch, hmem, hcovers⟩

end Patch

/-! ## The places of an artifact -/

/-- A place of a library. -/
structure LinkSite where
  /-- The library. -/
  library : String
  /-- Where its address belongs. -/
  offset : LinkOffset

/-- A place of a library that has an address. -/
structure Placement where
  /-- The place. -/
  site : LinkSite
  /-- The address of its library. -/
  address : Address

/-- The places in the order of the references. -/
def linkSites (references : List (String × List LinkOffset)) : List LinkSite :=
  references.flatMap fun reference => reference.2.map fun offset => ⟨reference.1, offset⟩

/-- Those of the places whose library has an address, with the address. -/
def placementsOf (libraries : Libraries) (sites : List LinkSite) : List Placement :=
  sites.filterMap fun site => (libraries.get? site.library).map fun address => ⟨site, address⟩

namespace Artifact

/-- Where the digits of an artifact's bytecode begin. -/
def origin (artifact : Artifact) : Nat := digitsStart artifact.bytecode.toList

/-- The places of an artifact: by source file, then by library, then as they are listed. -/
def sites (artifact : Artifact) : List LinkSite := linkSites artifact.references

/-- The places of an artifact whose library has an address, in the same order. -/
def placements (artifact : Artifact) (libraries : Libraries) : List Placement :=
  placementsOf libraries artifact.sites

end Artifact

namespace LinkSite

/-- Where a place stands in a text whose digits begin at `origin`. -/
def position (site : LinkSite) (origin : Nat) : Nat := origin + 2 * site.offset.start

/-- Whether a place takes up a position of a text whose digits begin at `origin`. -/
def Covers (site : LinkSite) (origin i : Nat) : Prop :=
  site.position origin ≤ i ∧ i < site.position origin + 2 * addressLength

/-- What is wrong with a place in a text of this size: its length is judged before its range, and
the range has to be one that 64 bits can count. -/
def fault? (site : LinkSite) (contract : String) (origin size : Nat) : Option LinkFault :=
  if site.offset.length ≠ addressLength then
    some (.wrongLength site.library contract site.offset.length)
  else if site.position origin + 2 * addressLength < Bytes.capacity 8 ∧
      site.position origin + 2 * addressLength ≤ size then none
  else some (.outOfRange site.library contract)

end LinkSite

namespace Placement

/-- What is written over a text whose digits begin at `origin`. -/
def patch (place : Placement) (origin : Nat) : Patch Char :=
  ⟨place.site.position origin, place.address.linkText.toList⟩

/-- Writes the address over its place. -/
def write (contract : String) (origin : Nat) (text : List Char) (place : Placement) :
    Except LinkFault (List Char) :=
  linkLibrary contract place.site.library origin place.address.linkText.toList [place.site.offset]
    text

end Placement

/-! ## One pass over the places -/

theorem placeStart?_eq (origin start : Nat) :
    placeStart? origin start =
      if origin + 2 * start + 2 * addressLength < Bytes.capacity 8 then some (origin + 2 * start)
      else none := by
  unfold placeStart? countable?
  by_cases hdigits : 2 * start < Bytes.capacity 8
  · by_cases hposition : 2 * start + origin < Bytes.capacity 8
    · by_cases hend : 2 * start + origin + 2 * addressLength < Bytes.capacity 8
      · simp [hdigits, hposition, hend, Nat.add_comm origin]
      · simp [hdigits, hposition, hend, Nat.add_comm origin]
    · have hend : ¬ 2 * start + origin + 2 * addressLength < Bytes.capacity 8 := by omega
      simp [hdigits, hposition, hend, Nat.add_comm origin]
  · have hend : ¬ origin + 2 * start + 2 * addressLength < Bytes.capacity 8 := by omega
    simp [hdigits, hend]

/-- The first place of a library comes before the others. -/
theorem linkLibrary_cons (contract library : String) (origin : Nat) (filling : List Char)
    (offset : LinkOffset) (offsets : List LinkOffset) (text : List Char) :
    linkLibrary contract library origin filling (offset :: offsets) text =
      linkLibrary contract library origin filling [offset] text >>=
        linkLibrary contract library origin filling offsets := by
  unfold linkLibrary
  by_cases hlength : offset.length ≠ addressLength
  · rw [if_pos hlength, if_pos hlength]
    rfl
  · rw [if_neg hlength, if_neg hlength]
    cases (placeStart? origin offset.start).bind fun position =>
        spliceBytes position (2 * addressLength) filling text with
    | none => rfl
    | some written => rfl

/-- Linking one library goes over its places one after the other. -/
theorem linkLibrary_eq_foldlM (contract library : String) (origin : Nat) (address : Address)
    (offsets : List LinkOffset) (text : List Char) :
    linkLibrary contract library origin address.linkText.toList offsets text =
      (offsets.map fun offset => (⟨⟨library, offset⟩, address⟩ : Placement)).foldlM
        (Placement.write contract origin) text := by
  induction offsets generalizing text with
  | nil => rfl
  | cons offset offsets ih =>
    rw [linkLibrary_cons, List.map_cons, List.foldlM_cons]
    congr 1
    funext written
    exact ih written

/-- Linking all libraries is one pass over the places of those that have an address. -/
theorem linkAll_eq_foldlM (contract : String) (libraries : Libraries) (origin : Nat)
    (references : List (String × List LinkOffset)) (text : List Char) :
    linkAll contract libraries origin references text =
      (placementsOf libraries (linkSites references)).foldlM (Placement.write contract origin)
        text := by
  induction references generalizing text with
  | nil => rfl
  | cons reference references ih =>
    obtain ⟨library, offsets⟩ := reference
    have hsites : placementsOf libraries (linkSites ((library, offsets) :: references)) =
        placementsOf libraries (offsets.map fun offset => ⟨library, offset⟩) ++
          placementsOf libraries (linkSites references) := by
      rw [linkSites, List.flatMap_cons, placementsOf, List.filterMap_append]
      rfl
    rw [hsites, List.foldlM_append, linkAll]
    cases hlibrary : libraries.get? library with
    | none =>
      have hnone : placementsOf libraries (offsets.map fun offset => ⟨library, offset⟩) = [] := by
        rw [placementsOf, List.filterMap_map]
        exact List.filterMap_eq_nil_iff.2 fun offset _ => by simp [hlibrary]
      rw [hnone]
      exact ih text
    | some address =>
      have hsome : placementsOf libraries (offsets.map fun offset => ⟨library, offset⟩) =
          offsets.map fun offset => ⟨⟨library, offset⟩, address⟩ := by
        rw [placementsOf, List.filterMap_map, ← List.filterMap_eq_map]
        congr 1
        funext offset
        simp [hlibrary]
      rw [hsome, ← linkLibrary_eq_foldlM]
      show (linkLibrary contract library origin address.linkText.toList offsets text >>=
        fun text => linkAll contract libraries origin references text) = _
      congr 1
      funext written
      exact ih written

/-! ## Places in ASCII text -/

/-- Every character of a text takes up one byte. -/
def IsAscii (text : List Char) : Prop := ∀ c ∈ text, c.toNat < 128

instance IsAscii.decidable (text : List Char) : Decidable (IsAscii text) :=
  List.decidableBAll (fun c : Char => c.toNat < 128) text

theorem IsAscii.append {front back : List Char} (hfront : IsAscii front) (hback : IsAscii back) :
    IsAscii (front ++ back) :=
  List.forall_mem_append.2 ⟨hfront, hback⟩

theorem utf8Size_of_lt {c : Char} (h : c.toNat < 128) : c.utf8Size = 1 := by
  rw [Char.utf8Size_eq_one_iff]
  have hle : c.val.toNat ≤ 127 := Nat.le_of_lt_succ h
  exact hle

/-- In ASCII text a cut is possible wherever there is text. -/
theorem splitBytes_of_ascii {text : List Char} (h : IsAscii text) (n : Nat) :
    splitBytes n text = if n ≤ text.length then some (text.take n, text.drop n) else none := by
  induction text generalizing n with
  | nil => cases n <;> simp [splitBytes]
  | cons c text ih =>
    obtain ⟨hc, htext⟩ := List.forall_mem_cons.1 h
    cases n with
    | zero => simp [splitBytes]
    | succ n =>
      have hsize := utf8Size_of_lt hc
      rw [splitBytes, hsize, if_pos (by omega), Nat.add_sub_cancel, ih htext]
      by_cases hle : n ≤ text.length
      · rw [if_pos hle, if_pos (by simpa using hle)]
        rfl
      · rw [if_neg hle, if_neg (by simpa using hle)]
        rfl

/-- In ASCII text a stretch can be replaced wherever there is enough text. -/
theorem spliceBytes_of_ascii {text : List Char} (h : IsAscii text) (start length : Nat)
    (filling : List Char) :
    spliceBytes start length filling text =
      if start + length ≤ text.length then
        some (text.take start ++ filling ++ text.drop (start + length))
      else none := by
  unfold spliceBytes
  rw [splitBytes_of_ascii h]
  by_cases hstart : start ≤ text.length
  · have hrest : IsAscii (text.drop start) := fun c hc => h c (List.mem_of_mem_drop hc)
    rw [if_pos hstart, Option.bind_eq_bind, Option.bind_some]
    show ((splitBytes length (text.drop start)).bind fun parts =>
      some (text.take start ++ filling ++ parts.2)) = _
    rw [splitBytes_of_ascii hrest, List.length_drop, List.drop_drop]
    by_cases hend : start + length ≤ text.length
    · rw [if_pos (by omega), if_pos hend]
      rfl
    · rw [if_neg (by omega), if_neg hend]
      rfl
  · rw [if_neg hstart, if_neg (by omega)]
    rfl

/-- The lower-case digits. -/
def Hex.lowerDigits : List Char := "0123456789abcdef".toList

theorem Hex.digit_mem_lowerDigits : ∀ n, n < 16 → digit n ∈ lowerDigits := by
  decide

theorem Hex.isAscii_lowerDigits : IsAscii lowerDigits := by
  decide

theorem Hex.mem_lowerDigits_of_encode {bytes : Bytes} {c : Char}
    (h : c ∈ (encode bytes).toList) : c ∈ lowerDigits := by
  rw [encode, String.toList_ofList] at h
  obtain ⟨byte, -, hdigit⟩ := List.mem_flatMap.1 h
  have hbyte := byte.toNat_lt
  rcases List.mem_cons.1 hdigit with rfl | hdigit
  · exact digit_mem_lowerDigits _ (by omega)
  · rcases List.mem_cons.1 hdigit with rfl | hdigit
    · exact digit_mem_lowerDigits _ (by omega)
    · cases hdigit

theorem Address.length_linkText (address : Address) :
    address.linkText.toList.length = 2 * addressLength := by
  rw [Address.linkText, Hex.length_encode, address.length_bytes]
  rfl

theorem Address.isAscii_linkText (address : Address) : IsAscii address.linkText.toList :=
  fun c hc => Hex.isAscii_lowerDigits c (Hex.mem_lowerDigits_of_encode hc)

section Ascii

variable {contract : String} {origin : Nat} {text : List Char} {place : Placement}
  {places : List Placement} {fault : LinkFault}

theorem LinkSite.fault?_eq_none_iff (site : LinkSite) (contract : String) (origin size : Nat) :
    site.fault? contract origin size = none ↔
      site.offset.length = addressLength ∧
        site.position origin + 2 * addressLength < Bytes.capacity 8 ∧
        site.position origin + 2 * addressLength ≤ size := by
  unfold fault?
  by_cases hlength : site.offset.length = addressLength
  · by_cases hrange : site.position origin + 2 * addressLength < Bytes.capacity 8 ∧
        site.position origin + 2 * addressLength ≤ size
    · simp [hlength, hrange]
    · simp [hlength, hrange]
  · simp [hlength]

theorem Placement.stop_patch (place : Placement) (origin : Nat) :
    (place.patch origin).stop = place.site.position origin + 2 * addressLength := by
  rw [Patch.stop, patch, place.address.length_linkText]

theorem Placement.covers_patch (place : Placement) (origin i : Nat) :
    (place.patch origin).Covers i ↔ place.site.Covers origin i := by
  rw [Patch.Covers, place.stop_patch]
  rfl

/-- What is written at a place that fits is the address, over what was there. -/
theorem Placement.write_of_fits (htext : IsAscii text)
    (h : place.site.fault? contract origin text.length = none) :
    place.write contract origin text = .ok ((place.patch origin).apply text) := by
  obtain ⟨hlength, hcountable, hrange⟩ := (place.site.fault?_eq_none_iff _ _ _).1 h
  unfold LinkSite.position at hcountable hrange
  unfold write linkLibrary
  rw [if_neg (not_not_intro hlength), placeStart?_eq, if_pos hcountable, Option.bind_some,
    spliceBytes_of_ascii htext, if_pos hrange]
  rw [Patch.apply, stop_patch]
  rfl

/-- A place at fault is told, and nothing is written. -/
theorem Placement.write_of_fault (htext : IsAscii text)
    (h : place.site.fault? contract origin text.length = some fault) :
    place.write contract origin text = .error fault := by
  unfold LinkSite.fault? LinkSite.position at h
  unfold write linkLibrary
  by_cases hlength : place.site.offset.length = addressLength
  · rw [if_neg (not_not_intro hlength)] at h ⊢
    rw [placeStart?_eq]
    by_cases hcountable :
        origin + 2 * place.site.offset.start + 2 * addressLength < Bytes.capacity 8
    · have hrange : ¬ origin + 2 * place.site.offset.start + 2 * addressLength ≤ text.length := by
        intro hle
        rw [if_pos ⟨hcountable, hle⟩] at h
        cases h
      rw [if_neg fun hboth => hrange hboth.2] at h
      cases h
      rw [if_pos hcountable, Option.bind_some, spliceBytes_of_ascii htext, if_neg hrange]
    · rw [if_neg fun hboth => hcountable hboth.1] at h
      cases h
      rw [if_neg hcountable]
      rfl
  · rw [if_pos hlength] at h ⊢
    cases h
    rfl

theorem Patch.isAscii_apply {patch : Patch Char} (hfilling : IsAscii patch.filling)
    (htext : IsAscii text) : IsAscii (patch.apply text) := by
  have hfront : IsAscii (text.take patch.position) := fun c hc => htext c (List.mem_of_mem_take hc)
  have hback : IsAscii (text.drop patch.stop) := fun c hc => htext c (List.mem_of_mem_drop hc)
  exact (hfront.append hfilling).append hback

/-- If every place fits, all addresses are written. -/
theorem foldlM_write_of_fits (htext : IsAscii text)
    (h : ∀ place ∈ places, place.site.fault? contract origin text.length = none) :
    IsAscii (Patch.applyAll (places.map (·.patch origin)) text) ∧
      places.foldlM (Placement.write contract origin) text =
        .ok (Patch.applyAll (places.map (·.patch origin)) text) := by
  induction places generalizing text with
  | nil => exact ⟨htext, rfl⟩
  | cons place places ih =>
    obtain ⟨hplace, hplaces⟩ := List.forall_mem_cons.1 h
    obtain ⟨-, -, hrange⟩ := (place.site.fault?_eq_none_iff _ _ _).1 hplace
    have hlength : ((place.patch origin).apply text).length = text.length :=
      Patch.length_apply (by rwa [place.stop_patch])
    have hascii : IsAscii ((place.patch origin).apply text) :=
      Patch.isAscii_apply place.address.isAscii_linkText htext
    obtain ⟨hlast, hrun⟩ := ih hascii (hlength.symm ▸ hplaces)
    refine ⟨hlast, ?_⟩
    rw [List.foldlM_cons, Placement.write_of_fits htext hplace]
    exact hrun

/-- The first place at fault ends it. -/
theorem foldlM_write_of_fault {before after : List Placement} (htext : IsAscii text)
    (hbefore : ∀ earlier ∈ before, earlier.site.fault? contract origin text.length = none)
    (h : place.site.fault? contract origin text.length = some fault) :
    (before ++ place :: after).foldlM (Placement.write contract origin) text = .error fault := by
  obtain ⟨hascii, hrun⟩ := foldlM_write_of_fits htext hbefore
  have hlength : (Patch.applyAll (before.map (·.patch origin)) text).length = text.length := by
    apply Patch.length_applyAll
    intro patch hpatch
    obtain ⟨earlier, hearlier, rfl⟩ := List.mem_map.1 hpatch
    rw [earlier.stop_patch]
    exact ((earlier.site.fault?_eq_none_iff _ _ _).1 (hbefore earlier hearlier)).2.2
  rw [List.foldlM_append, hrun]
  show (place :: after).foldlM (Placement.write contract origin) _ = .error fault
  rw [List.foldlM_cons, Placement.write_of_fault hascii (hlength.symm ▸ h)]
  rfl

end Ascii

/-! ## Linking an artifact -/

theorem Artifact.link_eq_foldlM (artifact : Artifact) (libraries : Libraries) :
    artifact.link libraries =
      ((artifact.placements libraries).foldlM
        (Placement.write artifact.contractName artifact.origin)
        artifact.bytecode.toList).map String.ofList := by
  show (do
    let linked ← linkAll artifact.contractName libraries artifact.origin artifact.references
      artifact.bytecode.toList
    pure (String.ofList linked)) = _
  rw [linkAll_eq_foldlM]
  rfl

/-- The digits of a text begin behind its marker, if it has one. -/
theorem digitsStart_eq (text : List Char) :
    digitsStart text = if text[0]? = some '0' ∧ text[1]? = some 'x' then 2 else 0 := by
  have hmarker : ['0', 'x'].isPrefixOf text = true ↔ text[0]? = some '0' ∧ text[1]? = some 'x' := by
    rw [List.isPrefixOf_iff_prefix]
    constructor
    · rintro ⟨rest, rfl⟩
      exact ⟨rfl, rfl⟩
    · rintro ⟨hzero, hone⟩
      cases text with
      | nil => cases hzero
      | cons first text =>
        cases text with
        | nil => cases hone
        | cons second text =>
          cases hzero
          cases hone
          exact ⟨text, rfl⟩
  unfold digitsStart
  by_cases h : text[0]? = some '0' ∧ text[1]? = some 'x'
  · rw [if_pos (hmarker.2 h), if_pos h]
  · rw [if_neg fun hprefix => h (hmarker.1 hprefix), if_neg h]

/-- Digits that are written in pairs, behind the marker if there is one, neither make a marker nor
break one. -/
theorem digitsStart_applyAll {text : List Char} {patches : List (Patch Char)}
    (hrange : ∀ patch ∈ patches, patch.stop ≤ text.length)
    (hbehind : ∀ patch ∈ patches, digitsStart text ≤ patch.position)
    (hsize : ∀ patch ∈ patches, 2 ≤ patch.filling.length)
    (hdigits : ∀ patch ∈ patches, ∀ c ∈ patch.filling, c ∈ Hex.lowerDigits) :
    digitsStart (Patch.applyAll patches text) = digitsStart text := by
  -- Where nothing is written at position one, nothing is written at position zero either.
  have hfront : (∀ patch ∈ patches, ¬ patch.Covers 1) →
      digitsStart (Patch.applyAll patches text) = digitsStart text := by
    intro huncovered
    have hzero : ∀ patch ∈ patches, ¬ patch.Covers 0 := by
      intro patch hmem hcovers
      have hlength := hsize patch hmem
      have hstop : patch.stop = patch.position + patch.filling.length := rfl
      exact huncovered patch hmem ⟨by have := hcovers.1; omega, by omega⟩
    rw [digitsStart_eq, digitsStart_eq, Patch.getElem?_applyAll_of_uncovered hrange hzero,
      Patch.getElem?_applyAll_of_uncovered hrange huncovered]
  by_cases hcovered : ∃ patch ∈ patches, patch.Covers 1
  · have hunmarked : digitsStart text = 0 := by
      obtain ⟨patch, hmem, hcovers⟩ := hcovered
      have hposition := hbehind patch hmem
      have hle := hcovers.1
      rw [digitsStart_eq] at hposition ⊢
      split at hposition
      · omega
      · next hnone => rw [if_neg hnone]
    obtain ⟨before, patch, after, hpatches, hcovers, hafter⟩ := exists_last_of_mem hcovered
    have hmem : patch ∈ patches := by
      rw [hpatches]
      exact List.mem_append_right _ List.mem_cons_self
    rw [hunmarked, digitsStart_eq, if_neg]
    rintro ⟨-, hmarker⟩
    rw [hpatches] at hrange
    rw [hpatches, Patch.getElem?_applyAll_of_last hrange hcovers hafter] at hmarker
    have hdigit := hdigits patch hmem 'x' (List.mem_of_getElem? hmarker)
    revert hdigit
    decide
  · exact hfront fun patch hmem hcovers => hcovered ⟨patch, hmem, hcovers⟩

/-- A text is what linking makes of an artifact's bytecode. -/
structure Artifact.LinkedInto (artifact : Artifact) (libraries : Libraries) (linked : String) :
    Prop where
  size : linked.length = artifact.bytecode.length
  /-- A place has the digits of its library's address, except where a later place has its own. -/
  filled : ∀ before place after i, artifact.placements libraries = before ++ place :: after →
    place.site.Covers artifact.origin i →
    (∀ later ∈ after, ¬ later.site.Covers artifact.origin i) →
    linked.toList[i]? = place.address.linkText.toList[i - place.site.position artifact.origin]?
  digits : ∀ place ∈ artifact.placements libraries,
    place.address.linkText.length = 2 * addressLength ∧
      ∀ digit ∈ place.address.linkText.toList, digit ∈ Hex.lowerDigits
  kept : ∀ i, (∀ place ∈ artifact.placements libraries, ¬ place.site.Covers artifact.origin i) →
    linked.toList[i]? = artifact.bytecode.toList[i]?
  /-- Linking once more changes nothing. -/
  settled : ({ artifact with bytecode := linked } : Artifact).link libraries = .ok linked

section LinkedInto

variable {artifact : Artifact} {libraries : Libraries}

/-- What is written over the bytecode of an artifact. -/
def Artifact.patches (artifact : Artifact) (libraries : Libraries) : List (Patch Char) :=
  (artifact.placements libraries).map (·.patch artifact.origin)

/-- Every place of a library with an address is as it should be. -/
def Artifact.PlacesFit (artifact : Artifact) (libraries : Libraries) : Prop :=
  ∀ place ∈ artifact.placements libraries,
    place.site.fault? artifact.contractName artifact.origin artifact.bytecode.toList.length = none

theorem Artifact.PlacesFit.stop_le (h : artifact.PlacesFit libraries) :
    ∀ patch ∈ artifact.patches libraries, patch.stop ≤ artifact.bytecode.toList.length := by
  intro patch hpatch
  obtain ⟨place, hplace, rfl⟩ := List.mem_map.1 hpatch
  rw [place.stop_patch]
  exact ((place.site.fault?_eq_none_iff _ _ _).1 (h place hplace)).2.2

theorem Artifact.PlacesFit.isAscii_applyAll (h : artifact.PlacesFit libraries)
    (hascii : IsAscii artifact.bytecode.toList) :
    IsAscii (Patch.applyAll (artifact.patches libraries) artifact.bytecode.toList) :=
  (foldlM_write_of_fits hascii h).1

theorem Artifact.link_of_fits (hascii : IsAscii artifact.bytecode.toList)
    (h : artifact.PlacesFit libraries) :
    artifact.link libraries =
      .ok (String.ofList (Patch.applyAll (artifact.patches libraries)
        artifact.bytecode.toList)) := by
  rw [artifact.link_eq_foldlM, (foldlM_write_of_fits hascii h).2]
  rfl

theorem Artifact.linkedInto_applyAll (hascii : IsAscii artifact.bytecode.toList)
    (h : artifact.PlacesFit libraries) :
    artifact.LinkedInto libraries
      (String.ofList (Patch.applyAll (artifact.patches libraries) artifact.bytecode.toList)) := by
  have hrange := h.stop_le
  have hlength := Patch.length_applyAll hrange
  have hdigits : ∀ patch ∈ artifact.patches libraries, ∀ c ∈ patch.filling,
      c ∈ Hex.lowerDigits := by
    intro patch hpatch c hc
    obtain ⟨place, -, rfl⟩ := List.mem_map.1 hpatch
    exact Hex.mem_lowerDigits_of_encode hc
  constructor
  · rw [String.length_ofList, hlength, String.length_toList]
  · intro before place after i hplaces hcovers hafter
    rw [String.toList_ofList]
    rw [patches, hplaces, List.map_append, List.map_cons] at hrange ⊢
    refine Patch.getElem?_applyAll_of_last hrange ((place.covers_patch _ i).2 hcovers) ?_
    intro patch hpatch
    obtain ⟨later, hlater, rfl⟩ := List.mem_map.1 hpatch
    rw [later.covers_patch]
    exact hafter later hlater
  · intro place _
    refine ⟨?_, fun digit hdigit => Hex.mem_lowerDigits_of_encode hdigit⟩
    rw [← String.length_toList, place.address.length_linkText]
  · intro i huncovered
    rw [String.toList_ofList]
    refine Patch.getElem?_applyAll_of_uncovered hrange fun patch hpatch => ?_
    obtain ⟨place, hplace, rfl⟩ := List.mem_map.1 hpatch
    rw [place.covers_patch]
    exact huncovered place hplace
  · -- The digits begin where they did, so the same places are written over once more.
    have horigin : digitsStart (Patch.applyAll (artifact.patches libraries)
        artifact.bytecode.toList) = artifact.origin := by
      apply digitsStart_applyAll hrange
      · intro patch hpatch
        obtain ⟨place, -, rfl⟩ := List.mem_map.1 hpatch
        exact Nat.le_add_right _ _
      · intro patch hpatch
        obtain ⟨place, -, rfl⟩ := List.mem_map.1 hpatch
        show 2 ≤ place.address.linkText.toList.length
        rw [place.address.length_linkText]
        decide
      · exact hdigits
    generalize hlinked : Patch.applyAll (artifact.patches libraries) artifact.bytecode.toList =
      linked at hlength horigin
    have hsame : ({ artifact with bytecode := String.ofList linked } : Artifact).origin =
        artifact.origin := by
      rw [origin, String.toList_ofList, horigin]
    have hfits : ({ artifact with bytecode := String.ofList linked } : Artifact).PlacesFit
        libraries := by
      intro place hplace
      rw [hsame, String.toList_ofList, hlength]
      exact h place hplace
    have hlinkedAscii : IsAscii linked := hlinked ▸ h.isAscii_applyAll hascii
    rw [link_of_fits (by rwa [String.toList_ofList]) hfits, String.toList_ofList, patches, hsame]
    have hagain := Patch.applyAll_applyAll hrange
    rw [hlinked] at hagain
    exact congrArg (fun text => Except.ok (String.ofList text)) hagain

/-- If not every place fits, the first that does not ends the linking with its fault. -/
theorem Artifact.link_of_fault {before after : List Placement} {place : Placement}
    {fault : LinkFault} (hascii : IsAscii artifact.bytecode.toList)
    (hplaces : artifact.placements libraries = before ++ place :: after)
    (hbefore : ∀ earlier ∈ before, earlier.site.fault? artifact.contractName artifact.origin
      artifact.bytecode.toList.length = none)
    (hfault : place.site.fault? artifact.contractName artifact.origin
      artifact.bytecode.toList.length = some fault) :
    artifact.link libraries = .error fault := by
  rw [artifact.link_eq_foldlM, hplaces, foldlM_write_of_fault hascii hbefore hfault]
  rfl

theorem Artifact.linkedCode_of_link_error {fault : LinkFault}
    (h : artifact.link libraries = .error fault) :
    (artifact.linkedCode libraries).mapError DeployError.ofCode = .error (.linking fault) := by
  unfold linkedCode
  rw [h]
  rfl

end LinkedInto

/-- Linking ASCII bytecode goes through the places of the libraries that have an address, by source
file, then by library, then as they are listed. If each is as long as an address and within the
text, the addresses are what stands there afterwards. Otherwise the first that is not decides the
fault. Places of the other libraries do not matter. -/
theorem link_overwrites_places (artifact : Artifact) (libraries : Libraries)
    (hascii : IsAscii artifact.bytecode.toList) :
    ((artifact.PlacesFit libraries ∧
        ∃ linked, artifact.link libraries = .ok linked ∧
          artifact.LinkedInto libraries linked) ∨
      ∃ before place after fault,
        artifact.placements libraries = before ++ place :: after ∧
        (∀ earlier ∈ before, earlier.site.fault? artifact.contractName artifact.origin
          artifact.bytecode.toList.length = none) ∧
        place.site.fault? artifact.contractName artifact.origin artifact.bytecode.toList.length =
          some fault ∧
        artifact.link libraries = .error fault ∧
        (artifact.linkedCode libraries).mapError DeployError.ofCode = .error (.linking fault)) ∧
      ∀ other : Artifact, other.contractName = artifact.contractName →
        other.bytecode = artifact.bytecode →
        other.placements libraries = artifact.placements libraries →
        other.link libraries = artifact.link libraries := by
  constructor
  · rcases forall_or_exists_first (fun place : Placement => place.site.fault?
      artifact.contractName artifact.origin artifact.bytecode.toList.length = none)
      (artifact.placements libraries) with hfit | ⟨before, place, after, hplaces, hbefore, hplace⟩
    · exact .inl ⟨hfit, _, artifact.link_of_fits hascii hfit,
        artifact.linkedInto_applyAll hascii hfit⟩
    · obtain ⟨fault, hfault⟩ := Option.ne_none_iff_exists'.1 hplace
      have hlink := Artifact.link_of_fault hascii hplaces hbefore hfault
      exact .inr ⟨before, place, after, fault, hplaces, hbefore, hfault, hlink,
        Artifact.linkedCode_of_link_error hlink⟩
  · intro other hname hbytecode hplaces
    have horigin : other.origin = artifact.origin := by
      unfold Artifact.origin
      rw [hbytecode]
    rw [other.link_eq_foldlM, artifact.link_eq_foldlM, hplaces, hname, hbytecode, horigin]

/-- Two places that overlap, and one of a library that nothing is known of. -/
def overlappingPlaces : Artifact where
  contractName := "Vault"
  interface := {}
  bytecode := "0x" ++ String.ofList (List.replicate 60 '_')
  links := NameMap.ofList [
    ("Math.sol", NameMap.ofList [("Math", [⟨2, 20⟩]), ("Unknown", [⟨0, 7⟩])]),
    ("Sets.sol", NameMap.ofList [("Sets", [⟨10, 20⟩])])]

/-- Addresses for two of its libraries. -/
def overlappingLibraries : Libraries :=
  NameMap.ofList [("Math", FixedBytes.ofNat 1), ("Sets", FixedBytes.ofNat 2)]

/-- The places of libraries that have an address are linked, although a place of another is too
short. -/
theorem link_overwrites_overlapping_places :
    IsAscii overlappingPlaces.bytecode.toList ∧
      ∃ linked, overlappingPlaces.link overlappingLibraries = .ok linked ∧
        overlappingPlaces.LinkedInto overlappingLibraries linked := by
  have hascii : IsAscii overlappingPlaces.bytecode.toList := by decide +kernel
  have hfit : overlappingPlaces.PlacesFit overlappingLibraries := by
    unfold Artifact.PlacesFit
    decide +kernel
  refine ⟨hascii, ?_⟩
  rcases (link_overwrites_places overlappingPlaces overlappingLibraries hascii).1 with
    ⟨-, hlinked⟩ | ⟨before, place, after, fault, hplaces, -, hfault, -⟩
  · exact hlinked
  · have hmem : place ∈ overlappingPlaces.placements overlappingLibraries := by
      rw [hplaces]
      exact List.mem_append_right _ List.mem_cons_self
    rw [hfit place hmem] at hfault
    cases hfault

end ContractDeploy
