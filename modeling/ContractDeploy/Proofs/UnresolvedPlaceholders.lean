import ContractDeploy.Proofs.LinkedCode
import Mathlib.Data.List.Pairwise
import Mathlib.Data.Nat.Find

/-!
# Placeholders that are left

Whether a library was forgotten is not looked up in the references: the linked text is searched for
two underscores in a row. For bytecode in which every place begins with two underscores, and which
has none outside of the places, the search finds what it is meant to find. Addresses are written
without underscores, so one that is left lies in the place of a library without an address, and the
first two in a row are the beginning of the first such place.
-/

namespace ContractDeploy

/-- A search stops at two underscores if none came before. -/
theorem fromPlaceholder_append {front : List Char} (hfront : '_' ∉ front) (rest : List Char) :
    fromPlaceholder (front ++ '_' :: '_' :: rest) = some ('_' :: '_' :: rest) := by
  induction front with
  | nil => rfl
  | cons c front ih =>
    obtain ⟨hc, hfront⟩ := List.ne_and_not_mem_of_not_mem_cons hfront
    rw [List.cons_append, fromPlaceholder]
    · exact ih hfront
    · rintro _ rfl
      exact absurd rfl hc

theorem Hex.underscore_notMem_encode (bytes : Bytes) : '_' ∉ (encode bytes).toList := by
  intro h
  exact absurd (mem_lowerDigits_of_encode h) (by decide)

namespace Artifact

/-- The places of an artifact stand out from the rest of its bytecode: they lie apart from each
other, each is as long as an address and begins with two underscores, and there is no underscore
anywhere else. -/
structure Marked (artifact : Artifact) : Prop where
  ascii : IsAscii artifact.bytecode.toList
  countable : artifact.bytecode.toList.length < Bytes.capacity 8
  fits : ∀ site ∈ artifact.sites, site.offset.length = addressLength ∧
    site.position artifact.origin + 2 * addressLength ≤ artifact.bytecode.toList.length
  apart : artifact.sites.Pairwise LinkSite.Apart
  begins : ∀ site ∈ artifact.sites,
    ∃ rest, artifact.bytecode.toList.drop (site.position artifact.origin) = '_' :: '_' :: rest
  elsewhere : ∀ i, artifact.bytecode.toList[i]? = some '_' →
    ∃ site ∈ artifact.sites, site.Covers artifact.origin i

/-- The text that stands at a place before it is linked. -/
def placeholder (artifact : Artifact) (site : LinkSite) : String :=
  String.ofList
    ((artifact.bytecode.toList.drop (site.position artifact.origin)).take (2 * addressLength))

/-- Of the places whose library has no address, this is the first in the bytecode. -/
structure FirstUnresolved (artifact : Artifact) (libraries : Libraries) (site : LinkSite) :
    Prop where
  mem : site ∈ artifact.sites
  unresolved : libraries.get? site.library = none
  first : ∀ other ∈ artifact.sites, libraries.get? other.library = none →
    site.offset.start ≤ other.offset.start

theorem exists_firstUnresolved {artifact : Artifact} {libraries : Libraries}
    (h : ∃ site ∈ artifact.sites, libraries.get? site.library = none) :
    ∃ site, artifact.FirstUnresolved libraries site := by
  classical
  have hstart : ∃ start, ∃ site ∈ artifact.sites,
      libraries.get? site.library = none ∧ site.offset.start = start := by
    obtain ⟨site, hsite, hnone⟩ := h
    exact ⟨_, site, hsite, hnone, rfl⟩
  obtain ⟨site, hsite, hnone, hleast⟩ := Nat.find_spec hstart
  refine ⟨site, hsite, hnone, fun other hother hmissing => ?_⟩
  rw [hleast]
  exact Nat.find_min' hstart ⟨other, hother, hmissing, rfl⟩

namespace Marked

variable {artifact : Artifact} {libraries : Libraries} {site : LinkSite} {i : Nat}

theorem placesFit (h : artifact.Marked) (libraries : Libraries) :
    artifact.PlacesFit libraries := by
  intro place hplace
  obtain ⟨hlength, hrange⟩ := h.fits _ (mem_sites_of_mem_placements hplace).1
  exact (place.site.fault?_eq_none_iff _ _ _).2
    ⟨hlength, Nat.lt_of_le_of_lt hrange h.countable, hrange⟩

/-- No two places cover the same character. -/
theorem eq_of_covers (h : artifact.Marked) {a b : LinkSite} (ha : a ∈ artifact.sites)
    (hb : b ∈ artifact.sites) (hcoversA : a.Covers artifact.origin i)
    (hcoversB : b.Covers artifact.origin i) : a = b := by
  by_contra hne
  have : Std.Symm LinkSite.Apart := ⟨fun _ _ hapart => hapart.symm⟩
  have hapart := h.apart.forall ha hb hne
  unfold LinkSite.Covers LinkSite.position at hcoversA hcoversB
  unfold LinkSite.Apart at hapart
  omega

/-- What linking makes of the bytecode. -/
theorem link_eq (h : artifact.Marked) (libraries : Libraries) :
    artifact.link libraries = .ok (String.ofList
      (Patch.applyAll (artifact.patches libraries) artifact.bytecode.toList)) :=
  link_of_fits h.ascii (h.placesFit libraries)

/-- Linking does not touch the place of a library without an address. -/
theorem getElem?_linked_of_unresolved (h : artifact.Marked) (hsite : site ∈ artifact.sites)
    (hnone : libraries.get? site.library = none) (hcovers : site.Covers artifact.origin i) :
    (Patch.applyAll (artifact.patches libraries) artifact.bytecode.toList)[i]? =
      artifact.bytecode.toList[i]? := by
  refine Patch.getElem?_applyAll_of_uncovered (h.placesFit libraries).stop_le ?_
  intro patch hpatch hcovered
  obtain ⟨place, hplace, rfl⟩ := List.mem_map.1 hpatch
  obtain ⟨hmem, haddress⟩ := mem_sites_of_mem_placements hplace
  have hsame := h.eq_of_covers hsite hmem hcovers ((place.covers_patch _ i).1 hcovered)
  rw [hsame, haddress] at hnone
  cases hnone

/-- An underscore that linking leaves is in the place of a library without an address. -/
theorem exists_unresolved_of_underscore (h : artifact.Marked)
    (hleft : (Patch.applyAll (artifact.patches libraries) artifact.bytecode.toList)[i]? =
      some '_') :
    ∃ site ∈ artifact.sites, libraries.get? site.library = none ∧
      site.Covers artifact.origin i := by
  have hrange := (h.placesFit libraries).stop_le
  by_cases hcovered : ∃ patch ∈ artifact.patches libraries, patch.Covers i
  · -- What is written over a place are digits.
    obtain ⟨before, patch, after, hpatches, hcovers, hafter⟩ := exists_last_of_mem hcovered
    have hpatch : patch ∈ artifact.patches libraries := by
      rw [hpatches]
      exact List.mem_append_right _ List.mem_cons_self
    obtain ⟨place, -, rfl⟩ := List.mem_map.1 hpatch
    rw [hpatches] at hleft hrange
    rw [Patch.getElem?_applyAll_of_last hrange hcovers hafter] at hleft
    exact absurd (List.mem_of_getElem? hleft) (Hex.underscore_notMem_encode _)
  · have huncovered : ∀ patch ∈ artifact.patches libraries, ¬ patch.Covers i :=
      fun patch hpatch hcovers => hcovered ⟨patch, hpatch, hcovers⟩
    rw [Patch.getElem?_applyAll_of_uncovered hrange huncovered] at hleft
    obtain ⟨site, hsite, hcovers⟩ := h.elsewhere i hleft
    refine ⟨site, hsite, ?_, hcovers⟩
    rw [Option.eq_none_iff_forall_ne_some]
    intro address haddress
    refine huncovered _ (List.mem_map.2 ⟨_, mem_placements hsite haddress, rfl⟩) ?_
    rwa [Placement.covers_patch]

/-- The place of a library without an address still holds its placeholder. -/
theorem take_drop_linked (h : artifact.Marked) (hsite : site ∈ artifact.sites)
    (hnone : libraries.get? site.library = none) :
    ((Patch.applyAll (artifact.patches libraries) artifact.bytecode.toList).drop
        (site.position artifact.origin)).take (2 * addressLength) =
      (artifact.bytecode.toList.drop (site.position artifact.origin)).take
        (2 * addressLength) := by
  apply List.ext_getElem?
  intro j
  by_cases hj : j < 2 * addressLength
  · rw [List.getElem?_take_of_lt hj, List.getElem?_take_of_lt hj, List.getElem?_drop,
      List.getElem?_drop]
    refine h.getElem?_linked_of_unresolved hsite hnone ?_
    unfold LinkSite.Covers
    omega
  · rw [List.getElem?_take_eq_none (by omega), List.getElem?_take_eq_none (by omega)]

/-- The search finds the first place whose library has no address. -/
theorem fromPlaceholder_linked (h : artifact.Marked)
    (hfirst : artifact.FirstUnresolved libraries site) :
    fromPlaceholder (Patch.applyAll (artifact.patches libraries) artifact.bytecode.toList) =
      some ((Patch.applyAll (artifact.patches libraries) artifact.bytecode.toList).drop
        (site.position artifact.origin)) := by
  have hkept := h.take_drop_linked hfirst.mem hfirst.unresolved
  obtain ⟨rest, hbegins⟩ := h.begins site hfirst.mem
  generalize hlinked : Patch.applyAll (artifact.patches libraries) artifact.bytecode.toList =
    linked at hkept ⊢
  have hfront : '_' ∉ linked.take (site.position artifact.origin) := by
    intro hmem
    obtain ⟨i, hbefore, hi⟩ := List.mem_take_iff_getElem.1 hmem
    have hchar : linked[i]? = some '_' := by
      rw [List.getElem?_eq_getElem (by omega), hi]
    rw [← hlinked] at hchar
    obtain ⟨other, hother, hnone, hcovers⟩ := h.exists_unresolved_of_underscore hchar
    have hle := hfirst.first other hother hnone
    unfold LinkSite.Covers LinkSite.position at hcovers
    unfold LinkSite.position at hbefore
    omega
  have hplace : linked.drop (site.position artifact.origin) = '_' :: '_' ::
      (rest.take (2 * addressLength - 2) ++
        (linked.drop (site.position artifact.origin)).drop (2 * addressLength)) := by
    conv_lhs => rw [← List.take_append_drop (2 * addressLength)
      (linked.drop (site.position artifact.origin)), hkept, hbegins]
    rfl
  have hsearch := fromPlaceholder_append hfront (rest.take (2 * addressLength - 2) ++
    (linked.drop (site.position artifact.origin)).drop (2 * addressLength))
  rwa [← hplace, List.take_append_drop] at hsearch

/-- A library without an address is told by the text that stands at the first of its places. -/
theorem linkedCode_of_unresolved (h : artifact.Marked)
    (hfirst : artifact.FirstUnresolved libraries site) :
    artifact.linkedCode libraries =
      .error (.link (.unresolved (artifact.placeholder site))) := by
  show (artifact.link libraries).mapError CodeFault.link >>= decodeBytecode = _
  rw [h.link_eq libraries]
  show decodeBytecode (String.ofList _) = _
  rw [decodeBytecode, String.toList_ofList, h.fromPlaceholder_linked hfirst]
  have hkept := h.take_drop_linked hfirst.mem hfirst.unresolved
  exact congrArg
    (fun text => Except.error (CodeFault.link (.unresolved (String.ofList text)))) hkept

/-- With an address for every library nothing is left to be found. -/
theorem fromPlaceholder_linked_eq_none (h : artifact.Marked)
    (hresolved : artifact.Resolved libraries) :
    fromPlaceholder (Patch.applyAll (artifact.patches libraries) artifact.bytecode.toList) =
      none := by
  rw [Option.eq_none_iff_forall_ne_some]
  intro found hfound
  obtain ⟨i, hi⟩ := List.mem_iff_getElem?.1 (mem_of_fromPlaceholder hfound)
  obtain ⟨site, hsite, hnone, -⟩ := h.exists_unresolved_of_underscore hi
  obtain ⟨address, haddress⟩ := hresolved site hsite
  rw [hnone] at haddress
  cases haddress

/-- With an address for every library the linked text is read as digits. -/
theorem linkedCode_of_resolved (h : artifact.Marked) (hresolved : artifact.Resolved libraries) :
    ∃ linked, artifact.link libraries = .ok linked ∧
      artifact.linkedCode libraries = (Hex.decode linked).mapError .hex := by
  refine ⟨_, h.link_eq libraries, ?_⟩
  show (artifact.link libraries).mapError CodeFault.link >>= decodeBytecode = _
  rw [h.link_eq libraries]
  show decodeBytecode (String.ofList _) = _
  rw [decodeBytecode, String.toList_ofList, h.fromPlaceholder_linked_eq_none hresolved]

theorem length_placeholder (h : artifact.Marked) (hsite : site ∈ artifact.sites) :
    (artifact.placeholder site).length = 2 * addressLength := by
  have hrange := (h.fits site hsite).2
  rw [placeholder, String.length_ofList, List.length_take, List.length_drop]
  omega

end Marked

end Artifact

/-- An artifact whose places stand out is refused by the linker exactly if a library that has a
place has no address, and what is told is the forty characters at the first such place in the
bytecode. With an address for every library, the linked text is read as digits, and that is the only
thing that can still fail. -/
theorem unresolved_placeholder_told (artifact : Artifact) (libraries : Libraries)
    (hmarked : artifact.Marked) :
    ((∃ fault, (artifact.linkedCode libraries).mapError DeployError.ofCode =
        .error (.linking fault)) ↔
      ∃ site ∈ artifact.sites, libraries.get? site.library = none) ∧
    ((∃ site ∈ artifact.sites, libraries.get? site.library = none) →
      ∃ site error, artifact.FirstUnresolved libraries site ∧
        (artifact.placeholder site).length = 2 * addressLength ∧
        (artifact.linkedCode libraries).mapError DeployError.ofCode = .error error ∧
        error = .linking (.unresolved (artifact.placeholder site)) ∧
        error.message = "error linking libraries: unresolved library placeholder " ++
          artifact.placeholder site) ∧
    (artifact.Resolved libraries →
      ∃ linked, artifact.link libraries = .ok linked ∧ artifact.LinkedInto libraries linked ∧
        ((∃ code, Hex.decode linked = .ok code ∧ artifact.linkedCode libraries = .ok code) ∨
          ∃ fault, Hex.decode linked = .error fault ∧
            (artifact.linkedCode libraries).mapError DeployError.ofCode =
              .error (.artifactParsing (.hex fault)))) := by
  have htold : ∀ site, artifact.FirstUnresolved libraries site →
      (artifact.linkedCode libraries).mapError DeployError.ofCode =
        .error (.linking (.unresolved (artifact.placeholder site))) := by
    intro site hfirst
    rw [hmarked.linkedCode_of_unresolved hfirst]
    rfl
  refine ⟨⟨?_, ?_⟩, ?_, ?_⟩
  · rintro ⟨fault, hfault⟩
    by_contra hall
    have hresolved : artifact.Resolved libraries := fun site hsite =>
      Option.ne_none_iff_exists'.1 fun hnone => hall ⟨site, hsite, hnone⟩
    obtain ⟨linked, -, hcode⟩ := hmarked.linkedCode_of_resolved hresolved
    rw [hcode] at hfault
    cases hread : Hex.decode linked with
    | ok code =>
      rw [hread] at hfault
      cases hfault
    | error hexFault =>
      rw [hread] at hfault
      cases hfault
  · intro hmissing
    obtain ⟨site, hfirst⟩ := Artifact.exists_firstUnresolved hmissing
    exact ⟨_, htold site hfirst⟩
  · intro hmissing
    obtain ⟨site, hfirst⟩ := Artifact.exists_firstUnresolved hmissing
    refine ⟨site, _, hfirst, hmarked.length_placeholder hfirst.mem, htold site hfirst, rfl, ?_⟩
    rfl
  · intro hresolved
    obtain ⟨linked, hlink, hcode⟩ := hmarked.linkedCode_of_resolved hresolved
    have hinto := Artifact.linkedInto_applyAll hmarked.ascii (hmarked.placesFit libraries)
    have hsame := hlink.symm.trans (hmarked.link_eq libraries)
    cases hsame
    refine ⟨_, hlink, hinto, ?_⟩
    cases hread : Hex.decode _ with
    | ok code =>
      rw [hread] at hcode
      exact .inl ⟨code, rfl, hcode⟩
    | error hexFault =>
      rw [hread] at hcode
      refine .inr ⟨hexFault, rfl, ?_⟩
      rw [hcode]
      rfl

/-- A placeholder that is filled up with one character. -/
def filledPlaceholder (filling : Char) : String :=
  "__$" ++ String.ofList (List.replicate 34 filling) ++ "$__"

/-- Bytecode in which the places of two libraries touch. -/
def touchingPlaces : Artifact where
  contractName := "Vault"
  interface := {}
  bytecode := "0x60" ++ filledPlaceholder 'a' ++ filledPlaceholder 'b' ++ "00"
  links := NameMap.ofList [
    ("Math.sol", NameMap.ofList [("Math", [⟨21, 20⟩])]),
    ("Sets.sol", NameMap.ofList [("Sets", [⟨1, 20⟩])])]

theorem touchingPlaces_marked : touchingPlaces.Marked := by
  have hsites : touchingPlaces.sites = [⟨"Math", ⟨21, 20⟩⟩, ⟨"Sets", ⟨1, 20⟩⟩] := rfl
  have horigin : touchingPlaces.origin = 2 := by decide +kernel
  have hlength : touchingPlaces.bytecode.toList.length = 86 := by decide +kernel
  have hbegins : ∀ site ∈ touchingPlaces.sites,
      (touchingPlaces.bytecode.toList.drop (site.position 2)).take 2 = ['_', '_'] := by
    decide +kernel
  have helsewhere : ∀ i < 86, touchingPlaces.bytecode.toList[i]? = some '_' →
      ∃ site ∈ touchingPlaces.sites,
        site.position 2 ≤ i ∧ i < site.position 2 + 2 * addressLength := by
    decide +kernel
  constructor
  · decide +kernel
  · rw [hlength]
    decide
  · rw [hsites, horigin, hlength]
    decide
  · rw [hsites]
    unfold LinkSite.Apart
    decide
  · intro site hsite
    refine ⟨(touchingPlaces.bytecode.toList.drop (site.position 2)).drop 2, ?_⟩
    conv_lhs => rw [horigin, ← List.take_append_drop 2 (List.drop _ _), hbegins site hsite]
    rfl
  · intro i hi
    rw [horigin]
    exact helsewhere i (hlength ▸ (List.getElem?_eq_some_iff.1 hi).1) hi

/-- With an address for one of two places that touch, it is the placeholder in the other that is
told, although the text of the first ends with two underscores. -/
theorem unresolved_placeholder_told_touching :
    touchingPlaces.Marked ∧
      (touchingPlaces.linkedCode (NameMap.ofList [("Sets", FixedBytes.ofNat 2)])).mapError
        DeployError.ofCode = .error (.linking (.unresolved (filledPlaceholder 'b'))) := by
  refine ⟨touchingPlaces_marked, ?_⟩
  obtain ⟨-, htold, -⟩ := unresolved_placeholder_told touchingPlaces
    (NameMap.ofList [("Sets", FixedBytes.ofNat 2)]) touchingPlaces_marked
  obtain ⟨site, _, hfirst, -, hrun, rfl, -⟩ := htold (by decide +kernel)
  have honly : ∀ site ∈ touchingPlaces.sites,
      (NameMap.ofList [("Sets", (FixedBytes.ofNat 2 : Address))]).get? site.library = none →
        touchingPlaces.placeholder site = filledPlaceholder 'b' := by
    decide +kernel
  rw [hrun, honly site hfirst.mem hfirst.unresolved]

end ContractDeploy
