import ContractDeploy.Proofs.DigitText
import ContractDeploy.Proofs.Linking

/-!
# The bytes of linked code

Places are given in bytes of the code, placeholders are text, and what is written over them is
digits. For an artifact whose places are as long as an address, lie apart from each other in the
text and cover whatever in it is no digit, the three views agree: the code has one byte for each two
of the text, at every place stand the bytes of the library's address, and every other byte is the
one that its own two digits denote (`Artifact.Spells`). The text is cut at bytes, and a cut inside a
character is refused, so a place has to begin and end between two characters; nothing else is asked
of what a placeholder consists of.
-/

namespace ContractDeploy

/-! ## Cutting a text -/

/-- A text can be cut behind its first `n` bytes: no character reaches over that position. -/
def IsCut (text : List Char) (n : Nat) : Prop :=
  ∃ front back, text = front ++ back ∧ (textBytes front).length = n

theorem splitBytes_append (front back : List Char) :
    splitBytes (textBytes front).length (front ++ back) = some (front, back) := by
  induction front with
  | nil =>
    show splitBytes 0 back = some ([], back)
    unfold splitBytes
    rfl
  | cons c front ih =>
    have hsize := c.utf8Size_pos
    obtain ⟨n, hn⟩ : ∃ n, (textBytes (c :: front)).length = n + 1 := by
      refine ⟨c.utf8Size - 1 + (textBytes front).length, ?_⟩
      rw [length_textBytes_cons]
      omega
    have hrest : n + 1 - c.utf8Size = (textBytes front).length := by
      rw [← hn, length_textBytes_cons]
      omega
    have hfits : c.utf8Size ≤ n + 1 := by
      rw [← hn, length_textBytes_cons]
      omega
    rw [hn, List.cons_append, splitBytes, if_pos hfits, hrest, ih]
    rfl

/-- Two cuts make three pieces. -/
theorem IsCut.pieces {text : List Char} {start length : Nat} (hstart : IsCut text start)
    (hstop : IsCut text (start + length)) :
    ∃ front middle back, text = front ++ (middle ++ back) ∧
      (textBytes front).length = start ∧ (textBytes middle).length = length := by
  obtain ⟨front, rest, htext, hfront⟩ := hstart
  obtain ⟨whole, back, hwhole, hlength⟩ := hstop
  rw [htext] at hwhole
  rcases List.append_eq_append_iff.1 hwhole with ⟨middle, hmiddle, hrest⟩ | ⟨middle, hmiddle, hback⟩
  · refine ⟨front, middle, back, ?_, hfront, ?_⟩
    · rw [htext, hrest]
    · rw [hmiddle, textBytes_append, List.length_append, hfront] at hlength
      omega
  · -- The second cut does not come before the first, so nothing is left between them.
    rw [hmiddle, textBytes_append, List.length_append, hlength] at hfront
    have hnil : middle = [] := eq_nil_of_length_textBytes (by omega)
    refine ⟨front, [], rest, htext, ?_, ?_⟩
    · rw [hmiddle, textBytes_append, List.length_append, hlength]
      omega
    · show 0 = length
      omega

/-- Replacing a stretch of a text between two cuts writes over the bytes there, and leaves the cuts
outside of it. -/
theorem spliceBytes_of_isCut {text : List Char} {start : Nat} (filling : List Char)
    (hstart : IsCut text start) (hstop : IsCut text (start + (textBytes filling).length)) :
    ∃ spliced, spliceBytes start (textBytes filling).length filling text = some spliced ∧
      textBytes spliced = Patch.apply ⟨start, textBytes filling⟩ (textBytes text) ∧
      ∀ n, n ≤ start ∨ start + (textBytes filling).length ≤ n → IsCut text n →
        IsCut spliced n := by
  obtain ⟨front, middle, back, rfl, rfl, hmiddle⟩ := hstart.pieces hstop
  refine ⟨front ++ filling ++ back, ?_, ?_, ?_⟩
  · unfold spliceBytes
    rw [splitBytes_append]
    show ((splitBytes (textBytes filling).length (middle ++ back)).bind fun parts =>
      some (front ++ filling ++ parts.2)) = _
    rw [← hmiddle, splitBytes_append]
    rfl
  · have hfront : (textBytes (front ++ (middle ++ back))).take (textBytes front).length =
        textBytes front := by
      rw [textBytes_append, List.take_left]
    have hback : (textBytes (front ++ (middle ++ back))).drop
        ((textBytes front).length + (textBytes filling).length) = textBytes back := by
      rw [textBytes_append, textBytes_append, ← hmiddle, ← List.append_assoc, ← List.length_append,
        List.drop_left]
    show _ = List.take _ _ ++ textBytes filling ++ List.drop _ _
    unfold Patch.stop
    rw [hfront, hback, textBytes_append, textBytes_append]
  · rintro n (hbefore | hbehind) ⟨first, last, htext, hlength⟩
    · rcases List.append_eq_append_iff.1 htext with ⟨more, rfl, hlast⟩ | ⟨more, rfl, hlast⟩
      · -- The cut is not before the end of the front, so it is at its end.
        rw [textBytes_append, List.length_append] at hlength
        have hnil : more = [] := eq_nil_of_length_textBytes (by omega)
        subst hnil
        exact ⟨front, filling ++ back, by rw [List.append_assoc],
          by rw [List.append_nil] at *; omega⟩
      · exact ⟨first, more ++ filling ++ back, by simp only [List.append_assoc], hlength⟩
    · rw [← List.append_assoc] at htext
      rcases List.append_eq_append_iff.1 htext with ⟨more, rfl, hlast⟩ | ⟨more, hmore, hlast⟩
      · refine ⟨front ++ filling ++ more, last, ?_, ?_⟩
        · rw [hlast, List.append_assoc (front ++ filling)]
        · simp only [textBytes_append, List.length_append] at hlength ⊢
          omega
      · -- The cut is not before the end of the stretch, so it is at its end.
        have hsum := congrArg (fun text => (textBytes text).length) hmore
        simp only [textBytes_append, List.length_append] at hsum
        have hnil : more = [] := eq_nil_of_length_textBytes (by omega)
        subst hnil
        refine ⟨front ++ filling, last, ?_, ?_⟩
        · rw [hlast, List.nil_append]
        · simp only [textBytes_append, List.length_append]
          omega

/-! ## Writing over the bytes -/

theorem Address.textBytes_linkText (address : Address) :
    textBytes address.linkText.toList = address.bytes.flatMap Hex.digitBytes := by
  rw [← Bytes.ofString_eq_textBytes, Address.linkText, Hex.ofString_encode]

theorem Address.length_textBytes_linkText (address : Address) :
    (textBytes address.linkText.toList).length = 2 * addressLength := by
  rw [address.textBytes_linkText, Hex.length_flatMap_digitBytes, address.length_bytes]
  rfl

/-- A place of this length lies in a text, behind the `origin` bytes that its digits begin with, and
begins and ends between two characters. -/
structure LinkSite.FitsIn (site : LinkSite) (origin : Nat) (text : List Char) : Prop where
  length : site.offset.length = addressLength
  start : IsCut text (site.position origin)
  stop : IsCut text (site.position origin + 2 * addressLength)

/-- Two places have nothing in common. -/
def LinkSite.Apart (a b : LinkSite) : Prop :=
  a.offset.start + addressLength ≤ b.offset.start ∨ b.offset.start + addressLength ≤ a.offset.start

/-- What is written over the digits of a text, which begin behind `origin` bytes. -/
def Placement.bytePatch (place : Placement) (origin : Nat) : Patch UInt8 :=
  ⟨place.site.position origin, place.address.bytes.flatMap Hex.digitBytes⟩

theorem IsCut.le {text : List Char} {n : Nat} (h : IsCut text n) : n ≤ (textBytes text).length := by
  obtain ⟨front, back, rfl, rfl⟩ := h
  rw [textBytes_append, List.length_append]
  omega

/-- A cut behind what stands in front of a text is one of the text. -/
theorem IsCut.of_append {front text : List Char} {n : Nat}
    (h : IsCut (front ++ text) ((textBytes front).length + n)) : IsCut text n := by
  obtain ⟨first, last, htext, hlength⟩ := h
  rcases List.append_eq_append_iff.1 htext with ⟨more, rfl, hmore⟩ | ⟨more, rfl, -⟩
  · refine ⟨more, last, hmore, ?_⟩
    rw [textBytes_append, List.length_append] at hlength
    omega
  · refine ⟨[], text, rfl, ?_⟩
    rw [textBytes_append, List.length_append] at hlength
    show 0 = n
    omega

section Places

variable {origin : Nat} {text : List Char} {place : Placement} {places : List Placement}

theorem Placement.write_of_fitsIn (contract : String) (hfits : place.site.FitsIn origin text)
    (hcountable : (textBytes text).length < Bytes.capacity 8) :
    ∃ written, place.write contract origin text = .ok written ∧
      textBytes written = (place.bytePatch origin).apply (textBytes text) ∧
      ∀ site : LinkSite, place.site.Apart site → site.FitsIn origin text →
        site.FitsIn origin written := by
  have hfilling := place.address.length_textBytes_linkText
  obtain ⟨written, hspliced, hbytes, hcuts⟩ :=
    spliceBytes_of_isCut place.address.linkText.toList hfits.start
      (by rw [hfilling]; exact hfits.stop)
  rw [hfilling] at hspliced hcuts
  have hend : origin + 2 * place.site.offset.start + 2 * addressLength < Bytes.capacity 8 :=
    Nat.lt_of_le_of_lt hfits.stop.le hcountable
  refine ⟨written, ?_, ?_, ?_⟩
  · unfold write linkLibrary
    rw [if_neg (not_not_intro hfits.length), placeStart?_eq, if_pos hend, Option.bind_some]
    unfold LinkSite.position at hspliced
    rw [hspliced]
    rfl
  · rw [hbytes, place.address.textBytes_linkText]
    rfl
  · intro site hapart hsite
    have hdistance : site.position origin + 2 * addressLength ≤ place.site.position origin ∨
        place.site.position origin + 2 * addressLength ≤ site.position origin := by
      unfold LinkSite.position
      rcases hapart with hapart | hapart
      · exact .inr (by omega)
      · exact .inl (by omega)
    exact ⟨hsite.length, hcuts _ (by omega) hsite.start, hcuts _ (by omega) hsite.stop⟩

theorem Placement.stop_bytePatch (place : Placement) (origin : Nat) :
    (place.bytePatch origin).stop = place.site.position origin + 2 * addressLength := by
  rw [Patch.stop, bytePatch, Hex.length_flatMap_digitBytes, place.address.length_bytes]
  rfl

theorem LinkSite.FitsIn.stop_bytePatch_le (h : place.site.FitsIn origin text) :
    (place.bytePatch origin).stop ≤ (textBytes text).length := by
  rw [place.stop_bytePatch]
  exact h.stop.le

/-- Over places that are apart from each other the addresses are written one after the other. -/
theorem foldlM_write_of_fitsIn (contract : String)
    (hfits : ∀ place ∈ places, place.site.FitsIn origin text)
    (hcountable : (textBytes text).length < Bytes.capacity 8)
    (hapart : places.Pairwise fun a b => a.site.Apart b.site) :
    ∃ linked, places.foldlM (Placement.write contract origin) text = .ok linked ∧
      textBytes linked = Patch.applyAll (places.map (·.bytePatch origin)) (textBytes text) := by
  induction places generalizing text with
  | nil => exact ⟨text, rfl, rfl⟩
  | cons place places ih =>
    obtain ⟨hplace, hplaces⟩ := List.forall_mem_cons.1 hfits
    obtain ⟨hfirst, hothers⟩ := List.pairwise_cons.1 hapart
    obtain ⟨written, hwrite, hbytes, hkept⟩ :=
      Placement.write_of_fitsIn contract hplace hcountable
    have hlength : (textBytes written).length = (textBytes text).length := by
      rw [hbytes, Patch.length_apply hplace.stop_bytePatch_le]
    obtain ⟨linked, hrun, hlinked⟩ := ih
      (fun other hother => hkept other.site (hfirst other hother) (hplaces other hother))
      (hlength.symm ▸ hcountable) hothers
    refine ⟨linked, ?_, ?_⟩
    · rw [List.foldlM_cons, hwrite]
      exact hrun
    · rw [hlinked, hbytes]
      rfl

end Places

/-! ## Linkable artifacts -/

namespace Artifact

/-- The digits of an artifact's bytecode with its placeholders: the bytes of the text behind the
marker that it may begin with. -/
def body (artifact : Artifact) : Bytes := (Bytes.ofString artifact.bytecode).drop artifact.origin

/-- The bytecode of an artifact consists of pairs of digits once each of its places has been written
over, and no place takes anything from another. -/
structure Linkable (artifact : Artifact) : Prop where
  countable : (Bytes.ofString artifact.bytecode).length < Bytes.capacity 8
  even : artifact.body.length % 2 = 0
  fits : ∀ site ∈ artifact.sites, site.FitsIn artifact.origin artifact.bytecode.toList
  apart : artifact.sites.Pairwise LinkSite.Apart
  digits : ∀ i byte, artifact.body[i]? = some byte →
    (∀ site ∈ artifact.sites, ¬ site.Covers 0 i) → (Hex.value? byte.toNat).isSome

/-- Every library that has a place has an address. -/
def Resolved (artifact : Artifact) (libraries : Libraries) : Prop :=
  ∀ site ∈ artifact.sites, ∃ address, libraries.get? site.library = some address

/-- A code is what the bytecode of an artifact spells with these libraries. -/
structure Spells (artifact : Artifact) (libraries : Libraries) (code : Bytes) : Prop where
  length : artifact.body.length = 2 * code.length
  /-- A place holds the address of its library. -/
  addresses : ∀ site ∈ artifact.sites, ∀ address, libraries.get? site.library = some address →
    (code.drop site.offset.start).take addressLength = address.bytes
  /-- Any other byte is the one that its two digits denote. -/
  others : ∀ k, (∀ site ∈ artifact.sites,
      ¬ (site.offset.start ≤ k ∧ k < site.offset.start + addressLength)) →
    code[k]? = Hex.pairAt? artifact.body k

/-- The digits of an artifact's bytecode with the addresses in their places. -/
def linkedBody (artifact : Artifact) (libraries : Libraries) : Bytes :=
  Patch.applyAll ((artifact.placements libraries).map (·.bytePatch 0)) artifact.body

end Artifact

/-- What may stand in front of digits: nothing, or the marker. -/
theorem digitsStart_cases (text : List Char) :
    digitsStart text = 0 ∨ ∃ rest, text = '0' :: 'x' :: rest ∧ digitsStart text = 2 := by
  unfold digitsStart
  by_cases hprefix : ['0', 'x'].isPrefixOf text = true
  · obtain ⟨rest, rfl⟩ := List.isPrefixOf_iff_prefix.1 hprefix
    exact .inr ⟨rest, rfl, if_pos hprefix⟩
  · exact .inl (if_neg hprefix)

/-- The bytes of an artifact's bytecode are those of its marker and those of its digits. -/
theorem Artifact.exists_front (artifact : Artifact) :
    ∃ front, Bytes.ofString artifact.bytecode = front ++ artifact.body ∧
      front.length = artifact.origin ∧ (front = [] ∨ front = [48, 120]) := by
  unfold body origin
  rw [Bytes.ofString_eq_textBytes]
  rcases digitsStart_cases artifact.bytecode.toList with hzero | ⟨rest, htext, htwo⟩
  · exact ⟨[], by rw [hzero]; rfl, hzero.symm, .inl rfl⟩
  · refine ⟨[48, 120], ?_, htwo.symm, .inr rfl⟩
    rw [htwo, htext]
    rfl

theorem Patch.apply_append {α : Type} (patch : Patch α) (front items : List α) :
    Patch.apply ⟨front.length + patch.position, patch.filling⟩ (front ++ items) =
      front ++ patch.apply items := by
  unfold Patch.apply Patch.stop
  rw [List.take_length_add_append, Nat.add_assoc, List.drop_length_add_append, List.append_assoc,
    List.append_assoc, List.append_assoc]

section Linked

variable {artifact : Artifact} {libraries : Libraries} {place : Placement}

/-- Written over behind the front of a text, what is in front stays. -/
theorem applyAll_bytePatch_append (front body : Bytes) (places : List Placement) :
    Patch.applyAll (places.map (·.bytePatch front.length)) (front ++ body) =
      front ++ Patch.applyAll (places.map (·.bytePatch 0)) body := by
  induction places generalizing body with
  | nil => rfl
  | cons place places ih =>
    have hposition : place.site.position front.length = front.length + place.site.position 0 := by
      unfold LinkSite.position
      omega
    have hfirst : (place.bytePatch front.length).apply (front ++ body) =
        front ++ (place.bytePatch 0).apply body := by
      rw [← Patch.apply_append]
      unfold Placement.bytePatch
      rw [hposition]
    show Patch.applyAll (places.map (·.bytePatch front.length))
      ((place.bytePatch front.length).apply (front ++ body)) = _
    rw [hfirst, ih]
    rfl

theorem Artifact.mem_sites_of_mem_placements (h : place ∈ artifact.placements libraries) :
    place.site ∈ artifact.sites ∧ libraries.get? place.site.library = some place.address := by
  obtain ⟨site, hsite, hplace⟩ := List.mem_filterMap.1 h
  obtain ⟨address, haddress, rfl⟩ := Option.map_eq_some_iff.1 hplace
  exact ⟨hsite, haddress⟩

theorem Artifact.mem_placements {site : LinkSite} {address : Address}
    (hsite : site ∈ artifact.sites)
    (haddress : libraries.get? site.library = some address) :
    (⟨site, address⟩ : Placement) ∈ artifact.placements libraries := by
  refine List.mem_filterMap.2 ⟨site, hsite, ?_⟩
  rw [haddress]
  rfl

namespace Artifact.Linkable

theorem placements_apart (h : artifact.Linkable) (libraries : Libraries) :
    (artifact.placements libraries).Pairwise fun a b => a.site.Apart b.site := by
  refine h.apart.filterMap _ ?_
  intro a b hapart place hplace other hother
  obtain ⟨_, -, rfl⟩ := Option.map_eq_some_iff.1 hplace
  obtain ⟨_, -, rfl⟩ := Option.map_eq_some_iff.1 hother
  exact hapart

theorem stop_le (h : artifact.Linkable) (libraries : Libraries) :
    ∀ patch ∈ (artifact.placements libraries).map (·.bytePatch 0),
      patch.stop ≤ artifact.body.length := by
  intro patch hpatch
  obtain ⟨place, hplace, rfl⟩ := List.mem_map.1 hpatch
  obtain ⟨front, htext, hfront, -⟩ := artifact.exists_front
  have hstop := (h.fits _ (artifact.mem_sites_of_mem_placements hplace).1).stop.le
  rw [← Bytes.ofString_eq_textBytes, htext, List.length_append, hfront] at hstop
  rw [place.stop_bytePatch]
  unfold LinkSite.position at hstop ⊢
  omega

theorem length_linkedBody (h : artifact.Linkable) (libraries : Libraries) :
    (artifact.linkedBody libraries).length = artifact.body.length :=
  Patch.length_applyAll (h.stop_le libraries)

end Artifact.Linkable

theorem Placement.covers_bytePatch (place : Placement) (origin i : Nat) :
    (place.bytePatch origin).Covers i ↔ place.site.Covers origin i := by
  rw [Patch.Covers, place.stop_bytePatch]
  rfl

namespace Artifact.Linkable

/-- Outside of the places the digits stay. -/
theorem getElem?_linkedBody_of_uncovered (h : artifact.Linkable) {i : Nat}
    (huncovered : ∀ site ∈ artifact.sites, ¬ site.Covers 0 i) :
    (artifact.linkedBody libraries)[i]? = artifact.body[i]? := by
  refine Patch.getElem?_applyAll_of_uncovered (h.stop_le libraries) fun patch hpatch => ?_
  obtain ⟨place, hplace, rfl⟩ := List.mem_map.1 hpatch
  rw [place.covers_bytePatch]
  exact huncovered _ (artifact.mem_sites_of_mem_placements hplace).1

/-- A place has the digits of its library's address, since no other place covers it. -/
theorem getElem?_linkedBody_of_covers (h : artifact.Linkable) {site : LinkSite} {address : Address}
    (hsite : site ∈ artifact.sites) (haddress : libraries.get? site.library = some address)
    {i : Nat} (hcovers : site.Covers 0 i) :
    (artifact.linkedBody libraries)[i]? =
      (address.bytes.flatMap Hex.digitBytes)[i - site.position 0]? := by
  obtain ⟨before, after, hplaces⟩ := List.append_of_mem (artifact.mem_placements hsite haddress)
  have hrange := h.stop_le libraries
  have hapart := h.placements_apart libraries
  unfold linkedBody
  rw [hplaces, List.map_append, List.map_cons] at hrange ⊢
  rw [hplaces] at hapart
  have hfollowing := (List.pairwise_cons.1 (List.pairwise_append.1 hapart).2.1).1
  refine Patch.getElem?_applyAll_of_last hrange ((Placement.covers_bytePatch _ 0 i).2 hcovers) ?_
  intro patch hpatch hlater
  obtain ⟨later, hmem, rfl⟩ := List.mem_map.1 hpatch
  have hcovers' := (later.covers_bytePatch 0 i).1 hlater
  have hdistance := hfollowing later hmem
  unfold LinkSite.Covers LinkSite.position at hcovers hcovers'
  unfold LinkSite.Apart at hdistance
  simp only at hdistance hcovers'
  omega

/-- With every library resolved, there are digits only. -/
theorem allDigits_linkedBody (h : artifact.Linkable) (hresolved : artifact.Resolved libraries) :
    Hex.AllDigits (artifact.linkedBody libraries) := by
  intro byte hbyte
  obtain ⟨i, hi⟩ := List.mem_iff_getElem?.1 hbyte
  by_cases hcovered : ∃ site ∈ artifact.sites, site.Covers 0 i
  · obtain ⟨site, hsite, hcovers⟩ := hcovered
    obtain ⟨address, haddress⟩ := hresolved site hsite
    rw [h.getElem?_linkedBody_of_covers hsite haddress hcovers] at hi
    exact Hex.allDigits_digitBytes _ byte (List.mem_of_getElem? hi)
  · have huncovered : ∀ site ∈ artifact.sites, ¬ site.Covers 0 i := fun site hsite hcovers =>
      hcovered ⟨site, hsite, hcovers⟩
    rw [h.getElem?_linkedBody_of_uncovered huncovered] at hi
    exact h.digits i byte hi huncovered

/-- The text that linking makes: what was in front of the digits, and the linked digits. -/
theorem link_eq_ok (h : artifact.Linkable) (libraries : Libraries) :
    ∃ linked front, artifact.link libraries = .ok linked ∧
      Bytes.ofString linked = front ++ artifact.linkedBody libraries ∧
      (front = [] ∨ front = [48, 120]) := by
  obtain ⟨front, htext, hfront, hmarker⟩ := artifact.exists_front
  have hfits : ∀ place ∈ artifact.placements libraries,
      place.site.FitsIn artifact.origin artifact.bytecode.toList := fun place hplace =>
    h.fits _ (artifact.mem_sites_of_mem_placements hplace).1
  have hcountable := h.countable
  rw [Bytes.ofString_eq_textBytes] at htext hcountable
  obtain ⟨linked, hrun, hlinked⟩ := foldlM_write_of_fitsIn artifact.contractName hfits hcountable
    (h.placements_apart libraries)
  refine ⟨String.ofList linked, front, ?_, ?_, hmarker⟩
  · rw [artifact.link_eq_foldlM, hrun]
    rfl
  · rw [Bytes.ofString_eq_textBytes, String.toList_ofList, hlinked, htext, ← hfront,
      applyAll_bytePatch_append]
    rfl

end Artifact.Linkable

theorem mem_of_fromPlaceholder {text found : List Char} (h : fromPlaceholder text = some found) :
    '_' ∈ text := by
  fun_induction fromPlaceholder text with
  | case1 => exact List.mem_cons_self
  | case2 c rest _ ih => exact List.mem_cons_of_mem _ (ih h)
  | case3 => cases h

/-- Digits behind a marker, or behind nothing, hold no placeholder. -/
theorem decodeBytecode_of_allDigits {text : String} {front digits : Bytes}
    (htext : Bytes.ofString text = front ++ digits) (hfront : front = [] ∨ front = [48, 120])
    (hdigits : Hex.AllDigits digits) (heven : digits.length % 2 = 0) :
    decodeBytecode text = (Hex.decodePairs 0 digits).mapError .hex := by
  have hnone : fromPlaceholder text.toList = none := by
    rw [Option.eq_none_iff_forall_ne_some]
    intro found hfound
    have hbyte : (95 : UInt8) ∈ Bytes.ofString text := by
      rw [Bytes.ofString_eq_textBytes]
      exact List.mem_flatMap.2 ⟨'_', mem_of_fromPlaceholder hfound, by decide⟩
    rw [htext] at hbyte
    rcases List.mem_append.1 hbyte with hbyte | hbyte
    · rcases hfront with rfl | rfl
      · cases hbyte
      · exact absurd hbyte (by decide)
    · exact absurd (hdigits _ hbyte) (by decide)
  have hdecode : Hex.decode text = Hex.decodePairs 0 digits := by
    have hcount : (front ++ digits).length % 2 ≠ 1 := by
      rcases hfront with rfl | rfl
      · rw [List.nil_append]
        omega
      · rw [List.length_append]
        show (2 + digits.length) % 2 ≠ 1
        omega
    rw [Hex.decode, htext, Hex.decodeBytes, if_neg hcount]
    rcases hfront with rfl | rfl
    · rw [List.nil_append, Hex.dropMarker_of_allDigits hdigits]
    · rfl
  rw [decodeBytecode, hnone, hdecode]

namespace Artifact.Linkable

/-- With every library resolved, the code is what the linked digits denote. -/
theorem linkedCode_eq (h : artifact.Linkable) (hresolved : artifact.Resolved libraries) :
    artifact.linkedCode libraries =
      (Hex.decodePairs 0 (artifact.linkedBody libraries)).mapError .hex := by
  obtain ⟨linked, front, hlink, hlinked, hfront⟩ := h.link_eq_ok libraries
  have heven : (artifact.linkedBody libraries).length % 2 = 0 := by
    rw [h.length_linkedBody]
    exact h.even
  show (artifact.link libraries).mapError CodeFault.link >>= decodeBytecode = _
  rw [hlink]
  exact decodeBytecode_of_allDigits hlinked hfront (h.allDigits_linkedBody hresolved) heven

/-- A linkable artifact whose libraries are resolved has a code, and its bytecode spells it. -/
theorem linkedCode_eq_ok (h : artifact.Linkable) (hresolved : artifact.Resolved libraries) :
    ∃ code, artifact.linkedCode libraries = .ok code ∧ artifact.Spells libraries code := by
  have heven := h.even
  have hpairs : (artifact.linkedBody libraries).length = 2 * (artifact.body.length / 2) := by
    rw [h.length_linkedBody]
    omega
  obtain ⟨code, hread, hsize, hbytes⟩ :=
    Hex.decodePairs_of_allDigits (h.allDigits_linkedBody hresolved) hpairs 0
  refine ⟨code, ?_, ?_, ?_, ?_⟩
  · rw [h.linkedCode_eq hresolved, hread]
    rfl
  · omega
  · intro site hsite address haddress
    apply List.ext_getElem?
    intro j
    by_cases hj : j < addressLength
    · -- Both digits of the byte lie in the place.
      have hdigit : ∀ d, d < 2 → (artifact.linkedBody libraries)[2 * (site.offset.start + j) + d]? =
          (address.bytes.flatMap Hex.digitBytes)[2 * j + d]? := by
        intro d hd
        have hcovers : site.Covers 0 (2 * (site.offset.start + j) + d) := by
          unfold LinkSite.Covers LinkSite.position
          omega
        rw [h.getElem?_linkedBody_of_covers hsite haddress hcovers]
        congr 1
        unfold LinkSite.position
        omega
      rw [List.getElem?_take_of_lt hj, List.getElem?_drop, hbytes,
        Hex.pairAt?_congr (hdigit 0 (by decide)) (hdigit 1 (by decide)), Hex.pairAt?_digitBytes]
    · have hbytes := address.length_bytes
      rw [List.getElem?_eq_none, List.getElem?_eq_none]
      · unfold addressLength at hj
        omega
      · rw [List.length_take]
        omega
  · intro k huncovered
    have hdigit : ∀ d, d < 2 →
        (artifact.linkedBody libraries)[2 * k + d]? = artifact.body[2 * k + d]? := by
      intro d hd
      refine h.getElem?_linkedBody_of_uncovered fun site hsite hcovers => ?_
      refine huncovered site hsite ?_
      unfold LinkSite.Covers LinkSite.position at hcovers
      omega
    rw [hbytes, Hex.pairAt?_congr (hdigit 0 (by decide)) (hdigit 1 (by decide))]

/-- Without its marker a linkable artifact has the same digits, and is linkable, unless its digits
begin with what looks like a marker. -/
theorem without_marker (h : artifact.Linkable) {digits : String}
    (hmarked : artifact.bytecode = Hex.marker ++ digits)
    (hunmarked : digitsStart digits.toList = 0) :
    ({ artifact with bytecode := digits } : Artifact).Linkable ∧
      ({ artifact with bytecode := digits } : Artifact).body = artifact.body := by
  have htext : artifact.bytecode.toList = ['0', 'x'] ++ digits.toList := by
    rw [hmarked, String.toList_append]
    rfl
  have horigin : artifact.origin = 2 := by
    unfold origin
    rw [htext]
    rfl
  have hbytes : Bytes.ofString artifact.bytecode = [48, 120] ++ Bytes.ofString digits := by
    rw [hmarked, Bytes.ofString_append]
    rfl
  have hbody : ({ artifact with bytecode := digits } : Artifact).body = artifact.body := by
    unfold body
    rw [horigin, hbytes]
    unfold origin
    rw [hunmarked]
    rfl
  have hbare : ({ artifact with bytecode := digits } : Artifact).origin = 0 := hunmarked
  have hcut : ∀ n, IsCut artifact.bytecode.toList (2 + n) → IsCut digits.toList n := by
    intro n hn
    rw [htext] at hn
    exact IsCut.of_append hn
  refine ⟨⟨?_, ?_, ?_, h.apart, ?_⟩, hbody⟩
  · have hcountable := h.countable
    rw [hbytes, List.length_append] at hcountable
    exact Nat.lt_of_le_of_lt (Nat.le_add_left _ _) hcountable
  · rw [hbody]
    exact h.even
  · intro site hsite
    have hfits := h.fits site hsite
    rw [horigin] at hfits
    rw [hbare]
    have hposition : site.position 2 = 2 + site.position 0 := by
      unfold LinkSite.position
      omega
    refine ⟨hfits.length, hcut _ ?_, hcut _ ?_⟩
    · rw [← hposition]
      exact hfits.start
    · rw [← Nat.add_assoc, ← hposition]
      exact hfits.stop
  · rw [hbody]
    exact h.digits

end Artifact.Linkable

end Linked

/-- With every library resolved, a linkable artifact has a code of one byte for two of its text, in
which each place holds the address of its library and every other byte is the one that its own two
digits denote. The marker makes no difference, and libraries at other addresses make another code as
soon as one of them has a place. -/
theorem linkable_bytecode_spells_code (artifact : Artifact) (libraries : Libraries)
    (hlinkable : artifact.Linkable) (hresolved : artifact.Resolved libraries) :
    ∃ code, artifact.linkedCode libraries = .ok code ∧ artifact.Spells libraries code ∧
      (∀ digits, artifact.bytecode = Hex.marker ++ digits → digitsStart digits.toList = 0 →
        ({ artifact with bytecode := digits } : Artifact).linkedCode libraries = .ok code) ∧
      ∀ others : Libraries, artifact.Resolved others →
        (∃ site ∈ artifact.sites, others.get? site.library ≠ libraries.get? site.library) →
        ∃ other, artifact.linkedCode others = .ok other ∧ other ≠ code := by
  obtain ⟨code, hcode, hspells⟩ := hlinkable.linkedCode_eq_ok hresolved
  refine ⟨code, hcode, hspells, ?_, ?_⟩
  · intro digits hmarked hunmarked
    obtain ⟨hbare, hbody⟩ := hlinkable.without_marker hmarked hunmarked
    have hlinked : ({ artifact with bytecode := digits } : Artifact).linkedBody libraries =
        artifact.linkedBody libraries := by
      unfold Artifact.linkedBody
      rw [hbody]
      rfl
    rw [hbare.linkedCode_eq hresolved, hlinked, ← hlinkable.linkedCode_eq hresolved, hcode]
  · rintro others hothers ⟨site, hsite, hdiffers⟩
    obtain ⟨other, hother, hspelled⟩ := hlinkable.linkedCode_eq_ok hothers
    refine ⟨other, hother, ?_⟩
    rintro rfl
    obtain ⟨address, haddress⟩ := hresolved site hsite
    obtain ⟨changed, hchanged⟩ := hothers site hsite
    have hbytes : changed.bytes = address.bytes := by
      rw [← hspelled.addresses site hsite changed hchanged, hspells.addresses site hsite _ haddress]
    rw [haddress, hchanged, FixedBytes.ext hbytes] at hdiffers
    exact hdiffers rfl

/-- In ASCII text a cut is possible wherever there is text. -/
theorem IsAscii.isCut {text : List Char} (h : IsAscii text) {n : Nat} (hn : n ≤ text.length) :
    IsCut text n := by
  refine ⟨text.take n, text.drop n, (List.take_append_drop n text).symm, ?_⟩
  have hlength : ∀ front : List Char, IsAscii front → (textBytes front).length = front.length := by
    intro front hfront
    induction front with
    | nil => rfl
    | cons c front ih =>
      obtain ⟨hc, hfront⟩ := List.forall_mem_cons.1 hfront
      rw [length_textBytes_cons, utf8Size_of_lt hc, ih hfront, List.length_cons]
      omega
  rw [hlength _ fun c hc => h c (List.mem_of_mem_take hc), List.length_take]
  omega

/-- Digits with room for three addresses. -/
def threeBlanks : String :=
  "60" ++ String.ofList (List.replicate 80 '_') ++ "fEA0" ++ String.ofList (List.replicate 40 '_')

/-- Bytecode with the places of two libraries, one of them in two source files. -/
def twoLibraries : Artifact where
  contractName := "Vault"
  interface := {}
  bytecode := Hex.marker ++ threeBlanks
  links := NameMap.ofList [
    ("Math.sol", NameMap.ofList [("Math", [⟨21, 20⟩])]),
    ("Sets.sol", NameMap.ofList [("Math", [⟨43, 20⟩]), ("Sets", [⟨1, 20⟩])])]

/-- Addresses for both. -/
def bothLibraries : Libraries :=
  NameMap.ofList [("Math", FixedBytes.ofNat 1), ("Sets", FixedBytes.ofNat 2)]

theorem twoLibraries_linkable : twoLibraries.Linkable := by
  have hascii : IsAscii twoLibraries.bytecode.toList := by decide +kernel
  have hsites : twoLibraries.sites = [⟨"Math", ⟨21, 20⟩⟩, ⟨"Math", ⟨43, 20⟩⟩, ⟨"Sets", ⟨1, 20⟩⟩] :=
    rfl
  have hlengths : twoLibraries.bytecode.toList.length = 128 ∧ twoLibraries.body.length = 126 ∧
      twoLibraries.origin = 2 := by
    decide +kernel
  obtain ⟨htext, hbody, horigin⟩ := hlengths
  have hdigits : ∀ i < 126, (∃ site ∈ twoLibraries.sites,
      site.position 0 ≤ i ∧ i < site.position 0 + 2 * addressLength) ∨
      (twoLibraries.body[i]?.all fun byte => (Hex.value? byte.toNat).isSome) = true := by
    decide +kernel
  constructor
  · decide +kernel
  · rw [hbody]
  · intro site hsite
    have hrange : ∀ site ∈ twoLibraries.sites, site.offset.length = addressLength ∧
        site.position 2 + 2 * addressLength ≤ 128 := by
      rw [hsites]
      decide
    obtain ⟨hlength, hstop⟩ := hrange site hsite
    rw [horigin]
    exact ⟨hlength, hascii.isCut (by omega), hascii.isCut (by omega)⟩
  · rw [hsites]
    unfold LinkSite.Apart
    decide
  · intro i byte hbyte huncovered
    have hi : i < 126 := hbody ▸ (List.getElem?_eq_some_iff.1 hbyte).1
    rcases hdigits i hi with ⟨site, hsite, hcovers⟩ | hdigit
    · exact absurd hcovers (huncovered site hsite)
    · rw [hbyte] at hdigit
      exact hdigit

/-- Bytecode with places of two libraries is linkable, and so spells a code, with the marker and
without; another address for one of them makes another code. -/
theorem linkable_bytecode_spells_code_two :
    twoLibraries.Linkable ∧ twoLibraries.Resolved bothLibraries ∧
      ∃ code, twoLibraries.linkedCode bothLibraries = .ok code ∧
        twoLibraries.Spells bothLibraries code ∧
        ({ twoLibraries with bytecode := threeBlanks } : Artifact).linkedCode bothLibraries =
          .ok code ∧
        ∃ other, twoLibraries.linkedCode (bothLibraries.insert "Sets" (FixedBytes.ofNat 3)) =
          .ok other ∧ other ≠ code := by
  have hsome : ∀ site ∈ twoLibraries.sites, (bothLibraries.get? site.library).isSome ∧
      ((bothLibraries.insert "Sets" (FixedBytes.ofNat 3)).get? site.library).isSome := by
    decide +kernel
  have hresolved : twoLibraries.Resolved bothLibraries := fun site hsite =>
    Option.isSome_iff_exists.1 (hsome site hsite).1
  have hothers : twoLibraries.Resolved (bothLibraries.insert "Sets" (FixedBytes.ofNat 3)) :=
    fun site hsite => Option.isSome_iff_exists.1 (hsome site hsite).2
  have hdiffers : ∃ site ∈ twoLibraries.sites,
      (bothLibraries.insert "Sets" (FixedBytes.ofNat 3)).get? site.library ≠
        bothLibraries.get? site.library := by
    decide +kernel
  obtain ⟨code, hcode, hspells, hbare, hchanged⟩ := linkable_bytecode_spells_code twoLibraries
    bothLibraries twoLibraries_linkable hresolved
  exact ⟨twoLibraries_linkable, hresolved, code, hcode, hspells,
    hbare threeBlanks rfl (by decide +kernel), hchanged _ hothers hdiffers⟩

/-! ## Placeholders that are misread -/

/-- What makes an artifact linkable, with its digits counted in characters and nothing said of what
they begin with. -/
structure Artifact.LooksLinkable (artifact : Artifact) (digits : String) : Prop where
  marked : artifact.bytecode = digits ∨ artifact.bytecode = Hex.marker ++ digits
  even : digits.length % 2 = 0
  fits : ∀ site ∈ artifact.sites, site.offset.length = addressLength ∧
    site.position 0 + 2 * addressLength ≤ digits.length
  apart : artifact.sites.Pairwise LinkSite.Apart
  digits : ∀ i < digits.length, (∃ site ∈ artifact.sites, site.Covers 0 i) ∨
    (digits.toList[i]?.any fun c => (Hex.value? c.toNat).isSome) = true

/-- The address of the only library of these artifacts. -/
def onlyLibrary : Libraries := NameMap.ofList [("Math", ⟨List.replicate 20 0xab, rfl⟩)]

/-- An artifact whose bytecode is one placeholder of a library. -/
def onlyPlaceholder (bytecode : String) : Artifact where
  contractName := "Vault"
  interface := {}
  bytecode := bytecode
  links := NameMap.ofList [("Math.sol", NameMap.ofList [("Math", [⟨0, 20⟩])])]

/-- Forty characters, the first two of which read as a marker. -/
def markerLike : String := "0x" ++ String.ofList (List.replicate 38 '_')

/-- Forty characters, the first of which takes up two bytes. -/
def accented : String := String.ofList ('é' :: List.replicate 39 'a')

theorem looksLinkable_onlyPlaceholder {bytecode digits : String}
    (hmarked : bytecode = digits ∨ bytecode = Hex.marker ++ digits) (hlength : digits.length = 40) :
    (onlyPlaceholder bytecode).LooksLinkable digits := by
  have hsites : (onlyPlaceholder bytecode).sites = [⟨"Math", ⟨0, 20⟩⟩] := rfl
  refine ⟨hmarked, ?_, ?_, ?_, ?_⟩
  · rw [hlength]
  · intro site hsite
    rw [hsites] at hsite
    obtain rfl := List.mem_singleton.1 hsite
    refine ⟨rfl, ?_⟩
    rw [hlength]
    decide
  · rw [hsites]
    exact List.pairwise_singleton _ _
  · intro i hi
    rw [hlength] at hi
    refine .inl ⟨⟨"Math", ⟨0, 20⟩⟩, ?_, Nat.zero_le _, hi⟩
    rw [hsites]
    exact List.mem_singleton_self _

/-- A placeholder that begins like a marker is linked behind a marker only, and one with a character
of two bytes leaves an odd number of digits. -/
theorem looksLinkable_misread :
    (onlyPlaceholder markerLike).LooksLinkable markerLike ∧
      (onlyPlaceholder markerLike).Resolved onlyLibrary ∧
      (onlyPlaceholder markerLike).linkedCode onlyLibrary =
        .error (.link (.outOfRange "Math" "Vault")) ∧
      (onlyPlaceholder (Hex.marker ++ markerLike)).LooksLinkable markerLike ∧
      (onlyPlaceholder (Hex.marker ++ markerLike)).linkedCode onlyLibrary =
        .ok (List.replicate 20 0xab) ∧
      (onlyPlaceholder accented).LooksLinkable accented ∧
      (onlyPlaceholder accented).linkedCode onlyLibrary = .error (.hex .oddLength) := by
  have hresolved : (onlyPlaceholder markerLike).Resolved onlyLibrary := by
    intro site hsite
    obtain rfl := List.mem_singleton.1 hsite
    exact ⟨_, rfl⟩
  refine ⟨looksLinkable_onlyPlaceholder (.inl rfl) rfl, hresolved, ?_,
    looksLinkable_onlyPlaceholder (.inr rfl) rfl, ?_, looksLinkable_onlyPlaceholder (.inl rfl) rfl,
    ?_⟩
  · decide +kernel
  · decide +kernel
  · decide +kernel

end ContractDeploy
