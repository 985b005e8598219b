import ContractDeploy.Json.Decode
import ContractDeploy.Json.Printer
import ContractDeploy.Proofs.HexText
import ContractDeploy.Proofs.JsonText

/-!
# Reading back what documents hold

The readers of texts, byte strings, lists, maps and records give back what the writers of these
shapes were given. A shape is read back as soon as what it holds is, so each statement is about any
reader and any writer of the parts.
-/

namespace ContractDeploy

namespace NameMap

variable {α : Type}

/-- What a map holds after pairs of different names were put into it one after the other. -/
theorem get?_foldl_insert (pairs : List (String × α)) (map : NameMap α) (name : String)
    (h : pairs.Pairwise fun a b => a.1 < b.1) :
    (pairs.foldl (fun map pair => map.insert pair.1 pair.2) map).get? name =
      (lookupEntry name pairs).or (map.get? name) := by
  induction pairs generalizing map with
  | nil => rfl
  | cons pair pairs ih =>
    obtain ⟨hhead, htail⟩ := List.pairwise_cons.1 h
    rw [List.foldl_cons, ih _ htail, get?_insert]
    by_cases hname : pair.1 = name
    · have hnone : lookupEntry name pairs = none :=
        lookupEntry_eq_none_of_lt fun other hother => hname ▸ hhead other hother
      simp [lookupEntry, hname, hnone]
    · simp [lookupEntry, hname]

/-- A map is built from its own pairs. -/
theorem ofList_entries (map : NameMap α) : ofList map.entries = map := by
  refine ext_get? fun name => ?_
  rw [ofList, get?_foldl_insert _ _ _ map.sorted]
  exact Option.or_none

end NameMap

namespace Json

/-! ## Parts -/

/-- A text without escapes is read back from its literal. -/
theorem textOf_escape (text : String) : textOf (escape text.toList) = .ok text := by
  simp [textOf, unescape_escape]

theorem asText_ofText (text : String) : asText (ofText text) = .ok text := textOf_escape text

theorem textual_ofText (text : String) : (ofText text).Textual := ⟨text.toList, rfl⟩

/-! ## Lists -/

section List

variable {α : Type} {reader : Json → Except Fault α} {write : α → Json}

theorem traverse_ofList (values : List α) (h : ∀ value ∈ values, reader (write value) = .ok value) :
    (Items.ofList (values.map write)).traverse reader = .ok values := by
  induction values with
  | nil => rfl
  | cons value values ih =>
    have hvalue := h value List.mem_cons_self
    have hvalues := ih fun other hother => h other (List.mem_cons_of_mem _ hother)
    rw [List.map_cons, Items.ofList, Items.traverse, hvalue, hvalues]
    rfl

/-- A list is read back if its values are. -/
theorem asList_ofValues {reader : Nat → Json → Except Fault α} (depth : Nat) (values : List α)
    (h : ∀ value ∈ values, reader depth (write value) = .ok value) :
    asList (depth + 1) reader (ofValues (values.map write)) = .ok values :=
  traverse_ofList values h

theorem textual_ofList (values : List α) (h : ∀ value ∈ values, (write value).Textual) :
    (Items.ofList (values.map write)).Textual := by
  induction values with
  | nil => trivial
  | cons value values ih =>
    refine ⟨h value List.mem_cons_self, ih fun other hother => ?_⟩
    exact h other (List.mem_cons_of_mem _ hother)

end List

/-! ## Maps -/

section Map

variable {α ε : Type} {lift : Fault → ε} {write : α → Json}

theorem members_traverse_ofList {reader : Json → Except ε α} (pairs : List (String × α))
    (h : ∀ pair ∈ pairs, reader (write pair.2) = .ok pair.2) :
    (Members.ofList (pairs.map fun pair => field pair.1 (write pair.2))).traverse lift reader =
      .ok pairs := by
  induction pairs with
  | nil => rfl
  | cons pair pairs ih =>
    have hpair := h pair List.mem_cons_self
    have hpairs := ih fun other hother => h other (List.mem_cons_of_mem _ hother)
    rw [List.map_cons, field, Members.ofList, Members.traverse, textOf_escape, hpair, hpairs]
    rfl

/-- A map is read back if its values are. -/
theorem asMapWith_ofFields {reader : Nat → Json → Except ε α} (depth : Nat) (map : NameMap α)
    (h : ∀ value, reader depth (write value) = .ok value) :
    asMapWith lift (depth + 1) reader
      (ofFields (map.entries.map fun pair => field pair.1 (write pair.2))) = .ok map := by
  rw [ofFields, asMapWith, members_traverse_ofList map.entries fun pair _ => h pair.2]
  exact congrArg Except.ok map.ofList_entries

theorem textual_members (pairs : List (String × α)) (h : ∀ pair ∈ pairs, (write pair.2).Textual) :
    (Members.ofList (pairs.map fun pair => field pair.1 (write pair.2))).Textual := by
  induction pairs with
  | nil => trivial
  | cons pair pairs ih =>
    exact ⟨⟨pair.1.toList, rfl⟩, h pair List.mem_cons_self,
      ih fun other hother => h other (List.mem_cons_of_mem _ hother)⟩

end Map

/-! ## Records -/

/-- The members of an object under these names. -/
def namedMembers (pairs : List (String × Json)) : List (List Char × Json) :=
  pairs.map fun pair => field pair.1 pair.2

theorem textual_namedMembers (pairs : List (String × Json)) (h : ∀ pair ∈ pairs, pair.2.Textual) :
    (ofFields (namedMembers pairs)).Textual := by
  have hmembers : (Members.ofList (pairs.map fun pair => field pair.1 (id pair.2))).Textual :=
    textual_members pairs h
  exact hmembers

theorem known_ofList {names : List String} (pairs : List (String × Json)) (seen : List String)
    (hknown : ∀ pair ∈ pairs, pair.1 ∈ names) (hnew : ∀ pair ∈ pairs, pair.1 ∉ seen)
    (hnodup : (pairs.map Prod.fst).Nodup) :
    (Members.ofList (namedMembers pairs)).known names seen = .ok pairs := by
  induction pairs generalizing seen with
  | nil => rfl
  | cons pair pairs ih =>
    obtain ⟨hhead, htail⟩ := List.nodup_cons.1 hnodup
    have hrest :
        (Members.ofList (namedMembers pairs)).known names (pair.1 :: seen) = .ok pairs := by
      refine ih (pair.1 :: seen) ?_ ?_ htail
      · exact fun other hother => hknown other (List.mem_cons_of_mem _ hother)
      · intro other hother hseen
        rcases List.mem_cons.1 hseen with heq | hseen
        · exact hhead (heq ▸ List.mem_map_of_mem hother)
        · exact hnew other (List.mem_cons_of_mem _ hother) hseen
    rw [namedMembers, List.map_cons, ← namedMembers, field, Members.ofList, Members.known,
      textOf_escape]
    simp only [bind, Except.bind, hknown pair List.mem_cons_self, hnew pair List.mem_cons_self,
      if_true, if_false, hrest]
    rfl

/-- A record whose fields are known and come once is read as those fields. -/
theorem asFields_ofFields {names : List String} (pairs : List (String × Json))
    (hnodup : names.Nodup) (hsublist : (pairs.map Prod.fst).Sublist names) :
    asFields names (ofFields (namedMembers pairs)) = .ok pairs := by
  refine known_ofList pairs [] (fun pair hpair => ?_) (fun pair _ => List.not_mem_nil) ?_
  · exact hsublist.subset (List.mem_map_of_mem hpair)
  · exact hsublist.nodup hnodup

end Json

end ContractDeploy
