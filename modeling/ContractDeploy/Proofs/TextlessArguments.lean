import ContractDeploy.Proofs.CallEncoding

/-!
# Arguments of one line

Text may hold line feeds, and so may an argument that is read as text, or as a list with text in
it. An argument of any other type stands on one line: its scanner takes nothing but digits, letters,
brackets, and spaces and tabs between them.
-/

namespace ContractDeploy

mutual

/-- No text is part of the values of a type. -/
def AbiType.Textless : AbiType → Prop
  | .string => False
  | .array element => element.Textless
  | .fixedArray element _ => element.Textless
  | .tuple members => AllTextless members
  | _ => True

/-- No text is part of the values of any of these types. -/
def AllTextless : List AbiType → Prop
  | [] => True
  | type :: types => type.Textless ∧ AllTextless types

end

namespace Abi

/-- A scanner takes characters of one line. -/
def StaysOnLine {α : Type} (scanner : List Char → Option (α × List Char)) : Prop :=
  ∀ text value rest, scanner text = some (value, rest) → SameLine rest text

section Lists

variable {α : Type} {element : List Char → Option (α × List Char)} {text rest : List Char}
  {values : List α}

theorem scanChar_sameLine {c : Char} (hc : c ≠ '\n') (h : scanChar c text = some rest) :
    SameLine rest text := by
  cases text with
  | nil => cases h
  | cons d after =>
    rw [scanChar] at h
    split at h
    · next heq =>
      cases h
      rw [heq]
      exact .cons hc rest
    · cases h

theorem StaysOnLine.ofMap {β : Type} {scanner : List Char → Option (α × List Char)} {make : α → β}
    {f : α × List Char → β × List Char} (hf : ∀ found after, f (found, after) = (make found, after))
    (h : StaysOnLine scanner) : StaysOnLine fun text => (scanner text).map f := by
  intro text value rest hscan
  obtain ⟨⟨found, after⟩, hfound, hpair⟩ := Option.map_eq_some_iff.1 hscan
  cases (hf found after).symm.trans hpair
  exact h text found _ hfound

theorem StaysOnLine.elements (h : StaysOnLine element) {fuel : Nat}
    (hscan : scanElements element fuel text = (values, rest)) : SameLine rest text := by
  induction fuel generalizing text values rest with
  | zero =>
    cases hscan
    exact .refl text
  | succ fuel ih =>
    rw [scanElements] at hscan
    split at hscan
    · cases hscan
      exact .refl text
    · next first after hfirst =>
      have hafter := h _ _ _ hfirst
      split at hscan
      · cases hscan
        exact hafter
      · next behind hcomma =>
        split at hscan
        · cases hscan
          exact hafter
        · next others left hothers hscanned =>
          cases hscan
          exact (ih hscanned).trans ((skipSpace_sameLine behind).trans
            ((scanChar_sameLine (by decide) hcomma).trans hafter))

theorem StaysOnLine.listBody {closing : Char} (hclosing : closing ≠ '\n')
    (h : StaysOnLine element) (hscan : scanListBody closing element text = some (values, rest)) :
    SameLine rest text := by
  have hspace := skipSpace_sameLine text
  unfold scanListBody at hscan
  dsimp only at hscan
  split at hscan
  · next after hclose =>
    cases hscan
    exact (scanChar_sameLine hclosing hclose).trans hspace
  · split at hscan
    · cases hscan
    · next elements left hnonempty hscanned =>
      obtain ⟨after, hafter, hpair⟩ := Option.map_eq_some_iff.1 hscan
      cases hpair
      have hcomma : SameLine ((scanChar ',' left).getD left) left := by
        cases hchar : scanChar ',' left with
        | none => exact .refl left
        | some behind => exact scanChar_sameLine (by decide) hchar
      exact (scanChar_sameLine hclosing hafter).trans
        ((skipSpace_sameLine _).trans (hcomma.trans ((h.elements hscanned).trans hspace)))

theorem StaysOnLine.array {element : Nat → List Char → Option (α × List Char)} {room : Nat}
    (h : ∀ room, StaysOnLine (element room)) : StaysOnLine (scanArray room element) := by
  intro text values rest hscan
  obtain ⟨inner, hopen, hbody⟩ := Option.bind_eq_some_iff.1 hscan
  have hinside : StaysOnLine (scanInside room element) := by
    cases room with
    | zero => exact nofun
    | succ room => exact h room
  exact (hinside.listBody (by decide) hbody).trans (scanChar_sameLine (by decide) hopen)

end Lists

mutual

/-- What is scanned as a value without text stands on one line. -/
theorem scanValue_staysOnLine : ∀ (type : AbiType), type.Textless → ∀ (room : Nat)
    (close : Option Char), StaysOnLine (scanValue type room close)
  | .uint bits, _, room, close => .ofMap (fun _ _ => rfl) fun _ _ _ h => (scanUnsigned_eq_some h).2
  | .int bits, _, room, close => .ofMap (fun _ _ => rfl) fun _ _ _ h => scanSigned_sameLine h
  | .bool, _, room, close => .ofMap (fun _ _ => rfl) fun _ _ _ h => scanBool_sameLine h
  | .address, _, room, close => by
    intro text value rest h
    obtain ⟨⟨bytes, after⟩, hscan, h⟩ := Option.bind_eq_some_iff.1 h
    obtain ⟨address, -, h⟩ := Option.bind_eq_some_iff.1 h
    cases h
    exact scanFixedBytes_sameLine hscan
  | .function, _, room, close => .ofMap (fun _ _ => rfl) fun _ _ _ h => scanFixedBytes_sameLine h
  | .fixedBytes size, _, room, close =>
    .ofMap (fun _ _ => rfl) fun _ _ _ h => scanFixedBytes_sameLine h
  | .bytes, _, room, close => .ofMap (fun _ _ => rfl) fun _ _ _ h => scanBytes_sameLine h
  | .array element, htextless, room, close => by
    intro text value rest h
    have helement := fun room => scanValue_staysOnLine element htextless room (some ']')
    obtain ⟨⟨elements, after⟩, hscan, h⟩ := Option.bind_eq_some_iff.1 h
    cases h
    exact StaysOnLine.array helement _ _ _ hscan
  | .fixedArray element length, htextless, room, close => by
    intro text value rest h
    have helement := fun room => scanValue_staysOnLine element htextless room (some ']')
    obtain ⟨⟨elements, after⟩, hscan, h⟩ := Option.bind_eq_some_iff.1 h
    obtain ⟨_, -, h⟩ := Option.bind_eq_some_iff.1 h
    cases h
    exact StaysOnLine.array helement _ _ _ hscan
  | .tuple members, htextless, room, close => by
    intro text value rest h
    have hspace := skipSpace_sameLine text
    rw [scanValue] at h
    split at h
    · next inner hopen =>
      obtain ⟨⟨values, after⟩, hscan, h⟩ := Option.bind_eq_some_iff.1 h
      have hmembers := scanMembersOf_staysOnLine members htextless room true _ _ _ hscan
      have hafter := skipSpace_sameLine after
      dsimp only at h
      split at h
      · next behind hclose =>
        cases h
        rw [hopen] at hspace
        rw [hclose] at hafter
        exact (SameLine.cons (by decide) _).trans (hafter.trans (hmembers.trans
          ((SameLine.cons (by decide) _).trans hspace)))
      · cases h
    · cases h

/-- What is scanned as the members of a tuple without text stands on one line. -/
theorem scanMembersOf_staysOnLine : ∀ (types : List AbiType), AllTextless types → ∀ (room : Nat)
    (atFirst : Bool), StaysOnLine (scanMembersOf types room atFirst)
  | [], _, room, atFirst => by
    intro text values rest h
    rw [scanMembersOf] at h
    cases h
    exact .refl text
  | type :: types, htextless, room, atFirst => by
    intro text values rest h
    obtain ⟨start, value, after, others, hline, -, hscan, hscanned, rfl⟩ := scanMembersOf_cons h
    have hvalue := scanValue_staysOnLine type htextless.1 room (some ')') _ _ _ hscan
    have hvalues := scanMembersOf_staysOnLine types htextless.2 room false _ _ _ hscanned
    exact hvalues.trans (hvalue.trans ((skipSpace_sameLine start).trans hline))

end

/-- An argument that is read as a value without text holds no line feed. -/
theorem notMem_of_readValue? {type : AbiType} {arg : String} {value : AbiValue}
    (htextless : type.Textless) (h : readValue? type arg = some value) : '\n' ∉ arg.toList := by
  unfold readValue? at h
  split at h
  · next hscan =>
    cases h
    obtain ⟨taken, htaken, heq⟩ := scanValue_staysOnLine type htextless _ _ _ _ _ hscan
    rw [← heq, List.append_nil]
    exact htaken
  · cases h

/-- Arguments that spell values without text hold no line feed. -/
theorem Spelled.notMem {params : List Param} {args : List String} {types : List AbiType}
    {values : List AbiValue} (h : Spelled params args types values) :
    AllTextless types → ∀ arg ∈ args, '\n' ∉ arg.toList := by
  induction h with
  | nil => exact nofun
  | cons _ hvalue _ ih =>
    rintro ⟨htextless, hothers⟩
    exact List.forall_mem_cons.2 ⟨notMem_of_readValue? htextless hvalue, ih hothers⟩

end Abi

end ContractDeploy
