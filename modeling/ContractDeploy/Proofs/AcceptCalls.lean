import ContractDeploy.Proofs.CallEncoding
import ContractDeploy.Proofs.Progress

/-!
# The call that accepts, as it is told and as it is sent

The input of the call by which an admin accepts an implementation is made from values, and its
arguments are told as texts. Whoever encodes these texts again, for an admin that declares the
function as it is called, comes to the same input, and whoever reads the input finds the values. A
proxy is created likewise: what is handed over are texts, and what is sent behind its code are the
words of the two addresses.
-/

namespace ContractDeploy

namespace Abi

/-! ## What a signature tells -/

/-- Texts between commas are told apart, if there are equally many on both sides and those of one
side are free of commas. -/
theorem pieces_inj {separator : Char} {others : List (List Char)} : ∀ {first other : List Char}
    {pieces : List (List Char)}, pieces.length = others.length → separator ∉ other →
      (∀ piece ∈ others, separator ∉ piece) →
      first ++ pieces.flatMap (separator :: ·) = other ++ others.flatMap (separator :: ·) →
      first = other ∧ pieces = others := by
  induction others with
  | nil =>
    intro first other pieces hlength _ _ h
    cases List.length_eq_zero_iff.1 hlength
    simpa using h
  | cons next others ih =>
    intro first other pieces hlength hother hothers h
    obtain ⟨hnext, hothers⟩ := List.forall_mem_cons.1 hothers
    match pieces, hlength with
    | piece :: pieces, hlength =>
      have hlength : pieces.length = others.length := Nat.succ.inj hlength
      rw [List.flatMap_cons, List.flatMap_cons, List.cons_append, List.cons_append] at h
      rcases List.append_eq_append_iff.1 h with ⟨middle, hmiddle, hrest⟩ | ⟨middle, hmiddle, hrest⟩
      · -- The first text of the other side goes on, which would put a separator into it.
        cases middle with
        | nil =>
          obtain ⟨rfl, rfl⟩ := ih hlength hnext hothers (List.cons.inj hrest).2
          exact ⟨by rw [hmiddle, List.append_nil], rfl⟩
        | cons c middle =>
          obtain ⟨rfl, -⟩ := List.cons.inj hrest
          exact absurd (hmiddle ▸ List.mem_append_right _ List.mem_cons_self) hother
      · cases middle with
        | nil =>
          obtain ⟨rfl, rfl⟩ := ih hlength hnext hothers (List.cons.inj hrest).2.symm
          exact ⟨by rw [hmiddle, List.append_nil], rfl⟩
        | cons c middle =>
          obtain ⟨rfl, hrest⟩ := List.cons.inj hrest
          have hrest : (middle ++ separator :: piece) ++ pieces.flatMap (separator :: ·) =
              next ++ others.flatMap (separator :: ·) := by
            rw [List.append_assoc]
            exact (List.cons.inj hrest.symm).2
          obtain ⟨rfl, -⟩ := ih hlength hnext hothers hrest
          exact absurd (List.mem_append_right _ List.mem_cons_self) hnext

theorem toList_selectorTexts (first : Param) (params : List Param) :
    (selectorTexts (first :: params)).toList =
      first.selectorText.toList ++ (params.map (·.selectorText.toList)).flatMap (',' :: ·) := by
  rw [selectorTexts, String.toList_append]
  congr 1
  induction params with
  | nil => rfl
  | cons param params ih =>
    rw [selectorTail, String.toList_append, String.toList_append, ih]
    rfl

theorem toList_signature (function : Function) : function.signature.toList =
    function.name.toList ++ '(' :: ((selectorTexts function.inputs).toList ++ [')']) := by
  rw [Function.signature, String.toList_append, String.toList_append, String.toList_append,
    List.append_assoc, List.append_assoc]
  rfl

/-- A parameter whose type is a plain word. -/
structure Param.IsPlain (param : Param) : Prop where
  unstructured : param.components = []
  noList : '(' ∉ param.type.toList
  noSeparator : ',' ∉ param.type.toList

theorem Param.IsPlain.selectorText_eq {param : Param} (h : param.IsPlain) :
    param.selectorText = param.type := by
  obtain ⟨name, type, components⟩ := param
  obtain rfl : components = [] := h.unstructured
  rw [Param.selectorText, Param.type]

/-- A parameter that is told like a plain one stands for the same type. -/
theorem Param.IsPlain.resolve?_eq {param declared : Param} (h : declared.IsPlain)
    (htext : param.selectorText = declared.selectorText) :
    param.resolve? = declared.resolve? := by
  rw [h.selectorText_eq] at htext
  have hlist := h.noList
  obtain ⟨name, type, components⟩ := declared
  obtain rfl : components = [] := h.unstructured
  dsimp only [Param.type] at htext hlist
  obtain ⟨other, text, parts⟩ := param
  cases parts with
  | nil =>
    rw [Param.selectorText] at htext
    rw [htext, Param.resolve?, Param.resolve?]
  | cons first rest =>
    -- A structured parameter is told as a list.
    refine absurd ?_ hlist
    rw [← htext, Param.selectorText]
    simp

/-- A function is known by its signature among those that take as many parameters, if its name and
its types are plain words. -/
theorem selectorTexts_eq_of_signature {function declared : Function}
    (hname : '(' ∉ declared.name.toList) (hplain : ∀ param ∈ declared.inputs, param.IsPlain)
    (hlength : function.inputs.length = declared.inputs.length)
    (h : function.signature = declared.signature) :
    function.inputs.map Param.selectorText = declared.inputs.map Param.selectorText := by
  obtain ⟨name, inputs⟩ := function
  obtain ⟨declaredName, declaredInputs⟩ := declared
  have hsame := congrArg String.toList h
  rw [toList_signature, toList_signature] at hsame
  dsimp only at hname hplain hlength hsame ⊢
  match inputs, declaredInputs, hlength with
  | [], [], _ => rfl
  | first :: params, other :: others, hlength =>
    rw [toList_selectorTexts, toList_selectorTexts] at hsame
    have htold : ∀ param ∈ other :: others,
        '(' ∉ param.selectorText.toList ∧ ',' ∉ param.selectorText.toList := by
      intro param hparam
      rw [(hplain param hparam).selectorText_eq]
      exact ⟨(hplain param hparam).noList, (hplain param hparam).noSeparator⟩
    obtain ⟨⟨hopen, hcomma⟩, hothers⟩ := List.forall_mem_cons.1 htold
    have hclosed : '(' ∉ (other.selectorText.toList ++
        (others.map (·.selectorText.toList)).flatMap (',' :: ·)) ++ [')'] := by
      simp only [List.mem_append, List.mem_flatMap, List.mem_map, List.mem_cons]
      rintro ((hfirst | ⟨piece, ⟨param, hparam, rfl⟩, hcomma | hpiece⟩) | hlast | hnil)
      · exact hopen hfirst
      · cases hcomma
      · exact (hothers param hparam).1 hpiece
      · cases hlast
      · cases hnil
    obtain ⟨-, -, htexts⟩ := (List.append_cons_inj_of_notMem hname hclosed).1 hsame.symm
    have hpieces : ∀ piece ∈ others.map (·.selectorText.toList), ',' ∉ piece := by
      intro piece hpiece
      obtain ⟨param, hparam, rfl⟩ := List.mem_map.1 hpiece
      exact (hothers param hparam).2
    have hcount : (params.map (·.selectorText.toList)).length =
        (others.map (·.selectorText.toList)).length := by
      rw [List.length_map, List.length_map]
      exact Nat.succ.inj hlength
    obtain ⟨hfirst, hrest⟩ :=
      pieces_inj hcount hcomma hpieces (List.append_cancel_right htexts).symm
    have htypes : params.map Param.selectorText = others.map Param.selectorText := by
      have hback := congrArg (List.map String.ofList) hrest
      simpa [Function.comp_def] using hback
    rw [List.map_cons, List.map_cons, String.toList_inj.1 hfirst, htypes]

/-- What is told alike and plainly spells the same values. -/
theorem Spelled.of_selectorTexts {declared : List Param} {args : List String}
    {types : List AbiType} {values : List AbiValue} (h : Spelled declared args types values) :
    ∀ {params : List Param}, (∀ param ∈ declared, param.IsPlain) →
      params.map Param.selectorText = declared.map Param.selectorText →
      Spelled params args types values := by
  induction h with
  | nil =>
    intro params _ htexts
    cases List.map_eq_nil_iff.1 htexts
    exact .nil
  | cons htype hvalue _ ih =>
    intro params hplain htexts
    obtain ⟨hfirst, hothers⟩ := List.forall_mem_cons.1 hplain
    cases params with
    | nil => cases htexts
    | cons param params =>
      obtain ⟨htext, htexts⟩ := List.cons.inj htexts
      exact .cons ((hfirst.resolve?_eq htext).trans htype) hvalue (ih hothers htexts)

end Abi

open Abi

/-! ## The accepting call -/

namespace AcceptPayload

variable (payload : AcceptPayload)

/-- The types of the values that are passed. -/
def types : List AbiType :=
  [.address, .address] ++ payload.initCall.toList.map fun _ => .bytes

/-- The admin's function as it is declared, but for the names of its parameters. -/
def declaration : Abi.Function where
  name := payload.function
  inputs := [.mk "" "address" [], .mk "" "address" []] ++
    payload.initCall.toList.map fun _ => .mk "" "bytes" []

/-- The signature by which an admin is told that it shall accept alone. -/
def acceptSignature : String := acceptName ++ "(address,address)"

/-- The signature by which an admin is told that it shall accept and call the initializer. -/
def acceptAndCallSignature : String := acceptAndCallName ++ "(address,address,bytes)"

/-- The implementation, the proxy and the initializer's call that an admin finds in the input of a
call, which it takes for one of its two functions by the selector. -/
def read? (calldata : Bytes) : Option (Address × Address × Option Bytes) :=
  if calldata.take 4 = selectorOf acceptSignature then
    match decodeArguments [.address, .address] (calldata.drop 4) with
    | some [.address implementation, .address proxy] => some (implementation, proxy, none)
    | _ => none
  else if calldata.take 4 = selectorOf acceptAndCallSignature then
    match decodeArguments [.address, .address, .bytes] (calldata.drop 4) with
    | some [.address implementation, .address proxy, .bytes call] =>
      some (implementation, proxy, some call)
    | _ => none
  else none

variable {payload : AcceptPayload}

theorem signature_declaration : payload.declaration.signature = payload.signature := by
  obtain ⟨admin, implementation, proxy, initCall⟩ := payload
  cases initCall <;> rfl

theorem declaration_isPlain : ∀ param ∈ payload.declaration.inputs, param.IsPlain := by
  have haddress : (Param.mk "" "address" []).IsPlain := ⟨rfl, by decide, by decide⟩
  have hbytes : (Param.mk "" "bytes" []).IsPlain := ⟨rfl, by decide, by decide⟩
  intro param hparam
  rcases List.mem_append.1 hparam with hfixed | hcall
  · rw [List.eq_of_mem_replicate (show param ∈ List.replicate 2 _ from hfixed)]
    exact haddress
  · obtain ⟨call, -, rfl⟩ := List.mem_map.1 hcall
    exact hbytes

/-- The texts of the arguments spell the values that are passed. -/
theorem spelled_declaration :
    Spelled payload.declaration.inputs payload.args payload.types payload.values := by
  have haddress := Param.resolve?_address ""
  obtain ⟨admin, implementation, proxy, initCall⟩ := payload
  cases initCall with
  | none =>
    exact .cons haddress (readValue?_checksum implementation)
      (.cons haddress (readValue?_checksum proxy) .nil)
  | some call =>
    exact .cons haddress (readValue?_checksum implementation)
      (.cons haddress (readValue?_checksum proxy)
        (.cons (Param.resolve?_bytes "") (readValue?_encodePrefixed call) .nil))

/-- An admin that declares the function as it is called makes the same input of the texts. -/
theorem encodeCall_eq {interface : Interface} {function : Abi.Function}
    (hchooses : interface.Chooses payload.function payload.args.length function)
    (hsignature : function.signature = payload.signature) :
    interface.encodeCall payload.function payload.args = .ok payload.calldata := by
  have hdeclared : function.signature = payload.declaration.signature :=
    hsignature.trans signature_declaration.symm
  have hname : '(' ∉ payload.declaration.name.toList := by
    show '(' ∉ payload.function.toList
    unfold AcceptPayload.function
    split <;> decide
  have hlength : function.inputs.length = payload.declaration.inputs.length :=
    hchooses.arity.trans spelled_declaration.length_eq.symm
  have htexts := selectorTexts_eq_of_signature hname declaration_isPlain hlength hdeclared
  have hspelled := spelled_declaration.of_selectorTexts declaration_isPlain htexts
  have hcalls : interface.Calls payload.function payload.args function payload.types
      payload.values := ⟨hchooses, hspelled⟩
  rw [hcalls.encodeCall_eq, Function.selector, hsignature, calldata]

/-- The two functions are told apart by their selectors. -/
theorem selectorOf_ne : selectorOf acceptAndCallSignature ≠ selectorOf acceptSignature := by
  decide +kernel

/-- The admin finds in the input what was meant. -/
theorem read?_calldata
    (hsize : ∀ call, payload.initCall = some call → call.length < Bytes.capacity 8) :
    read? payload.calldata = some (payload.implementation, payload.proxy, payload.initCall) := by
  have hselector : (selectorOf payload.signature).length = 4 := by
    rw [← signature_declaration]
    exact length_selector payload.declaration
  have hadmits : AllAdmit payload.types payload.values := spelled_declaration.admits.1
  rw [read?, calldata, List.take_left' hselector, List.drop_left' hselector]
  cases hinit : payload.initCall with
  | none =>
    have hsignature : payload.signature = acceptSignature := by
      rw [signature, hinit, acceptSignature]
    rw [types, values, hinit] at hadmits
    rw [if_pos (by rw [hsignature]), values, hinit]
    simp only [Option.toList, List.map_nil, List.append_nil] at hadmits ⊢
    have hroom : 128 < Bytes.capacity 32 := by decide
    rw [decodeArguments_encodeArguments hadmits hroom]
  | some call =>
    have hsignature : payload.signature = acceptAndCallSignature := by
      rw [signature, hinit, acceptAndCallSignature]
    have hsize := hsize call hinit
    have hroom : 224 + Bytes.capacity 8 ≤ Bytes.capacity 32 := by decide
    rw [types, values, hinit] at hadmits
    rw [hsignature, if_neg selectorOf_ne, if_pos rfl, values, hinit]
    simp only [Option.toList, List.map_cons, List.map_nil, List.cons_append, List.nil_append]
      at hadmits ⊢
    rw [decodeArguments_encodeArguments hadmits ?_]
    show 64 + (64 + (96 + call.length + 0)) < _
    omega

end AcceptPayload

/-! ## What is handed to the node -/

/-- An address as a word. -/
def Abi.addressWord (address : Address) : Bytes := Bytes.zeros 12 ++ address.bytes

theorem encodeArguments_addresses (a b : Address) :
    encodeArguments [.address a, .address b] = addressWord a ++ addressWord b := by
  show _ ++ (_ ++ []) ++ [] = _
  rw [List.append_nil, List.append_nil]
  rfl

namespace Deployer

variable {γ φ : Type} {host : Host γ φ} {deployer : Deployer φ} {world : World γ φ}

/-- A transaction creates a proxy as it is told to: linked code, and behind it the words of the
implementation and of the admin. -/
def CreatesProxy (deployer : Deployer φ) (proxy : Artifact) (implementation admin : Address)
    (transaction : Transaction) : Prop :=
  ∃ code, proxy.linkedCode NameMap.empty = .ok code ∧
    transaction = ⟨deployer.sender.address, none,
      code ++ addressWord implementation ++ addressWord admin⟩

/-- A proxy that takes two addresses is created by one transaction, unless the account is not
connected or a library is missing from the code. -/
theorem deployProxy_submissions {proxyName : String} {proxy : Artifact}
    (hread : deployer.source.read world.files proxyName = .ok proxy)
    (htakes : proxy.interface.TakesTwoAddresses) (implementation admin : Address) :
    let after := (deployer.deployProxy host proxyName implementation admin world).2
    (∃ attempt : Submission, after.submissions = world.submissions ++ [attempt] ∧
      deployer.CreatesProxy proxy implementation admin attempt.transaction) ∨
    (after.submissions = world.submissions ∧
      ((∃ error, deployer.sender.requireConnection = .error error) ∨
        ∃ fault, proxy.linkedCode NameMap.empty = .error fault)) := by
  intro after
  have hwords := htakes.encodeConstructor implementation admin
  rw [encodeArguments_addresses] at hwords
  cases hconnected : deployer.sender.requireConnection with
  | error error =>
    have hrun : deployer.deployProxy host proxyName implementation admin world =
        (.error error, world) := deploy_of_disconnected hconnected proxyName _ false world
    exact .inr ⟨congrArg (fun result => result.2.submissions) hrun, .inl ⟨error, rfl⟩⟩
  | ok _ =>
    obtain ⟨last, outcome, reached, hcreate, hend⟩ := deployArtifact_creationEnd host hconnected
      proxy [implementation.checksum, admin.checksum] NameMap.empty world
    have hafter : after = reached := by
      rw [← deploy_unlinked hconnected hread] at hcreate
      exact congrArg Prod.snd hcreate
    rw [hafter]
    cases hend with
    | @unlinked fault _ hcode handed => exact .inr ⟨handed, .inr ⟨fault, hcode⟩⟩
    | uncallable _ hencoded _ =>
      rw [hwords] at hencoded
      cases hencoded
    | @failed code _ attempt _ _ hcode hencoded transaction handed _ =>
      rw [hwords] at hencoded
      cases hencoded
      rw [← List.append_assoc] at transaction
      exact .inl ⟨attempt, handed, code, hcode, transaction⟩
    | @created code _ attempt _ _ hcode hencoded transaction handed _ _ _ =>
      rw [hwords] at hencoded
      cases hencoded
      rw [← List.append_assoc] at transaction
      exact .inl ⟨attempt, handed, code, hcode, transaction⟩

/-- The call that accepts is sent once, with the input of its payload. -/
theorem sendAccept_submissions {prepared : PreparedUpgrade} {interface : Interface}
    (hadmin : prepared.adminInterface = some interface)
    (hconnected : deployer.sender.requireConnection = .ok ()) (payload : AcceptPayload) :
    ∃ attempt : Submission,
      (deployer.sendAccept host prepared payload world).2.submissions =
        world.submissions ++ [attempt] ∧
      attempt.transaction = ⟨deployer.sender.address, some payload.admin, payload.calldata⟩ := by
  have hsent := Endpoint.send_sent host (deployer.adminEndpoint payload.admin) hconnected rfl
    payload.toCall world
  rw [sendAccept, hadmin]
  exact ⟨_, hsent.handed, rfl⟩

end Deployer

/-- The texts that a payload is told by make the input that is sent, encoded for any admin whose
first function of that name and number of parameters is the one that is meant, and the admin finds
in it the implementation, the proxy and the initializer's call. A proxy that takes two addresses is
created by its linked code with the words of the implementation and of the admin behind it, and the
call that accepts is sent to the admin with the payload's input. -/
theorem accepting_is_sent_as_told :
    (∀ (payload : AcceptPayload) (interface : Interface) (function : Abi.Function),
      interface.Chooses payload.toCall.function payload.toCall.args.length function →
      function.signature = payload.signature →
        interface.encodeCall payload.toCall.function payload.toCall.args =
          .ok payload.calldata) ∧
    (∀ payload : AcceptPayload,
      (∀ call, payload.initCall = some call → call.length < Bytes.capacity 8) →
        AcceptPayload.read? payload.calldata =
          some (payload.implementation, payload.proxy, payload.initCall)) ∧
    ∀ {γ φ : Type} (host : Host γ φ) (deployer : Deployer φ) (world : World γ φ),
      (∀ proxyName proxy implementation admin,
        deployer.source.read world.files proxyName = .ok proxy →
        proxy.interface.TakesTwoAddresses →
          let after := (deployer.deployProxy host proxyName implementation admin world).2
          (∃ attempt : Submission, after.submissions = world.submissions ++ [attempt] ∧
            deployer.CreatesProxy proxy implementation admin attempt.transaction) ∨
          (after.submissions = world.submissions ∧
            ((∃ error, deployer.sender.requireConnection = .error error) ∨
              ∃ fault, proxy.linkedCode NameMap.empty = .error fault))) ∧
      ∀ prepared interface payload, prepared.adminInterface = some interface →
        deployer.sender.requireConnection = .ok () →
          ∃ attempt : Submission,
            (deployer.sendAccept host prepared payload world).2.submissions =
              world.submissions ++ [attempt] ∧
            attempt.transaction =
              ⟨deployer.sender.address, some payload.admin, payload.calldata⟩ := by
  refine ⟨fun payload interface function => AcceptPayload.encodeCall_eq,
    fun payload => AcceptPayload.read?_calldata, ?_⟩
  intro γ φ host deployer world
  refine ⟨fun proxyName proxy implementation admin hread htakes => ?_,
    fun prepared interface payload hadmin hconnected => ?_⟩
  · exact Deployer.deployProxy_submissions hread htakes implementation admin
  · exact Deployer.sendAccept_submissions hadmin hconnected payload

/-- The function that accepts with a call, with parameters that have names. -/
def acceptAndCallFunction : Abi.Function where
  name := AcceptPayload.acceptAndCallName
  inputs := [.mk "implementation" "address" [], .mk "proxy" "address" [], .mk "data" "bytes" []]

/-- An admin that has the function twice. -/
def overloadedAdmin : Interface where
  functions := NameMap.empty.insert AcceptPayload.acceptAndCallName
    [⟨AcceptPayload.acceptAndCallName, [.mk "proxy" "address" []]⟩, acceptAndCallFunction,
      ⟨AcceptPayload.acceptAndCallName,
        [.mk "" "string" [], .mk "" "string" [], .mk "" "string" []]⟩]

/-- A call with an initializer of five bytes is told as it is sent, and so is the proxy. -/
theorem accepting_is_sent_as_told_token :
    let payload : AcceptPayload :=
      ⟨FixedBytes.ofNat 2, FixedBytes.ofNat 3, FixedBytes.ofNat 4, some [1, 2, 3, 4, 5]⟩
    let world : World Nat FileTree := { chain := 0, files := .done }
    overloadedAdmin.encodeCall payload.toCall.function payload.toCall.args =
        .ok payload.calldata ∧
      AcceptPayload.read? payload.calldata =
        some (payload.implementation, payload.proxy, payload.initCall) ∧
      ∃ attempt : Submission, (plainDeployer.deployProxy promptHost Upgrade.defaultProxyName
          payload.implementation payload.admin world).2.submissions = [attempt] ∧
        attempt.transaction = ⟨FixedBytes.ofNat 1, none, [0x60, 0x80] ++
          addressWord payload.implementation ++ addressWord payload.admin⟩ := by
  intro payload world
  obtain ⟨htold, hread, hsent⟩ := accepting_is_sent_as_told
  have hget : overloadedAdmin.functions.get? AcceptPayload.acceptAndCallName =
      some ([⟨AcceptPayload.acceptAndCallName, [.mk "proxy" "address" []]⟩] ++
        acceptAndCallFunction :: [⟨AcceptPayload.acceptAndCallName,
          [.mk "" "string" [], .mk "" "string" [], .mk "" "string" []]⟩]) := by
    rw [overloadedAdmin, NameMap.get?_insert, if_pos rfl]
    rfl
  have hchooses : overloadedAdmin.Chooses payload.toCall.function payload.toCall.args.length
      acceptAndCallFunction := by
    refine ⟨⟨_, _, hget, ?_⟩, rfl⟩
    intro earlier hearlier
    rw [List.mem_singleton.1 hearlier]
    decide
  have hsize : ∀ call, payload.initCall = some call → call.length < Bytes.capacity 8 := by
    intro call hcall
    cases hcall
    decide
  refine ⟨htold payload _ _ hchooses rfl, hread payload hsize, ?_⟩
  obtain ⟨proxy, hproxy⟩ : ∃ proxy, plainDeployer.source.read world.files
      Upgrade.defaultProxyName = .ok proxy := ⟨_, rfl⟩
  have htakes : proxy.interface.TakesTwoAddresses := by
    cases hproxy
    exact ⟨_, _, rfl, Param.resolve?_address _, Param.resolve?_address _⟩
  have hcode : proxy.linkedCode NameMap.empty = .ok [0x60, 0x80] := by
    cases hproxy
    decide +kernel
  obtain ⟨hcreated, -⟩ := hsent promptHost plainDeployer world
  rcases hcreated _ proxy payload.implementation payload.admin hproxy htakes with
    ⟨attempt, hafter, code, hlinked, htransaction⟩ | ⟨-, ⟨error, hdisconnected⟩ | ⟨fault, hfault⟩⟩
  · rw [hcode] at hlinked
    cases hlinked
    exact ⟨attempt, hafter, htransaction⟩
  · cases hdisconnected
  · rw [hcode] at hfault
    cases hfault

end ContractDeploy
