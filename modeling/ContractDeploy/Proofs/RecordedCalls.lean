import ContractDeploy.Proofs.EntryAudit
import ContractDeploy.Proofs.JournalTransparency

/-!
# Calls to recorded contracts

The command that calls makes a handle on a contract before it knows whether the contract is
recorded: one that is not is at the zero address. So what keeps a call from going astray is the
order of the steps. The artifact is loaded, the address is looked at and the arguments are encoded,
and only what passed all of that is handed to the node. `DirectedCall` says which transaction may be
handed over and `LacksForCall` when there is none; one of the two holds of every command, and each
decides what the command does.
-/

namespace ContractDeploy

variable {γ φ : Type}

/-! ## What decides a call -/

/-- Where callers find a recorded contract: at its own address, or at that of its proxy. -/
inductive Record.FoundAt : Record → Address → Prop
  | direct (contract : Snapshot) : FoundAt (.direct contract) contract.address
  | proxied (proxy implementation : Snapshot) :
      FoundAt (.proxied proxy implementation) proxy.address

theorem Record.foundAt_iff {record : Record} {address : Address} :
    record.FoundAt address ↔ record.address = address := by
  constructor
  · rintro (_ | _) <;> rfl
  · rintro rfl
    cases record with
    | direct contract => exact .direct contract
    | proxied proxy implementation => exact .proxied proxy implementation

section Conditions

variable (host : Host γ φ) (sender : Sender) (locations : Locations) (contract function : String)
  (args : List String) (world : World γ φ)

/-- A transaction is the call that was asked for: from the account, to the address at which the
contract is recorded on the connected network, with the arguments as the interface of the contract
encodes them. -/
structure DirectedCall (transaction : Transaction) : Prop where
  connected : sender.requireConnection = .ok ()
  sender : transaction.sender = sender.address
  callee : ∃ id document record address, locations.Finds host world id document ∧
    document.find? (toString id) contract = some record ∧ record.FoundAt address ∧
    address ≠ FixedBytes.zero ∧ transaction.callee = some address
  input : ∃ artifact, (locations.source host.disk).read world.files contract = .ok artifact ∧
    artifact.interface.encodeCall function args = .ok transaction.input

/-- Something that a call needs is not there. -/
inductive LacksForCall : Prop
  | connection (error : DeployError) (h : sender.requireConnection = .error error)
  | book (h : ∀ id document, ¬ locations.Finds host world id document)
  | entry (id : Nat) (document : BookDocument) (hfinds : locations.Finds host world id document)
      (h : document.find? (toString id) contract = none)
  | address (id : Nat) (document : BookDocument) (record : Record)
      (hfinds : locations.Finds host world id document)
      (hrecord : document.find? (toString id) contract = some record)
      (h : record.FoundAt FixedBytes.zero)
  | artifact (error : DeployError)
      (h : (locations.source host.disk).read world.files contract = .error error)
  | encoding (found : Artifact) (fault : CalldataFault)
      (hread : (locations.source host.disk).read world.files contract = .ok found)
      (h : found.interface.encodeCall function args = .error fault)

end Conditions

/-- The node takes a transaction in, its receipt is there when it is waited for, and also the second
time, and tells of success then. -/
def Node.Confirms (node : Node γ) (transaction : Transaction) (chain : γ) : Prop :=
  ∃ hash first last, (node.submit transaction chain).1 = .ok hash ∧
    (node.await hash (node.submit transaction chain).2).1.1 = .ok first ∧
    (node.await hash (node.await hash (node.submit transaction chain).2).2).1.1 = .ok last ∧
    last.succeeded = true

/-- Where receipts stay, one wait says it all. -/
theorem Node.KeepsReceipts.confirms_iff {node : Node γ} {chain : γ} {transaction : Transaction}
    (hkeeps : node.KeepsReceipts chain) :
    node.Confirms transaction chain ↔ ∃ hash receipt,
      (node.submit transaction chain).1 = .ok hash ∧
      (node.await hash (node.submit transaction chain).2).1.1 = .ok receipt ∧
      receipt.succeeded = true := by
  have hreached : node.Reaches chain (node.submit transaction chain).2 :=
    .single (.inl ⟨transaction, rfl⟩)
  have hagain (hash : Hash) (receipt : Receipt)
      (hawait : (node.await hash (node.submit transaction chain).2).1.1 = .ok receipt) :
      (node.await hash (node.await hash (node.submit transaction chain).2).2).1.1 =
        .ok receipt := by
    obtain ⟨next, hthere⟩ := hkeeps.available hreached hawait
    rw [Node.await_of_available hthere]
  constructor
  · rintro ⟨hash, first, last, hsubmit, hfirst, hlast, hsucceeded⟩
    rw [hagain hash first hfirst] at hlast
    cases hlast
    exact ⟨hash, first, hsubmit, hfirst, hsucceeded⟩
  · rintro ⟨hash, receipt, hsubmit, hawait, hsucceeded⟩
    exact ⟨hash, receipt, receipt, hsubmit, hawait, hagain hash receipt hawait, hsucceeded⟩

/-! ## Sending -/

namespace Endpoint

variable {host : Host γ φ} {endpoint : Endpoint} {journal : Journal} {submitted : Submitted}
  {call : Call} {world : World γ φ}

/-- Waiting gives what the node comes to, and leaves the chain there. -/
theorem wait_apply (host : Host γ φ) (hconnected : endpoint.sender.requireConnection = .ok ())
    (submitted : Submitted) (world : World γ φ) :
    ∃ after, endpoint.wait host submitted world =
        ((host.node.await submitted.txHash world.chain).1.1.mapError
          (fun reason => .query (.unavailable reason)), after) ∧
      after.chain = (host.node.await submitted.txHash world.chain).2 := by
  rw [wait_of_connected host hconnected]
  exact ⟨_, rfl, rfl⟩

/-- Recording a call that was submitted waits for its receipt, which is not looked at further. -/
theorem afterSubmission_apply (host : Host γ φ) (journal : Journal)
    (hconnected : endpoint.sender.requireConnection = .ok ()) (submitted : Submitted)
    (world : World γ φ) :
    ∃ after, afterSubmission host endpoint journal submitted world =
        (((host.node.await submitted.txHash world.chain).1.1.map fun _ => submitted).mapError
          (fun reason => .query (.unavailable reason)), after) ∧
      after.chain = (host.node.await submitted.txHash world.chain).2 := by
  obtain ⟨waited, hwait, hchain⟩ := wait_apply host hconnected submitted world
  cases hanswer : (host.node.await submitted.txHash world.chain).1.1 with
  | error reason =>
    rw [hanswer] at hwait
    obtain ⟨after, hafter, halike⟩ := afterSubmission_of_error host endpoint journal hwait
    exact ⟨after, hafter, halike.chain.trans hchain⟩
  | ok receipt =>
    rw [hanswer] at hwait
    obtain ⟨after, hafter, halike⟩ := afterSubmission_of_ok host endpoint journal hwait
    exact ⟨after, hafter, halike.chain.trans hchain⟩

theorem awaitSuccess_succeeds_iff (host : Host γ φ)
    (hconnected : endpoint.sender.requireConnection = .ok ()) (submitted : Submitted)
    (world : World γ φ) :
    (∃ receipt, (awaitSuccess host endpoint submitted world).1 = .ok receipt) ↔
      ∃ receipt, (host.node.await submitted.txHash world.chain).1.1 = .ok receipt ∧
        receipt.succeeded = true := by
  obtain ⟨after, hwait, -⟩ := wait_apply host hconnected submitted world
  cases hanswer : (host.node.await submitted.txHash world.chain).1.1 with
  | error reason =>
    rw [hanswer] at hwait
    rw [awaitSuccess, Run.bind_of_error hwait]
    simp
  | ok receipt =>
    rw [hanswer] at hwait
    rw [awaitSuccess_of_wait host hwait]
    cases hsucceeded : receipt.succeeded <;> simp [hsucceeded]

/-- What follows on a submission waits for the receipt twice, and goes by the second. -/
theorem submission_succeeds_iff (host : Host γ φ) (journal : Journal)
    (hconnected : endpoint.sender.requireConnection = .ok ()) (submitted : Submitted)
    (world : World γ φ) :
    (∃ receipt, ((afterSubmission host endpoint journal submitted >>=
        awaitSuccess host endpoint) world).1 = .ok receipt) ↔
      ∃ first last, (host.node.await submitted.txHash world.chain).1.1 = .ok first ∧
        (host.node.await submitted.txHash
          (host.node.await submitted.txHash world.chain).2).1.1 = .ok last ∧
        last.succeeded = true := by
  obtain ⟨recorded, hrecord, hchain⟩ :=
    afterSubmission_apply host journal hconnected submitted world
  cases hanswer : (host.node.await submitted.txHash world.chain).1.1 with
  | error reason =>
    rw [hanswer] at hrecord
    rw [Run.bind_of_error hrecord]
    simp
  | ok first =>
    rw [hanswer] at hrecord
    rw [Run.bind_of_ok hrecord, awaitSuccess_succeeds_iff host hconnected submitted recorded,
      hchain]
    constructor
    · rintro ⟨last, hlast, hsucceeded⟩
      exact ⟨first, last, rfl, hlast, hsucceeded⟩
    · rintro ⟨_, last, -, hlast, hsucceeded⟩
      exact ⟨last, hlast, hsucceeded⟩

/-- A call that a connected account sends through a handle with a journal succeeds exactly if the
node confirms it. -/
theorem send_succeeds_iff (host : Host γ φ) (endpoint : Endpoint)
    (hconnected : endpoint.sender.requireConnection = .ok ())
    (hjournal : endpoint.journal = some journal) (call : Call) (world : World γ φ) :
    (∃ receipt, (endpoint.send host call world).1 = .ok receipt) ↔
      host.node.Confirms (endpoint.transaction call) world.chain := by
  have hsubmit := submitBare_apply host hconnected call world
  cases hanswer : (host.node.submit (endpoint.transaction call) world.chain).1 with
  | error reason =>
    rw [hanswer] at hsubmit
    have hsend : endpoint.send host call world =
        (.error (.submission (.refused reason)), host.handed (endpoint.transaction call) world) :=
      Run.bind_of_error (Run.bind_of_error hsubmit)
    rw [hsend, Node.Confirms, hanswer]
    simp
  | ok hash =>
    rw [hanswer] at hsubmit
    have hsend : endpoint.send host call world =
        (afterSubmission host endpoint journal (endpoint.submitted call hash) >>=
          awaitSuccess host endpoint) (host.handed (endpoint.transaction call) world) :=
      Run.bind_congr (submit_of_submitted hjournal hsubmit)
    rw [hsend, submission_succeeds_iff host journal hconnected]
    constructor
    · rintro ⟨first, last, hfirst, hlast, hsucceeded⟩
      exact ⟨hash, first, last, hanswer, hfirst, hlast, hsucceeded⟩
    · rintro ⟨found, first, last, haccepted, hfirst, hlast, hsucceeded⟩
      rw [hanswer] at haccepted
      cases haccepted
      exact ⟨first, last, hfirst, hlast, hsucceeded⟩

end Endpoint

/-! ## The command once its context is made -/

/-- A call is the encoded input with what it was made of. -/
theorem Contract.call_eq (contract : Contract) (function : String) (args : List String) :
    contract.call function args = ((contract.interface.encodeCall function args).map
      fun input => { function, args, input }).mapError .calldata := by
  rw [call]
  cases contract.interface.encodeCall function args <;> rfl

namespace Context

variable {host : Host γ φ} {context : Context φ} {contract function : String} {args : List String}
  {world : World γ φ} {artifact : Artifact}

/-- Without the artifact there is no handle. -/
theorem call_of_unread {error : DeployError}
    (hread : context.source.read world.files contract = .error error) :
    context.call host contract function args world = (.error (.failed error),
      { world with notices := world.notices ++ [.notLoaded contract error] }) := by
  have hload : Context.liftRun (Contract.load context.source context.book contract context.sender
      (some context.journalDirectory)) world = (.error (.failed error),
        { world with notices := world.notices ++ [.notLoaded contract error] }) := by
    rw [Command.liftRun_apply, Contract.load_of_unread _ _ _ hread]
    rfl
  exact Command.bind_of_error hload

/-- The handle that a call is sent through. -/
def handle (context : Context φ) (contract : String) (artifact : Artifact) : Contract where
  name := contract
  address := (context.book.get contract).address
  interface := artifact.interface
  sender := context.sender
  journal := some ⟨some context.journalDirectory⟩

/-- With the artifact, the address is looked at before anything is encoded. -/
theorem call_of_read (hread : context.source.read world.files contract = .ok artifact) :
    context.call host contract function args world =
      if (context.book.get contract).address.isZero then (.error (.notRecorded contract), world)
      else Context.liftRun (do
        let call ← (context.handle contract artifact).call function args
        let receipt ← (context.handle contract artifact).endpoint.send host call
        Run.tellAll (inclusionNotices receipt)) world := by
  have hload : Context.liftRun (Contract.load context.source context.book contract context.sender
      (some context.journalDirectory)) world = (.ok (context.handle contract artifact), world) :=
    Command.liftRun_of_ok (Contract.load_of_read _ _ _ _ hread)
  rw [call, Command.bind_of_ok hload]
  have haddress : (context.handle contract artifact).address =
    (context.book.get contract).address := rfl
  rw [haddress]
  cases (context.book.get contract).address.isZero <;> rfl

/-- A contract that is found at no address is not called. -/
theorem call_of_zero (hread : context.source.read world.files contract = .ok artifact)
    (hzero : (context.book.get contract).address = FixedBytes.zero) :
    context.call host contract function args world = (.error (.notRecorded contract), world) := by
  rw [call_of_read hread, if_pos ((FixedBytes.isZero_iff _).2 hzero)]

/-- Arguments that do not encode are not sent. -/
theorem call_of_unencoded {fault : CalldataFault}
    (hread : context.source.read world.files contract = .ok artifact)
    (haddress : (context.book.get contract).address ≠ FixedBytes.zero)
    (hencode : artifact.interface.encodeCall function args = .error fault) :
    context.call host contract function args world =
      (.error (.failed (.calldata fault)), world) := by
  have hnonzero : ¬ (context.book.get contract).address.isZero = true := by
    rwa [FixedBytes.isZero_iff]
  have hstop : (liftM ((context.handle contract artifact).call function args) : Run γ φ Call)
      world = (.error (.calldata fault), world) := by
    rw [Run.ofExcept_apply, Contract.call_eq, handle, hencode]
    rfl
  rw [call_of_read hread, if_neg hnonzero, Command.liftRun_apply, Run.bind_of_error hstop]
  rfl

/-- Unless the artifact is there, the contract is recorded and the arguments encode, a call fails
and nothing is done. -/
theorem call_of_lacking (host : Host γ φ) (context : Context φ) (contract function : String)
    (args : List String) (world : World γ φ)
    (h : ∀ artifact input, context.source.read world.files contract = .ok artifact →
      (context.book.get contract).address ≠ FixedBytes.zero →
      artifact.interface.encodeCall function args ≠ .ok input) :
    (∃ error, (context.call host contract function args world).1 = .error error) ∧
      world.Undisturbed (context.call host contract function args world).2 := by
  cases hread : context.source.read world.files contract with
  | error error =>
    rw [call_of_unread hread]
    exact ⟨⟨_, rfl⟩, rfl, rfl⟩
  | ok artifact =>
    by_cases haddress : (context.book.get contract).address = FixedBytes.zero
    · rw [call_of_zero hread haddress]
      exact ⟨⟨_, rfl⟩, rfl, rfl⟩
    cases hencode : artifact.interface.encodeCall function args with
    | error fault =>
      rw [call_of_unencoded hread haddress hencode]
      exact ⟨⟨_, rfl⟩, rfl, rfl⟩
    | ok input => exact absurd hencode (h artifact input hread haddress)

/-- The transaction that a call is. -/
def callTransaction (context : Context φ) (contract : String) (input : Bytes) : Transaction where
  sender := context.sender.address
  callee := some (context.book.get contract).address
  input := input

/-- A call whose contract is recorded and whose arguments encode is handed to the node once. -/
theorem call_of_encoded (host : Host γ φ) (context : Context φ) {input : Bytes}
    (hconnected : context.sender.requireConnection = .ok ())
    (hread : context.source.read world.files contract = .ok artifact)
    (haddress : (context.book.get contract).address ≠ FixedBytes.zero)
    (hencode : artifact.interface.encodeCall function args = .ok input) :
    (context.call host contract function args world).2.submissions = world.submissions ++
        [host.node.attempt (context.callTransaction contract input) world.chain] ∧
      ((context.call host contract function args world).1 = .ok () ↔
        host.node.Confirms (context.callTransaction contract input) world.chain) := by
  have hnonzero : ¬ (context.book.get contract).address.isZero = true := by
    rwa [FixedBytes.isZero_iff]
  have hstep : (liftM ((context.handle contract artifact).call function args) : Run γ φ Call)
      world = (.ok { function, args, input }, world) := by
    rw [Run.ofExcept_apply, Contract.call_eq, handle, hencode]
    rfl
  have hsent := Endpoint.send_sent host (context.handle contract artifact).endpoint hconnected rfl
    { function, args, input } world
  have hsucceeds := Endpoint.send_succeeds_iff host (context.handle contract artifact).endpoint
    hconnected rfl { function, args, input } world
  have htransaction : (context.handle contract artifact).endpoint.transaction
      { function, args, input } = context.callTransaction contract input := rfl
  rw [htransaction] at hsent hsucceeds
  rw [call_of_read hread, if_neg hnonzero, Command.liftRun_apply, Run.bind_of_ok hstep,
    ← hsucceeds]
  -- What follows on the sending only tells in which block the call was included.
  cases hsend : (context.handle contract artifact).endpoint.send host { function, args, input }
      world with
  | mk outcome after =>
    have hhanded := hsent.handed
    rw [hsend] at hhanded
    cases outcome with
    | error error =>
      rw [Run.bind_of_error hsend]
      exact ⟨hhanded, nofun, nofun⟩
    | ok receipt =>
      rw [Run.bind_of_ok hsend]
      exact ⟨hhanded, fun _ => ⟨receipt, rfl⟩, fun _ => rfl⟩

end Context

/-! ## The whole command -/

section Command

variable {host : Host γ φ} {sender : Sender} {locations : Locations} {contract function : String}
  {args : List String} {world : World γ φ} {id : Nat} {document : BookDocument}

/-- The network and the book that a command finds are determined. -/
theorem Locations.Finds.unique {other : Nat} {another : BookDocument}
    (h : locations.Finds host world id document)
    (hother : locations.Finds host world other another) : other = id ∧ another = document := by
  obtain ⟨text, hread, hparse⟩ := h.spelled
  obtain ⟨otherText, hotherRead, hotherParse⟩ := hother.spelled
  have hid := h.named.symm.trans hother.named
  have htext := hread.symm.trans hotherRead
  cases hid
  cases htext
  have hdocument := hparse.symm.trans hotherParse
  cases hdocument
  exact ⟨rfl, rfl⟩

/-- A connected account that finds its network and its book makes the context. -/
theorem Context.make_of_finds (hconnected : sender.requireConnection = .ok ())
    (hfinds : locations.Finds host world id document) :
    ∃ opened, Context.make host sender locations world =
        (.ok (Context.of host sender locations (locations.bookOf id document)), opened) ∧
      opened.files = world.files ∧ opened.submissions = world.submissions ∧
      opened.chain = (host.node.chainId world.chain).2 := by
  obtain ⟨text, hread, hparse⟩ := hfinds.spelled
  let asked : World γ φ := { world with
    chain := (host.node.chainId world.chain).2
    notices := world.notices ++ [Context.networkNotice id] }
  have hfile : host.disk.read asked.files locations.addressBook = .ok text := hread
  obtain ⟨opened, hopen, -⟩ := openFile_of_read (toString id) asked hfile hparse
  have hmake := Context.make_of_opened hconnected hfinds.named hopen
  have hundisturbed := Context.make_undisturbed host sender locations world
  obtain ⟨_, _, -, -, -, hchain⟩ := Context.make_finds hmake
  rw [hmake] at hundisturbed
  exact ⟨opened, hmake, hundisturbed.files, hundisturbed.submissions, hchain⟩

/-- What a contract is called at is what its record says, and nothing if it has none. -/
theorem bookOf_get (locations : Locations) (id : Nat) (document : BookDocument) (name : String) :
    (locations.bookOf id document).get name =
      (document.find? (toString id) name).getD Record.missing :=
  (bookOf_shows locations id document).given name

/-- Of a call, either something is lacking, or there is the transaction that it is. -/
theorem lacks_or_directed (host : Host γ φ) (sender : Sender) (locations : Locations)
    (contract function : String) (args : List String) (world : World γ φ) :
    LacksForCall host sender locations contract function args world ∨
      ∃ transaction, DirectedCall host sender locations contract function args world
        transaction := by
  cases hconnected : sender.requireConnection with
  | error error => exact .inl (.connection error hconnected)
  | ok _ =>
    by_cases hfinds : ∃ id document, locations.Finds host world id document
    · obtain ⟨id, document, hfinds⟩ := hfinds
      cases hrecord : document.find? (toString id) contract with
      | none => exact .inl (.entry id document hfinds hrecord)
      | some record =>
        by_cases haddress : record.address = FixedBytes.zero
        · exact .inl (.address id document record hfinds hrecord (Record.foundAt_iff.2 haddress))
        cases hread : (locations.source host.disk).read world.files contract with
        | error error => exact .inl (.artifact error hread)
        | ok artifact =>
          cases hencode : artifact.interface.encodeCall function args with
          | error fault => exact .inl (.encoding artifact fault hread hencode)
          | ok input =>
            refine .inr ⟨⟨sender.address, some record.address, input⟩, hconnected, rfl, ?_,
              artifact, hread, hencode⟩
            exact ⟨id, document, record, record.address, hfinds, hrecord, Record.foundAt_iff.2 rfl,
              haddress, rfl⟩
    · exact .inl (.book fun id document hfound => hfinds ⟨id, document, hfound⟩)

/-- What a call needs is all there if nothing is lacking: where the contract is called, and what
with. -/
theorem LacksForCall.elim (h : LacksForCall host sender locations contract function args world)
    (hconnected : sender.requireConnection = .ok ())
    (hfinds : locations.Finds host world id document) {artifact : Artifact} {input : Bytes}
    (hread : (locations.source host.disk).read world.files contract = .ok artifact)
    (haddress : ((locations.bookOf id document).get contract).address ≠ FixedBytes.zero)
    (hencode : artifact.interface.encodeCall function args = .ok input) : False := by
  rw [bookOf_get] at haddress
  cases h with
  | connection error hfailed =>
    rw [hconnected] at hfailed
    cases hfailed
  | book hnone => exact hnone id document hfinds
  | entry other another hother hnone =>
    obtain ⟨rfl, rfl⟩ := hfinds.unique hother
    rw [hnone] at haddress
    exact haddress rfl
  | address other another record hother hrecord hzero =>
    obtain ⟨rfl, rfl⟩ := hfinds.unique hother
    rw [hrecord] at haddress
    exact haddress (Record.foundAt_iff.1 hzero)
  | artifact error hfailed =>
    rw [hread] at hfailed
    cases hfailed
  | encoding found fault hfound hfailed =>
    rw [hread] at hfound
    cases hfound
    rw [hencode] at hfailed
    cases hfailed

/-- A command that lacks something for its call fails and has done nothing. -/
theorem run_call_of_lacking
    (h : LacksForCall host sender locations contract function args world) :
    let result := (Command.call contract function args).run host sender locations world
    (∃ error, result.1 = .error error) ∧ world.Undisturbed result.2 := by
  dsimp only
  have hmade := Context.make_undisturbed host sender locations world
  cases hmake : Context.make host sender locations world with
  | mk outcome opened =>
    rw [hmake] at hmade
    cases outcome with
    | error error =>
      rw [Command.run_of_unmade _ hmake]
      exact ⟨⟨_, rfl⟩, hmade⟩
    | ok context =>
      have hconnected := Context.make_connected hmake
      obtain ⟨id, document, hfinds, rfl, hfiles, -⟩ := Context.make_finds hmake
      rw [Command.run_eq, Command.bind_of_ok (Command.liftRun_of_ok hmake)]
      obtain ⟨hfails, hcalled⟩ := Context.call_of_lacking host
        (Context.of host sender locations (locations.bookOf id document)) contract function args
        opened fun artifact input hread haddress hencode =>
          h.elim hconnected hfinds (by rwa [hfiles] at hread) haddress hencode
      exact ⟨hfails, cumulative_undisturbed.trans hmade hcalled⟩

/-- A command that has a transaction to send hands it to the node, once, and goes by what the node
makes of it. -/
theorem run_call_of_directed {transaction : Transaction}
    (h : DirectedCall host sender locations contract function args world transaction) :
    ((Command.call contract function args).run host sender locations world).2.submissions =
        world.submissions ++
          [host.node.attempt transaction (host.node.chainId world.chain).2] ∧
      (((Command.call contract function args).run host sender locations world).1 = .ok () ↔
        host.node.Confirms transaction (host.node.chainId world.chain).2) := by
  obtain ⟨id, document, record, address, hfinds, hrecord, hfound, hnonzero, hcallee⟩ := h.callee
  obtain ⟨artifact, hread, hencode⟩ := h.input
  obtain ⟨opened, hmake, hfiles, hsubmissions, hchain⟩ :=
    Context.make_of_finds h.connected hfinds
  rw [← hfiles] at hread
  have hget : (locations.bookOf id document).get contract = record := by
    rw [bookOf_get, hrecord]
    rfl
  have haddress : ((locations.bookOf id document).get contract).address = address := by
    rw [hget]
    exact Record.foundAt_iff.1 hfound
  have hsent := Context.call_of_encoded host
    (Context.of host sender locations (locations.bookOf id document)) h.connected hread
    (by rwa [Context.of, haddress]) hencode
  have htransaction :
      (Context.of host sender locations (locations.bookOf id document)).callTransaction contract
        transaction.input = transaction := by
    rw [Context.callTransaction, Context.of, haddress, ← h.sender, ← hcallee]
  rw [htransaction, hchain, hsubmissions] at hsent
  rw [Command.run_eq, Command.bind_of_ok (Command.liftRun_of_ok hmake)]
  exact hsent

/-- A command that calls succeeds exactly if there is a transaction to send and the node confirms
it. -/
theorem run_call_succeeds_iff (host : Host γ φ) (sender : Sender) (locations : Locations)
    (contract function : String) (args : List String) (world : World γ φ) :
    ((Command.call contract function args).run host sender locations world).1 = .ok () ↔
      ∃ transaction, DirectedCall host sender locations contract function args world transaction ∧
        host.node.Confirms transaction (host.node.chainId world.chain).2 := by
  rcases lacks_or_directed host sender locations contract function args world with
    hlacks | ⟨transaction, hdirected⟩
  · obtain ⟨⟨error, herror⟩, -⟩ := run_call_of_lacking hlacks
    rw [herror]
    refine ⟨nofun, ?_⟩
    rintro ⟨transaction, hdirected, hconfirms⟩
    have hok := (run_call_of_directed hdirected).2.2 hconfirms
    rw [herror] at hok
    cases hok
  · constructor
    · intro hok
      exact ⟨transaction, hdirected, (run_call_of_directed hdirected).2.1 hok⟩
    · rintro ⟨other, hother, hconfirms⟩
      exact (run_call_of_directed hother).2.2 hconfirms

end Command

/-- A call is never misdirected. At most one transaction is handed to the node, and it goes from the
connected account to the address at which the contract is recorded, with the arguments encoded by
the interface of the contract. If something is lacking for that, the command fails and leaves no
trace; and it succeeds exactly if the node confirms the transaction. -/
theorem call_is_not_misdirected (host : Host γ φ) (contract function : String) (args : List String)
    (sender : Sender) (locations : Locations) (world : World γ φ) :
    let result := (Command.call contract function args).run host sender locations world
    let directed := DirectedCall host sender locations contract function args world
    let start := (host.node.chainId world.chain).2
    (result.2.submissions = world.submissions ∨
      ∃ transaction, directed transaction ∧
        result.2.submissions = world.submissions ++ [host.node.attempt transaction start]) ∧
    (LacksForCall host sender locations contract function args world →
      (∃ error, result.1 = .error error) ∧ world.Undisturbed result.2) ∧
    (result.1 = .ok () ↔
      ∃ transaction, directed transaction ∧ host.node.Confirms transaction start) ∧
    (host.node.KeepsReceipts start → (result.1 = .ok () ↔
      ∃ transaction hash receipt, directed transaction ∧
        (host.node.submit transaction start).1 = .ok hash ∧
        (host.node.await hash (host.node.submit transaction start).2).1.1 = .ok receipt ∧
        receipt.succeeded = true)) := by
  dsimp only
  refine ⟨?_, run_call_of_lacking, run_call_succeeds_iff host sender locations contract function
    args world, fun hkeeps => ?_⟩
  · rcases lacks_or_directed host sender locations contract function args world with
      hlacks | ⟨transaction, hdirected⟩
    · exact .inl (run_call_of_lacking hlacks).2.submissions
    · exact .inr ⟨transaction, hdirected, (run_call_of_directed hdirected).1⟩
  · rw [run_call_succeeds_iff]
    constructor
    · rintro ⟨transaction, hdirected, hconfirms⟩
      obtain ⟨hash, receipt, hsubmit, hawait, hsucceeded⟩ := hkeeps.confirms_iff.1 hconfirms
      exact ⟨transaction, hash, receipt, hdirected, hsubmit, hawait, hsucceeded⟩
    · rintro ⟨transaction, hash, receipt, hdirected, hsubmit, hawait, hsucceeded⟩
      exact ⟨transaction, hdirected, hkeeps.confirms_iff.2 ⟨hash, receipt, hsubmit, hawait,
        hsucceeded⟩⟩

end ContractDeploy
