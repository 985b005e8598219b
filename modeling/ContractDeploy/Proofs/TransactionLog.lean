import ContractDeploy.Chain.Rehearsal
import ContractDeploy.Proofs.BookHistory
import ContractDeploy.Proofs.Creations
import ContractDeploy.Proofs.DailyLog

/-!
# The log of transactions

Whatever a deployer sends goes through its journal, so that the log of the day tells what was sent.
A run is a sequence of deliveries: for each, the node was handed a transaction, answered, and, if it
took the transaction in, was asked for its receipt. The records of a delivery are told by these
answers alone, and the log has the records of the deliveries, one after the other, and nothing else.
A transaction that the node refused leaves no record, and neither does a call that was handed out
instead of sent.
-/

namespace ContractDeploy

variable {γ φ α : Type}

/-! ## Deliveries -/

/-- A call that was handed to the node, with the node's answer and with the receipt, if one was
had. -/
structure Delivery where
  /-- What the call was sent to. -/
  endpoint : Endpoint
  /-- The call. -/
  call : Call
  /-- The hash of the transaction, or the node's reason to refuse it. -/
  answer : Except String Hash
  /-- The receipt, if one was had. -/
  receipt : Option Receipt

namespace Delivery

/-- The transaction with the answer. -/
def submission (delivery : Delivery) : Submission where
  transaction := delivery.endpoint.transaction delivery.call
  answer := delivery.answer

/-- What a journal has of a delivery: the call, if the node took it in, and then the outcome, if
there was a receipt. -/
def records (delivery : Delivery) : List (List String) :=
  match delivery.answer with
  | .ok hash =>
    Endpoint.callLines delivery.endpoint.name (delivery.endpoint.submitted delivery.call hash) ::
      delivery.receipt.toList.map fun receipt => [Endpoint.outcomeLine receipt]
  | .error _ => []

end Delivery

/-- The receipt that waiting for a transaction comes to, unless it cannot be read. -/
def Node.awaited? (node : Node γ) (hash : Hash) (chain : γ) : Option Receipt :=
  (node.await hash chain).1.1.toOption

/-- Between two moments of a chain the node answered these deliveries, one after the other, each of
which was waited for once it was taken in, and it was only queried in between. -/
inductive Node.Delivers (node : Node γ) : γ → List Delivery → γ → Prop
  | none {before after : γ} (queried : node.Queried before after) : Delivers node before [] after
  | next {before start after : γ} {delivery : Delivery} {deliveries : List Delivery}
      (queried : node.Queried before start)
      (answered : node.attempt delivery.submission.transaction start = delivery.submission)
      (received : delivery.receipt = delivery.answer.toOption.bind fun hash =>
        node.awaited? hash (node.submit delivery.submission.transaction start).2)
      (rest : Delivers node (node.submit delivery.submission.transaction start).2 deliveries
        after) :
      Delivers node before (delivery :: deliveries) after

section Delivers

variable {node : Node γ} {before middle after : γ} {deliveries more : List Delivery}

theorem Node.Delivers.of_queried (hqueried : node.Queried before middle)
    (h : node.Delivers middle deliveries after) : node.Delivers before deliveries after := by
  cases h with
  | none queried => exact .none (hqueried.trans queried)
  | next queried answered received rest =>
    exact .next (hqueried.trans queried) answered received rest

theorem Node.Delivers.append (h : node.Delivers before deliveries middle)
    (hmore : node.Delivers middle more after) :
    node.Delivers before (deliveries ++ more) after := by
  induction h with
  | none queried => exact hmore.of_queried queried
  | next queried answered received rest ih => exact .next queried answered received (ih hmore)

end Delivers

/-! ## Stretches without a submission -/

/-- Between two moments these groups of lines were added to the log, and the chain was only
queried. -/
structure Noted (host : Host γ φ) (log : DailyLog φ) (groups : List (List String))
    (before after : World γ φ) : Prop extends Logged host log groups before after where
  queried : host.node.Queried before.chain after.chain
  submissions : after.submissions = before.submissions

section Noted

variable {host : Host γ φ} {log : DailyLog φ} {groups more : List (List String)}
  {before middle after : World γ φ}

theorem Noted.trans (hfirst : Noted host log groups before middle)
    (hlast : Noted host log more middle after) :
    Noted host log (groups ++ more) before after where
  toLogged := hfirst.toLogged.trans hlast.toLogged
  queried := hfirst.queried.trans hlast.queried
  submissions := hlast.submissions.trans hfirst.submissions

/-- Telling adds nothing to the log. -/
theorem Noted.told (host : Host γ φ) (log : DailyLog φ) (notices : List Notice)
    (world : World γ φ) :
    Noted host log [] world { world with notices := world.notices ++ notices } :=
  ⟨.nothing rfl rfl, .refl, rfl⟩

theorem cumulative_noted (host : Host γ φ) (log : DailyLog φ) :
    Cumulative (Noted host log []) where
  refl _ := ⟨.nothing rfl rfl, .refl, rfl⟩
  trans hfirst hlast := hfirst.trans hlast

namespace Endpoint

variable {book : String} {endpoint : Endpoint} {submitted : Submitted} {world : World γ φ}

/-- Waiting adds nothing to the log. -/
theorem await_noted (host : Host γ φ) (log : DailyLog φ) (hash : Hash) :
    (host.await hash).Within (Noted host log []) :=
  fun world => ⟨.nothing rfl rfl, host.node.queried_await hash world.chain, rfl⟩

theorem awaitSuccess_noted (host : Host γ φ) (log : DailyLog φ) (endpoint : Endpoint)
    (submitted : Submitted) :
    (awaitSuccess host endpoint submitted).Within (Noted host log []) := by
  have hR := cumulative_noted host log
  refine Run.within_bind hR ?_ fun receipt => ?_
  · exact Run.within_bind hR (Run.within_ofExcept hR _) fun _ => await_noted host log _
  · split
    · exact Run.within_pure hR receipt
    · exact Run.within_throw hR _

variable (htaken : log.TakenBy host.disk book)

include htaken

theorem record_noted (lines : List String) (world : World γ φ) :
    Noted host log [lines] world (log.journal.record host lines world).2 := by
  obtain ⟨hlogged, hchain, hsubmissions⟩ := Journal.record_logged htaken lines world
  refine ⟨hlogged, ?_, hsubmissions⟩
  rw [hchain]

/-- The outcome of a call is one record. -/
theorem recordOutcome_noted (receipt : Receipt) (world : World γ φ) :
    Noted host log [[outcomeLine receipt]] world
      (recordOutcome host log.journal receipt world).2 := by
  rw [recordOutcome_eq]
  exact (Noted.told host log _ world).trans (record_noted htaken _ _)

/-- What follows on a submission is the record of the call, and then that of its outcome if there
was a receipt. -/
theorem afterSubmission_noted (hconnected : endpoint.sender.requireConnection = .ok ())
    (submitted : Submitted) (world : World γ φ) :
    Noted host log
      (callLines endpoint.name submitted ::
        (host.node.awaited? submitted.txHash world.chain).toList.map
          fun receipt => [outcomeLine receipt])
      world (afterSubmission host endpoint log.journal submitted world).2 := by
  have hcall := record_noted htaken (callLines endpoint.name submitted) world
  obtain ⟨-, hchain, -⟩ := Journal.record_logged htaken (callLines endpoint.name submitted) world
  rw [afterSubmission, Run.bind_of_ok (Run.ofAct_apply _ world), Node.awaited?, ← hchain]
  generalize (log.journal.record host (callLines endpoint.name submitted) world).2 = recorded
    at hcall
  have hwait := wait_of_connected host hconnected submitted recorded
  have hawaited := await_noted host log submitted.txHash recorded
  have houtcome : (host.await submitted.txHash recorded).1 =
      (host.node.await submitted.txHash recorded.chain).1.1.mapError
        fun reason => .query (.unavailable reason) := rfl
  cases hanswer : (host.node.await submitted.txHash recorded.chain).1.1 with
  | error reason =>
    have hfailed : host.await submitted.txHash recorded =
        (.error (.query (.unavailable reason)), (host.await submitted.txHash recorded).2) :=
      Prod.ext (by rw [houtcome, hanswer]; rfl) rfl
    rw [Run.bind_of_error (hwait.trans hfailed)]
    exact hcall.trans hawaited
  | ok receipt =>
    have hreceived : host.await submitted.txHash recorded =
        (.ok receipt, (host.await submitted.txHash recorded).2) :=
      Prod.ext (by rw [houtcome, hanswer]; rfl) rfl
    rw [Run.bind_of_ok (hwait.trans hreceived), Run.bind_of_ok (Run.ofAct_apply _ _)]
    exact hcall.trans (hawaited.trans (recordOutcome_noted htaken receipt _))

end Endpoint

end Noted

/-! ## Stretches with deliveries -/

/-- Between two moments these deliveries took place, of which each was one that was to be sent, and
the log has their records. -/
structure Delivered (host : Host γ φ) (log : DailyLog φ) (sends : Endpoint → Call → Prop)
    (deliveries : List Delivery) (before after : World γ φ) : Prop where
  chain : host.node.Delivers before.chain deliveries after.chain
  submissions : after.submissions = before.submissions ++ deliveries.map Delivery.submission
  sent : ∀ delivery ∈ deliveries, sends delivery.endpoint delivery.call
  logged : Logged host log (deliveries.flatMap Delivery.records) before after

section Delivered

variable {host : Host γ φ} {log : DailyLog φ} {sends : Endpoint → Call → Prop}
  {deliveries more : List Delivery} {before middle after : World γ φ}

/-- A stretch in which nothing was recorded is one without deliveries. -/
theorem Delivered.of_noted (h : Noted host log [] before after) :
    Delivered host log sends [] before after where
  chain := .none h.queried
  submissions := by rw [h.submissions, List.map_nil, List.append_nil]
  sent delivery hdelivery := absurd hdelivery List.not_mem_nil
  logged := h.toLogged

theorem Delivered.append (hfirst : Delivered host log sends deliveries before middle)
    (hlast : Delivered host log sends more middle after) :
    Delivered host log sends (deliveries ++ more) before after where
  chain := hfirst.chain.append hlast.chain
  submissions := by
    rw [hlast.submissions, hfirst.submissions, List.map_append, List.append_assoc]
  sent delivery hdelivery :=
    (List.mem_append.1 hdelivery).elim (hfirst.sent delivery) (hlast.sent delivery)
  logged := by
    rw [List.flatMap_append]
    exact hfirst.logged.trans hlast.logged

theorem cumulative_delivered (host : Host γ φ) (log : DailyLog φ)
    (sends : Endpoint → Call → Prop) :
    Cumulative fun before after =>
      ∃ deliveries, Delivered host log sends deliveries before after where
  refl world := ⟨[], .of_noted ((cumulative_noted host log).refl world)⟩
  trans := by
    rintro before middle after ⟨deliveries, hfirst⟩ ⟨more, hlast⟩
    exact ⟨deliveries ++ more, hfirst.append hlast⟩

/-- A call is delivered if what follows on its submission leaves the records of the delivery. -/
theorem Delivered.single {delivery : Delivery} {world : World γ φ}
    (hsends : sends delivery.endpoint delivery.call)
    (hanswered : host.node.attempt delivery.submission.transaction world.chain =
      delivery.submission)
    (hreceived : delivery.receipt = delivery.answer.toOption.bind fun hash =>
      host.node.awaited? hash (host.handed delivery.submission.transaction world).chain)
    (h : Noted host log delivery.records (host.handed delivery.submission.transaction world)
      after) :
    Delivered host log sends [delivery] world after where
  chain := .next .refl hanswered hreceived (.none h.queried)
  submissions := by
    rw [h.submissions, List.map_singleton, ← hanswered]
    rfl
  sent other hother := by
    rw [List.mem_singleton.1 hother]
    exact hsends
  logged := by
    have hhanded : Logged host log [] world (host.handed delivery.submission.transaction world) :=
      .nothing rfl rfl
    rw [List.flatMap_singleton]
    exact hhanded.trans h.toLogged

variable {book : String} (htaken : log.TakenBy host.disk book) {endpoint : Endpoint}
  (hjournal : endpoint.journal = some log.journal) {call : Call} (hsends : sends endpoint call)

include htaken hjournal hsends

/-- Submitting a call delivers it, unless the account is not connected. -/
theorem Endpoint.submit_delivered (world : World γ φ) :
    ∃ deliveries,
      Delivered host log sends deliveries world (endpoint.submit host call world).2 := by
  cases hconnected : endpoint.sender.requireConnection with
  | error error =>
    rw [submit, Run.bind_of_error (submitBare_of_disconnected host hconnected call world)]
    exact (cumulative_delivered host log sends).refl world
  | ok _ =>
    have hbare := submitBare_apply host hconnected call world
    cases hanswer : (host.node.submit (endpoint.transaction call) world.chain).1 with
    | error reason =>
      rw [hanswer] at hbare
      rw [submit, Run.bind_of_error hbare]
      let refused : Delivery := ⟨endpoint, call, .error reason, none⟩
      refine ⟨[refused], .single hsends ?_ rfl ⟨.nothing rfl rfl, .refl, rfl⟩⟩
      simp only [Node.attempt, refused, Delivery.submission, hanswer]
    | ok hash =>
      rw [hanswer] at hbare
      rw [submit_of_submitted hjournal hbare]
      let accepted : Delivery := ⟨endpoint, call, .ok hash, host.node.awaited? hash
        (host.handed (endpoint.transaction call) world).chain⟩
      refine ⟨[accepted], .single hsends ?_ rfl ?_⟩
      · simp only [Node.attempt, accepted, Delivery.submission, hanswer]
      · exact afterSubmission_noted htaken hconnected (endpoint.submitted call hash) _

/-- Sending a call delivers it, and then the receipt is only waited for once more. -/
theorem Endpoint.send_delivered (world : World γ φ) :
    ∃ deliveries, Delivered host log sends deliveries world (endpoint.send host call world).2 := by
  refine Run.within_bind_at (cumulative_delivered host log sends)
    (submit_delivered htaken hjournal hsends world) fun submitted middle _ => ⟨[], .of_noted ?_⟩
  exact awaitSuccess_noted host log endpoint submitted middle

end Delivered

/-- Sending a call of a contract that keeps the journal delivers it, if it can be encoded. -/
theorem Contract.sendCall_delivered {host : Host γ φ} {log : DailyLog φ}
    {sends : Endpoint → Call → Prop} {book : String} (htaken : log.TakenBy host.disk book)
    {contract : Contract} {function : String} {args : List String}
    (hjournal : contract.journal = some log.journal)
    (hsends : ∀ call, contract.call function args = .ok call → sends contract.endpoint call)
    (world : World γ φ) :
    ∃ deliveries, Delivered host log sends deliveries world
      (contract.sendCall host function args world).2 := by
  have hR := cumulative_delivered host log sends
  refine Run.within_bind_at hR (hR.refl world) fun call middle hcall => ?_
  have hencoded := (Run.ofExcept_eq_ok hcall).1
  exact Endpoint.send_delivered htaken hjournal (hsends call hencoded) middle

/-! ## Runs -/

section Runs

variable {host : Host γ φ} {log : DailyLog φ} {deployer : Deployer φ}

/-- Whatever a deployer sends is delivered. -/
theorem sendingSteps_delivered {book : String} (htaken : log.TakenBy host.disk book)
    (hdirectory : deployer.journalDirectory = some log.directory) (accepts : Prop) :
    SendingSteps host deployer accepts fun before after =>
      ∃ deliveries, Delivered host log (deployer.Sends accepts) deliveries before after where
  toCumulative := cumulative_delivered host log _
  told notices world := ⟨[], .of_noted (.told host log notices world)⟩
  codeRead address world :=
    ⟨[], .of_noted ⟨.nothing rfl rfl, .single (.inr ⟨address, rfl⟩), rfl⟩⟩
  sent hsends world := by
    have hjournal : deployer.journal = log.journal := congrArg Journal.mk hdirectory
    exact Endpoint.send_delivered htaken (hjournal ▸ hsends.journal_eq) hsends world

/-- Between two moments of a run that records, these deliveries took place, if the book has its file
at this path. -/
def DeliveredBeside (host : Host γ φ) (log : DailyLog φ) (sends : Endpoint → Call → Prop)
    (file : String) (before after : Book × World γ φ) : Prop :=
  before.1.file = file → after.1.file = file ∧
    ∃ deliveries, Delivered host log sends deliveries before.2 after.2

theorem cumulative_deliveredBeside (host : Host γ φ) (log : DailyLog φ)
    (sends : Endpoint → Call → Prop) (file : String) :
    Cumulative (DeliveredBeside host log sends file) where
  refl moment hfile := ⟨hfile, (cumulative_delivered host log sends).refl moment.2⟩
  trans hfirst hlast hfile := by
    obtain ⟨hmiddle, hdelivered⟩ := hfirst hfile
    obtain ⟨hafter, hmore⟩ := hlast hmiddle
    exact ⟨hafter, (cumulative_delivered host log sends).trans hdelivered hmore⟩

/-- Setting an entry writes the book, which the log is spared. -/
theorem deliveredBeside_save {file : String} (htaken : log.TakenBy host.disk file)
    (sends : Endpoint → Call → Prop) (name : String) (record : Record) :
    (Recording.save host name record).Within (DeliveredBeside host log sends file) := by
  rintro book world rfl
  obtain ⟨notices, hsave⟩ := Recording.save_world host name record book world
  rw [hsave]
  refine ⟨rfl, [], .of_noted ⟨⟨rfl, fun _ hwritable held hheld => ?_⟩, .refl, rfl⟩⟩
  obtain ⟨hopen, htext⟩ := htaken.spared (book.insert name record).document.print world.files
    hwritable
  refine ⟨hopen, (htext.trans hheld).trans ?_⟩
  simp [Journal.textFrom]

/-- Whatever a deployer sends on a run that records is delivered. -/
theorem recordingSteps_delivered {file : String} (htaken : log.TakenBy host.disk file)
    (hdirectory : deployer.journalDirectory = some log.directory) (accepts : Prop)
    (names : String → Prop) :
    RecordingSteps host deployer accepts names
      (DeliveredBeside host log (deployer.Sends accepts) file) where
  toCumulative := cumulative_deliveredBeside host log _ file
  sending book := by
    have hsteps := sendingSteps_delivered htaken hdirectory accepts
    exact {
      refl := fun world hfile => ⟨hfile, hsteps.refl world⟩
      trans := fun hfirst hlast hfile =>
        ⟨hfile, hsteps.trans (hfirst hfile).2 (hlast hfile).2⟩
      told := fun notices world hfile => ⟨hfile, hsteps.told notices world⟩
      codeRead := fun address world hfile => ⟨hfile, hsteps.codeRead address world⟩
      sent := fun hsends world hfile => ⟨hfile, hsteps.sent hsends world⟩ }
  saved _ record := deliveredBeside_save htaken _ _ record

/-- The handle of a contract that is recorded in a book. -/
def Deployer.recordedContract (deployer : Deployer φ) (book : Book) (name : String)
    (artifact : Artifact) : Contract where
  name := name
  address := (book.get name).address
  interface := artifact.interface
  sender := deployer.sender
  journal := some deployer.journal

end Runs

/-- Something that a deployer does, and keeps a journal of. -/
inductive LoggedTask where
  /-- Deploys a contract, linked with its libraries or not. -/
  | deploy (name : String) (args : List String) (autolink : Bool)
  /-- Deploys a contract, linked with its libraries, and records it. -/
  | deployAndSave (name : String) (args : List String)
  /-- Deploys a contract behind a proxy that answers to an admin. -/
  | upgrade (asked : Upgrade) (admin : Address)
  /-- Deploys a contract behind a proxy and records both. -/
  | upgradeAndSave (asked : Upgrade)
  /-- Sends a call to a recorded contract. -/
  | call (name function : String) (args : List String)
  /-- Sends a call through a handle, which keeps the deployer's journal. -/
  | callThrough (contract : Contract) (function : String) (args : List String)

namespace LoggedTask

/-- Does what is asked, on an address book. -/
def perform (host : Host γ φ) (deployer : Deployer φ) : LoggedTask → Recording γ φ Unit
  | .deploy name args autolink => do
    let _ ← Recording.ofRun (deployer.deploy host name args autolink)
    return
  | .deployAndSave name args => do
    let _ ← deployer.deployAndSave host name args
    return
  | .upgrade asked admin => do
    let _ ← Recording.ofRun (deployer.deployBehindProxy host asked admin)
    return
  | .upgradeAndSave asked => do
    let _ ← deployer.deployBehindProxyAndSave host asked
    return
  | .call name function args => do
    let book ← get
    let _ ← Recording.ofRun (Contract.loadAndCall host deployer.source book deployer.sender
      deployer.journalDirectory name function args)
    return
  | .callThrough contract function args => do
    let logged := { contract with journal := some deployer.journal }
    let _ ← Recording.ofRun (logged.sendCall host function args)
    return

/-- What a task sends: creations of what the deployer's source has, and the call that accepts unless
it is to be handed out; or the call that was asked for, encoded for the contract. -/
def Sends (deployer : Deployer φ) (book : Book) : LoggedTask → Endpoint → Call → Prop
  | .deploy .. | .deployAndSave .. => deployer.Sends False
  | .upgrade asked _ | .upgradeAndSave asked => deployer.Sends (asked.manualAccept = false)
  | .call name function args => fun endpoint call => ∃ files artifact,
    deployer.source.read files name = .ok artifact ∧
      let contract := deployer.recordedContract book name artifact
      endpoint = contract.endpoint ∧ contract.call function args = .ok call
  | .callThrough contract function args => fun endpoint call =>
    let logged := { contract with journal := some deployer.journal }
    endpoint = logged.endpoint ∧ logged.call function args = .ok call

variable {host : Host γ φ} {log : DailyLog φ} {deployer : Deployer φ}

/-- A call of a recorded contract is delivered, if the contract can be loaded. -/
theorem call_delivered {book : Book} {file : String} (htaken : log.TakenBy host.disk file)
    (hdirectory : deployer.journalDirectory = some log.directory) (name function : String)
    (args : List String) (world : World γ φ) :
    ∃ deliveries, Delivered host log ((call name function args).Sends deployer book) deliveries
      world (Contract.loadAndCall host deployer.source book deployer.sender
        deployer.journalDirectory name function args world).2 := by
  have hR := cumulative_delivered host log ((call name function args).Sends deployer book)
  refine Run.within_bind_at hR ?_ fun contract loaded hload => ?_
  · refine Contract.load_within hR (fun notices world => ?_) deployer.source book name
      deployer.sender deployer.journalDirectory world
    exact ⟨[], .of_noted (.told host log notices world)⟩
  · obtain ⟨artifact, hread, rfl, rfl⟩ := Contract.load_eq_ok hload
    have hjournal : deployer.journal = log.journal := congrArg Journal.mk hdirectory
    exact Contract.sendCall_delivered htaken (congrArg some hjournal)
      (fun call hcall => ⟨_, artifact, hread, rfl, hcall⟩) loaded

/-- Whatever a task sends is delivered. -/
theorem perform_delivered (task : LoggedTask) {book : Book}
    (htaken : log.TakenBy host.disk book.file)
    (hdirectory : deployer.journalDirectory = some log.directory) (world : World γ φ) :
    DeliveredBeside host log (task.Sends deployer book) book.file (book, world)
      ((task.perform host deployer book world).1.2, (task.perform host deployer book world).2) := by
  have hjournal : deployer.journal = log.journal := congrArg Journal.mk hdirectory
  have hR := cumulative_deliveredBeside host log (task.Sends deployer book) book.file
  cases task with
  | deploy name args autolink =>
    have hsteps := recordingSteps_delivered htaken hdirectory False fun _ => True
    refine Recording.within_bind hR ?_ (fun _ => Recording.within_pure hR ()) book world
    exact Recording.within_ofRun fun other => (hsteps.sending other).deploy name args autolink
  | deployAndSave name args =>
    have hsteps := recordingSteps_delivered htaken hdirectory False fun _ => True
    refine Recording.within_bind hR ?_ (fun _ => Recording.within_pure hR ()) book world
    exact hsteps.deployAndSave trivial args
  | upgrade asked admin =>
    have hsteps := recordingSteps_delivered htaken hdirectory (asked.manualAccept = false)
      fun _ => True
    refine Recording.within_bind hR ?_ (fun _ => Recording.within_pure hR ()) book world
    exact Recording.within_ofRun fun other => (hsteps.sending other).deployBehindProxy id admin
  | upgradeAndSave asked =>
    have hsteps := recordingSteps_delivered htaken hdirectory (asked.manualAccept = false)
      fun _ => True
    refine Recording.within_bind hR ?_ (fun _ => Recording.within_pure hR ()) book world
    exact hsteps.deployBehindProxyAndSave trivial id
  | call name function args =>
    refine Recording.within_bind_at hR (hR.refl (book, world)) fun opened between middle hget => ?_
    cases hget
    refine Recording.within_bind hR ?_ (fun _ => Recording.within_pure hR ()) book world
    exact Recording.within_ofRun fun other start hfile =>
      ⟨hfile, call_delivered htaken hdirectory name function args start⟩
  | callThrough contract function args =>
    refine Recording.within_bind hR ?_ (fun _ => Recording.within_pure hR ()) book world
    exact Recording.within_ofRun fun other start hfile =>
      ⟨hfile, Contract.sendCall_delivered htaken (congrArg some hjournal)
        (fun call hcall => ⟨rfl, hcall⟩) start⟩

end LoggedTask

end ContractDeploy
