import ContractDeploy.Proofs.DailyLog
import ContractDeploy.Proofs.JournalTransparency
import Mathlib.Logic.Function.Iterate

/-!
# Waiting for a receipt

A transaction is waited for by reading its receipt again and again. `Reading.Polls` is that loop for
anything that may be read, without the promise that an answer will come: it comes to an end exactly
if there is an answer after finitely many reads (`Reading.polls_iff`), and on a node it is the wait
that runs go through (`Node.polls_iff`). How often was read is told by the state that is left, since
what is read from may count its reads. A call that is sent through a handle with a journal is waited
for twice; the first wait has all the waiting in it, and the second is one read.
-/

namespace ContractDeploy

variable {γ φ : Type}

/-! ## Reading until there is an answer -/

/-- One read of something that is waited for: it is there, it is not there yet, or it cannot be
read. A read may change what is read from. -/
abbrev Reading (ε α σ : Type) := σ → Except ε (Option α) × σ

namespace Reading

variable {ε α σ : Type} (read : Reading ε α σ)

/-- What is read from, after a number of reads. -/
def after (count : Nat) (state : σ) : σ := (fun state => (read state).2)^[count] state

/-- It is not there for a number of reads, and the next read has the answer: it is there, or it
cannot be read. -/
structure AnswersAfter (state : σ) (waits : Nat) (answer : Except ε α) : Prop where
  absent : ∀ earlier < waits, (read (read.after earlier state)).1 = .ok none
  answered : (read (read.after waits state)).1 = answer.map some

/-- It is not there for a number of reads, and there at all reads that follow. -/
structure StaysAfter (state : σ) (waits : Nat) (found : α) : Prop where
  absent : ∀ earlier < waits, (read (read.after earlier state)).1 = .ok none
  there : ∀ later, waits ≤ later → (read (read.after later state)).1 = .ok (some found)

/-- Reads until there is an answer. The loop comes from a state to an answer, with a number of waits
and the state that is left; without an answer it goes on for ever and comes to nothing. -/
inductive Polls : σ → Except ε α → Nat → σ → Prop
  /-- It is there. -/
  | found {state next : σ} {found : α} (hread : read state = (.ok (some found), next)) :
    Polls state (.ok found) 0 next
  /-- It cannot be read. -/
  | failed {state next : σ} {reason : ε} (hread : read state = (.error reason, next)) :
    Polls state (.error reason) 0 next
  /-- It is not there yet, and is read again after a wait. -/
  | absent {state next last : σ} {answer : Except ε α} {waits : Nat}
    (hread : read state = (.ok none, next)) (hpolls : Polls next answer waits last) :
    Polls state answer (waits + 1) last

variable {read} {state last : σ} {waits : Nat} {answer : Except ε α} {found : α}

theorem after_succ (count : Nat) (state : σ) :
    read.after (count + 1) state = read.after count (read state).2 :=
  rfl

theorem after_succ' (count : Nat) (state : σ) :
    read.after (count + 1) state = (read (read.after count state)).2 :=
  Function.iterate_succ_apply' _ count state

theorem answersAfter_zero_iff :
    read.AnswersAfter state 0 answer ↔ (read state).1 = answer.map some :=
  ⟨fun h => h.answered, fun h => ⟨nofun, h⟩⟩

/-- Where there is nothing yet, one wait more is needed than after the read. -/
theorem answersAfter_succ_iff : read.AnswersAfter state (waits + 1) answer ↔
    (read state).1 = .ok none ∧ read.AnswersAfter (read state).2 waits answer := by
  constructor
  · intro h
    refine ⟨h.absent 0 (Nat.succ_pos waits), fun earlier hless => ?_, h.answered⟩
    exact h.absent (earlier + 1) (Nat.succ_lt_succ hless)
  · rintro ⟨hnone, h⟩
    refine ⟨fun earlier hless => ?_, h.answered⟩
    cases earlier with
    | zero => exact hnone
    | succ earlier => exact h.absent earlier (Nat.lt_of_succ_lt_succ hless)

theorem StaysAfter.answersAfter (h : read.StaysAfter state waits found) :
    read.AnswersAfter state waits (.ok found) :=
  ⟨h.absent, h.there waits (Nat.le_refl waits)⟩

/-- The loop ends exactly with the first answer, and has made one read more than it waited. -/
theorem polls_iff : read.Polls state answer waits last ↔
    read.AnswersAfter state waits answer ∧ last = read.after (waits + 1) state := by
  constructor
  · intro h
    induction h with
    | found hread | failed hread =>
      exact ⟨answersAfter_zero_iff.2 (congrArg Prod.fst hread), (congrArg Prod.snd hread).symm⟩
    | absent hread hpolls ih =>
      rw [answersAfter_succ_iff, after_succ, hread]
      exact ⟨⟨rfl, ih.1⟩, ih.2⟩
  · rintro ⟨h, rfl⟩
    induction waits generalizing state with
    | zero =>
      have hread := answersAfter_zero_iff.1 h
      cases answer with
      | ok found => exact .found (Prod.ext hread rfl)
      | error reason => exact .failed (Prod.ext hread rfl)
    | succ waits ih =>
      obtain ⟨hnone, hlater⟩ := answersAfter_succ_iff.1 h
      exact .absent (Prod.ext hnone rfl) (ih hlater)

/-- There is one answer at most, after one number of waits. -/
theorem Polls.unique {other : Except ε α} {count : Nat} {left : σ}
    (h : read.Polls state answer waits last) (hother : read.Polls state other count left) :
    ((answer, waits), last) = ((other, count), left) := by
  induction h generalizing count with
  | found hread =>
    cases hother with
    | found hagain =>
      cases hread.symm.trans hagain
      rfl
    | failed hagain | absent hagain => cases hread.symm.trans hagain
  | failed hread =>
    cases hother with
    | failed hagain =>
      cases hread.symm.trans hagain
      rfl
    | found hagain | absent hagain => cases hread.symm.trans hagain
  | absent hread hpolls ih =>
    cases hother with
    | found hagain | failed hagain => cases hread.symm.trans hagain
    | absent hagain hmore =>
      cases hread.symm.trans hagain
      cases ih hmore
      rfl

end Reading

/-! ## Waiting -/

/-- Reading the receipt of a transaction. -/
abbrev Node.reading (node : Node γ) (hash : Hash) : Reading String Receipt γ := node.receipt hash

theorem Node.polls_await (node : Node γ) (hash : Hash) (chain : γ) :
    (node.reading hash).Polls chain (node.await hash chain).1.1 (node.await hash chain).1.2
      (node.await hash chain).2 := by
  fun_induction Node.await node hash chain with
  | case1 chain receipt next hread => exact .found hread
  | case2 chain reason next hread => exact .failed hread
  | case3 chain next hread hless outcome polls last hawait ih =>
    rw [hawait] at ih
    exact .absent hread ih

/-- Waiting for a transaction is reading its receipt until there is an answer. -/
theorem Node.polls_iff {node : Node γ} {hash : Hash} {chain last : γ}
    {answer : Except String Receipt} {waits : Nat} :
    (node.reading hash).Polls chain answer waits last ↔
      node.await hash chain = ((answer, waits), last) := by
  constructor
  · intro h
    exact (node.polls_await hash chain).unique h
  · intro h
    have hpolls := node.polls_await hash chain
    rw [h] at hpolls
    exact hpolls

section Waiting

variable {host : Host γ φ} {hash : Hash} {world : World γ φ} {waits : Nat}
  {answer : Except String Receipt}

theorem Node.await_of_answers {node : Node γ} {chain : γ}
    (h : (node.reading hash).AnswersAfter chain waits answer) :
    node.await hash chain = ((answer, waits), (node.reading hash).after (waits + 1) chain) :=
  Node.polls_iff.1 (Reading.polls_iff.2 ⟨h, rfl⟩)

/-- The world after a receipt was read a number of times. -/
def Host.afterReads (host : Host γ φ) (hash : Hash) (count : Nat) (world : World γ φ) :
    World γ φ :=
  { world with chain := (host.node.reading hash).after count world.chain }

/-- What is waited for comes to its answer, with one read more than there were waits, and each wait
is told. -/
theorem Host.await_of_answers (h : (host.node.reading hash).AnswersAfter world.chain waits answer) :
    host.await hash world = (answer.mapError fun reason => .query (.unavailable reason),
      { host.afterReads hash (waits + 1) world with
        notices := world.notices ++ List.replicate waits (.waiting hash) }) := by
  rw [Host.await, Node.await_of_answers h]
  rfl

end Waiting

/-! ## Sending with a journal -/

namespace Endpoint

/-- What is told of a call between its submission and the record of its outcome. The waits stand
where the receipt was waited for: behind the record of the call and before that of the outcome. -/
def CallTold (endpoint : Endpoint) (submitted : Submitted) (waits : Nat) (receipt : Receipt)
    (told : List Notice) : Prop :=
  ∃ called outcome, Journal.Tells (callLines endpoint.name submitted) called ∧
    Journal.Tells [outcomeLine receipt] outcome ∧
    told = called ++ List.replicate waits (.waiting submitted.txHash) ++
      (revertTold receipt ++ outcome)

/-- How a call is sent whose receipt is there after a number of waits: submitting it comes to an
end in the world that is given, with the read that found the receipt, and a second wait is one
read and nothing else. -/
structure WaitsOnce (endpoint : Endpoint) (host : Host γ φ) (call : Call) (world : World γ φ)
    (hash : Hash) (waits : Nat) (receipt : Receipt) (settled : World γ φ) : Prop where
  submitted : endpoint.submit host call world = (.ok (endpoint.submitted call hash), settled)
  chain : settled.chain = (host.node.reading hash).after (waits + 1)
    (host.handed (endpoint.transaction call) world).chain
  included : (host.node.receipt hash settled.chain).1 = .ok (some receipt)
  told : ∃ told, endpoint.CallTold (endpoint.submitted call hash) waits receipt told ∧
    settled.notices = world.notices ++ told
  waitedAgain : endpoint.wait host (endpoint.submitted call hash) settled =
    (.ok receipt, host.afterReads hash 1 settled)
  sent : endpoint.send host call world =
    (if receipt.succeeded then .ok receipt
      else .error (.submission (.reverted endpoint.name call.function hash)),
      host.afterReads hash 1 settled)

variable {host : Host γ φ} {endpoint : Endpoint} {journal : Journal} {submitted : Submitted}
  {call : Call} {world : World γ φ} {hash : Hash} {waits : Nat} {receipt : Receipt}

/-- A connected account that waits has the receipt once it is there. -/
theorem wait_of_answers (hconnected : endpoint.sender.requireConnection = .ok ())
    (h : (host.node.reading submitted.txHash).AnswersAfter world.chain waits (.ok receipt)) :
    endpoint.wait host submitted world = (.ok receipt,
      { host.afterReads submitted.txHash (waits + 1) world with
        notices := world.notices ++ List.replicate waits (.waiting submitted.txHash) }) := by
  rw [wait_of_connected host hconnected, Host.await_of_answers h]
  rfl

/-- What follows on a submission waits until the receipt is there. -/
theorem afterSubmission_of_answers (journal : Journal) (submitted : Submitted)
    (hconnected : endpoint.sender.requireConnection = .ok ())
    (h : (host.node.reading submitted.txHash).AnswersAfter world.chain waits (.ok receipt)) :
    ∃ settled, afterSubmission host endpoint journal submitted world = (.ok submitted, settled) ∧
      settled.chain = (host.node.reading submitted.txHash).after (waits + 1) world.chain ∧
      ∃ told, endpoint.CallTold submitted waits receipt told ∧
        settled.notices = world.notices ++ told := by
  obtain ⟨called, hcalled, hcallTold⟩ :=
    journal.record_tells host (callLines endpoint.name submitted) world
  have hquiet := Journal.record_quiet host journal (callLines endpoint.name submitted) world
  rw [afterSubmission, Run.bind_of_ok (Run.ofAct_apply _ world)]
  generalize (journal.record host (callLines endpoint.name submitted) world).2 = recorded
    at hcallTold hquiet
  rw [← hquiet.chain] at h ⊢
  rw [Run.bind_of_ok (wait_of_answers hconnected h)]
  generalize hwaited : ({ host.afterReads submitted.txHash (waits + 1) recorded with
    notices := recorded.notices ++ List.replicate waits (.waiting submitted.txHash) } :
      World γ φ) = waited
  obtain ⟨outcome, houtcome, houtcomeTold⟩ := journal.record_tells host [outcomeLine receipt]
    { waited with notices := waited.notices ++ revertTold receipt }
  have hsettled := recordOutcome_quiet host journal receipt waited
  rw [← recordOutcome_eq] at houtcomeTold
  refine ⟨(recordOutcome host journal receipt waited).2, Run.bind_of_ok (Run.ofAct_apply _ _), ?_,
    _, ⟨called, outcome, hcalled, houtcome, rfl⟩, ?_⟩
  · rw [hsettled.chain, ← hwaited]
    rfl
  · rw [houtcomeTold, ← hwaited, hcallTold]
    simp only [List.append_assoc]

/-- Where a receipt stays once it is there, a call that the node took in is sent with all of the
waiting in its submission. -/
theorem waitsOnce_of_stays (hjournal : endpoint.journal = some journal)
    (hconnected : endpoint.sender.requireConnection = .ok ())
    (haccepted : (host.node.submit (endpoint.transaction call) world.chain).1 = .ok hash)
    (hstays : (host.node.reading hash).StaysAfter
      (host.handed (endpoint.transaction call) world).chain waits receipt) :
    ∃ settled, endpoint.WaitsOnce host call world hash waits receipt settled := by
  have hbare := submitBare_apply host hconnected call world
  rw [haccepted] at hbare
  obtain ⟨settled, hrecord, hchain, told, htold, hnotices⟩ :=
    afterSubmission_of_answers journal (endpoint.submitted call hash) hconnected hstays.answersAfter
  have hsubmit := (submit_of_submitted hjournal hbare).trans hrecord
  have hthere : (host.node.receipt hash settled.chain).1 = .ok (some receipt) := by
    rw [hchain]
    exact hstays.there (waits + 1) (Nat.le_succ waits)
  -- The second wait finds the receipt with its first read.
  have hagain : endpoint.wait host (endpoint.submitted call hash) settled =
      (.ok receipt, host.afterReads hash 1 settled) := by
    have hanswers : (host.node.reading hash).AnswersAfter settled.chain 0 (.ok receipt) :=
      Reading.answersAfter_zero_iff.2 hthere
    rw [wait_of_answers hconnected hanswers, List.replicate_zero, List.append_nil]
    rfl
  exact ⟨settled, hsubmit, hchain, hthere, ⟨told, htold, hnotices⟩, hagain,
    (Run.bind_of_ok hsubmit).trans (awaitSuccess_of_wait host hagain)⟩

/-- A call that was sent so is reported as reverted exactly if its receipt says so. -/
theorem WaitsOnce.reverted_iff {settled : World γ φ}
    (h : endpoint.WaitsOnce host call world hash waits receipt settled) :
    (endpoint.send host call world).1 =
        .error (.submission (.reverted endpoint.name call.function hash)) ↔
      receipt.succeeded = false := by
  rw [h.sent]
  cases receipt.succeeded with
  | true => exact ⟨nofun, nofun⟩
  | false => exact ⟨fun _ => rfl, fun _ => rfl⟩

end Endpoint

/-- A receipt is waited for exactly as long as it is not there. Whatever is read, the loop ends with
the first answer, which is what was read or the failure to read it, after one read more than it
waited; on a node it is the wait that runs go through, and each wait is told. Where a receipt stays
once it is there, a call that is sent through a handle with a journal is waited for while it is
submitted, so that nothing is left to wait for afterwards, and is reported as reverted exactly if
its receipt says so. -/
theorem waits_until_answered (host : Host γ φ) :
    (∀ {ε α σ : Type} (read : Reading ε α σ) state waits answer last,
      read.Polls state answer waits last ↔
        read.AnswersAfter state waits answer ∧ last = read.after (waits + 1) state) ∧
    (∀ hash chain answer waits last, (host.node.reading hash).Polls chain answer waits last ↔
      host.node.await hash chain = ((answer, waits), last)) ∧
    (∀ hash (world : World γ φ) waits answer,
      (host.node.reading hash).AnswersAfter world.chain waits answer →
      host.await hash world = (answer.mapError fun reason => .query (.unavailable reason),
        { host.afterReads hash (waits + 1) world with
          notices := world.notices ++ List.replicate waits (.waiting hash) })) ∧
    ∀ (endpoint : Endpoint) journal call (world : World γ φ) hash waits receipt,
      endpoint.sender.requireConnection = .ok () →
      (host.node.submit (endpoint.transaction call) world.chain).1 = .ok hash →
      (host.node.reading hash).StaysAfter (host.handed (endpoint.transaction call) world).chain
        waits receipt →
      (∃ settled, (endpoint.logged journal).WaitsOnce host call world hash waits receipt
        settled) ∧
      (((endpoint.logged journal).send host call world).1 =
          .error (.submission (.reverted endpoint.name call.function hash)) ↔
        receipt.succeeded = false) := by
  refine ⟨fun read state waits answer last => Reading.polls_iff,
    fun hash chain answer waits last => Node.polls_iff,
    fun hash world waits answer => Host.await_of_answers, ?_⟩
  intro endpoint journal call world hash waits receipt hconnected haccepted hstays
  obtain ⟨settled, hsent⟩ : ∃ settled, (endpoint.logged journal).WaitsOnce host call world hash
      waits receipt settled :=
    Endpoint.waitsOnce_of_stays rfl hconnected haccepted hstays
  exact ⟨⟨settled, hsent⟩, hsent.reverted_iff⟩

/-! ## A receipt that takes its time -/

theorem slowNode_after (hash : Hash) (count missing : Nat) :
    (slowNode.reading hash).after count missing = missing - count := by
  induction count with
  | zero => rfl
  | succ count ih =>
    rw [Reading.after_succ', ih]
    by_cases hmissing : 0 < missing - count
    · have hread : slowNode.reading hash (missing - count) = (.ok none, missing - count - 1) :=
        if_pos hmissing
      rw [hread, Nat.sub_sub]
    · have hnone : missing - count = 0 := Nat.eq_zero_of_not_pos hmissing
      have hdone : missing - (count + 1) = 0 := by omega
      rw [hnone, hdone]
      rfl

/-- What the slow node has as a receipt stays once it is there. -/
theorem slowNode_staysAfter (hash : Hash) (missing : Nat) (receipt : Receipt)
    (h : slowNode.receipt hash 0 = (.ok (some receipt), 0)) :
    (slowNode.reading hash).StaysAfter missing missing receipt where
  absent earlier hless := by
    have hmissing : 0 < missing - earlier := by omega
    have hread : slowNode.reading hash (missing - earlier) = (.ok none, missing - earlier - 1) :=
      if_pos hmissing
    rw [slowNode_after, hread]
  there later hlater := by
    have hdone : missing - later = 0 := by omega
    rw [slowNode_after, hdone]
    exact congrArg Prod.fst h

/-- A call that reverts is sent, and its receipt is read in vain twice. -/
theorem waits_until_answered_slow :
    let host : Host Nat FileTree :=
      { node := slowNode, disk := FileTree.disk, clock := fun _ => ⟨0⟩ }
    let world : World Nat FileTree := { chain := 2, files := .directory "tx-logs" .done .done }
    let token : Endpoint := {
      name := "Token"
      callee := some (FixedBytes.ofNat 16)
      sender := { address := FixedBytes.ofNat 1 }
      journal := none }
    let logged := token.logged ⟨some "tx-logs"⟩
    let call : Call := { function := "pause", args := [], input := [1, 2, 3, 4] }
    let hash : Hash := FixedBytes.ofNat 7
    let receipt : Receipt := {
      txHash := hash
      sender := FixedBytes.ofNat 1
      callee := some (FixedBytes.ofNat 16)
      contractAddress := none
      succeeded := false
      blockNumber := none }
    token.sender.requireConnection = .ok () ∧
      (host.node.submit (token.transaction call) world.chain).1 = .ok hash ∧
      (host.node.reading hash).StaysAfter (host.handed (token.transaction call) world).chain 2
        receipt ∧
      host.await hash world = (.ok receipt, { host.afterReads hash 3 world with
        notices := world.notices ++ [.waiting hash, .waiting hash] }) ∧
      (∃ settled, logged.WaitsOnce host call world hash 2 receipt settled) ∧
      ((logged.send host call world).1 =
          .error (.submission (.reverted "Token" "pause" hash)) ↔ receipt.succeeded = false) := by
  intro host world token logged call hash receipt
  have hstays : (host.node.reading hash).StaysAfter 2 2 receipt :=
    slowNode_staysAfter hash 2 receipt rfl
  obtain ⟨-, -, hwait, hsend⟩ := waits_until_answered host
  exact ⟨rfl, rfl, hstays, hwait hash world 2 (.ok receipt) hstays.answersAfter,
    hsend token ⟨some "tx-logs"⟩ call world hash 2 receipt rfl rfl hstays⟩

end ContractDeploy
