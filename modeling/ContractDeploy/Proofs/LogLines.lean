import ContractDeploy.Proofs.TextlessArguments
import ContractDeploy.Proofs.TransactionLog
import ContractDeploy.Proofs.Verification

/-!
# The lines of the log

Records stand in the log line by line, each behind the time at which it was made. Names and
arguments are taken over as they are, so a line feed in one of them begins a line without a time,
or with a time of the argument's own. How many lines a call makes is told by the line feeds that it
brings along: six with its outcome if there are none, and then every line is one that was recorded.
Only arguments with text in them can bring any.
-/

namespace ContractDeploy

variable {γ φ : Type}

/-! ## Lines -/

/-- A character in front of lines, on the first of them. -/
def prependToLines (c : Char) : List (List Char) → List (List Char)
  | [] => [[c]]
  | line :: lines => (c :: line) :: lines

/-- The lines of a text, each of which ends with a line feed or with the text. -/
def linesOf : List Char → List (List Char)
  | [] => []
  | c :: rest => if c = '\n' then [] :: linesOf rest else prependToLines c (linesOf rest)

/-- How many line feeds a text holds. -/
def lineFeeds (text : String) : Nat := text.toList.count '\n'

/-- How many line feeds texts hold together. -/
def lineFeedsIn : List String → Nat
  | [] => 0
  | text :: texts => lineFeeds text + lineFeedsIn texts

section Lines

variable {line rest : List Char}

/-- A line that is ended is the first one. -/
theorem linesOf_line (h : '\n' ∉ line) : linesOf (line ++ '\n' :: rest) = line :: linesOf rest := by
  induction line with
  | nil => exact if_pos rfl
  | cons c line ih =>
    rw [List.mem_cons, not_or] at h
    rw [List.cons_append, linesOf, if_neg (Ne.symm h.1), ih h.2, prependToLines]

/-- Whatever is ended by a line feed makes one line more than it holds line feeds. -/
theorem length_linesOf (text rest : List Char) :
    (linesOf (text ++ '\n' :: rest)).length = text.count '\n' + 1 + (linesOf rest).length := by
  induction text with
  | nil =>
    rw [List.nil_append, linesOf, if_pos rfl, List.length_cons, List.count_nil]
    omega
  | cons c text ih =>
    rw [List.cons_append, linesOf]
    by_cases hc : c = '\n'
    · rw [if_pos hc, hc, List.length_cons, List.count_cons_self, ih]
      omega
    · rw [if_neg hc, List.count_cons_of_ne hc, ← ih]
      cases hlines : linesOf (text ++ '\n' :: rest) with
      | nil =>
        rw [hlines, List.length_nil] at ih
        omega
      | cons line lines => rfl

theorem tail_prependToLines (c : Char) (lines : List (List Char)) :
    (prependToLines c lines).tail = lines.tail := by
  cases lines <;> rfl

/-- Whatever stands between two line feeds is a line. The induction says that it is not the first,
so that characters in front of the text leave it alone. -/
theorem mem_linesOf {text : List Char} (hline : '\n' ∉ line)
    (h : '\n' :: line ++ ['\n'] <:+: text) : line ∈ linesOf text := by
  obtain ⟨before, after, rfl⟩ := h
  refine List.mem_of_mem_tail ?_
  induction before with
  | nil =>
    have htext : [] ++ ('\n' :: line ++ ['\n']) ++ after = '\n' :: (line ++ '\n' :: after) := by
      simp
    rw [htext, linesOf, if_pos rfl, linesOf_line hline]
    exact List.mem_cons_self
  | cons c before ih =>
    rw [List.cons_append, List.cons_append, linesOf]
    split
    · exact List.mem_of_mem_tail ih
    · rw [tail_prependToLines]
      exact ih

theorem lineFeeds_append (a b : String) : lineFeeds (a ++ b) = lineFeeds a + lineFeeds b := by
  rw [lineFeeds, String.toList_append, List.count_append]
  rfl

theorem lineFeeds_eq_zero {text : String} : lineFeeds text = 0 ↔ '\n' ∉ text.toList :=
  List.count_eq_zero

theorem lineFeedsIn_append (texts more : List String) :
    lineFeedsIn (texts ++ more) = lineFeedsIn texts + lineFeedsIn more := by
  induction texts with
  | nil => exact (Nat.zero_add _).symm
  | cons text texts ih => rw [List.cons_append, lineFeedsIn, lineFeedsIn, ih, Nat.add_assoc]

theorem lineFeedsIn_eq_zero {texts : List String} (h : ∀ text ∈ texts, '\n' ∉ text.toList) :
    lineFeedsIn texts = 0 := by
  induction texts with
  | nil => rfl
  | cons text texts ih =>
    obtain ⟨hfirst, hothers⟩ := List.forall_mem_cons.1 h
    rw [lineFeedsIn, lineFeeds_eq_zero.2 hfirst, ih hothers]

/-- Texts that are listed with commas bring their own line feeds. -/
theorem lineFeeds_intercalate (texts : List String) :
    lineFeeds (", ".intercalate texts) = lineFeedsIn texts := by
  rw [lineFeeds, String.toList_intercalate]
  induction texts with
  | nil => rfl
  | cons text texts ih =>
    cases texts with
    | nil => simp [lineFeedsIn, lineFeeds, List.intercalate]
    | cons next texts =>
      have hcomma : ", ".toList.count '\n' = 0 := by decide
      rw [List.map_cons] at ih
      rw [List.map_cons, List.map_cons, List.intercalate_cons_cons, List.count_append,
        List.count_append, ih, hcomma, Nat.add_zero]
      rfl

/-- A text that is listed with others stands in the list. -/
theorem infix_intercalate {separator text : String} {texts : List String} (h : text ∈ texts) :
    text.toList <:+: (separator.intercalate texts).toList := by
  rw [String.toList_intercalate]
  induction texts with
  | nil => cases h
  | cons first texts ih =>
    cases texts with
    | nil =>
      refine ⟨[], [], ?_⟩
      rw [List.nil_append, List.append_nil, List.mem_singleton.1 h, List.map_singleton,
        List.intercalate_singleton]
    | cons next texts =>
      rw [List.map_cons, List.map_cons, List.intercalate_cons_cons]
      rcases List.mem_cons.1 h with rfl | hmem
      · rw [List.append_assoc]
        exact (List.prefix_append _ _).isInfix
      · exact (ih hmem).trans (List.suffix_append _ _).isInfix

/-- Digits stand on one line. -/
theorem lineFeeds_hex {n : Nat} (a : FixedBytes n) : lineFeeds a.hex = 0 := by
  have hdigit : ∀ n < 16, Hex.digit n ≠ '\n' := by decide
  have hdigits : ∀ byte : UInt8, '\n' ∉ Hex.digits byte := by
    intro byte hmem
    simp only [Hex.digits, List.mem_cons, List.not_mem_nil, or_false] at hmem
    rcases hmem with hhigh | hlow
    · exact hdigit _ (Hex.high_lt byte) hhigh.symm
    · exact hdigit _ (Nat.mod_lt _ (by decide)) hlow.symm
  have hmarker : lineFeeds Hex.marker = 0 := by decide
  rw [FixedBytes.hex, Hex.encodePrefixed, lineFeeds_append, hmarker, Nat.zero_add,
    lineFeeds_eq_zero, Hex.encode, String.toList_ofList, List.mem_flatMap]
  rintro ⟨byte, -, hmem⟩
  exact hdigits byte hmem

end Lines

/-! ## Recorded lines -/

namespace Journal

/-- What stands in front of a line: the time in brackets. -/
def opening (now : Instant) : String := "[" ++ now.stamp ++ "] "

/-- A line as it stands in the file, without its end. -/
def stamped (now : Instant) (line : String) : List Char := (opening now ++ line).toList

/-- Groups of lines as they stand in a log, each behind a reading of the clock of its own. -/
def stampedFrom (clock : Nat → Instant) (reading : Nat) : List (List String) → List (List Char)
  | [] => []
  | lines :: groups =>
    lines.map (stamped (clock reading)) ++ stampedFrom clock (reading + 1) groups

/-- Times stand on one line. -/
theorem lineFeeds_opening (now : Instant) : lineFeeds (opening now) = 0 := by
  have hdigit : Char.isDigit '\n' = false := by decide
  have hday := now.notMem_day hdigit (by decide)
  rw [lineFeeds_eq_zero, opening, Instant.stamp]
  simp only [String.toList_append, List.mem_append, not_or]
  have hnumber := Instant.notMem_padded hdigit
  refine ⟨⟨by decide, ?_⟩, by decide⟩
  exact ⟨⟨⟨⟨⟨⟨⟨⟨⟨hday, by decide⟩, hnumber _ _⟩, by decide⟩, hnumber _ _⟩, by decide⟩, hnumber _ _⟩,
    by decide⟩, hnumber _ _⟩, by decide⟩

theorem toList_entryLine (now : Instant) (line : String) :
    (entryLine now line).toList = stamped now line ++ ['\n'] := by
  rw [entryLine, String.toList_append, stamped, opening]
  rfl

theorem toList_entryText (now : Instant) (lines : List String) :
    (entryText now lines).toList = lines.flatMap fun line => stamped now line ++ ['\n'] := by
  rw [entryText, String.toList_join, List.flatMap_map]
  simp only [toList_entryLine]

theorem count_stamped (now : Instant) (line : String) :
    (stamped now line).count '\n' = lineFeeds line := by
  have happend := lineFeeds_append (opening now) line
  rw [lineFeeds_opening, Nat.zero_add] at happend
  exact happend

/-- A group makes as many lines as it has, and one more for each line feed in them. -/
theorem length_linesOf_entryText (now : Instant) (lines : List String) (rest : List Char) :
    (linesOf ((entryText now lines).toList ++ rest)).length =
      lines.length + lineFeedsIn lines + (linesOf rest).length := by
  rw [toList_entryText]
  induction lines with
  | nil => simp [lineFeedsIn]
  | cons line lines ih =>
    rw [List.flatMap_cons, List.append_assoc, List.append_assoc, List.singleton_append,
      length_linesOf, ih, count_stamped, lineFeedsIn, List.length_cons]
    omega

/-- A group without line feeds is found in the log as it was recorded. -/
theorem linesOf_entryText (now : Instant) {lines : List String} (h : lineFeedsIn lines = 0)
    (rest : List Char) :
    linesOf ((entryText now lines).toList ++ rest) =
      lines.map (stamped now) ++ linesOf rest := by
  rw [toList_entryText]
  induction lines with
  | nil => rfl
  | cons line lines ih =>
    rw [lineFeedsIn] at h
    have hline : '\n' ∉ stamped now line := by
      rw [← List.count_eq_zero, count_stamped]
      omega
    rw [List.flatMap_cons, List.append_assoc, List.append_assoc, List.singleton_append,
      linesOf_line hline, ih (by omega), List.map_cons, List.cons_append]

variable (clock : Nat → Instant) (reading : Nat)

theorem length_linesOf_textFrom (groups : List (List String)) :
    (linesOf (textFrom clock reading groups).toList).length =
      groups.flatten.length + lineFeedsIn groups.flatten := by
  induction groups generalizing reading with
  | nil => rfl
  | cons lines groups ih =>
    rw [textFrom, String.toList_append, length_linesOf_entryText, ih, List.flatten_cons,
      List.length_append, lineFeedsIn_append]
    omega

theorem linesOf_textFrom {groups : List (List String)} (h : lineFeedsIn groups.flatten = 0) :
    linesOf (textFrom clock reading groups).toList = stampedFrom clock reading groups := by
  induction groups generalizing reading with
  | nil => rfl
  | cons lines groups ih =>
    rw [List.flatten_cons, lineFeedsIn_append] at h
    rw [textFrom, String.toList_append, linesOf_entryText _ (by omega), ih _ (by omega),
      stampedFrom]

/-- Whatever stands in a line stands in the log. -/
theorem infix_textFrom {groups : List (List String)} {lines : List String} {line : String}
    (hlines : lines ∈ groups) (hline : line ∈ lines) :
    line.toList <:+: (textFrom clock reading groups).toList := by
  induction groups generalizing reading with
  | nil => cases hlines
  | cons first groups ih =>
    rw [textFrom, String.toList_append]
    rcases List.mem_cons.1 hlines with rfl | hlines
    · have hentry : line.toList <:+: stamped (clock reading) line ++ ['\n'] := by
        rw [stamped, String.toList_append]
        exact List.infix_append _ _ _
      have hgroup : stamped (clock reading) line ++ ['\n'] <:+:
          (entryText (clock reading) lines).toList := by
        rw [toList_entryText, List.flatMap_def]
        exact List.infix_of_mem_flatten (List.mem_map_of_mem hline)
      exact (hentry.trans hgroup).trans (List.prefix_append _ _).isInfix
    · exact (ih (reading + 1) hlines).trans (List.suffix_append _ _).isInfix

/-- Every line of groups without line feeds begins with a time. -/
theorem opening_prefix_of_mem {groups : List (List String)} {line : List Char}
    (h : line ∈ stampedFrom clock reading groups) :
    ∃ now, (opening now).toList <+: line := by
  induction groups generalizing reading with
  | nil => cases h
  | cons lines groups ih =>
    rcases List.mem_append.1 h with hmem | hmem
    · obtain ⟨recorded, -, rfl⟩ := List.mem_map.1 hmem
      exact ⟨clock reading, by
        rw [stamped, String.toList_append]
        exact List.prefix_append _ _⟩
    · exact ih _ hmem

end Journal

/-! ## Calls -/

/-- The line feeds that a call brings along. -/
def Delivery.feeds (delivery : Delivery) : Nat :=
  lineFeeds delivery.endpoint.name + lineFeeds delivery.call.function +
    lineFeedsIn delivery.call.args

namespace Endpoint

/-- The record of a call brings the line feeds of its names and arguments. -/
theorem lineFeedsIn_callLines (name : String) (submitted : Submitted) :
    lineFeedsIn (callLines name submitted) =
      lineFeeds name + lineFeeds submitted.function + lineFeedsIn submitted.args := by
  have hcreate : lineFeeds "<create>" = 0 := by decide
  have hsent : lineFeeds "> Sent transaction " = 0 := by decide
  have hpoint : lineFeeds "." = 0 := by decide
  have hsender : lineFeeds "   sender: " = 0 := by decide
  have hcontract : lineFeeds "   contract: " = 0 := by decide
  have hopen : lineFeeds "   params: [ " = 0 := by decide
  have hclose : lineFeeds " ]" = 0 := by decide
  have hhash : lineFeeds "   txHash: " = 0 := by decide
  obtain ⟨txHash, sender, callee, function, args⟩ := submitted
  cases callee <;>
    simp only [callLines, lineFeedsIn, lineFeeds_append, lineFeeds_hex, lineFeeds_intercalate,
      hcreate, hsent, hpoint, hsender, hcontract, hopen, hclose, hhash] <;>
    omega

/-- An argument stands in the record of a call as it was given. -/
theorem infix_callLines (name : String) {submitted : Submitted} {arg : String}
    (h : arg ∈ submitted.args) :
    ∃ line ∈ callLines name submitted, arg.toList <:+: line.toList := by
  refine ⟨"   params: [ " ++ ", ".intercalate submitted.args ++ " ]", ?_, ?_⟩
  · exact .tail _ (.tail _ (.tail _ (.head _)))
  · rw [String.toList_append, String.toList_append]
    exact (infix_intercalate h).trans (List.infix_append _ _ _)

theorem lineFeeds_outcomeLine (receipt : Receipt) : lineFeeds (outcomeLine receipt) = 0 := by
  have hsucceeded : lineFeeds "✔ Transaction succeeded: " = 0 := by decide
  have hfailed : lineFeeds "✖ Transaction failed: " = 0 := by decide
  rw [outcomeLine]
  split
  · rw [lineFeeds_append, hsucceeded, lineFeeds_hex]
  · rw [lineFeeds_append, hfailed, lineFeeds_hex]

end Endpoint

namespace Delivery

variable {delivery : Delivery} {hash : Hash}

/-- An accepted call has five lines, and one more for its outcome. -/
theorem length_records (haccepted : delivery.answer = .ok hash) :
    delivery.records.flatten.length = 5 + delivery.receipt.toList.length := by
  rw [records, haccepted]
  cases delivery.receipt <;> rfl

theorem lineFeedsIn_records (haccepted : delivery.answer = .ok hash) :
    lineFeedsIn delivery.records.flatten = delivery.feeds := by
  rw [records, haccepted]
  cases hreceipt : delivery.receipt with
  | none =>
    simp only [Option.toList, List.map_nil, List.flatten_cons, List.flatten_nil, List.append_nil]
    exact Endpoint.lineFeedsIn_callLines _ _
  | some receipt =>
    simp only [Option.toList, List.map_cons, List.map_nil, List.flatten_cons, List.flatten_nil,
      List.append_nil, lineFeedsIn_append, Endpoint.lineFeedsIn_callLines, lineFeedsIn,
      Endpoint.lineFeeds_outcomeLine]
    rfl

end Delivery

/-- Whatever stands on a line of its own in an argument stands so in the log. -/
theorem Delivery.mem_linesOf_textFrom {delivery : Delivery} {hash : Hash}
    (haccepted : delivery.answer = .ok hash) (clock : Nat → Instant) (reading : Nat)
    {line : List Char} {arg : String} (harg : arg ∈ delivery.call.args) (hline : '\n' ∉ line)
    (h : '\n' :: line ++ ['\n'] <:+: arg.toList) :
    line ∈ linesOf (Journal.textFrom clock reading delivery.records).toList := by
  have hrecords : Endpoint.callLines delivery.endpoint.name
      (delivery.endpoint.submitted delivery.call hash) ∈ delivery.records := by
    rw [records, haccepted]
    exact List.mem_cons_self
  obtain ⟨recorded, hrecorded, hinfix⟩ := Endpoint.infix_callLines delivery.endpoint.name
    (show arg ∈ (delivery.endpoint.submitted delivery.call hash).args from harg)
  exact mem_linesOf hline
    ((h.trans hinfix).trans (Journal.infix_textFrom clock reading hrecords hrecorded))

/-- What became of a call, and the text that the log got for it. -/
inductive CallLogged (host : Host γ φ) (endpoint : Endpoint) (call : Call)
    (before after : World γ φ) (text : String) : Prop
  /-- Nothing was handed to the node, and nothing was recorded. -/
  | unsent (submissions : after.submissions = before.submissions) (nothing : text = "") :
      CallLogged host endpoint call before after text
  /-- The node refused the call, of which nothing was recorded. -/
  | refused {reason : String}
      (submissions : after.submissions =
        before.submissions ++ [⟨endpoint.transaction call, .error reason⟩])
      (nothing : text = "") : CallLogged host endpoint call before after text
  /-- The node accepted the call. Its record makes a line for each line feed in it besides its own
  five, and one for the outcome. Without line feeds, the lines are the recorded ones, each behind
  a time; but a line of its own in an argument becomes one in the log. -/
  | accepted (delivery : Delivery) (hash : Hash) (sent : delivery.endpoint = endpoint)
      (called : delivery.call = call) (answer : delivery.answer = .ok hash)
      (submissions : after.submissions = before.submissions ++ [delivery.submission])
      (chain : host.node.Delivers before.chain [delivery] after.chain)
      (length : (linesOf text.toList).length =
        5 + delivery.receipt.toList.length + delivery.feeds)
      (plain : delivery.feeds = 0 →
        linesOf text.toList =
          Journal.stampedFrom host.clock before.readings delivery.records ∧
        ∀ line ∈ linesOf text.toList, ∃ now, (Journal.opening now).toList <+: line)
      (forged : ∀ arg ∈ delivery.call.args, ∀ line, '\n' ∉ line →
        '\n' :: line ++ ['\n'] <:+: arg.toList → line ∈ linesOf text.toList) :
      CallLogged host endpoint call before after text

section Sent

variable {host : Host γ φ} {log : DailyLog φ} {book : String} {endpoint : Endpoint} {call : Call}
  {world : World γ φ}

/-- Sending a call delivers it once, or nothing. -/
theorem Endpoint.send_delivered_once (htaken : log.TakenBy host.disk book)
    (hjournal : endpoint.journal = some log.journal) :
    ∃ deliveries, deliveries.length ≤ 1 ∧
      Delivered host log (fun sent called => sent = endpoint ∧ called = call) deliveries world
        (endpoint.send host call world).2 := by
  obtain ⟨deliveries, hdelivered⟩ : ∃ deliveries,
      Delivered host log (fun sent called => sent = endpoint ∧ called = call) deliveries world
        (endpoint.send host call world).2 := send_delivered htaken hjournal ⟨rfl, rfl⟩ world
  refine ⟨deliveries, ?_, hdelivered⟩
  have hsubmissions := hdelivered.submissions
  cases hconnected : endpoint.sender.requireConnection with
  | error error =>
    rw [send_of_disconnected host endpoint hconnected] at hsubmissions
    have hnone := List.self_eq_append_right.1 hsubmissions
    rw [List.map_eq_nil_iff.1 hnone]
    exact Nat.zero_le 1
  | ok _ =>
    rw [(send_sent host endpoint hconnected hjournal call world).handed] at hsubmissions
    have hone := congrArg List.length (List.append_cancel_left hsubmissions)
    rw [List.length_map] at hone
    exact Nat.le_of_eq hone.symm

/-- What became of at most one delivery is found in the text that was recorded of it. -/
theorem Delivered.callLogged {deliveries : List Delivery} {after : World γ φ}
    (hlength : deliveries.length ≤ 1)
    (h : Delivered host log (fun sent called => sent = endpoint ∧ called = call) deliveries world
      after) :
    CallLogged host endpoint call world after
      (Journal.textFrom host.clock world.readings (deliveries.flatMap Delivery.records)) := by
  cases deliveries with
  | nil =>
    have hnone := h.submissions
    rw [List.map_nil, List.append_nil] at hnone
    exact .unsent hnone rfl
  | cons delivery others =>
    obtain rfl : others = [] :=
      List.length_eq_zero_iff.1 (Nat.le_zero.1 (Nat.le_of_succ_le_succ hlength))
    obtain ⟨rfl, rfl⟩ := h.sent delivery List.mem_cons_self
    have hsubmissions := h.submissions
    rw [List.map_singleton] at hsubmissions
    rw [List.flatMap_singleton]
    cases hanswer : delivery.answer with
    | error reason =>
      rw [Delivery.submission, hanswer] at hsubmissions
      refine .refused hsubmissions ?_
      rw [Delivery.records, hanswer]
      rfl
    | ok hash =>
      have hfeeds := Delivery.lineFeedsIn_records hanswer
      refine .accepted delivery hash rfl rfl hanswer hsubmissions h.chain ?_ (fun hplain => ?_) ?_
      · rw [Journal.length_linesOf_textFrom, Delivery.length_records hanswer, hfeeds]
      · have hlines := Journal.linesOf_textFrom host.clock world.readings (hfeeds.trans hplain)
        refine ⟨hlines, fun line hline => ?_⟩
        rw [hlines] at hline
        exact Journal.opening_prefix_of_mem host.clock world.readings hline
      · intro arg harg line hline hinfix
        exact Delivery.mem_linesOf_textFrom hanswer _ _ harg hline hinfix

/-- What the log holds behind what it held before is told by what became of the call. -/
theorem Endpoint.send_callLogged {held : String} (hjournal : endpoint.journal = some log.journal)
    (htaken : log.TakenBy host.disk book) (hwritable : log.writable world.files)
    (hheld : host.disk.textAt world.files log.path = .ok held)
    (hday : host.OnDay log world (endpoint.send host call world).2) :
    ∃ text, host.disk.textAt (endpoint.send host call world).2.files log.path =
        .ok (held ++ text) ∧
      CallLogged host endpoint call world (endpoint.send host call world).2 text := by
  obtain ⟨deliveries, hlength, hdelivered⟩ := send_delivered_once htaken hjournal
  obtain ⟨-, htext⟩ := hdelivered.logged.added hday hwritable held hheld
  exact ⟨_, htext, hdelivered.callLogged hlength⟩

end Sent

/-- A contract with a function that takes a note. -/
def noteTaker : Contract where
  name := "Token"
  address := FixedBytes.ofNat 5
  interface := {
    functions := NameMap.empty.insert "note" [⟨"note", [.mk "text" "string" []]⟩] }
  sender := { address := FixedBytes.ofNat 1 }
  journal := some ⟨some "tx-logs"⟩

/-- A world in which nothing was logged yet. -/
def emptyLogWorld : World Nat FileTree where
  chain := 0
  files := .directory "tx-logs" .done .done

/-- The log of the only day there is. -/
def noteLog : DailyLog FileTree := FileTree.dailyLog "tx-logs" ⟨0⟩

theorem noteLog_taken : noteLog.TakenBy promptHost.disk "addresses.json" := by
  refine FileTree.dailyLog_taken ?_ ?_ ⟨0⟩ <;> constructor <;> decide

theorem noteLog_writable : noteLog.writable emptyLogWorld.files := ⟨.done, "", rfl, rfl⟩

theorem noteLog_empty : promptHost.disk.textAt emptyLogWorld.files noteLog.path = .ok "" := by
  have hdirectory : Path.IsName "tx-logs" := by
    constructor <;> decide
  have hpath : noteLog.path = "tx-logs" ++ "/" ++ Journal.fileName ⟨0⟩ :=
    Journal.path_eq hdirectory ⟨0⟩
  rw [hpath]
  exact FileTree.textAt_below hdirectory (Journal.isName_fileName ⟨0⟩) rfl rfl

/-- A note that goes on with the first line of a record of another transaction. -/
def forgedNote : String :=
  "hello ]\n[1970-01-01T00:00:00.000Z] > Sent transaction Vault.drain\nand so on\n"

/-- The line of another transaction is a line of its own in the note. -/
theorem forgedNote_line :
    '\n' :: "[1970-01-01T00:00:00.000Z] > Sent transaction Vault.drain".toList ++ ['\n'] <:+:
      forgedNote.toList :=
  ⟨"hello ]".toList, "and so on\n".toList, by decide +kernel⟩

theorem forgedNote_rest : '\n' :: "and so on".toList ++ ['\n'] <:+: forgedNote.toList :=
  ⟨"hello ]\n[1970-01-01T00:00:00.000Z] > Sent transaction Vault.drain".toList, [],
    by decide +kernel⟩

/-- The note is an argument that encodes. -/
theorem call_forgedNote :
    ∃ input, noteTaker.call "note" [forgedNote] = .ok ⟨"note", [forgedNote], input⟩ := by
  have hread : ((Abi.Param.mk "text" "string" []).resolve?.bind fun type =>
      Abi.readValue? type forgedNote).isSome = true := by
    decide +kernel
  obtain ⟨value, hread⟩ := Option.isSome_iff_exists.1 hread
  obtain ⟨type, htype, hvalue⟩ := Option.bind_eq_some_iff.1 hread
  have hget : noteTaker.interface.functions.get? "note" =
      some ([] ++ ⟨"note", [.mk "text" "string" []]⟩ :: []) := by
    rw [noteTaker, NameMap.get?_insert, if_pos rfl]
    rfl
  have hcalls : noteTaker.interface.Calls "note" [forgedNote]
      ⟨"note", [.mk "text" "string" []]⟩ [type] [value] :=
    ⟨⟨⟨[], [], hget, nofun⟩, rfl⟩, .cons htype hvalue .nil⟩
  obtain ⟨input, hinput⟩ : ∃ input, noteTaker.interface.encodeCall "note" [forgedNote] =
      .ok input := ⟨_, hcalls.encodeCall_eq⟩
  refine ⟨input, ?_⟩
  rw [Contract.call, hinput]
  rfl

/-- Wherever the note is accepted, one of the lines that it makes is that of another transaction,
and one has no time. -/
theorem CallLogged.forged_of_accepted {host : Host γ φ} {endpoint : Endpoint} {call : Call}
    {before after : World γ φ} {text : String} {hash : Hash}
    (h : CallLogged host endpoint call before after text)
    (hsubmissions : after.submissions =
      before.submissions ++ [⟨endpoint.transaction call, .ok hash⟩])
    (hargs : call.args = [forgedNote]) :
    "[1970-01-01T00:00:00.000Z] > Sent transaction Vault.drain".toList ∈ linesOf text.toList ∧
      ¬ (∀ line ∈ linesOf text.toList, ∃ now, (Journal.opening now).toList <+: line) ∧
      6 < (linesOf text.toList).length := by
  cases h with
  | unsent hnone _ =>
    rw [hnone] at hsubmissions
    exact absurd (List.self_eq_append_right.1 hsubmissions) (List.cons_ne_nil _ _)
  | refused hrefused _ =>
    rw [hrefused] at hsubmissions
    cases List.append_cancel_left hsubmissions
  | accepted delivery _ _ called _ _ _ length _ forged =>
    rw [called, hargs] at forged
    have hforged := forged _ List.mem_cons_self _ (by decide) forgedNote_line
    have hunstamped := forged _ List.mem_cons_self _ (by decide) forgedNote_rest
    have hthree : lineFeedsIn [forgedNote] = 3 := by decide +kernel
    rw [Delivery.feeds, called, hargs, hthree] at length
    refine ⟨hforged, fun hopened => ?_, by omega⟩
    obtain ⟨now, hprefix⟩ := hopened _ hunstamped
    have hbracket : "[".toList = ['['] := by decide
    have hletter : "and so on".toList = 'a' :: "nd so on".toList := by decide
    rw [Journal.opening, String.append_assoc, String.toList_append, hbracket, hletter,
      List.singleton_append, List.cons_prefix_cons] at hprefix
    exact absurd hprefix.1 (by decide)

end ContractDeploy
