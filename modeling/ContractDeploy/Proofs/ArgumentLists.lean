import ContractDeploy.CommandLine
import ContractDeploy.Proofs.Runs

/-!
# Argument lists on the command line

An option that takes any number of values takes every following word that looks like a value, up to
the first that looks like an option. A word that begins with a hyphen looks like one, whatever
stands behind the hyphen; so a list of arguments passes through the command line if all of them are
values, and a negative number among them ends it: where no option is of that name, the whole line is
refused.
-/

namespace ContractDeploy

/-! ## Words -/

/-- A word that is taken for a value: it does not begin with a hyphen, unless it is nothing else. -/
def IsValue (word : String) : Prop := word.toList.head? = some '-' → word = "-"

instance (word : String) : Decidable (IsValue word) := inferInstanceAs (Decidable (_ → _))

/-- What is no value has a hyphen with something behind it. -/
theorem isValue_iff {word : String} :
    IsValue word ↔ ∀ letter letters, word.toList ≠ '-' :: letter :: letters := by
  constructor
  · intro h letter letters hletters
    have hhead : word.toList.head? = some '-' := by
      rw [hletters]
      rfl
    rw [h hhead] at hletters
    cases hletters
  · intro h hhead
    cases hletters : word.toList with
    | nil =>
      rw [hletters] at hhead
      cases hhead
    | cons first rest =>
      rw [hletters] at hhead
      cases hhead
      cases rest with
      | nil => exact String.toList_inj.1 hletters
      | cons letter letters => exact absurd hletters (h letter letters)

namespace LineForm

/-- A word is spelled like an option: its long name behind two hyphens, alone or with a value behind
an equals sign, or its letter behind one hyphen, with whatever follows. -/
inductive Spells (form : LineForm) (word : String) : Prop
  | long (option : OptionForm) (h : option ∈ form.options) (behind : List Char)
      (attached : ∀ first ∈ behind.head?, first = '=')
      (spelled : word.toList = '-' :: '-' :: (option.long.toList ++ behind))
  | short (option : OptionForm) (h : option ∈ form.options) (letter : Char) (behind : List Char)
      (named : option.short = some letter) (spelled : word.toList = '-' :: letter :: behind)

/-- What a word makes of the options that were given before it, if it is neither a command nor two
hyphens. -/
def readWord (form : LineForm) (state : OptionScan) (word : String) :
    Except UsageFault OptionScan :=
  match word.toList with
  | '-' :: '-' :: text => state.takeLong form text
  | '-' :: letter :: letters => state.takeShort form (letter :: letters)
  | _ => if state.isOpen then .ok (state.push word) else .error form.strayFault

variable {form : LineForm} {state last : OptionScan} {word : String} {rest : List String}

theorem readWord_of_long {text : List Char} (h : word.toList = '-' :: '-' :: text) :
    form.readWord state word = state.takeLong form text := by
  rw [readWord, h]
  rfl

theorem readWord_of_short {letter : Char} {letters : List Char} (hletter : letter ≠ '-')
    (h : word.toList = '-' :: letter :: letters) :
    form.readWord state word = state.takeShort form (letter :: letters) := by
  rw [readWord, h]
  split
  · next heq =>
    cases heq
    exact absurd rfl hletter
  · next heq =>
    cases heq
    rfl
  · next hnot => exact absurd rfl (hnot letter letters)

/-- A value goes to the option that is still open. -/
theorem readWord_of_isValue (h : IsValue word) :
    form.readWord state word =
      if state.isOpen then .ok (state.push word) else .error form.strayFault := by
  have hnot := isValue_iff.1 h
  rw [readWord]
  split
  · next text heq => exact absurd heq (hnot '-' text)
  · next letter letters _ heq => exact absurd heq (hnot letter letters)
  · rfl

/-! ## Words one after the other -/

/-- A line is read word by word, up to a command or two hyphens. -/
theorem scan_cons (form : LineForm) (state : OptionScan) (word : String) (rest : List String) :
    form.scan state (word :: rest) =
      if !state.isOpen && word ∈ form.commands then .ok (state, some (word, rest))
      else if word = "--" then (form.afterDashes rest).map fun _ => (state, none)
      else form.readWord state word >>= fun next => form.scan next rest := by
  have hdashes : word = "--" ↔ word.toList = ['-', '-'] :=
    ⟨fun h => by rw [h]; rfl, fun h => String.toList_inj.1 h⟩
  rw [scan]
  split
  · rfl
  simp only [hdashes]
  split
  · next heq =>
    rw [if_pos heq]
    cases form.afterDashes rest <;> rfl
  · next hmore heq =>
    have hnot : ¬ word.toList = ['-', '-'] := by
      rw [heq]
      intro hnone
      cases hnone
      exact hmore rfl
    rw [if_neg hnot, readWord_of_long heq]
  · next hletter heq =>
    have hnot : ¬ word.toList = ['-', '-'] := by
      rw [heq]
      intro hnone
      cases hnone
      exact hletter rfl
    rw [if_neg hnot, readWord_of_short hletter heq]
  · next hnot _ hshort =>
    rw [if_neg hnot, readWord_of_isValue (isValue_iff.2 hshort)]
    split <;> rfl

section Front

variable {front : List String} {name found : String} {words : List String}

/-- A line whose last word is read as a command can have another command in its place, with words
behind it. Otherwise a word before the last was read as a command. -/
theorem scan_front (h : form.scan state (front ++ [name]) = .ok (last, some (found, words))) :
    (found = name ∧ words = [] ∧ ∀ other ∈ form.commands, ∀ rest,
      form.scan state (front ++ other :: rest) = .ok (last, some (other, rest))) ∨
    ∃ behind, words = behind ++ [name] := by
  induction front generalizing state with
  | nil =>
    rw [List.nil_append, scan_cons] at h
    split at h
    · next hcommand =>
      cases h
      refine .inl ⟨rfl, rfl, fun other hother rest => ?_⟩
      have hother : (!last.isOpen && other ∈ form.commands) = true := by
        rw [(Bool.and_eq_true_iff.1 hcommand).1, Bool.true_and]
        exact decide_eq_true hother
      rw [List.nil_append, scan_cons, if_pos hother]
    split at h
    · cases h
    · obtain ⟨next, -, h⟩ := Except.bind_eq_ok h
      cases h
  | cons word front ih =>
    rw [List.cons_append, scan_cons] at h
    split at h
    · cases h
      exact .inr ⟨front, rfl⟩
    · next hcommand =>
      split at h
      · obtain ⟨_, -, h⟩ := Except.map_eq_ok h
        cases h
      · next hdashes =>
        obtain ⟨next, hread, h⟩ := Except.bind_eq_ok h
        rcases ih h with ⟨hfound, hwords, hothers⟩ | hbehind
        · refine .inl ⟨hfound, hwords, fun other hother rest => ?_⟩
          rw [List.cons_append, scan_cons, if_neg hcommand, if_neg hdashes, hread]
          exact hothers other hother rest
        · exact .inr hbehind

end Front

/-! ## The words of a command -/

section Command

theorem scan_cons_of_noCommands (hcommands : form.commands = []) (hdashes : word ≠ "--") :
    form.scan state (word :: rest) =
      form.readWord state word >>= fun next => form.scan next rest := by
  rw [scan_cons, if_neg (by simp [hcommands]), if_neg hdashes]

/-- A word that begins or ends an option is passed. -/
theorem scan_of_readWord (hcommands : form.commands = []) (hdashes : word ≠ "--")
    {next : OptionScan} (h : form.readWord state word = .ok next) (rest : List String) :
    form.scan state (word :: rest) = form.scan next rest := by
  rw [scan_cons_of_noCommands hcommands hdashes, h]
  rfl

theorem scan_value (hcommands : form.commands = []) (h : IsValue word) :
    form.scan state (word :: rest) =
      if state.isOpen then form.scan (state.push word) rest else .error form.strayFault := by
  have hdashes : word ≠ "--" := by
    rintro rfl
    exact absurd h (by decide)
  rw [scan_cons_of_noCommands hcommands hdashes, readWord_of_isValue h]
  split <;> rfl

/-- Values are collected by an option that takes any number of them. -/
theorem scan_values (hcommands : form.commands = []) {option : OptionForm}
    (hmany : option.arity = .many) (given : List (String × List String)) {values : List String}
    (hvalues : ∀ value ∈ values, IsValue value) (held rest : List String) :
    form.scan ⟨given, some (option, held)⟩ (values ++ rest) =
      form.scan ⟨given, some (option, held ++ values)⟩ rest := by
  induction values generalizing held with
  | nil => rw [List.nil_append, List.append_nil]
  | cons value values ih =>
    obtain ⟨hvalue, hvalues⟩ := List.forall_mem_cons.1 hvalues
    have hopen : OptionScan.isOpen ⟨given, some (option, held)⟩ = true := by
      simp only [OptionScan.isOpen, OptionForm.takesMore, hmany]
    have hpush : OptionScan.push ⟨given, some (option, held)⟩ value =
        ⟨given, some (option, held ++ [value])⟩ := rfl
    rw [List.cons_append, scan_value hcommands hvalue, if_pos hopen, hpush, ih hvalues,
      List.append_assoc, List.singleton_append]

theorem strayFault_eq (hcommands : form.commands = []) : form.strayFault = .unknownArgument := by
  rw [strayFault, hcommands]
  rfl

/-- Two hyphens end the options, and behind them nothing is asked for. -/
theorem scan_dashes (hcommands : form.commands = []) (state : OptionScan) (rest : List String) :
    form.scan state ("--" :: rest) =
      if rest = [] then .ok (state, none) else .error .unknownArgument := by
  rw [scan_cons, if_neg (by simp [hcommands]), if_pos rfl]
  cases rest with
  | nil => rfl
  | cons word rest =>
    have hstop : form.afterDashes (word :: rest) = .error .unknownArgument := by
      rw [afterDashes, hcommands, if_neg List.not_mem_nil, strayFault_eq hcommands]
    rw [hstop, if_neg (List.cons_ne_nil word rest)]
    rfl

theorem takeLong_of_not_spells {text : List Char} (hword : word.toList = '-' :: '-' :: text)
    (h : ¬ form.Spells word) (state : OptionScan) :
    state.takeLong form text = .error .unknownArgument := by
  have hnone : form.options.find? (fun option =>
      option.long = String.ofList (text.takeWhile (· ≠ '='))) = none := by
    refine List.find?_eq_none.2 fun option hoption hlong => h ?_
    have hname : option.long.toList = text.takeWhile (· ≠ '=') := by
      rw [of_decide_eq_true hlong, String.toList_ofList]
    refine .long option hoption (text.dropWhile (· ≠ '=')) ?_ ?_
    · intro first hfirst
      have hstop := List.head?_dropWhile_not (· ≠ '=') text
      rw [hfirst] at hstop
      simpa using hstop
    · rw [hname, List.takeWhile_append_dropWhile, hword]
  rw [OptionScan.takeLong]
  simp only [hnone]

theorem takeShort_of_not_spells {letter : Char} {letters : List Char}
    (hword : word.toList = '-' :: letter :: letters) (h : ¬ form.Spells word)
    (state : OptionScan) :
    state.takeShort form (letter :: letters) = .error .unknownArgument := by
  have hnone : form.options.find? (fun option => option.short = some letter) = none := by
    refine List.find?_eq_none.2 fun option hoption hshort => h ?_
    exact .short option hoption letter letters (of_decide_eq_true hshort) hword
  rw [OptionScan.takeShort, hnone]

/-- A word that looks like an option and is spelled like none is not accepted. -/
theorem readWord_of_not_spells (hvalue : ¬ IsValue word) (hspells : ¬ form.Spells word) :
    form.readWord state word = .error .unknownArgument := by
  rw [isValue_iff] at hvalue
  obtain ⟨letter, hsome⟩ := Classical.not_forall.1 hvalue
  obtain ⟨letters, hsame⟩ := Classical.not_forall.1 hsome
  have hletters : word.toList = '-' :: letter :: letters := Classical.not_not.1 hsame
  by_cases hletter : letter = '-'
  · subst hletter
    rw [readWord_of_long hletters, takeLong_of_not_spells hletters hspells]
  · rw [readWord_of_short hletter hletters, takeShort_of_not_spells hletters hspells]

end Command

end LineForm

/-! ## Commands with a list of arguments -/

namespace CommandLine

/-- The form of a command's own part of the line. -/
def commandForm (name : String) : LineForm := { options := commandOptions name }

/-- What the options of a command come to at the end of the line. -/
def closeCommand (name : String) (state : OptionScan) : Except UsageFault Command := do
  let state ← state.settle
  if state.lacksOption (commandForm name) then throw .missingOption
  return commandOf name state

theorem readCommand_eq {name : String} (hname : name ≠ "help") (words : List String) :
    readCommand name words =
      (commandForm name).scan {} words >>= fun result => closeCommand name result.1 := by
  rw [readCommand, if_neg hname]
  rfl

/-- A command that takes a list of arguments behind these words: they leave the option that lists
arguments open, with nothing wanting. -/
structure TakesArguments (name : String) (words : List String) (command : List String → Command) :
    Prop where
  known : name ∈ mainForm.commands
  noHelp : name ≠ "help"
  opened : ∃ given, (∀ args, (commandForm name).scan {} (words ++ args) =
      (commandForm name).scan ⟨given, some (argsOption, [])⟩ args) ∧
    ∀ values, closeCommand name ⟨given, some (argsOption, values)⟩ = .ok (command values)

/-- An option that takes one value is followed by it. -/
theorem scan_option {form : LineForm} {state : OptionScan} {word value : String}
    (option : OptionForm) (given : List (String × List String)) (hcommands : form.commands = [])
    (hdashes : word ≠ "--") (hone : option.arity = .one)
    (h : form.readWord state word = .ok ⟨given, some (option, [])⟩) (hvalue : IsValue value)
    (rest : List String) :
    form.scan state (word :: value :: rest) = form.scan ⟨given, some (option, [value])⟩ rest := by
  have hopen : OptionScan.isOpen ⟨given, some (option, [])⟩ = true := by
    simp only [OptionScan.isOpen, OptionForm.takesMore, hone]
    rfl
  rw [LineForm.scan_of_readWord hcommands hdashes h, LineForm.scan_value hcommands hvalue,
    if_pos hopen]
  rfl

theorem takesArguments_call {contract function : String} (hcontract : IsValue contract)
    (hfunction : IsValue function) :
    TakesArguments "call" ["--contract", contract, "--function", function, "--args"]
      (.call contract function) := by
  refine ⟨by decide, by decide, [("function", [function]), ("contract", [contract])],
    fun args => ?_, fun values => rfl⟩
  show (commandForm "call").scan {} ("--contract" :: contract :: "--function" :: function ::
    "--args" :: args) = _
  rw [scan_option contractOption [] rfl (by decide) rfl rfl hcontract,
    scan_option { long := "function", short := some 'f', required := true }
      [("contract", [contract])] rfl (by decide) rfl rfl hfunction]
  exact LineForm.scan_of_readWord rfl (by decide) rfl args

theorem takesArguments_deploy {contract : String} (hcontract : IsValue contract) :
    TakesArguments "deploy" ["--contract", contract, "--args"] (.deploy contract) := by
  refine ⟨by decide, by decide, [("contract", [contract])], fun args => ?_, fun values => rfl⟩
  show (commandForm "deploy").scan {} ("--contract" :: contract :: "--args" :: args) = _
  rw [scan_option contractOption [] rfl (by decide) rfl rfl hcontract]
  exact LineForm.scan_of_readWord rfl (by decide) rfl args

section Read

variable {name : String} {words : List String} {command : List String → Command}
  {values : List String}

theorem TakesArguments.readCommand_append (h : TakesArguments name words command)
    (hvalues : ∀ value ∈ values, IsValue value) (rest : List String) :
    ∃ given, readCommand name (words ++ (values ++ rest)) =
        ((commandForm name).scan ⟨given, some (argsOption, values)⟩ rest >>= fun result =>
          closeCommand name result.1) ∧
      closeCommand name ⟨given, some (argsOption, values)⟩ = .ok (command values) := by
  obtain ⟨given, hopened, hclosed⟩ := h.opened
  refine ⟨given, ?_, hclosed values⟩
  rw [readCommand_eq h.noHelp, hopened, LineForm.scan_values rfl rfl given hvalues,
    List.nil_append]

/-- Values are the arguments of the command. -/
theorem TakesArguments.readCommand_values (h : TakesArguments name words command)
    (hvalues : ∀ value ∈ values, IsValue value) :
    readCommand name (words ++ values) = .ok (command values) := by
  obtain ⟨given, hread, hclosed⟩ := h.readCommand_append hvalues []
  rw [List.append_nil] at hread
  rw [hread]
  exact hclosed

/-- Two hyphens behind them are dropped. -/
theorem TakesArguments.readCommand_dashes (h : TakesArguments name words command)
    (hvalues : ∀ value ∈ values, IsValue value) :
    readCommand name (words ++ (values ++ ["--"])) = .ok (command values) := by
  obtain ⟨given, hread, hclosed⟩ := h.readCommand_append hvalues ["--"]
  rw [hread, LineForm.scan_dashes rfl, if_pos rfl]
  exact hclosed

/-- A word that looks like an option and is spelled like none is not passed over. -/
theorem TakesArguments.readCommand_refused (h : TakesArguments name words command)
    (hvalues : ∀ value ∈ values, IsValue value) {word : String} {rest : List String}
    (hvalue : ¬ IsValue word) (hspells : ¬ (commandForm name).Spells word)
    (hmore : word = "--" → rest ≠ []) :
    readCommand name (words ++ (values ++ word :: rest)) = .error .unknownArgument := by
  obtain ⟨given, hread, -⟩ := h.readCommand_append hvalues (word :: rest)
  rw [hread]
  by_cases hdashes : word = "--"
  · rw [hdashes, LineForm.scan_dashes rfl, if_neg (hmore hdashes)]
    rfl
  · rw [LineForm.scan_cons_of_noCommands rfl hdashes,
      LineForm.readWord_of_not_spells hvalue hspells]
    rfl

end Read

/-! ## The whole line -/

/-- The command that tells the latest block accepts no word. -/
theorem readWord_block_ne_ok (word : String) (next : OptionScan) :
    (commandForm "block").readWord {} word ≠ .ok next := by
  -- The only option asks for help, which is a fault, with a value attached as well.
  have hhelp (option : OptionForm) (attached : Option String)
      (hoption : option ∈ (commandForm "block").options) :
      OptionScan.start {} option attached ≠ .ok next := by
    cases List.mem_singleton.1 hoption
    cases attached <;> nofun
  intro h
  rw [LineForm.readWord] at h
  split at h
  · next text _ =>
    rw [OptionScan.takeLong] at h
    split at h
    · cases h
    · next option hfind => exact hhelp option _ (List.mem_of_find?_eq_some hfind) h
  · next letter letters _ _ =>
    rw [OptionScan.takeShort] at h
    split at h
    · cases h
    · next option hfind =>
      have hmember := List.mem_of_find?_eq_some hfind
      cases List.mem_singleton.1 hmember
      obtain ⟨started, hstart, -⟩ := Except.bind_eq_ok h
      cases hstart
  · cases h

/-- A command that is read from its name and some words as telling the latest block has no other
words, unless they are two hyphens. -/
theorem readCommand_eq_block {name : String} {words : List String}
    (h : readCommand name words = .ok .block) : name = "block" ∧ (words = [] ∨ words = ["--"]) := by
  have hname : name ≠ "help" := by
    rintro rfl
    cases h
  rw [readCommand_eq hname] at h
  obtain ⟨result, hscan, hclosed⟩ := Except.bind_eq_ok h
  obtain ⟨state, -, hclosed⟩ := Except.bind_eq_ok hclosed
  have hblock : name = "block" := by
    split at hclosed
    · cases hclosed
    · have hcommand := Except.ok.inj hclosed
      unfold commandOf at hcommand
      split at hcommand
      all_goals first | rfl | cases hcommand
  subst hblock
  refine ⟨rfl, ?_⟩
  cases words with
  | nil => exact .inl rfl
  | cons word rest =>
    by_cases hdashes : word = "--"
    · subst hdashes
      rw [LineForm.scan_dashes rfl] at hscan
      split at hscan
      · next hrest => exact .inr (by rw [hrest])
      · cases hscan
    · rw [LineForm.scan_cons_of_noCommands rfl hdashes] at hscan
      obtain ⟨next, hread, -⟩ := Except.bind_eq_ok hscan
      exact absurd hread (readWord_block_ne_ok word next)

/-- What the options in front of a command come to once the command was read. -/
def closeLine (environment : String → Option String) (state : OptionScan)
    (command : Option Command) : Except UsageFault CommandLine := do
  let state ← state.settle
  let state ← state.addEnvironment environment mainForm.options
  match command with
  | none => throw (if state.given.isEmpty then .nothingGiven else .noCommand)
  | some command =>
    if state.lacksOption mainForm then throw .missingOption
    return {
      privateKey := valueOf state "pkey" ""
      nodeUrl := valueOf state "rpc-url" ""
      locations := locationsOf state
      command }

theorem parse_eq (environment : String → Option String) (words : List String) :
    parse environment words = (do
      let (state, rest) ← mainForm.scan {} words
      let command ← rest.mapM fun (name, words) => readCommand name words
      closeLine environment state command) := rfl

/-- The command is put into the line as it is. -/
theorem closeLine_eq_ok {environment : String → Option String} {state : OptionScan}
    {command : Command} {line : CommandLine}
    (h : closeLine environment state (some command) = .ok line) :
    line.command = command ∧ ∀ other, closeLine environment state (some other) =
      .ok { line with command := other } := by
  obtain ⟨settled, hsettle, h⟩ := Except.bind_eq_ok h
  obtain ⟨added, hadd, h⟩ := Except.bind_eq_ok h
  dsimp only at h
  split at h
  · cases h
  · next hthere =>
    cases h
    refine ⟨rfl, fun other => ?_⟩
    rw [closeLine, hsettle]
    show (settled.addEnvironment environment mainForm.options >>= _) = _
    rw [hadd]
    show (if added.lacksOption mainForm then _ else _) = _
    rw [if_neg hthere]
    rfl

/-- A line with options in front of a command is read as its command is. -/
theorem parse_front {environment : String → Option String} {front : List String}
    {line : CommandLine} (h : parse environment (front ++ ["block"]) = .ok line)
    (hblock : line.command = .block) {name : String} (hname : name ∈ mainForm.commands)
    (words : List String) :
    parse environment (front ++ name :: words) =
      (readCommand name words).map fun command => { line with command } := by
  rw [parse_eq] at h
  obtain ⟨⟨state, rest⟩, hscan, h⟩ := Except.bind_eq_ok h
  obtain ⟨command, hcommand, hclose⟩ := Except.bind_eq_ok h
  cases rest with
  | none =>
    cases hcommand
    obtain ⟨settled, -, hclose⟩ := Except.bind_eq_ok hclose
    obtain ⟨added, -, hclose⟩ := Except.bind_eq_ok hclose
    cases hclose
  | some found =>
    obtain ⟨foundName, foundWords⟩ := found
    obtain ⟨read, hread, hsome⟩ := Except.map_eq_ok (f := some) hcommand
    subst hsome
    obtain ⟨hsame, hothers⟩ := closeLine_eq_ok hclose
    rw [← hsame, hblock] at hread
    obtain ⟨-, hwords⟩ := readCommand_eq_block hread
    rcases LineForm.scan_front hscan with ⟨-, -, hfront⟩ | ⟨behind, rfl⟩
    · rw [parse_eq, hfront name hname words]
      cases hcommand : readCommand name words with
      | error fault =>
        show ((readCommand name words >>= fun command => pure (some command)) >>= _) = _
        rw [hcommand]
        rfl
      | ok command =>
        show ((readCommand name words >>= fun command => pure (some command)) >>= _) = _
        rw [hcommand]
        exact hothers command
    · rcases hwords with hnone | hdashes
      · exact absurd hnone (List.append_ne_nil_of_right_ne_nil _ (List.cons_ne_nil _ _))
      · have hlast := congrArg List.getLast? hdashes
        rw [List.getLast?_concat] at hlast
        exact absurd (Option.some.inj hlast) (by decide)

/-- What becomes of a list of arguments at the end of a line. -/
structure PassesArguments (form : LineForm) (read : List String → Except UsageFault CommandLine)
    (line : List String → CommandLine) : Prop where
  /-- Values pass as they are. -/
  values : ∀ args, (∀ arg ∈ args, IsValue arg) → read args = .ok (line args)
  /-- Two hyphens behind them are lost. -/
  dashes : ∀ values, (∀ value ∈ values, IsValue value) → read (values ++ ["--"]) = .ok (line values)
  /-- Any other word that is no value is refused with the whole line, unless it is one of the
  options. -/
  refused : ∀ values word rest, (∀ value ∈ values, IsValue value) → ¬ IsValue word →
    ¬ form.Spells word → (word = "--" → rest ≠ []) →
    read (values ++ word :: rest) = .error .unknownArgument
  /-- So of the lists without options, those of values pass, and no others. -/
  exactly : ∀ args, (∀ arg ∈ args, ¬ form.Spells arg) →
    (read args = .ok (line args) ↔ ∀ arg ∈ args, IsValue arg)

theorem TakesArguments.passes {environment : String → Option String} {front : List String}
    {line : CommandLine} {name : String} {words : List String} {command : List String → Command}
    (h : TakesArguments name words command)
    (hcommand : ∀ args others, command args = command others → args = others)
    (hfront : parse environment (front ++ ["block"]) = .ok line) (hblock : line.command = .block) :
    PassesArguments (commandForm name)
      (fun args => parse environment (front ++ name :: (words ++ args)))
      fun args => { line with command := command args } := by
  have hvalues (args : List String) (hargs : ∀ arg ∈ args, IsValue arg) :
      parse environment (front ++ name :: (words ++ args)) =
        .ok { line with command := command args } := by
    rw [parse_front hfront hblock h.known, h.readCommand_values hargs]
    rfl
  have hdashes (values : List String) (hargs : ∀ value ∈ values, IsValue value) :
      parse environment (front ++ name :: (words ++ (values ++ ["--"]))) =
        .ok { line with command := command values } := by
    rw [parse_front hfront hblock h.known, h.readCommand_dashes hargs]
    rfl
  have hrefused (values : List String) (word : String) (rest : List String)
      (hargs : ∀ value ∈ values, IsValue value) (hword : ¬ IsValue word)
      (hspells : ¬ (commandForm name).Spells word) (hmore : word = "--" → rest ≠ []) :
      parse environment (front ++ name :: (words ++ (values ++ word :: rest))) =
        .error .unknownArgument := by
    rw [parse_front hfront hblock h.known, h.readCommand_refused hargs hword hspells hmore]
    rfl
  refine ⟨hvalues, hdashes, hrefused, fun args hspells => ⟨fun hread => ?_, hvalues args⟩⟩
  cases hfind : args.find? fun arg => !decide (IsValue arg) with
  | none =>
    intro arg harg
    have hvalue := List.find?_eq_none.1 hfind arg harg
    simpa using hvalue
  | some word =>
    -- The first word that is no value would be lost or refused.
    obtain ⟨hword, values, rest, rfl, hbefore⟩ := List.find?_eq_some_iff_append.1 hfind
    have hword : ¬ IsValue word := by simpa using hword
    have hbefore : ∀ value ∈ values, IsValue value := by
      intro value hvalue
      simpa using hbefore value hvalue
    by_cases hlast : word = "--" ∧ rest = []
    · obtain ⟨rfl, rfl⟩ := hlast
      rw [hdashes values hbefore] at hread
      have hsame := hcommand _ _ (congrArg CommandLine.command (Except.ok.inj hread))
      have hlength := congrArg List.length hsame
      rw [List.length_append] at hlength
      exact absurd hlength (by simp)
    · have hspells := hspells word (List.mem_append_right _ List.mem_cons_self)
      rw [hrefused values word rest hbefore hword hspells fun hdashes hrest =>
        hlast ⟨hdashes, hrest⟩] at hread
      cases hread

/-- Lists of values pass through the command line, for calls as for deployments: whatever options
stand in front of the command, the arguments of the command are exactly the listed ones. A word
that begins with a hyphen is no value, so that a list with one does not pass; unless it is spelled
like an option of the command, the line is refused. -/
theorem argument_lists_of_values_pass (environment : String → Option String)
    (front : List String) (line : CommandLine) (contract function : String)
    (hfront : parse environment (front ++ ["block"]) = .ok line) (hblock : line.command = .block)
    (hcontract : IsValue contract) (hfunction : IsValue function) :
    PassesArguments (commandForm "call")
      (fun args => parse environment (front ++ "call" ::
        (["--contract", contract, "--function", function, "--args"] ++ args)))
      (fun args => { line with command := .call contract function args }) ∧
    PassesArguments (commandForm "deploy")
      (fun args => parse environment (front ++ "deploy" ::
        (["--contract", contract, "--args"] ++ args)))
      (fun args => { line with command := .deploy contract args }) := by
  refine ⟨(takesArguments_call hcontract hfunction).passes ?_ hfront hblock,
    (takesArguments_deploy hcontract).passes ?_ hfront hblock⟩
  · exact fun args others hsame => (Command.call.inj hsame).2.2
  · exact fun args others hsame => (Command.deploy.inj hsame).2

/-- The key and the node are named, and the contract is called with a list of values. -/
theorem argument_lists_of_values_pass_adjust :
    let line : CommandLine := {
      privateKey := "k"
      nodeUrl := "u"
      locations := ⟨defaultAddressBook, defaultArtifacts, defaultJournal⟩
      command := .block }
    let front := ["--pkey", "k", "--rpc-url", "u"]
    parse (fun _ => none) (front ++ ["block"]) = .ok line ∧ line.command = .block ∧
      IsValue "Token" ∧ IsValue "adjust" ∧
      PassesArguments (commandForm "call")
        (fun args => parse (fun _ => none) (front ++ "call" ::
          (["--contract", "Token", "--function", "adjust", "--args"] ++ args)))
        (fun args => { line with command := .call "Token" "adjust" args }) := by
  have hcontract : IsValue "Token" := by decide
  have hfunction : IsValue "adjust" := by decide
  refine ⟨rfl, rfl, hcontract, hfunction, ?_⟩
  exact (argument_lists_of_values_pass (fun _ => none) ["--pkey", "k", "--rpc-url", "u"] _ "Token"
    "adjust" rfl rfl hcontract hfunction).1

/-- A negative number is the value of a signed integer and is spelled like no option of a call, and
yet the line is refused. -/
theorem negative_argument_refused :
    Abi.readValue? (.int 256) "-5" = some (.int (-5)) ∧ ¬ (commandForm "call").Spells "-5" ∧
      parse (fun _ => none) ["--pkey", "k", "--rpc-url", "u", "call", "--contract", "Token",
        "--function", "adjust", "--args", "-5"] = .error .unknownArgument := by
  refine ⟨rfl, fun hspells => ?_, rfl⟩
  have hnone : ∀ option ∈ (commandForm "call").options, option.short ≠ some '5' := by
    decide
  cases hspells with
  | long option hoption behind _ hspelled => cases hspelled
  | short option hoption letter behind hnamed hspelled =>
    cases hspelled
    exact hnone option hoption hnamed

/-- Attached to its option, the number passes. -/
example : (parse (fun _ => none) ["--pkey", "k", "--rpc-url", "u", "call", "--contract", "Token",
    "--function", "adjust", "--args=-5"]).map CommandLine.command =
      .ok (.call "Token" "adjust" ["-5"]) := rfl

end CommandLine

end ContractDeploy
