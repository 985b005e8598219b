/-!
# Options of a command line

Options have a long name and perhaps a one-letter name. They take no value, one value, or any
number of values up to the next option; a value can also be attached to its option, and then it is
the only one. Values that stand alone are collected while they come in, and are judged only when
the next option begins or the line ends, so a fault of the line behind them is reported first.
-/

namespace ContractDeploy

/-- Why a command line is not accepted. -/
inductive UsageFault where
  /-- An option or a value that is not known. -/
  | unknownArgument
  /-- A command that is not known. -/
  | unknownCommand
  /-- No command. -/
  | noCommand
  /-- An option that has to be given is not. -/
  | missingOption
  /-- A value is missing or is not allowed. -/
  | badValue
  /-- An option that may be given once is given again. -/
  | repeatedOption
  /-- A value is attached to an option that takes none. -/
  | unwantedValue
  /-- Nothing was given at all. -/
  | nothingGiven
  /-- It was help that was asked for. -/
  | helpWanted
deriving DecidableEq

/-- The sentence that names a fault. -/
def UsageFault.message : UsageFault → String
  | .unknownArgument => "unexpected argument"
  | .unknownCommand => "unknown command"
  | .noCommand => "a command is needed"
  | .missingOption => "a required option is missing"
  | .badValue => "a value is missing or empty"
  | .repeatedOption => "an option is given more than once"
  | .unwantedValue => "an option takes no value"
  | .nothingGiven => "nothing to do"
  | .helpWanted => "help"

/-- How many values an option takes. -/
inductive Arity where
  /-- None, and it asks for help. -/
  | help
  /-- None. -/
  | flag
  /-- Exactly one. -/
  | one
  /-- Any number. -/
  | many
deriving DecidableEq

/-- An option. -/
structure OptionForm where
  /-- Its long name. -/
  long : String
  /-- Its one-letter name, if it has one. -/
  short : Option Char := none
  /-- How many values it takes. -/
  arity : Arity := .one
  /-- Whether an empty value is refused. -/
  filled : Bool := false
  /-- Whether it has to be given. -/
  required : Bool := false
  /-- The variable of the environment that stands in for it. -/
  environmentName : Option String := none
deriving DecidableEq

/-- Whether an option takes values. -/
def OptionForm.takesValues (form : OptionForm) : Bool := form.arity = .one || form.arity = .many

/-- Whether an option takes a further value after this many. -/
def OptionForm.takesMore (form : OptionForm) (count : Nat) : Bool :=
  match form.arity with
  | .help | .flag => false
  | .one => count = 0
  | .many => true

/-- What can stand on a command line: options, and commands that begin a line of their own. -/
structure LineForm where
  /-- The options. -/
  options : List OptionForm
  /-- The names of the commands. -/
  commands : List String := []

/-- The fault of a value that no option asks for: where commands are known it is taken for one. -/
def LineForm.strayFault (form : LineForm) : UsageFault :=
  if form.commands.isEmpty then .unknownArgument else .unknownCommand

/-- The options given so far, and the one whose values may still be coming. -/
structure OptionScan where
  /-- The options that were judged, by long name, with their values. -/
  given : List (String × List String) := []
  /-- The option that is not judged yet, with its values so far. -/
  pending : Option (OptionForm × List String) := none

namespace OptionScan

/-- The values of an option, if it was given. -/
def values? (scan : OptionScan) (long : String) : Option (List String) :=
  (scan.given.find? fun entry => entry.1 = long).map (·.2)

/-- Whether the next value belongs to the option that is not judged yet. -/
def isOpen (scan : OptionScan) : Bool :=
  match scan.pending with
  | some (form, values) => form.takesMore values.length
  | none => false

/-- The given options with one more. -/
def put (scan : OptionScan) (long : String) (values : List String) : OptionScan :=
  { scan with given := (long, values) :: scan.given.filter fun entry => entry.1 ≠ long }

/-- Judges an option with its values. One that may be given again adds to its values. -/
def take (scan : OptionScan) (form : OptionForm) (values : List String) :
    Except UsageFault OptionScan :=
  if form.arity = .many then
    .ok (scan.put form.long ((scan.values? form.long).getD [] ++ values))
  else if form.arity = .one && values.isEmpty then .error .badValue
  else if (scan.values? form.long).isSome then .error .repeatedOption
  else if form.filled && values.any (· = "") then .error .badValue
  else .ok (scan.put form.long values)

/-- Judges the option that is not judged yet, if there is one. -/
def settle (scan : OptionScan) : Except UsageFault OptionScan :=
  match scan.pending with
  | some (form, values) => { scan with pending := none }.take form values
  | none => .ok scan

/-- Adds a value to the option that is not judged yet. -/
def push (scan : OptionScan) (value : String) : OptionScan :=
  { scan with pending := scan.pending.map fun (form, values) => (form, values ++ [value]) }

/-- Begins an option, with the value attached to it, if there is one. -/
def start (scan : OptionScan) (form : OptionForm) (attached : Option String) :
    Except UsageFault OptionScan := do
  if !form.takesValues && attached.isSome then throw .unwantedValue
  let scan ← scan.settle
  match form.arity, attached with
  | .help, _ => throw .helpWanted
  | .flag, _ => scan.take form []
  | _, some value => scan.take form [value]
  | _, none => return { scan with pending := some (form, []) }

/-- Reads a group of one-letter options. What follows one that takes values is attached to it, with
or without an equals sign between. -/
def takeShort (form : LineForm) (scan : OptionScan) : List Char → Except UsageFault OptionScan
  | [] => .ok scan
  | letter :: rest =>
    match form.options.find? fun option => option.short = some letter with
    | none => .error .unknownArgument
    | some option =>
      if option.takesValues then
        match rest with
        | [] => scan.start option none
        | '=' :: value => scan.start option (some (String.ofList value))
        | value => scan.start option (some (String.ofList value))
      else do
        let scan ← scan.start option none
        takeShort form scan rest

/-- Reads a long option, with what stands behind its equals sign attached to it. -/
def takeLong (form : LineForm) (scan : OptionScan) (text : List Char) :
    Except UsageFault OptionScan :=
  let name := String.ofList (text.takeWhile (· ≠ '='))
  let attached := match text.dropWhile (· ≠ '=') with
    | [] => none
    | _ :: value => some (String.ofList value)
  match form.options.find? fun option => option.long = name with
  | none => .error .unknownArgument
  | some option => scan.start option attached

end OptionScan

/-- The fault of what stands behind a double dash, where nothing is asked for. -/
def LineForm.afterDashes (form : LineForm) : List String → Except UsageFault Unit
  | [] => .ok ()
  | word :: _ =>
    if word ∈ form.commands then .error .unknownArgument else .error form.strayFault

/-- Reads options up to the end of the line or up to a command, which is given with the words
behind it. -/
def LineForm.scan (form : LineForm) (scan : OptionScan) :
    List String → Except UsageFault (OptionScan × Option (String × List String))
  | [] => .ok (scan, none)
  | word :: rest =>
    if !scan.isOpen && word ∈ form.commands then .ok (scan, some (word, rest))
    else
      match word.toList with
      | ['-', '-'] => do
        form.afterDashes rest
        return (scan, none)
      | '-' :: '-' :: text => do
        let scan ← scan.takeLong form text
        form.scan scan rest
      | '-' :: letter :: letters => do
        let scan ← scan.takeShort form (letter :: letters)
        form.scan scan rest
      | _ => if scan.isOpen then form.scan (scan.push word) rest else .error form.strayFault

/-- Adds what the environment says of options that were not given. -/
def OptionScan.addEnvironment (environment : String → Option String) (scan : OptionScan) :
    List OptionForm → Except UsageFault OptionScan
  | [] => .ok scan
  | form :: forms =>
    match scan.values? form.long, form.environmentName.bind environment with
    | none, some value => do
      let scan ← scan.take form [value]
      scan.addEnvironment environment forms
    | _, _ => scan.addEnvironment environment forms

/-- Whether an option that has to be given is not. -/
def OptionScan.lacksOption (scan : OptionScan) (form : LineForm) : Bool :=
  form.options.any fun option => option.required && (scan.values? option.long).isNone

end ContractDeploy
