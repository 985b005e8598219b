import ContractDeploy.Command
import ContractDeploy.CommandLine.Options

/-!
# The command line

The key, the node and the places of files come first, then the command and its own options. What
is not given may stand in the environment, and most of it has a default. The command's own part of
the line is judged before what stands in front of it.
-/

namespace ContractDeploy

/-- What a command line asks for. -/
structure CommandLine where
  /-- The private key of the account that everything is sent from. -/
  privateKey : String
  /-- Where the node is. -/
  nodeUrl : String
  /-- Where the files are. -/
  locations : Locations
  /-- What is to be done. -/
  command : Command
deriving DecidableEq

namespace CommandLine

/-- The file of the address book, unless another one is asked for. -/
def defaultAddressBook : String := "addresses.json"

/-- The directory of the artifacts, unless another one is asked for. -/
def defaultArtifacts : String := "build/contracts"

/-- The directory of the journal, unless another one is asked for. -/
def defaultJournal : String := "."

/-! ## Forms -/

/-- The option that asks for help. -/
def helpOption : OptionForm := { long := "help", short := some 'h', arity := .help }

/-- The option that names a contract. -/
def contractOption : OptionForm := { long := "contract", short := some 'c', required := true }

/-- The option that lists arguments. -/
def argsOption : OptionForm := { long := "args", short := some 'a', arity := .many }

/-- The part of the line in front of the command. -/
def mainForm : LineForm where
  options := [
    { long := "pkey", short := some 'p', required := true, environmentName := some "PKEY" },
    { long := "rpc-url", short := some 'r', required := true, environmentName := some "RPC_URL" },
    { long := "address-book", short := some 'a', filled := true,
      environmentName := some "ADDRESS_BOOK" },
    { long := "artifacts", filled := true, environmentName := some "ARTIFACTS_DIR" },
    { long := "tx-log-dir", filled := true, environmentName := some "TX_LOG_DIR" },
    helpOption]
  commands := ["list", "deploy", "deploy-proxy", "verify", "call", "block", "help"]

/-- The options of a command. -/
def commandOptions : String → List OptionForm
  | "deploy" => [contractOption, argsOption, helpOption]
  | "deploy-proxy" => [
      contractOption,
      { long := "init-args", short := some 'i', arity := .many },
      { long := "proxy-name" },
      { long := "build-accept-tx", arity := .flag },
      helpOption]
  | "verify" => [
      { contractOption with required := false },
      { long := "skip-creation-code", arity := .flag },
      helpOption]
  | "call" => [
      contractOption,
      { long := "function", short := some 'f', required := true },
      argsOption,
      helpOption]
  | _ => [helpOption]

/-! ## Reading -/

/-- The one value of an option, if it was given. -/
def valueOf? (scan : OptionScan) (long : String) : Option String :=
  (scan.values? long).bind List.head?

/-- The one value of an option, or its default. -/
def valueOf (scan : OptionScan) (long default : String) : String :=
  (valueOf? scan long).getD default

/-- All values of an option. -/
def valuesOf (scan : OptionScan) (long : String) : List String := (scan.values? long).getD []

/-- Whether an option was given. -/
def isGiven (scan : OptionScan) (long : String) : Bool := (scan.values? long).isSome

/-- The command of this name with its options. -/
def commandOf (name : String) (scan : OptionScan) : Command :=
  match name with
  | "deploy" => .deploy (valueOf scan "contract" "") (valuesOf scan "args")
  | "deploy-proxy" => .deployProxy {
      name := valueOf scan "contract" ""
      initArgs := valuesOf scan "init-args"
      proxyName := valueOf scan "proxy-name" Upgrade.defaultProxyName
      manualAccept := isGiven scan "build-accept-tx" }
  | "verify" => .verify (valueOf? scan "contract") (!isGiven scan "skip-creation-code")
  | "call" =>
    .call (valueOf scan "contract" "") (valueOf scan "function" "") (valuesOf scan "args")
  | "block" => .block
  | _ => .list

/-- The fault of a line that asks for help on some commands. Commands have none of their own, so at
most one can be named. -/
def helpFault : List String → UsageFault
  | [] => .helpWanted
  | [name] => if name ∈ mainForm.commands then .helpWanted else .unknownCommand
  | _ => .unknownCommand

/-- Reads a command with the words behind it. -/
def readCommand (name : String) (words : List String) : Except UsageFault Command := do
  if name = "help" then throw (helpFault words)
  let form : LineForm := { options := commandOptions name }
  let (scan, _) ← form.scan {} words
  let scan ← scan.settle
  if scan.lacksOption form then throw .missingOption
  return commandOf name scan

/-- Where the options say that the files are. -/
def locationsOf (scan : OptionScan) : Locations where
  addressBook := valueOf scan "address-book" defaultAddressBook
  artifacts := valueOf scan "artifacts" defaultArtifacts
  journal := valueOf scan "tx-log-dir" defaultJournal

/-- Reads a command line. -/
def parse (environment : String → Option String) (words : List String) :
    Except UsageFault CommandLine := do
  let (scan, rest) ← mainForm.scan {} words
  let command ← rest.mapM fun (name, words) => readCommand name words
  let scan ← scan.settle
  let scan ← scan.addEnvironment environment mainForm.options
  match command with
  | none => throw (if scan.given.isEmpty then .nothingGiven else .noCommand)
  | some command =>
    if scan.lacksOption mainForm then throw .missingOption
    return {
      privateKey := valueOf scan "pkey" ""
      nodeUrl := valueOf scan "rpc-url" ""
      locations := locationsOf scan
      command }

end CommandLine

end ContractDeploy
