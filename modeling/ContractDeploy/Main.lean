import ContractDeploy.Chain.Rehearsal
import ContractDeploy.Connection
import ContractDeploy.Files.Tree
import ContractDeploy.Report

/-!
# The program

Rehearses one command line: the command runs on a chain held in memory, in a working directory that
comes from standard input as one JSON object of texts by path. What is told goes to standard error.
The outcome goes to standard output: the command line that was understood, the transactions that
were accepted and the files that changed.
-/

namespace ContractDeploy

namespace CommandLine

/-- Sets up the sender that a command line names and runs its command. -/
def execute {γ φ : Type} (line : CommandLine) (host : Host γ φ) :
    ExceptT CommandError (Act γ φ) Unit := do
  let sender ← Context.liftRun (host.setUpSender line.privateKey line.nodeUrl)
  line.command.run host sender line.locations

/-- The names of the variables that stand in for options. -/
def environmentNames : List String := mainForm.options.filterMap (·.environmentName)

/-- How the program is called. -/
def usage : String :=
  "usage: --pkey KEY --rpc-url URL [options] " ++ "|".intercalate mainForm.commands

end CommandLine

/-- The files that a document gives, texts by path. -/
def FileTree.ofJson (document : Json) : Except Json.Fault FileTree := do
  let texts ← Json.asMap Json.depthLimit (fun _ => Json.asText) document
  return texts.entries.foldl (fun tree (path, text) => tree.place path (.text text)) .done

/-- The document of a rehearsal: what was asked for, and what it came to. -/
def rehearsalReport (line : CommandLine) (before : FileTree)
    (outcome : Except CommandError Unit) (world : World Rehearsal FileTree) : Json :=
  let result := match outcome with
    | .ok () => Json.null
    | .error error => Json.ofText error.message
  let files := (before.changedSince world.files).map fun (path, content) =>
    Json.field path (match content with
      | .text text => Json.ofText text
      | .binary bytes => bytes.toJson)
  Json.ofFields [
    Json.field "command_line" line.toJson,
    Json.field "error" result,
    Json.field "transactions"
      (Json.ofValues ((world.submissions.filterMap Submission.accepted?).map Transaction.toJson)),
    Json.field "files" (Json.ofFields files)]

/-- Rehearses a command line on the given files. -/
def rehearse (line : CommandLine) (files : FileTree) :
    Except CommandError Unit × World Rehearsal FileTree :=
  (line.execute rehearsalHost).run.run { chain := {}, files }

end ContractDeploy

open ContractDeploy

/-- Reads the environment and standard input, rehearses the command line and prints. -/
def main (words : List String) : IO UInt32 := do
  let settings ← CommandLine.environmentNames.mapM fun name => do return (name, ← IO.getEnv name)
  let environment := fun name => (settings.find? fun entry => entry.1 = name).bind (·.2)
  match CommandLine.parse environment words with
  | .error .helpWanted =>
    IO.println CommandLine.usage
    return 0
  | .error fault =>
    IO.eprintln (fault.message ++ "\n" ++ CommandLine.usage)
    return 2
  | .ok line =>
    let text ← (← IO.getStdin).readToEnd
    match FileTree.ofJson (Json.read text).value with
    | .error fault =>
      IO.eprintln fault.message
      return 2
    | .ok files =>
      let (outcome, world) := rehearse line files
      for notice in world.notices do
        IO.eprintln (notice.level.name ++ " " ++ notice.text)
      IO.println (Json.pretty (rehearsalReport line files outcome world))
      return if outcome.toBool then 0 else 1
