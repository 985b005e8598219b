import ContractDeploy.Integrity.Mismatch

/-!
# Notices

What a run tells its user while it goes on, as data: a cause with its particulars. A notice has a
level of urgency and one line of text. The text is built over a wording of failures, since some
notices report one.
-/

namespace ContractDeploy

/-- How urgent a notice is. -/
inductive Level where
  /-- For whoever looks into the tool itself. -/
  | debug
  /-- The ordinary course of a run. -/
  | info
  /-- Something went wrong that does not end the run. -/
  | warn
  /-- Something failed. -/
  | error
deriving DecidableEq

/-- The name of a level. -/
def Level.name : Level → String
  | debug => "DEBUG"
  | info => "INFO"
  | warn => "WARN"
  | error => "ERROR"

/-- Something that a run tells. -/
inductive Notice where
  /-- An address book was opened for a network. -/
  | openedBook (file network : String)
  /-- An entry was set, but the address book could not be written. -/
  | bookNotSaved (name : String) (error : DeployError)
  /-- A transaction is still pending. -/
  | waiting (hash : Hash)
  /-- A sender was set up and reached its network. -/
  | clientConnected (sender : Address) (chainId : Nat)
  /-- A line of plain information. -/
  | line (text : String)
  /-- A transaction was included and reverted. -/
  | reverted (hash : Hash)
  /-- Lines could not be added to the journal. -/
  | journalNotWritten (path : String) (fault : FileFault)
  /-- A library of a contract is about to be deployed. -/
  | deployingLibrary (library contract : String)
  /-- The transaction that creates a contract was included. -/
  | deployIncluded (contract : String) (hash : Hash)
  /-- The hash of the code that created a contract. -/
  | creationCode (hash : Hash)
  /-- The hash of the code that a contract has now. -/
  | runtimeCode (hash : Hash)
  /-- A contract is deployed. -/
  | deployedAt (contract : String) (address : Address)
  /-- A deployment was recorded. -/
  | saved
  /-- A recorded contract could not be loaded. -/
  | notLoaded (contract : String) (error : DeployError)
  /-- An entry is about to be checked. -/
  | checking (contract : String)
  /-- An entry does not match. -/
  | mismatched (contract : String) (address : Address) (mismatch : Mismatch)
  /-- The network is a known one. -/
  | connected (network : String) (chainId counterpart : Nat)
  /-- The network is not a known one. -/
  | connectedUnknown (chainId : Nat)
  /-- How many contracts the address book has for the network. -/
  | recorded (count : Nat) (network file : String)
  /-- A recorded contract. -/
  | entry (contract : String) (address : Address)
  /-- A recorded contract behind a proxy. -/
  | proxyEntry (contract : String) (address implementation : Address)
  /-- A library was linked into what was deployed. -/
  | linked (library : String) (address : Address)
  /-- A contract is in use behind its proxy. -/
  | live (contract proxyName : String) (address : Address)
  /-- A proxy has still to accept its implementation. -/
  | notAccepted (contract : String) (address : Address)
  /-- All checked entries match. -/
  | verified (count : Nat)
  /-- The block that a call was included in. -/
  | included (blockNumber : Nat)
  /-- The latest block. -/
  | latestBlock (number : Nat) (baseFee : Option Nat)
deriving DecidableEq

namespace Notice

/-- How urgent a notice is. -/
def level : Notice → Level
  | openedBook .. | waiting _ | clientConnected .. => .debug
  | bookNotSaved .. | journalNotWritten .. | mismatched .. | connectedUnknown _
  | notAccepted .. => .warn
  | reverted _ | notLoaded .. => .error
  | _ => .info

/-- The line of a notice, with failures in the given words. -/
def describe (wording : DeployError → String) : Notice → String
  | openedBook file network => "Opened address book " ++ file ++ " for chain " ++ network
  | bookNotSaved name error =>
    "Error saving address book entry for " ++ name ++ ": " ++ wording error
  | waiting hash => "Waiting for transaction " ++ hash.hex
  | clientConnected sender chainId =>
    "Connected " ++ sender.hex ++ " to chain " ++ toString chainId
  | line text => text
  | reverted hash => "Transaction " ++ hash.hex ++ " reverted"
  | journalNotWritten path fault => "Error appending to " ++ path ++ ": " ++ fault.message
  | deployingLibrary library contract => "Deploying library " ++ library ++ " for " ++ contract
  | deployIncluded contract hash => "> Deploy " ++ contract ++ ", txHash: " ++ hash.hex
  | creationCode hash => "= CreationCodeHash: " ++ hash.hex
  | runtimeCode hash => "= RuntimeCodeHash: " ++ hash.hex
  | deployedAt contract address =>
    contract ++ " has been deployed to address: " ++ address.hex
  | saved => "> Contract saved to address book"
  | notLoaded contract error => "Could not load contract " ++ contract ++ ": " ++ wording error
  | checking contract => "Checking for valid " ++ contract ++ " contract..."
  | mismatched contract address mismatch =>
    contract ++ " at " ++ address.hex ++ ": " ++ mismatch.describe wording
  | connected network chainId counterpart =>
    "Connected to " ++ network ++ " (" ++ toString chainId ++ "), paired with chain " ++
      toString counterpart
  | connectedUnknown chainId => "Connected to unknown chain " ++ toString chainId
  | recorded count network file =>
    toString count ++ " contracts recorded for chain " ++ network ++ " in " ++ file
  | entry contract address => contract ++ ": " ++ address.hex
  | proxyEntry contract address implementation =>
    contract ++ ": " ++ address.hex ++ " (proxy for " ++ implementation.hex ++ ")"
  | linked library address => "Linked " ++ library ++ " at " ++ address.hex
  | live contract proxyName address =>
    contract ++ " is live behind " ++ proxyName ++ " at " ++ address.hex
  | notAccepted contract address =>
    contract ++ " is deployed but the proxy at " ++ address.hex ++ " has not accepted it yet"
  | verified count => "All " ++ toString count ++ " contracts verified"
  | included blockNumber => "Included in block " ++ toString blockNumber
  | latestBlock number (some baseFee) =>
    "Block " ++ toString number ++ ", base fee " ++ toString baseFee ++ " wei"
  | latestBlock number none => "Block " ++ toString number ++ ", no base fee"

/-- The line of a notice. -/
def text (notice : Notice) : String := notice.describe DeployError.message

end Notice

end ContractDeploy
