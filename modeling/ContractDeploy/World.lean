import ContractDeploy.Chain
import ContractDeploy.Files
import ContractDeploy.Instant
import ContractDeploy.Notice

/-!
# The world of a run

A run changes a chain and a disk, tells notices and reads a clock. All of that is one state, which
is threaded through the run, so that a run is a function. What was handed to the node is kept in
order with the node's answers, and so is what was told. A failure leaves the world as it was when
the run failed: nothing is rolled back.
-/

namespace ContractDeploy

/-- A transaction that was handed to the node, with the node's answer. -/
structure Submission where
  /-- The transaction. -/
  transaction : Transaction
  /-- Its hash, or the node's reason to refuse it. -/
  answer : Except String Hash

/-- The transaction, if the node took it in. -/
def Submission.accepted? (submission : Submission) : Option Transaction :=
  match submission.answer with
  | .ok _ => some submission.transaction
  | .error _ => none

/-- What a run works with: how a chain and a disk answer, and what the clock shows at each
reading. -/
structure Host (γ φ : Type) where
  /-- The node. -/
  node : Node γ
  /-- The file system. -/
  disk : Disk φ
  /-- What the clock shows when it is read for the `n`-th time. -/
  clock : Nat → Instant

/-- What a run changes. -/
structure World (γ φ : Type) where
  /-- The chain. -/
  chain : γ
  /-- The files. -/
  files : φ
  /-- How often the clock was read. -/
  readings : Nat := 0
  /-- What was handed to the node, oldest first. -/
  submissions : List Submission := []
  /-- What was told, oldest first. -/
  notices : List Notice := []

/-- A step that cannot fail. -/
abbrev Act (γ φ : Type) := StateM (World γ φ)

/-- A step that gives a value or fails. -/
abbrev Run (γ φ : Type) := ExceptT DeployError (StateM (World γ φ))

variable {γ φ : Type}

/-- Tells several things, one after the other. -/
def Act.tellAll (notices : List Notice) : Act γ φ Unit :=
  modify fun world => { world with notices := world.notices ++ notices }

/-- Tells something. -/
def Act.tell (notice : Notice) : Act γ φ Unit := Act.tellAll [notice]

/-- Tells several things, one after the other. -/
def Run.tellAll (notices : List Notice) : Run γ φ Unit := ExceptT.lift (Act.tellAll notices)

/-- Tells something. -/
def Run.tell (notice : Notice) : Run γ φ Unit := Run.tellAll [notice]

namespace Host

variable (host : Host γ φ)

/-- Reads the clock. -/
def now : Act γ φ Instant :=
  modifyGet fun world =>
    (host.clock world.readings, { world with readings := world.readings + 1 })

/-- Asks the chain something. A failure is one of reading the chain. -/
def query {α : Type} (ask : γ → Except String α × γ) : Run γ φ α := fun world =>
  let (answer, chain) := ask world.chain
  (answer.mapError fun reason => .query (.unavailable reason), { world with chain })

/-- Hands a transaction to the node. -/
def submit (transaction : Transaction) : Run γ φ Hash := fun world =>
  let (answer, chain) := host.node.submit transaction world.chain
  (answer.mapError fun reason => .submission (.refused reason),
    { world with chain, submissions := world.submissions ++ [⟨transaction, answer⟩] })

/-- Waits for a transaction to be included. Each time that it is found pending is told. -/
def await (hash : Hash) : Run γ φ Receipt := fun world =>
  let ((answer, polls), chain) := host.node.await hash world.chain
  (answer.mapError fun reason => .query (.unavailable reason),
    { world with
      chain, notices := world.notices ++ List.replicate polls (Notice.waiting hash) })

/-- The code at an address. -/
def codeAt (address : Address) : Run γ φ Bytes := query (host.node.code address)

/-- The text of a file. -/
def readFile (path : String) : Act γ φ (Except FileFault String) := do
  return host.disk.read (← get).files path

/-- Replaces the text of a file. -/
def writeFile (path text : String) : Act γ φ (Except FileFault Unit) :=
  modifyGet fun world =>
    let (outcome, files) := host.disk.write path text world.files
    (outcome, { world with files })

/-- Adds to the end of a file. -/
def appendFile (path text : String) : Act γ φ (Except FileFault Unit) :=
  modifyGet fun world =>
    let (outcome, files) := host.disk.append path text world.files
    (outcome, { world with files })

end Host

end ContractDeploy
