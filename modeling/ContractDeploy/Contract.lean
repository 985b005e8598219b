import ContractDeploy.Artifact.Source
import ContractDeploy.Book
import ContractDeploy.Endpoint

/-!
# Contracts

A handle on a deployed contract: its address, its interface and the account that calls are sent
from. The handles of recorded contracts keep a journal; one that is made for an address alone does
not.
-/

namespace ContractDeploy

/-- A handle on a deployed contract. -/
structure Contract where
  /-- The name of its artifact. -/
  name : String
  /-- The address it is used at. -/
  address : Address
  /-- Its interface. -/
  interface : Interface
  /-- The account that calls are sent from. -/
  sender : Sender
  /-- Where calls are recorded, if they are. -/
  journal : Option Journal

namespace Contract

/-- The contract as something that calls are sent to. -/
def endpoint (contract : Contract) : Endpoint where
  name := contract.name
  callee := some contract.address
  sender := contract.sender
  journal := contract.journal

/-- A call of one of the contract's functions. -/
def call (contract : Contract) (function : String) (args : List String) :
    Except DeployError Call := do
  let input ← (contract.interface.encodeCall function args).mapError .calldata
  return { function, args, input }

/-- The same handle, sending from another account. -/
def connect (contract : Contract) (sender : Sender) : Contract := { contract with sender }

/-- The same interface at another address, without a journal. -/
def attach (contract : Contract) (address : Address) : Contract :=
  { contract with address, journal := none }

variable {γ φ : Type} (source : ArtifactSource φ)

/-- A handle on what is at an address, under the interface of a named contract. -/
def loadAt (name : String) (address : Address) (sender : Sender) : Run γ φ Contract := do
  let artifact ← source.load name
  return { name, address, interface := artifact.interface, sender, journal := none }

/-- A handle on a recorded contract. One that has no entry is at the zero address. -/
def load (book : Book) (name : String) (sender : Sender) (directory : Option String) :
    Run γ φ Contract := do
  let contract ← tryCatch (loadAt source name (book.get name).address sender) fun error => do
    Run.tell (.notLoaded name error)
    throw error
  return { contract with journal := some ⟨directory⟩ }

/-- Handles on the named contracts, in the order of the names. The first that cannot be loaded ends
it. -/
def loadEach (book : Book) (sender : Sender) (directory : Option String) :
    List String → Run γ φ (List (String × Contract))
  | [] => return []
  | name :: names => do
    let contract ← load source book name sender directory
    let contracts ← loadEach book sender directory names
    return (name, contract) :: contracts

/-- Handles on all recorded contracts. -/
def loadAll (book : Book) (sender : Sender) (directory : Option String) :
    Run γ φ (List (String × Contract)) :=
  loadEach source book sender directory book.list

end Contract

/-- A contract that is yet to be created. Its only call is the one of its constructor. -/
structure Creation where
  /-- The name of its artifact. -/
  name : String
  /-- Its interface. -/
  interface : Interface
  /-- The linked code, without arguments. -/
  code : Bytes
  /-- The account that it is created from. -/
  sender : Sender
  /-- Where the creation is recorded, if it is. -/
  journal : Option Journal

namespace Creation

/-- The creation as something that a call is sent to. -/
def endpoint (creation : Creation) : Endpoint where
  name := creation.name
  callee := none
  sender := creation.sender
  journal := creation.journal

/-- The call of the constructor: the code with the arguments behind it. -/
def call (creation : Creation) (args : List String) : Except DeployError Call := do
  let encoded ← (creation.interface.encodeConstructor args).mapError .calldata
  return { function := constructorName, args, input := creation.code ++ encoded }

/-- The same creation, sent from another account. -/
def connect (creation : Creation) (sender : Sender) : Creation := { creation with sender }

end Creation

end ContractDeploy
