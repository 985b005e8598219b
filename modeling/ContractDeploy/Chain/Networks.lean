/-!
# Known networks

The pairs of networks that the contracts are deployed on: a base network and the one that settles
on it.
-/

namespace ContractDeploy

/-- A network. -/
structure Network where
  /-- Its chain id. -/
  id : Nat
  /-- Its name. -/
  name : String
deriving DecidableEq

/-- A base network and the network that settles on it. -/
structure NetworkPair where
  /-- The base network. -/
  base : Network
  /-- The network that settles on it. -/
  layered : Network
deriving DecidableEq

namespace Network

/-- Every known pair. -/
def pairs : List NetworkPair :=
  [⟨⟨1, "mainnet"⟩, ⟨42161, "arbitrum-one"⟩⟩,
   ⟨⟨4, "rinkeby"⟩, ⟨421611, "arbitrum-rinkeby"⟩⟩,
   ⟨⟨5, "goerli"⟩, ⟨421613, "arbitrum-goerli"⟩⟩,
   ⟨⟨1337, "localnitrol1"⟩, ⟨412346, "localnitrol2"⟩⟩]

/-- Whether a chain id is that of a known base network. -/
def isBase (id : Nat) : Bool := pairs.any fun pair => pair.base.id = id

/-- Whether a chain id is that of a known layered network. -/
def isLayered (id : Nat) : Bool := pairs.any fun pair => pair.layered.id = id

/-- The layered network of a base network. -/
def layeredOn (id : Nat) : Option Nat :=
  (pairs.find? fun pair => pair.base.id = id).map (·.layered.id)

/-- The base network of a layered network. -/
def baseOf (id : Nat) : Option Nat :=
  (pairs.find? fun pair => pair.layered.id = id).map (·.base.id)

/-- The other network of a pair. -/
def counterpart (id : Nat) : Option Nat := (layeredOn id).or (baseOf id)

/-- The name of a known network. -/
def nameOf (id : Nat) : Option String :=
  ((pairs.flatMap fun pair => [pair.base, pair.layered]).find? fun network => network.id = id).map
    (·.name)

end Network

end ContractDeploy
