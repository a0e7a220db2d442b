import NodeSteward.Json.Decode

/-!
# The monitored node

Which chain and network the Lightning node works on, and its public key.  Only channels on the
main network of bitcoin can be verified.
-/

namespace NodeSteward

/-- The chain on which a node works. -/
inductive Chain where
  | bitcoin
  | litecoin
  deriving DecidableEq, Repr

/-- The network on which a node works. -/
inductive Network where
  | mainnet
  | testnet
  | signet
  | regtest
  | simnet
  deriving DecidableEq, Repr

namespace Chain

def all : List Chain := [.bitcoin, .litecoin]

def name : Chain → String
  | .bitcoin => "bitcoin"
  | .litecoin => "litecoin"

end Chain

namespace Network

def all : List Network := [.mainnet, .testnet, .signet, .regtest, .simnet]

def name : Network → String
  | .mainnet => "mainnet"
  | .testnet => "testnet"
  | .signet => "signet"
  | .regtest => "regtest"
  | .simnet => "simnet"

end Network

/-- The identity of the monitored node. -/
structure NodeSettings where
  chain : Chain
  network : Network
  /-- The public key in hexadecimal digits. -/
  publicKey : String
  deriving DecidableEq, Repr

namespace NodeSettings

/-- The settings where nothing is said. -/
def standard : NodeSettings := ⟨.bitcoin, .mainnet, ""⟩

def isBitcoinMainnet (settings : NodeSettings) : Bool :=
  settings.chain = .bitcoin && settings.network = .mainnet

def toJson (settings : NodeSettings) : Json :=
  .ofMembers
    [("chain", .text settings.chain.name), ("network", .text settings.network.name),
      ("public_key", .text settings.publicKey)]

def decode? (source : Source) : Option NodeSettings := do
  let slots ← source.slots? ["chain", "network", "public_key"]
  return {
    chain := ← slots.withDefault "chain" (Source.case? Chain.all Chain.name) standard.chain
    network := ←
      slots.withDefault "network" (Source.case? Network.all Network.name) standard.network
    publicKey := ← slots.withDefault "public_key" Source.text? standard.publicKey }

end NodeSettings

end NodeSteward
