import TypedTx.Numeral
import TypedTx.Registry.Fork

/-!
# Well-known chains

Public chains that can be selected by name or by number.
-/

namespace TypedTx

/-- A public chain with a fixed chain id. -/
inductive Chain where
  | mainnet
  | ropsten
  | rinkeby
  | goerli
  | holesky
  | sepolia
deriving DecidableEq, Repr

namespace Chain

def all : List Chain :=
  [.mainnet, .ropsten, .rinkeby, .goerli, .holesky, .sepolia]

def id : Chain → UInt64
  | .mainnet => 1
  | .ropsten => 3
  | .rinkeby => 4
  | .goerli => 5
  | .holesky => 17000
  | .sepolia => 11155111

def name : Chain → String
  | .mainnet => "mainnet"
  | .ropsten => "ropsten"
  | .rinkeby => "rinkeby"
  | .goerli => "goerli"
  | .holesky => "holesky"
  | .sepolia => "sepolia"

def ofId? (id : UInt64) : Option Chain :=
  all.find? fun chain => chain.id = id

def ofId (id : UInt64) : Except RegistryFault Chain :=
  match ofId? id with
  | some chain => .ok chain
  | none => .error (.unknownChain (toString id.toNat))

/-- The chain selected by a decimal id, or by a name in which the case of ASCII
letters does not matter. -/
def ofSelector (text : String) : Except RegistryFault Chain :=
  match Numeral.uint64? text with
  | some id => ofId id
  | none =>
      match all.find? fun chain => chain.name = text.map Char.toLower with
      | some chain => .ok chain
      | none => .error (.unknownChain text)

end Chain
end TypedTx
