import TypedTx.Registry.Chain

/-!
# Registries

A registry holds what validation needs to know of a chain: its id, the fork it
is at and the upgrades that are switched on in addition. `isActive` answers
whether an upgrade is in force, and `gas` gives the prices that follow from it.
-/

namespace TypedTx

/-- The rules that transactions are validated against. -/
structure Registry where
  chainName : String
  chainId : UInt64
  fork : Fork
  /-- The upgrades switched on explicitly, ascending and without repetition. -/
  eips : List Nat
deriving DecidableEq, Repr, Inhabited

/-- Prices and limits for the costs of a transaction. -/
structure GasSchedule where
  /-- What every transaction costs. -/
  transaction : Nat
  /-- The extra cost of creating a contract. -/
  creation : Nat
  /-- The cost of a zero byte of data. -/
  zeroByte : Nat
  /-- The cost of any other byte of data. -/
  nonZeroByte : Nat
  /-- The cost of an address in the access list. -/
  address : Nat
  /-- The cost of a storage key in the access list. -/
  storageKey : Nat
  /-- The cost of 32 bytes of initcode. -/
  initCodeWord : Nat
  /-- The longest initcode, if there is a limit. -/
  maxInitCode : Option Nat
deriving DecidableEq, Repr

namespace Registry

/-- The registry of a well-known chain at a fork. -/
def ofChain (chain : Chain) (fork : Fork) : Registry :=
  ⟨chain.name, chain.id, fork, []⟩

def custom (name : String) (chainId : UInt64) (fork : Fork) : Registry :=
  ⟨name, chainId, fork, []⟩

/-- The registry used when nothing says otherwise. -/
def standard : Registry :=
  ofChain .mainnet .standard

def ofNames (chain fork : String) : Except RegistryFault Registry := do
  let chain ← Chain.ofSelector chain
  let fork ← Fork.ofName fork
  .ok (ofChain chain fork)

/-- The registry of a chain known only by its id. -/
def ofChainId (id : UInt64) : Registry :=
  match Chain.ofId? id with
  | some chain => ofChain chain .standard
  | none => custom s!"custom-{id.toNat}" id .standard

/-- Insert a number into an ascending list, unless it is there. -/
def insertEip (eip : Nat) : List Nat → List Nat
  | [] => [eip]
  | e :: es =>
      if eip < e then eip :: e :: es
      else if eip = e then e :: es
      else e :: insertEip eip es

def withEips (r : Registry) (eips : List Nat) : Registry :=
  { r with eips := eips.foldl (fun set eip => insertEip eip set) r.eips }

def withFork (r : Registry) (fork : Fork) : Registry :=
  { r with fork }

def atOrAfter (r : Registry) (fork : Fork) : Bool :=
  fork ≤ r.fork

/-- Whether an upgrade is in force: it is switched on explicitly, or the fork
that introduces it is not after the registry's. -/
def isActive (r : Registry) (eip : Nat) : Bool :=
  r.eips.contains eip || (Fork.activating? eip).any r.atOrAfter

def gas (r : Registry) : GasSchedule where
  transaction := 21000
  creation := if r.isActive 2 then 32000 else 0
  zeroByte := 4
  nonZeroByte := if r.isActive 2028 then 16 else 68
  address := 2400
  storageKey := 1900
  initCodeWord := if r.isActive 3860 then 2 else 0
  maxInitCode := if r.isActive 3860 then some 49152 else none

end Registry
end TypedTx
