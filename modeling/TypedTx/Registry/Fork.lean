/-!
# Forks

The named protocol revisions in the order of their activation, and the upgrades
(by EIP number) that each of them introduces. An upgrade is active at a fork
from the one that introduces it onwards.
-/

namespace TypedTx

inductive RegistryFault where
  | unknownChain (name : String)
  | unknownFork (name : String)
deriving DecidableEq, Repr

def RegistryFault.message : RegistryFault → String
  | .unknownChain name => s!"unknown chain: {name}"
  | .unknownFork name => s!"unknown hardfork: {name}"

/-- A protocol revision. -/
inductive Fork where
  | chainstart
  | homestead
  | dao
  | tangerineWhistle
  | spuriousDragon
  | byzantium
  | constantinople
  | petersburg
  | istanbul
  | muirGlacier
  | berlin
  | london
  | arrowGlacier
  | grayGlacier
  | paris
  | shanghai
  | cancun
deriving DecidableEq, Repr, Inhabited

namespace Fork

/-- The fork of a registry that names none. -/
def standard : Fork := .shanghai

/-- All forks in the order of activation. -/
def all : List Fork :=
  [.chainstart, .homestead, .dao, .tangerineWhistle, .spuriousDragon, .byzantium,
   .constantinople, .petersburg, .istanbul, .muirGlacier, .berlin, .london, .arrowGlacier,
   .grayGlacier, .paris, .shanghai, .cancun]

def index : Fork → Nat
  | .chainstart => 0
  | .homestead => 1
  | .dao => 2
  | .tangerineWhistle => 3
  | .spuriousDragon => 4
  | .byzantium => 5
  | .constantinople => 6
  | .petersburg => 7
  | .istanbul => 8
  | .muirGlacier => 9
  | .berlin => 10
  | .london => 11
  | .arrowGlacier => 12
  | .grayGlacier => 13
  | .paris => 14
  | .shanghai => 15
  | .cancun => 16

instance : LE Fork := ⟨fun a b => a.index ≤ b.index⟩

instance (a b : Fork) : Decidable (a ≤ b) :=
  inferInstanceAs (Decidable (a.index ≤ b.index))

/-- The upgrades that a fork introduces; those of earlier forks stay active. -/
def introduced : Fork → List Nat
  | .chainstart => []
  | .homestead => [2, 7, 8]
  | .dao => []
  | .tangerineWhistle => [150]
  | .spuriousDragon => [155, 160, 161, 170]
  | .byzantium => [100, 140, 196, 197, 198, 211, 214, 649, 658]
  | .constantinople => [145, 1014, 1052, 1234, 1283]
  | .petersburg => [1716]
  | .istanbul => [1108, 1344, 1884, 2028, 2200]
  | .muirGlacier => [2384]
  | .berlin => [2565, 2718, 2929, 2930]
  | .london => [1559, 3198, 3529, 3541]
  | .arrowGlacier => [4345]
  | .grayGlacier => [5133]
  | .paris => [3675, 4399]
  | .shanghai => [3651, 3855, 3860, 4895]
  | .cancun => [1153, 4788, 4844, 5656, 6780, 7516]

/-- The first fork that introduces an upgrade, if any does. -/
def activating? (eip : Nat) : Option Fork :=
  all.find? fun fork => fork.introduced.contains eip

def name : Fork → String
  | .chainstart => "chainstart"
  | .homestead => "homestead"
  | .dao => "dao"
  | .tangerineWhistle => "tangerineWhistle"
  | .spuriousDragon => "spuriousDragon"
  | .byzantium => "byzantium"
  | .constantinople => "constantinople"
  | .petersburg => "petersburg"
  | .istanbul => "istanbul"
  | .muirGlacier => "muirGlacier"
  | .berlin => "berlin"
  | .london => "london"
  | .arrowGlacier => "arrowGlacier"
  | .grayGlacier => "grayGlacier"
  | .paris => "paris"
  | .shanghai => "shanghai"
  | .cancun => "cancun"

/-- The fork with exactly the given name; `merge` is another name of `paris`. -/
def ofExactName? (name : String) : Option Fork :=
  if name = "merge" then some .paris else all.find? fun fork => fork.name = name

/-- The fork with the given name, where the case of ASCII letters does not
matter. -/
def ofName (name : String) : Except RegistryFault Fork :=
  let lowered := name.map Char.toLower
  if lowered = "merge" then .ok .paris
  else
    match all.find? fun fork => fork.name.map Char.toLower = lowered with
    | some fork => .ok fork
    | none => .error (.unknownFork name)

end Fork
end TypedTx
