import TypedTx.Bytes
import TypedTx.Registry.Basic
import TypedTx.Yaml.Mapping

/-!
# Chain settings

A chain outside the well-known list is described by its name, its id, a fork and
the upgrades to switch on, written as a YAML mapping. `problems` lists all that
is wrong with a description, in a fixed order; a description without problems
yields a registry.
-/

namespace TypedTx

/-- The description of a chain. -/
structure Settings where
  name : String
  chainId : UInt64
  fork : String
  eips : List Nat
deriving DecidableEq, Repr

inductive SettingsProblem where
  | emptyName
  | zeroChainId
  | unknownFork (name : String)
  | zeroEip
  | repeatedEip (eip : Nat)
deriving DecidableEq, Repr

def SettingsProblem.message : SettingsProblem → String
  | .emptyName => "name cannot be empty"
  | .zeroChainId => "chain_id must be greater than 0"
  | .unknownFork name => s!"hardfork '{name}' is not a known fork"
  | .zeroEip => "eips cannot contain 0"
  | .repeatedEip eip => s!"eip {eip} is listed more than once"

/-- The wording of a list of problems: a heading and a line for each. -/
def SettingsProblem.report (problems : List SettingsProblem) : String :=
  "chain config validation failed:\n" ++ "\n".intercalate (problems.map message)

/-- Why no description could be loaded. A cause is worded by whatever reads the file or the
YAML text. -/
inductive SettingsFault where
  | unreadable (path cause : String)
  | malformed (path cause : String)
  | invalid (problems : List SettingsProblem)
deriving DecidableEq, Repr

def SettingsFault.message : SettingsFault → String
  | .unreadable path cause => s!"failed to read chain config '{path}': {cause}"
  | .malformed path cause => s!"failed to parse chain config '{path}': {cause}"
  | .invalid problems => SettingsProblem.report problems

/-- The characters that Unicode counts as white space. -/
def isWhiteSpace (c : Char) : Bool :=
  let n := c.toNat
  (0x09 ≤ n && n ≤ 0x0d) || n == 0x20 || n == 0x85 || n == 0xa0 || n == 0x1680 ||
    (0x2000 ≤ n && n ≤ 0x200a) || n == 0x2028 || n == 0x2029 || n == 0x202f || n == 0x205f ||
    n == 0x3000

namespace Settings

/-- The problems of a list of upgrades, given the ones seen before it. -/
def eipProblems : (seen eips : List Nat) → List SettingsProblem
  | _, [] => []
  | seen, eip :: eips =>
      if eip = 0 then .zeroEip :: eipProblems seen eips
      else if seen.contains eip then .repeatedEip eip :: eipProblems seen eips
      else eipProblems (eip :: seen) eips

def problems (s : Settings) : List SettingsProblem :=
  (if s.name.toList.all isWhiteSpace then [.emptyName] else []) ++
  (if s.chainId = 0 then [.zeroChainId] else []) ++
  (match Fork.ofName s.fork with
    | .ok _ => []
    | .error _ => [.unknownFork s.fork]) ++
  eipProblems [] s.eips

/-- Accept a description without problems. -/
def validate (s : Settings) : Except (List SettingsProblem) Unit :=
  match s.problems with
  | [] => .ok ()
  | problems => .error problems

def registry (s : Settings) : Except RegistryFault Registry := do
  let fork ← Fork.ofName s.fork
  .ok ((Registry.custom s.name s.chainId fork).withEips s.eips)

def scalarOf? : Yaml.Value → Option String
  | .scalar s => some s.text
  | .sequence _ => none

/-- The number of a value that must be a plain number below `bound`. -/
def numberOf? (bound : Nat) : Yaml.Scalar → Option Nat
  | s => do
      let n ← s.nat?
      if n < bound then some n else none

/-- The number of a value that must be a 64-bit number. -/
def chainIdOf? : Yaml.Value → Option UInt64
  | .scalar s => (numberOf? UInt64.size s).map UInt64.ofNat
  | .sequence _ => none

/-- The numbers of a value that must be a sequence of 32-bit numbers, which may
be left empty. -/
def eipsOf? : Yaml.Value → Option (List Nat)
  | .scalar s => if s.plain && s.text.isEmpty then some [] else none
  | .sequence items => items.mapM (numberOf? UInt32.size)

/-- The value of a key that may be missing. -/
def optional {α : Type} (m : Yaml.Mapping) (key : String) (read : Yaml.Value → Option α)
    (absent : Option α) : Option α :=
  match m.lookup key with
  | some value => read value
  | none => absent

/-- The description that a mapping holds: known keys only, each at most once,
name and id required. -/
def ofMapping? (m : Yaml.Mapping) : Option Settings := do
  let keys := m.map Prod.fst
  if keys.all ["name", "chain_id", "hardfork", "eips"].contains && keys.eraseDups = keys then
    let name ← optional m "name" scalarOf? none
    let chainId ← optional m "chain_id" chainIdOf? none
    let fork ← optional m "hardfork" scalarOf? (some Fork.standard.name)
    let eips ← optional m "eips" eipsOf? (some [])
    some ⟨name, chainId, fork, eips⟩
  else none

/-- The description that a text holds, complete or not. -/
def ofYaml? (text : String) : Option Settings :=
  (Yaml.mapping? text).bind ofMapping?

/-- Load a description from a text that stands at `path`. What is wrong with a text that
holds no description is told by `explain`. -/
def ofText (explain : String → String) (path text : String) : Except SettingsFault Settings :=
  match ofYaml? text with
  | none => .error (.malformed path (explain text))
  | some s => (s.validate.mapError .invalid).map fun _ => s

/-- Load a description from the file at `path`, given its content or the cause why there is
none. -/
def ofFile (explain : String → String) (path : String) (content : Except String Bytes) :
    Except SettingsFault Settings := do
  let bs ← content.mapError (.unreadable path)
  match String.fromUTF8? (ByteArray.mk bs.toArray) with
  | none => .error (.unreadable path "stream did not contain valid UTF-8")
  | some text => ofText explain path text

end Settings
end TypedTx
