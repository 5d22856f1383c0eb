import TypedTx.Document.Json
import TypedTx.Registry.Fork

/-!
# Forks in JSON

A fork is written as its name. It is read from exactly that name, or from an
object whose only key is the name and whose value is `null`.
-/

namespace TypedTx.Fork

def ofJson? : Json → Option Fork
  | .string name => ofExactName? name
  | .object [(name, .null)] => ofExactName? name
  | _ => none

def toJson (fork : Fork) : Json :=
  .string fork.name

end TypedTx.Fork
