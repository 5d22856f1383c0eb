import TypedTx.Fault

/-!
# Replay protection of legacy signatures

The `v` of a legacy signature tells its parity and whether it commits to a chain
id: 27 and 28 do not, and 35 + 2 · chain id + parity does.
-/

namespace TypedTx

/-- Whether a legacy signature commits to the chain id. -/
inductive Replay where
  | eip155
  | unprotected
deriving DecidableEq, Repr

namespace Replay

/-- The parity and the chain id that `v` tells. -/
def decode (v : Word) : Except Fault (Word × Option Word) :=
  if v = 27 ∨ v = 28 then .ok (v - 27, none)
  else if 35 ≤ v then
    let shifted := v - 35
    .ok (shifted % 2, some (shifted / 2))
  else .error (.invalidSignatureParity "v" v)

/-- The `v` of a signature with the given parity on the given chain. -/
def encode (mode : Replay) (chainId : UInt64) (parity : Word) : Word :=
  match mode with
  | .eip155 => parity + 35 + Word.ofUInt64 chainId * 2
  | .unprotected => parity + 27

def chainId? (v : Option Word) : Option Word :=
  match v.map decode with
  | some (.ok (_, chainId)) => chainId
  | _ => none

/-- The mode of a signature that is there. -/
def ofV (v : Word) : Replay :=
  if 35 ≤ v then .eip155 else .unprotected

end Replay
end TypedTx
