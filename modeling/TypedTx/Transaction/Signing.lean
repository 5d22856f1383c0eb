import TypedTx.Transaction.Build

/-!
# Signing

Signing computes the digest, signs it with the key, writes the signature into
the draft and builds the transaction anew under the same registry and flags. A
priority transaction has two signatures of the same digest.
-/

namespace TypedTx

/-- The fault of a byte string that is no private key. -/
def KeyFault.fault : KeyFault → Fault
  | .length found => .invalidKeyLength found
  | .scalar => .invalidPrivateKey

def readKey (key : Bytes) : Except Fault SecretKey :=
  (SecretKey.ofBytes key).mapError KeyFault.fault

def requireKeyLength (key : Bytes) : Except Fault Unit :=
  if key.length = 32 then .ok () else .error (.invalidKeyLength key.length)

namespace Scheme

def signWithBytes (scheme : Scheme) (digest : Digest) (key : Bytes) :
    Except Fault RecoverableSignature := do
  let secret ← readKey key
  .ok (scheme.sign digest secret)

end Scheme

/-- A signature as its components, where `v` is the bare parity. -/
def RecoverableSignature.parts (signature : RecoverableSignature) : SignatureParts :=
  .ofWords (Word.ofNat signature.parity.toNat) signature.r signature.s

namespace Transaction

variable (scheme : Scheme)

def withSignatures (t : Transaction) (first : SignatureParts)
    (second : SignatureParts) : Except Failure Transaction :=
  t.kind.build ((t.draft.withSignature first).withSecondSignature second) t.options

def signLegacy (t : Transaction) (key : Bytes) (mode : Replay) : Except Failure Transaction := do
  if mode = .eip155 && !t.registry.isActive 155 then
    .error (t.failure (.unsupportedUpgrade 155))
  else
    let digest := Keccak.hash (t.legacyMessage mode)
    let signature ← t.subject.annotate (scheme.signWithBytes digest key)
    let v := mode.encode t.registry.chainId (Word.ofNat signature.parity.toNat)
    t.withSignatures (.ofWords v signature.r signature.s) t.draft.secondSignature

/-- Sign a transaction whose only `v` is the bare parity. -/
def signTyped (t : Transaction) (key : Bytes) : Except Failure Transaction := do
  let signature ← t.subject.annotate (scheme.signWithBytes t.signingHash key)
  t.withSignatures signature.parts t.draft.secondSignature

/-- Sign a priority transaction with two keys. The lengths of both are checked
before either is used. -/
def signBoth (t : Transaction) (key secondKey : Bytes) : Except Failure Transaction := do
  t.subject.annotate (requireKeyLength key)
  t.subject.annotate (requireKeyLength secondKey)
  let digest := t.signingHash
  let first ← t.subject.annotate (scheme.signWithBytes digest key)
  let second ← t.subject.annotate (scheme.signWithBytes digest secondKey)
  t.withSignatures first.parts second.parts

/-- Sign with `key`. A priority transaction needs a second key, the others
ignore it. A legacy transaction commits to the chain id if the registry lets
it. -/
def sign (t : Transaction) (key : Bytes) (secondKey : Option Bytes) :
    Except Failure Transaction :=
  match t.terms with
  | .legacy _ => t.signLegacy scheme key (if t.registry.isActive 155 then .eip155 else .unprotected)
  | .accessList .. | .feeMarket _ => t.signTyped scheme key
  | .priority .. =>
      match secondKey with
      | none => .error (t.failure (.invalidKeyLength 0))
      | some secondKey => t.signBoth scheme key secondKey

end Transaction
end TypedTx
