import TypedTx.Transaction.Signing

/-!
# Recovering signers

The public keys behind the signatures of a transaction. Each signature is
checked for a low `s` and then handed to the scheme.
-/

namespace TypedTx

/-- Recover a public key, where `v` is 27 or 28 for the two parities. -/
def Scheme.recoverAt (scheme : Scheme) (digest : Digest) (v : UInt64) (r s : Word) :
    Except Fault PublicKey :=
  if v = 27 ∨ v = 28 then
    match scheme.recover digest (v = 28) r s with
    | some key => .ok key
    | none => .error .invalidSignature
  else .error .invalidSignature

namespace Transaction

variable (scheme : Scheme)

def recoverSender (t : Transaction) : Except Fault PublicKey :=
  match t.isSigned, t.signature.complete? with
  | true, some (_, r, s) =>
      match t.parity? with
      | none => .error .invalidSignature
      | some parity => do
          requireLowS t.registry "s" s
          scheme.recoverAt t.signingHash (parity.toUInt64 + 27) r s
  | _, _ => .error .notSigned

/-- The public key of the sender, who made the first signature. -/
def senderKey (t : Transaction) : Except Failure PublicKey :=
  t.subject.annotate (t.recoverSender scheme)

def sender (t : Transaction) : Except Failure Address :=
  (t.senderKey scheme).map PublicKey.address

def verifies (t : Transaction) : Bool :=
  (t.senderKey scheme).isOk

/-- Recover the key behind one signature of a priority transaction. -/
def recoverPart (t : Transaction) (field : String) (signature : Word × Word × Word) :
    Except Fault PublicKey := do
  let (v, r, s) := signature
  requireLowS t.registry field s
  match v.toUInt64? with
  | none => .error .invalidSignature
  | some parity => scheme.recoverAt t.signingHash (parity + 27) r s

def secondKey (t : Transaction) : Except Failure PublicKey :=
  t.subject.annotate <|
    match t.isSigned, t.secondSignature?.bind SignatureParts.complete? with
    | true, some signature => t.recoverPart scheme "pS" signature
    | _, _ => .error .notSigned

def secondSender (t : Transaction) : Except Failure Address :=
  (t.secondKey scheme).map PublicKey.address

/-- Both public keys of a priority transaction, from the same digest. -/
def bothKeys (t : Transaction) : Except Failure (PublicKey × PublicKey) :=
  t.subject.annotate <|
    match t.isSigned, t.signature.complete?,
      t.secondSignature?.bind SignatureParts.complete? with
    | true, some first, some second => do
        let sender ← t.recoverPart scheme "s" first
        let other ← t.recoverPart scheme "pS" second
        .ok (sender, other)
    | _, _, _ => .error .notSigned

end Transaction
end TypedTx
