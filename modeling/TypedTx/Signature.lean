import TypedTx.Curve.Secp256k1
import TypedTx.Hash.Keccak

/-!
# Keys, signatures and signature schemes

A signature scheme signs digests and recovers the signer's public key from a
digest and a signature. Transactions are signed and checked relative to a
scheme; the scheme of the network is `Secp256k1.scheme`.
-/

namespace TypedTx

/-- A private key: a positive number below the order of the curve. -/
structure SecretKey where
  scalar : Nat
  pos : 0 < scalar
  lt_order : scalar < Secp256k1.order

inductive KeyFault where
  | length (found : Nat)
  | scalar
deriving DecidableEq, Repr

/-- The private key with the given big-endian bytes. -/
def SecretKey.ofBytes (bs : Bytes) : Except KeyFault SecretKey :=
  if bs.length = 32 then
    if h : 0 < bs.toNat ∧ bs.toNat < Secp256k1.order then .ok ⟨bs.toNat, h.1, h.2⟩
    else .error .scalar
  else .error (.length bs.length)

/-- A signature together with the number that tells the possible signers
apart. -/
structure RecoverableSignature where
  parity : UInt8
  r : Word
  s : Word
deriving DecidableEq, Repr

/-- What signing and checking transactions needs of a signature scheme. -/
structure Scheme where
  /-- The public key that belongs to a private key. -/
  publicKey : SecretKey → PublicKey
  /-- Sign a digest. The same digest and key always give the same signature. -/
  sign : Digest → SecretKey → RecoverableSignature
  /-- The public key whose signature of the digest has the given parity, `r`
  and `s`, if there is one. -/
  recover : Digest → (odd : Bool) → (r s : Word) → Option PublicKey

/-- The address of a public key: the last 20 bytes of its hash. -/
def PublicKey.address (key : PublicKey) : Address :=
  ⟨(Keccak.hash key.1).1.drop 12, by rw [List.length_drop, (Keccak.hash key.1).2]⟩

end TypedTx
