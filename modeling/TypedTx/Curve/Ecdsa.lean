import TypedTx.Hash.Sha256
import TypedTx.Signature

/-!
# Recoverable signatures on secp256k1

Signatures are deterministic: the nonce is drawn from a generator seeded with
the key and the digest. The half of the curve order is an upper bound of every
`s` that signing produces.
-/

namespace TypedTx.Secp256k1

/-- The state of the nonce generator. -/
structure Generator where
  key : Bytes
  chain : Bytes

namespace Generator

/-- Mix `seed` into the state behind a separating byte. -/
def mix (g : Generator) (separator : UInt8) (seed : Bytes) : Generator :=
  let key := (Sha256.hmac g.key (g.chain ++ separator :: seed)).1
  ⟨key, (Sha256.hmac key g.chain).1⟩

/-- The generator for a private key and a digest reduced modulo the order. -/
def start (secret digest : Nat) : Generator :=
  let seed := Bytes.ofNatPadded 32 secret ++ Bytes.ofNatPadded 32 digest
  let blank : Generator := ⟨List.replicate 32 0, List.replicate 32 1⟩
  (blank.mix 0 seed).mix 1 seed

def next (g : Generator) : Nat × Generator :=
  let chain := (Sha256.hmac g.key g.chain).1
  (Bytes.toNat chain, ⟨g.key, chain⟩)

end Generator

/-- The signature of `digest` with one nonce, unless the nonce is unusable. The
smaller of `s` and its twin is taken, which may flip the parity. -/
def signWith (secret digest nonce : Nat) : Option RecoverableSignature :=
  if nonce = 0 ∨ order ≤ nonce then none
  else
    match (Point.mul nonce Point.generator).affine? with
    | none => none
    | some (x, y) =>
        let r := x % order
        let s := Modular.mul order (Modular.inverse order nonce)
          (Modular.add order digest (Modular.mul order r secret))
        if r = 0 ∨ s = 0 then none
        else
          let overflow := if x < order then 0 else 2
          let high := halfOrder.toNat < s
          let odd := if high then (y + 1) % 2 else y % 2
          let s := if high then order - s else s
          some ⟨UInt8.ofNat (overflow + odd), Word.ofNat r, Word.ofNat s⟩

/-- The signature with the first usable nonce among the next `attempts`. An
unusable nonce is a one in 2¹²⁷ event, so the first one practically decides. -/
def signFirst (secret digest : Nat) : (attempts : Nat) → Generator → RecoverableSignature
  | 0, _ => ⟨0, 0, 0⟩
  | attempts + 1, g =>
      let (nonce, g) := g.next
      match signWith secret digest nonce with
      | some signature => signature
      | none => signFirst secret digest attempts (g.mix 0 [])

def sign (digest : Digest) (key : SecretKey) : RecoverableSignature :=
  let z := Bytes.toNat digest.1 % order
  signFirst key.scalar z 64 (Generator.start key.scalar z)

def publicKey (key : SecretKey) : PublicKey :=
  match (Point.mul key.scalar Point.generator).affine? with
  | some (x, y) => publicKeyOfAffine x y
  | none => publicKeyOfAffine 0 0

/-- The public key that made a signature. There is none if `r` or `s` is zero
or not below the order, if `r` is the first coordinate of no point, or if the
key would be the neutral point. -/
def recover (digest : Digest) (odd : Bool) (r s : Word) : Option PublicKey := do
  let inRange (w : Word) : Bool := 0 < w.toNat && w.toNat < order
  if inRange r && inRange s then
    let point ← Point.lift? r.toNat odd
    let z := Bytes.toNat digest.1 % order
    let i := Modular.inverse order r.toNat
    let a := Modular.neg order (Modular.mul order z i)
    let b := Modular.mul order s.toNat i
    let (x, y) ← ((Point.mul a Point.generator).add (Point.mul b point)).affine?
    some (publicKeyOfAffine x y)
  else
    none

/-- Deterministic recoverable signatures on the curve. -/
def scheme : Scheme := ⟨publicKey, sign, recover⟩

end TypedTx.Secp256k1
