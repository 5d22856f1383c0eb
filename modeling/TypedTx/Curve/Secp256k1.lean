import TypedTx.Curve.Modular
import TypedTx.Word

/-!
# The curve secp256k1

The points of `y² = x³ + 7` over a prime field, in Jacobian coordinates: the
triple `(x, y, z)` stands for the affine point `(x / z², y / z³)`, and every
triple with `z = 0` for the neutral point.
-/

namespace TypedTx.Secp256k1

def fieldPrime : Nat :=
  0xfffffffffffffffffffffffffffffffffffffffffffffffffffffffefffffc2f

/-- The number of points of the curve. -/
def order : Nat :=
  0xfffffffffffffffffffffffffffffffebaaedce6af48a03bbfd25e8cd0364141

/-- Half the order, rounded down. A signature whose `s` is greater has a twin
whose `s` is not. -/
def halfOrder : Word :=
  0x7fffffffffffffffffffffffffffffff5d576e7357a4501ddfe92f46681b20a0#256

theorem toNat_halfOrder : halfOrder.toNat = order / 2 := rfl

/-- A curve point in Jacobian coordinates. -/
structure Point where
  x : Nat
  y : Nat
  z : Nat
deriving DecidableEq, Repr

namespace Point

/-- The neutral point. -/
def zero : Point := ⟨1, 1, 0⟩

def ofAffine (x y : Nat) : Point := ⟨x, y, 1⟩

/-- The point whose multiples are all points. -/
def generator : Point :=
  ofAffine 0x79be667ef9dcbbac55a06295ce870b07029bfcdb2dce28d959f2815b16f81798
    0x483ada7726a3c4655da4fbfc0e1108a8fd17b448a68554199c47d08ffb10d4b8

private abbrev p := fieldPrime

def double (a : Point) : Point :=
  if a.z = 0 ∨ a.y = 0 then zero
  else
    let xx := Modular.square p a.x
    let yy := Modular.square p a.y
    let yyyy := Modular.square p yy
    let d := Modular.mul p 4 (Modular.mul p a.x yy)
    let e := Modular.mul p 3 xx
    let x := Modular.sub p (Modular.square p e) (Modular.mul p 2 d)
    let y := Modular.sub p (Modular.mul p e (Modular.sub p d x)) (Modular.mul p 8 yyyy)
    ⟨x, y, Modular.mul p 2 (Modular.mul p a.y a.z)⟩

def add (a b : Point) : Point :=
  if a.z = 0 then b
  else if b.z = 0 then a
  else
    let aa := Modular.square p a.z
    let bb := Modular.square p b.z
    let u1 := Modular.mul p a.x bb
    let u2 := Modular.mul p b.x aa
    let s1 := Modular.mul p a.y (Modular.mul p b.z bb)
    let s2 := Modular.mul p b.y (Modular.mul p a.z aa)
    if u1 = u2 then
      if s1 = s2 then double a else zero
    else
      let h := Modular.sub p u2 u1
      let r := Modular.sub p s2 s1
      let hh := Modular.square p h
      let hhh := Modular.mul p h hh
      let v := Modular.mul p u1 hh
      let x := Modular.sub p (Modular.sub p (Modular.square p r) hhh) (Modular.mul p 2 v)
      let y := Modular.sub p (Modular.mul p r (Modular.sub p v x)) (Modular.mul p s1 hhh)
      ⟨x, y, Modular.mul p h (Modular.mul p a.z b.z)⟩

/-- The multiple `k · a`, for a factor of at most `bits` bits. -/
def mulBits : (bits k : Nat) → Point → Point
  | 0, _, _ => zero
  | bits + 1, k, a =>
      let half := double (mulBits bits (k / 2) a)
      if k % 2 = 0 then half else add half a

/-- The multiple `k · a`, for a factor below `2 ^ 256`. -/
def mul (k : Nat) (a : Point) : Point := mulBits 256 k a

/-- The affine coordinates, unless the point is neutral. -/
def affine? (a : Point) : Option (Nat × Nat) :=
  if a.z = 0 then none
  else
    let i := Modular.inverse p a.z
    let ii := Modular.square p i
    some (Modular.mul p a.x ii, Modular.mul p a.y (Modular.mul p i ii))

/-- The point with first coordinate `x` whose second coordinate is odd or even
as asked, if the curve has one. -/
def lift? (x : Nat) (odd : Bool) : Option Point :=
  if fieldPrime ≤ x then none
  else
    let square := Modular.add p (Modular.mul p x (Modular.square p x)) 7
    let root := Modular.pow p 256 square ((p + 1) / 4)
    if Modular.square p root = square then
      let y := if (root % 2 == 1) == odd then root else Modular.neg p root
      some (ofAffine x y)
    else none

end Point

/-- The two coordinates of a point, 32 bytes each. -/
def publicKeyOfAffine (x y : Nat) : PublicKey :=
  ⟨Bytes.ofNatPadded 32 x ++ Bytes.ofNatPadded 32 y, by simp⟩

end TypedTx.Secp256k1
