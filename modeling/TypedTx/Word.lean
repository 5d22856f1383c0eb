import TypedTx.Bytes

/-!
# 256-bit words

All quantities of a transaction are unsigned 256-bit words. Their wire form is
the minimal big-endian byte string.
-/

namespace TypedTx

/-- An unsigned 256-bit integer. Its operators wrap modulo `2 ^ 256`. -/
abbrev Word := BitVec 256

namespace Word

def max : Word := BitVec.allOnes 256

/-- `n` modulo `2 ^ 256`. -/
def ofNat (n : Nat) : Word :=
  BitVec.ofNat 256 n

/-- `n`, if it fits in 256 bits. -/
def ofNat? (n : Nat) : Option Word :=
  if h : n < 2 ^ 256 then some (BitVec.ofNatLT n h) else none

def toBytes (w : Word) : Bytes :=
  Bytes.ofNat w.toNat

/-- The big-endian value of `bs`, if it fits in 256 bits. Leading zeros are
allowed. -/
def ofBytes? (bs : Bytes) : Option Word :=
  let significant := bs.stripZeros
  if significant.length ≤ 32 then some (ofNat significant.toNat) else none

def ofUInt64 (n : UInt64) : Word :=
  ofNat n.toNat

def toUInt64? (w : Word) : Option UInt64 :=
  if w.toNat < UInt64.size then some (UInt64.ofNat w.toNat) else none

def toUInt8? (w : Word) : Option UInt8 :=
  if w.toNat < UInt8.size then some (UInt8.ofNat w.toNat) else none

/-- Addition that stops at the largest word. -/
def saturatingAdd (a b : Word) : Word :=
  if a.uaddOverflow b then max else a + b

/-- Subtraction, if it does not go below zero. -/
def sub? (a b : Word) : Option Word :=
  if b ≤ a then some (a - b) else none

/-- Multiplication, if the product fits in 256 bits. -/
def mul? (a b : Word) : Option Word :=
  if a.umulOverflow b then none else some (a * b)

def decimal (w : Word) : String :=
  toString w.toNat

@[simp] theorem ofNat_toNat (w : Word) : ofNat w.toNat = w := by
  rw [ofNat, BitVec.ofNat_toNat, BitVec.setWidth_eq]

theorem ofNat_add (m n : Nat) : ofNat (m + n) = ofNat m + ofNat n :=
  BitVec.ofNat_add m n

theorem ofNat_mul (m n : Nat) : ofNat (m * n) = ofNat m * ofNat n :=
  BitVec.ofNat_mul m n

@[simp] theorem toNat_ofUInt64 (n : UInt64) : (ofUInt64 n).toNat = n.toNat := by
  have hlt := n.toNat_lt
  rw [ofUInt64, ofNat, BitVec.toNat_ofNat]
  omega

theorem ofUInt64_inj {m n : UInt64} (h : ofUInt64 m = ofUInt64 n) : m = n := by
  have hnat := congrArg BitVec.toNat h
  rw [toNat_ofUInt64, toNat_ofUInt64] at hnat
  exact UInt64.toNat_inj.mp hnat

end Word
end TypedTx
