import TypedTx.Radix

/-!
# Byte strings

Byte strings, byte strings of a fixed size, and the big-endian reading of a
byte string as a number. The minimal encoding of a number has no leading zero
byte, so zero is the empty string.
-/

namespace TypedTx

/-- A byte string, first byte first. -/
abbrev Bytes := List UInt8

namespace Bytes

def stripZeros (bs : Bytes) : Bytes :=
  bs.dropWhile (· == 0)

/-- Whether `bs` starts with a zero byte, which no minimal encoding does. -/
def hasLeadingZero (bs : Bytes) : Bool :=
  bs.head? == some 0

/-- The number whose big-endian bytes are `bs`; leading zeros are allowed. -/
def toNat (bs : Bytes) : Nat :=
  Radix.value 256 (bs.map UInt8.toNat)

/-- The minimal big-endian bytes of `n`. -/
def ofNat (n : Nat) : Bytes :=
  (Radix.digits 256 n).map UInt8.ofNat

/-- The big-endian bytes of `n` modulo `256 ^ size`, padded with zeros to
`size` bytes. -/
def ofNatPadded : (size n : Nat) → Bytes
  | 0, _ => []
  | size + 1, n => ofNatPadded size (n / 256) ++ [UInt8.ofNat n]

@[simp] theorem toNat_nil : toNat [] = 0 := rfl

@[simp] theorem ofNat_zero : ofNat 0 = [] := rfl

@[simp] theorem length_ofNatPadded (size n : Nat) : (ofNatPadded size n).length = size := by
  induction size generalizing n with
  | zero => rfl
  | succ size ih => simp [ofNatPadded, ih]

end Bytes

/-- Byte strings of exactly `n` bytes. -/
abbrev Fixed (n : Nat) := { bs : Bytes // bs.length = n }

namespace Fixed

def ofBytes? (n : Nat) (bs : Bytes) : Option (Fixed n) :=
  if h : bs.length = n then some ⟨bs, h⟩ else none

/-- The big-endian bytes of `k` modulo `256 ^ n`. -/
def ofNat (n k : Nat) : Fixed n :=
  ⟨Bytes.ofNatPadded n k, Bytes.length_ofNatPadded n k⟩

@[simp] theorem ofBytes?_val {n : Nat} (x : Fixed n) : ofBytes? n x.1 = some x := by
  simp [ofBytes?, x.2]

end Fixed

abbrev Address := Fixed 20

abbrev StorageKey := Fixed 32

/-- The output of a 256-bit hash function. -/
abbrev Digest := Fixed 32

/-- A curve point, its two coordinates one after the other. -/
abbrev PublicKey := Fixed 64

end TypedTx
