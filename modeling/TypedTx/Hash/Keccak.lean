import TypedTx.Bytes

/-!
# The Keccak-256 hash

The sponge absorbs the padded message in blocks of 136 bytes into a state of 25
lanes of 64 bits, applying a permutation of 24 rounds after each block, and
yields the first four lanes. The lane in column `x` and row `y` has index
`x + 5 * y`.
-/

namespace TypedTx.Keccak

/-- The lanes of the sponge. -/
abbrev State := Vector UInt64 25

/-- The number of message bytes that one permutation absorbs. -/
def rate : Nat := 136

/-- The lane in column `x` and row `y`, both counted modulo 5. -/
def lane (s : State) (x y : Nat) : UInt64 :=
  s.get ⟨x % 5 + 5 * (y % 5), by omega⟩

def rotateLeft (w n : UInt64) : UInt64 :=
  (w <<< n) ||| (w >>> (64 - n))

def rotations : Vector UInt64 25 :=
  #v[0, 1, 62, 28, 27, 36, 44, 6, 55, 20, 3, 10, 43, 25, 39, 41, 45, 15, 21, 8, 18, 2, 61, 56, 14]

def roundConstants : List UInt64 :=
  [0x0000000000000001, 0x0000000000008082, 0x800000000000808a, 0x8000000080008000,
   0x000000000000808b, 0x0000000080000001, 0x8000000080008081, 0x8000000000008009,
   0x000000000000008a, 0x0000000000000088, 0x0000000080008009, 0x000000008000000a,
   0x000000008000808b, 0x800000000000008b, 0x8000000000008089, 0x8000000000008003,
   0x8000000000008002, 0x8000000000000080, 0x000000000000800a, 0x800000008000000a,
   0x8000000080008081, 0x8000000000008080, 0x0000000080000001, 0x8000000080008008]

/-- Add to every lane the parities of two neighbouring columns. -/
def mixColumns (s : State) : State :=
  let parity : Vector UInt64 5 := Vector.ofFn fun x =>
    lane s x 0 ^^^ lane s x 1 ^^^ lane s x 2 ^^^ lane s x 3 ^^^ lane s x 4
  let change : Vector UInt64 5 := Vector.ofFn fun x =>
    parity[(x.1 + 4) % 5] ^^^ rotateLeft parity[(x.1 + 1) % 5] 1
  Vector.ofFn fun i => s[i] ^^^ change[i.1 % 5]

/-- Rotate every lane and move it to its new place. -/
def rotateAndMove (s : State) : State :=
  Vector.ofFn fun i =>
    let x := i.1 % 5
    let y := i.1 / 5
    rotateLeft (lane s (x + 3 * y) x) (lane rotations (x + 3 * y) x)

/-- Combine each lane with the next two in its row. -/
def mixRows (s : State) : State :=
  Vector.ofFn fun i =>
    let x := i.1 % 5
    let y := i.1 / 5
    s[i] ^^^ (~~~ lane s (x + 1) y &&& lane s (x + 2) y)

def round (s : State) (constant : UInt64) : State :=
  let s := mixRows (rotateAndMove (mixColumns s))
  s.set 0 (s[0] ^^^ constant)

def permute (s : State) : State :=
  roundConstants.foldl round s

/-- The little-endian value of at most eight bytes. -/
def laneOfBytes (bs : Bytes) : UInt64 :=
  bs.foldr (fun b w => (w <<< 8) ||| b.toUInt64) 0

def laneBytes (w : UInt64) : Bytes :=
  (List.range 8).map fun i => (w >>> UInt64.ofNat (8 * i)).toUInt8

/-- Add a block to the state and permute it. -/
def absorb (s : State) (block : Bytes) : State :=
  permute (Vector.ofFn fun i => s[i] ^^^ laneOfBytes ((block.drop (8 * i.1)).take 8))

/-- Absorb `count` blocks from the front of the input. -/
def absorbBlocks : (count : Nat) → Bytes → State → State
  | 0, _, s => s
  | count + 1, input, s => absorbBlocks count (input.drop rate) (absorb s (input.take rate))

/-- The bytes that complete a message of `size` bytes to whole blocks. -/
def padding (size : Nat) : Bytes :=
  let missing := rate - size % rate
  if missing = 1 then [0x81] else 0x01 :: List.replicate (missing - 2) 0 ++ [0x80]

/-- The first four lanes. -/
def squeeze (s : State) : Digest :=
  ⟨laneBytes s[0] ++ laneBytes s[1] ++ laneBytes s[2] ++ laneBytes s[3], by simp [laneBytes]⟩

def hash (message : Bytes) : Digest :=
  let size := message.length
  squeeze (absorbBlocks (size / rate + 1) (message ++ padding size) (Vector.replicate 25 0))

end TypedTx.Keccak
