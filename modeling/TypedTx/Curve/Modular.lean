/-!
# Modular arithmetic

Arithmetic on remainders. Every operation takes the modulus first and returns a
remainder below it; `sub` and `neg` expect remainders.
-/

namespace TypedTx.Modular

def add (m a b : Nat) : Nat := (a + b) % m

def sub (m a b : Nat) : Nat := (a + (m - b)) % m

def neg (m a : Nat) : Nat := (m - a) % m

def mul (m a b : Nat) : Nat := a * b % m

def square (m a : Nat) : Nat := a * a % m

/-- `a ^ e` by squaring, for an exponent of at most `bits` bits. -/
def pow (m : Nat) : (bits : Nat) → (a e : Nat) → Nat
  | 0, _, _ => 1 % m
  | bits + 1, a, e =>
      let half := square m (pow m bits a (e / 2))
      if e % 2 = 0 then half else mul m half a

/-- The inverse of `a` modulo a prime of at most 256 bits; 0 for 0. -/
def inverse (m a : Nat) : Nat := pow m 256 a (m - 2)

end TypedTx.Modular
