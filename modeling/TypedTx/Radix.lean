/-!
# Positional numerals

A numeral in base `b` is a list of digits, the most significant first. `value`
reads a numeral and `digits` writes the one without leading zeros; zero is the
empty numeral. Bytes are digits in base 256, hexadecimal text in base 16.
-/

namespace TypedTx.Radix

/-- The number a numeral stands for. -/
def value (b : Nat) (ds : List Nat) : Nat :=
  ds.foldl (fun n d => n * b + d) 0

/-- Write the digits of `n` in front of `acc`. The first argument bounds the
number of digits; any bound that is at least `n` gives the same numeral. -/
def digitsOnto (b : Nat) : Nat → Nat → List Nat → List Nat
  | 0, _, acc => acc
  | bound + 1, n, acc =>
      if n = 0 then acc else digitsOnto b bound (n / b) (n % b :: acc)

/-- The numeral of `n` without leading zeros. -/
def digits (b n : Nat) : List Nat :=
  digitsOnto b n n []

@[simp] theorem value_nil (b : Nat) : value b [] = 0 := rfl

@[simp] theorem digits_zero (b : Nat) : digits b 0 = [] := rfl

/-- Appending a digit shifts the number by one place. -/
theorem value_concat (b : Nat) (ds : List Nat) (d : Nat) :
    value b (ds ++ [d]) = value b ds * b + d := by
  simp [value]

theorem digitsOnto_append (b bound n : Nat) (acc : List Nat) :
    digitsOnto b bound n acc = digitsOnto b bound n [] ++ acc := by
  induction bound generalizing n acc with
  | zero => rfl
  | succ bound ih =>
      simp only [digitsOnto]
      split
      · rfl
      · rw [ih, ih (n / b) [n % b], List.append_assoc, List.singleton_append]

/-- The bound is immaterial once it reaches the number. -/
theorem digitsOnto_bound {b : Nat} (hb : 1 < b) {bound n : Nat} (h : n ≤ bound)
    (acc : List Nat) : digitsOnto b bound n acc = digitsOnto b n n acc := by
  induction n using Nat.strongRecOn generalizing bound acc with
  | ind n ih =>
      cases n with
      | zero => cases bound <;> simp [digitsOnto]
      | succ n =>
          cases bound with
          | zero => omega
          | succ bound =>
              have hlt : (n + 1) / b < n + 1 := Nat.div_lt_self (Nat.succ_pos n) hb
              simp only [digitsOnto, Nat.succ_ne_zero, if_false]
              rw [ih _ hlt (by omega), ← ih _ hlt (Nat.le_of_lt_succ hlt)]

/-- The last digit of a positive number is its remainder, the others are the
digits of its quotient. -/
theorem digits_of_pos {b n : Nat} (hb : 1 < b) (hn : 0 < n) :
    digits b n = digits b (n / b) ++ [n % b] := by
  obtain ⟨m, rfl⟩ : ∃ m, n = m + 1 := ⟨n - 1, by omega⟩
  have hlt : (m + 1) / b < m + 1 := Nat.div_lt_self (Nat.succ_pos m) hb
  rw [digits, digitsOnto, if_neg (Nat.succ_ne_zero m), digitsOnto_append,
    digitsOnto_bound hb (Nat.le_of_lt_succ hlt)]
  rfl

/-- Reading back what was written. -/
theorem value_digits {b : Nat} (hb : 1 < b) (n : Nat) : value b (digits b n) = n := by
  induction n using Nat.strongRecOn with
  | ind n ih =>
      by_cases hn : n = 0
      · subst hn
        rfl
      · rw [digits_of_pos hb (Nat.pos_of_ne_zero hn), value_concat,
          ih _ (Nat.div_lt_self (Nat.pos_of_ne_zero hn) hb)]
        exact Nat.div_add_mod' n b

end TypedTx.Radix
