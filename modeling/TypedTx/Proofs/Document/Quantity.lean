import Mathlib.Data.List.Forall2
import TypedTx.Proofs.Document
import TypedTx.Proofs.Hex.Grammar

/-!
# Which texts are quantities

A text writes a number if digits in base 16 that stand for the number are behind one
prefix. Zeros may stand in front of the digits, in any number, and zero needs no digit at
all, so every number is written by many texts. The text that is written for a number is
one of them.

A quantity is read from exactly the texts that write a number of 256 bits. The reader
counts the digits behind the zeros instead of looking at the value. There are more than
64 of them exactly if the value is too large.
-/

namespace TypedTx

namespace Hex

variable {text : String} {digits : List Char} {values : List Nat} {n : Nat}

/-- The digits are a numeral of the number, the most significant digit first. -/
def IsNumeral (digits : List Char) (n : Nat) : Prop :=
  ∃ values, List.Forall₂ IsDigit digits values ∧ Nat.ofDigits 16 values.reverse = n

/-- The text writes the number: a numeral of it stands behind one prefix. -/
def WritesNumber (text : String) (n : Nat) : Prop :=
  ∃ digits, Prefixed text digits ∧ IsNumeral digits n

theorem digit?_eq_some_iff {c : Char} : digit? c = some n ↔ IsDigit c n :=
  ⟨isDigit_of_digit?, digit?_of_isDigit⟩

theorem mapM_digit?_eq_some_iff :
    digits.mapM digit? = some values ↔ List.Forall₂ IsDigit digits values := by
  simp only [Success.mapM_iff, digit?_eq_some_iff]

theorem lt_of_mem_values (h : List.Forall₂ IsDigit digits values) : ∀ d ∈ values, d < 16 := by
  induction h with
  | nil => exact nofun
  | cons hdigit _ ih => exact List.forall_mem_cons.mpr ⟨hdigit.1, ih⟩

/-- The significant digits of a text that writes a number are those of the number. -/
theorem WritesNumber.significant?_eq (h : WritesNumber text n) :
    significant? text = some (Radix.digits 16 n) := by
  obtain ⟨digits, hprefixed, values, hvalues, rfl⟩ := h
  have hread : digits.mapM digit? = some values := mapM_digit?_eq_some_iff.mpr hvalues
  rw [significant?, unprefixed?_eq_some_iff.mpr hprefixed, Option.bind_eq_bind, Option.bind_some,
    hread, Option.bind_eq_bind, Option.bind_some,
    Radix.dropWhile_eq_digits (by decide) (lt_of_mem_values hvalues), Radix.value_eq_ofDigits]

theorem exists_writesNumber_of_significant? {ds : List Nat} (h : significant? text = some ds) :
    ∃ n, WritesNumber text n := by
  obtain ⟨digits, hprefixed, h⟩ := Option.bind_eq_some_iff.mp h
  obtain ⟨values, hvalues, -⟩ := Option.bind_eq_some_iff.mp h
  exact ⟨_, digits, unprefixed?_eq_some_iff.mp hprefixed, values,
    mapM_digit?_eq_some_iff.mp hvalues, rfl⟩

/-- A text writes one number at most. -/
theorem WritesNumber.unique {m : Nat} (h : WritesNumber text m) (h' : WritesNumber text n) :
    m = n := by
  have hdigits : Radix.digits 16 m = Radix.digits 16 n :=
    Option.some.inj (h.significant?_eq.symm.trans h'.significant?_eq)
  rw [← Radix.value_digits (b := 16) (by decide) m, hdigits, Radix.value_digits (by decide)]

end Hex

section Quantity

variable {field text : String} {n : Nat}

/-- A number has at most 64 digits exactly if it has at most 256 bits. -/
theorem readQuantity_of_writesNumber (h : Hex.WritesNumber text n) :
    readQuantity field text =
      if n < 2 ^ 256 then .ok (Word.ofNat n) else .error (.integerOverflow field) := by
  have hlength : ¬ 64 < (Radix.digits 16 n).length ↔ n < 2 ^ 256 :=
    Nat.not_lt.trans (Radix.length_digits_le_iff (by decide))
  rw [readQuantity, h.significant?_eq]
  dsimp only
  rw [Radix.value_digits (by decide)]
  by_cases hn : n < 2 ^ 256
  · rw [if_neg (hlength.mpr hn), if_pos hn]
  · rw [if_pos (not_not.mp (mt hlength.mp hn)), if_neg hn]

theorem readQuantity_of_not_writesNumber (h : ∀ n, ¬ Hex.WritesNumber text n) :
    readQuantity field text = .error (.invalidFieldEncoding field) := by
  have hnone : Hex.significant? text = none := by
    rw [Option.eq_none_iff_forall_ne_some]
    intro ds hds
    obtain ⟨n, hn⟩ := Hex.exists_writesNumber_of_significant? hds
    exact h n hn
  rw [readQuantity, hnone]

theorem readQuantity_eq_ok_iff {w : Word} :
    readQuantity field text = .ok w ↔ Hex.WritesNumber text w.toNat := by
  constructor
  · intro h
    by_cases hwrites : ∃ n, Hex.WritesNumber text n
    · obtain ⟨n, hn⟩ := hwrites
      rw [readQuantity_of_writesNumber hn, Success.admit_iff] at h
      obtain ⟨hlt, h⟩ := h
      rwa [← Except.ok.inj h, Word.toNat_ofNat_of_lt hlt]
    · rw [readQuantity_of_not_writesNumber (not_exists.mp hwrites)] at h
      exact absurd h nofun
  · intro h
    rw [readQuantity_of_writesNumber h, if_pos w.isLt, Word.ofNat_toNat]

example : readQuantity "nonce" "0X00fF" = .ok 255 := by decide

theorem readQuantity_eq_error_iff {fault : Fault} :
    readQuantity field text = .error fault ↔
      (fault = .integerOverflow field ∧ ∃ n, Hex.WritesNumber text n ∧ 2 ^ 256 ≤ n) ∨
        (fault = .invalidFieldEncoding field ∧ ∀ n, ¬ Hex.WritesNumber text n) := by
  by_cases hwrites : ∃ n, Hex.WritesNumber text n
  · obtain ⟨n, hn⟩ := hwrites
    rw [readQuantity_of_writesNumber hn]
    by_cases hlt : n < 2 ^ 256
    · rw [if_pos hlt]
      refine ⟨nofun, ?_⟩
      rintro (⟨-, m, hm, hle⟩ | ⟨-, hnone⟩)
      · rw [hm.unique hn] at hle
        exact absurd hlt (Nat.not_lt.mpr hle)
      · exact absurd hn (hnone n)
    · rw [if_neg hlt, Except.error.injEq]
      constructor
      · intro h
        exact .inl ⟨h.symm, n, hn, Nat.not_lt.mp hlt⟩
      · rintro (⟨h, -⟩ | ⟨-, hnone⟩)
        · exact h.symm
        · exact absurd hn (hnone n)
  · have hnone := not_exists.mp hwrites
    rw [readQuantity_of_not_writesNumber hnone, Except.error.injEq]
    constructor
    · intro h
      exact .inr ⟨h.symm, hnone⟩
    · rintro (⟨-, n, hn, -⟩ | ⟨h, -⟩)
      · exact absurd hn (hnone n)
      · exact h.symm

end Quantity

/-- A quantity is read as the number that its text writes, if that has at most 256 bits.
A text that writes a larger number is refused for its size, and a text that writes none
for its form. The text that is written for a number is read back to it. -/
theorem readQuantity_exact (field : String) :
    (∀ text,
      (∀ w, readQuantity field text = .ok w ↔ Hex.WritesNumber text w.toNat) ∧
      ∀ fault, readQuantity field text = .error fault ↔
        (fault = .integerOverflow field ∧ ∃ n, Hex.WritesNumber text n ∧ 2 ^ 256 ≤ n) ∨
          (fault = .invalidFieldEncoding field ∧ ∀ n, ¬ Hex.WritesNumber text n)) ∧
    ∀ w, readQuantity field (Hex.quantity w.toNat) = .ok w := by
  refine ⟨fun text => ⟨?_, ?_⟩, ?_⟩
  · intro w
    exact readQuantity_eq_ok_iff
  · intro fault
    exact readQuantity_eq_error_iff
  · exact readQuantity_quantity field

end TypedTx
