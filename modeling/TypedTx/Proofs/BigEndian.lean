import Mathlib.Data.Nat.Digits.Lemmas
import TypedTx.Word

/-!
# Minimal big-endian numbers

Writing a number and reading it back gives the number, and reading a byte string
that does not start with a zero byte and writing it back gives the byte string.
The minimal form is thus the only one without a leading zero, and its size tells
how large the number is. Zeros at the front do not change the value, so a byte
string of any length is read as a word exactly when its value fits.
-/

namespace TypedTx

namespace Radix

variable {b : Nat}

/-- The numeral of a number has the digits of the number, the last one first. -/
theorem digits_eq_reverse (hb : 1 < b) (n : Nat) : digits b n = (Nat.digits b n).reverse := by
  induction n using Nat.strongRecOn with
  | ind n ih =>
      by_cases hn : n = 0
      · subst hn
        simp
      · have hpos : 0 < n := Nat.pos_of_ne_zero hn
        rw [digits_of_pos hb hpos, ih _ (Nat.div_lt_self hpos hb), Nat.digits_def' hb hpos,
          List.reverse_cons]

theorem value_eq_ofDigits (b : Nat) (ds : List Nat) : value b ds = Nat.ofDigits b ds.reverse := by
  induction ds using List.reverseRecOn with
  | nil => rfl
  | append_singleton ds d ih =>
      rw [value_concat, ih, List.reverse_append, List.reverse_singleton, List.singleton_append,
        Nat.ofDigits_cons, Nat.add_comm, Nat.mul_comm]

@[simp] theorem value_zero_cons (b : Nat) (ds : List Nat) : value b (0 :: ds) = value b ds := by
  simp [value]

theorem lt_of_mem_digits (hb : 1 < b) {n d : Nat} (hd : d ∈ digits b n) : d < b := by
  rw [digits_eq_reverse hb, List.mem_reverse] at hd
  exact Nat.digits_lt_base hb hd

theorem head?_digits_ne_zero (hb : 1 < b) (n : Nat) : (digits b n).head? ≠ some 0 := by
  rw [digits_eq_reverse hb, List.head?_reverse]
  by_cases hn : n = 0
  · simp [hn]
  · rw [List.getLast?_eq_some_getLast (Nat.digits_ne_nil_iff_ne_zero.mpr hn)]
    simpa using Nat.getLast_digit_ne_zero b hn

/-- A numeral that does not start with zero is the numeral of its value. -/
theorem digits_value (hb : 1 < b) {ds : List Nat} (hlt : ∀ d ∈ ds, d < b)
    (hhead : ds.head? ≠ some 0) : digits b (value b ds) = ds := by
  rw [digits_eq_reverse hb, value_eq_ofDigits, Nat.digits_ofDigits b hb, List.reverse_reverse]
  · intro d hd
    exact hlt d (List.mem_reverse.mp hd)
  · intro hne hzero
    apply hhead
    rw [← hzero, ← List.getLast?_eq_some_getLast, List.getLast?_reverse]

/-- Without the zeros in front, a numeral is the numeral of its value. -/
theorem dropWhile_eq_digits (hb : 1 < b) {ds : List Nat} (hlt : ∀ d ∈ ds, d < b) :
    ds.dropWhile (· == 0) = digits b (value b ds) := by
  induction ds with
  | nil => rfl
  | cons d ds ih =>
      by_cases hd : d = 0
      · subst hd
        rw [value_zero_cons]
        exact ih (List.forall_mem_cons.mp hlt).2
      · have hhead : (d :: ds).head? ≠ some 0 := fun h => hd (Option.some.inj h)
        rw [digits_value hb hlt hhead, List.dropWhile_cons_of_neg]
        simpa using hd

theorem length_digits_le_iff (hb : 1 < b) {n k : Nat} :
    (digits b n).length ≤ k ↔ n < b ^ k := by
  rw [digits_eq_reverse hb, List.length_reverse, Nat.digits_length_le_iff hb]

end Radix

namespace Bytes

private theorem one_lt_base : 1 < 256 := by decide

private theorem map_toNat_lt (bs : Bytes) : ∀ d ∈ bs.map UInt8.toNat, d < 256 := by
  intro d hd
  obtain ⟨byte, _, rfl⟩ := List.mem_map.mp hd
  exact byte.toNat_lt

theorem map_ofNat_map_toNat (bs : Bytes) : (bs.map UInt8.toNat).map UInt8.ofNat = bs := by
  rw [List.map_map]
  exact (List.map_congr_left fun byte _ => UInt8.ofNat_toNat).trans (List.map_id _)

theorem hasLeadingZero_iff {bs : Bytes} :
    bs.hasLeadingZero = true ↔ (bs.map UInt8.toNat).head? = some 0 := by
  cases bs with
  | nil => simp [hasLeadingZero]
  | cons byte bs => simp [hasLeadingZero, UInt8.ext_iff]

theorem hasLeadingZero_eq_false_iff {bs : Bytes} :
    bs.hasLeadingZero = false ↔ bs.head? ≠ some 0 := by
  rw [hasLeadingZero, Bool.eq_false_iff, ne_eq, beq_iff_eq]

theorem map_toNat_ofNat (n : Nat) : (ofNat n).map UInt8.toNat = Radix.digits 256 n := by
  rw [ofNat, List.map_map]
  refine (List.map_congr_left fun d hd => ?_).trans (List.map_id _)
  exact UInt8.toNat_ofNat_of_lt' (Radix.lt_of_mem_digits one_lt_base hd)

@[simp] theorem toNat_ofNat (n : Nat) : toNat (ofNat n) = n := by
  rw [toNat, map_toNat_ofNat, Radix.value_digits one_lt_base]

@[simp] theorem hasLeadingZero_ofNat (n : Nat) : (ofNat n).hasLeadingZero = false := by
  rw [Bool.eq_false_iff, ne_eq, hasLeadingZero_iff, map_toNat_ofNat]
  exact Radix.head?_digits_ne_zero one_lt_base n

/-- A byte string without a leading zero is the minimal form of its value. -/
theorem ofNat_toNat {bs : Bytes} (h : bs.hasLeadingZero = false) : ofNat bs.toNat = bs := by
  have hhead : (bs.map UInt8.toNat).head? ≠ some 0 := by
    rw [ne_eq, ← hasLeadingZero_iff, h]
    exact Bool.false_ne_true
  rw [ofNat, toNat, Radix.digits_value one_lt_base bs.map_toNat_lt hhead, map_ofNat_map_toNat]

theorem length_ofNat_le_iff {n k : Nat} : (ofNat n).length ≤ k ↔ n < 256 ^ k := by
  rw [ofNat, List.length_map, Radix.length_digits_le_iff one_lt_base]

/-- Without leading zeros the size of a byte string bounds its value from both
sides. -/
theorem length_le_iff {bs : Bytes} (h : bs.hasLeadingZero = false) {k : Nat} :
    bs.length ≤ k ↔ bs.toNat < 256 ^ k := by
  rw [← length_ofNat_le_iff, ofNat_toNat h]

theorem map_toNat_stripZeros (bs : Bytes) :
    bs.stripZeros.map UInt8.toNat = (bs.map UInt8.toNat).dropWhile (· == 0) := by
  have hzero : ((· == 0) ∘ UInt8.toNat) = fun byte : UInt8 => byte == 0 := by
    funext byte
    simp [UInt8.ext_iff]
  rw [List.dropWhile_map, hzero, stripZeros]

/-- What is left of a byte string is the minimal form of its value. -/
theorem stripZeros_eq_ofNat (bs : Bytes) : bs.stripZeros = ofNat bs.toNat := by
  rw [ofNat, toNat, ← Radix.dropWhile_eq_digits one_lt_base bs.map_toNat_lt,
    ← map_toNat_stripZeros, map_ofNat_map_toNat]

end Bytes

namespace Word

theorem toNat_ofNat_of_lt {n : Nat} (h : n < 2 ^ 256) : (ofNat n).toNat = n := by
  rw [ofNat, BitVec.toNat_ofNat, Nat.mod_eq_of_lt h]

theorem length_toBytes_le (w : Word) : w.toBytes.length ≤ 32 :=
  Bytes.length_ofNat_le_iff.mpr w.isLt

@[simp] theorem hasLeadingZero_toBytes (w : Word) : w.toBytes.hasLeadingZero = false :=
  Bytes.hasLeadingZero_ofNat w.toNat

/-- Only the value of a byte string decides which word is read from it. -/
theorem ofBytes?_eq_ofNat? (bs : Bytes) : ofBytes? bs = ofNat? bs.toNat := by
  have hfits : (Bytes.ofNat bs.toNat).length ≤ 32 ↔ bs.toNat < 2 ^ 256 :=
    Bytes.length_ofNat_le_iff
  rw [ofBytes?, ofNat?, Bytes.stripZeros_eq_ofNat]
  by_cases h : bs.toNat < 2 ^ 256
  · simp only [hfits, h, if_true, dif_pos, Bytes.toNat_ofNat, ofNat, BitVec.ofNatLT_eq_ofNat]
  · simp only [hfits, h, if_false, dif_neg, not_false_eq_true]

theorem ofBytes?_eq_some_iff {bs : Bytes} {w : Word} :
    ofBytes? bs = some w ↔ bs.toNat = w.toNat := by
  rw [ofBytes?_eq_ofNat?, ofNat?]
  split
  · rw [Option.some.injEq, BitVec.toNat_eq, BitVec.toNat_ofNatLT]
  · rename_i hover
    exact ⟨nofun, fun h => absurd (h ▸ w.isLt) hover⟩

theorem ofBytes?_eq_none_iff {bs : Bytes} : ofBytes? bs = none ↔ 2 ^ 256 ≤ bs.toNat := by
  rw [ofBytes?_eq_ofNat?, ofNat?]
  simp only [dite_eq_right_iff, reduceCtorEq, imp_false, Nat.not_lt]

@[simp] theorem ofBytes?_toBytes (w : Word) : ofBytes? w.toBytes = some w :=
  ofBytes?_eq_some_iff.mpr (Bytes.toNat_ofNat w.toNat)

/-- What is read from a byte string without a leading zero is written back as the
same byte string. -/
theorem toBytes_of_ofBytes? {bs : Bytes} {w : Word} (hzero : bs.hasLeadingZero = false)
    (h : ofBytes? bs = some w) : w.toBytes = bs := by
  rw [toBytes, ← ofBytes?_eq_some_iff.mp h, Bytes.ofNat_toNat hzero]

theorem toBytes_injective {w x : Word} (h : w.toBytes = x.toBytes) : w = x :=
  Option.some.inj (by rw [← ofBytes?_toBytes w, h, ofBytes?_toBytes])

end Word
end TypedTx
