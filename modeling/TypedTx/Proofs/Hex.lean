import TypedTx.Hex
import TypedTx.Proofs.BigEndian
import TypedTx.Proofs.Success

/-!
# Hexadecimal texts are read back

A written byte string has two digits a byte, so it is read pair by pair, and a second
digit is never the `x` of another prefix. A written quantity has no leading zeros, so
its digits are the significant ones, and zero has none.
-/

namespace TypedTx.Hex

theorem digit?_digitChar {n : Nat} (h : n < 16) : digit? (Nat.digitChar n) = some n := by
  have hall : ∀ n < 16, digit? (Nat.digitChar n) = some n := by decide
  exact hall n h

theorem digitChar_ne_x {n : Nat} (h : n < 16) : Nat.digitChar n ≠ 'x' := by
  have hall : ∀ n < 16, Nat.digitChar n ≠ 'x' := by decide
  exact hall n h

theorem encode_cons (b : UInt8) (bs : Bytes) :
    encode (b :: bs) =
      Nat.digitChar (b.toNat / 16) :: Nat.digitChar (b.toNat % 16) :: encode bs := rfl

theorem length_encode (bs : Bytes) : (encode bs).length = 2 * bs.length := by
  induction bs with
  | nil => rfl
  | cons b bs ih =>
      rw [encode_cons, List.length_cons, List.length_cons, ih, List.length_cons]
      omega

theorem decodeOnto_encode (bs acc : Bytes) :
    decodeOnto (encode bs) acc = some (acc.reverse ++ bs) := by
  induction bs generalizing acc with
  | nil => simp [encode, decodeOnto]
  | cons b bs ih =>
      have hlt := b.toNat_lt
      have hhigh : b.toNat / 16 < 16 := by omega
      have hlow : b.toNat % 16 < 16 := Nat.mod_lt _ (by decide)
      have hbyte : UInt8.ofNat (16 * (b.toNat / 16) + b.toNat % 16) = b := by
        rw [Nat.div_add_mod, UInt8.ofNat_toNat]
      rw [encode_cons, decodeOnto, digit?_digitChar hhigh, digit?_digitChar hlow]
      change decodeOnto (encode bs) (UInt8.ofNat _ :: acc) = _
      rw [hbyte, ih, List.reverse_cons, List.append_assoc, List.singleton_append]

theorem unprefixed?_append (digits : List Char) :
    unprefixed? ("0x" ++ String.ofList digits) = some digits := by
  have hlist : ("0x" ++ String.ofList digits).toList = '0' :: 'x' :: digits := by simp
  rw [unprefixed?, hlist]
  rfl

/-- A written byte string is read back. -/
theorem bytes?_text (bs : Bytes) : bytes? (text bs) = some bs := by
  have heven : (encode bs).length % 2 = 0 := by
    rw [length_encode]
    exact Nat.mul_mod_right 2 _
  rw [bytes?, text, unprefixed?_append]
  change (if (encode bs).length % 2 = 0 then _ else _) = _
  rw [if_pos heven]
  split
  · rename_i rest hx
    -- The second character is a digit of the first byte.
    cases bs with
    | nil => exact absurd hx nofun
    | cons b bs =>
        have hlow : b.toNat % 16 < 16 := Nat.mod_lt _ (by decide)
        rw [encode_cons] at hx
        exact absurd (List.cons.inj (List.cons.inj hx).2).1 (digitChar_ne_x hlow)
  · exact decodeOnto_encode bs []

/-- The digits of a written quantity are those of the number. -/
theorem significant?_quantity (n : Nat) : significant? (quantity n) = some (Radix.digits 16 n) := by
  rw [significant?, quantity, unprefixed?_append]
  by_cases hn : n = 0
  · subst hn
    decide
  · have hdigits : ∀ d ∈ Radix.digits 16 n, d < 16 := by
      intro d hd
      exact Radix.lt_of_mem_digits (by decide) hd
    rw [if_neg hn]
    change (((Radix.digits 16 n).map Nat.digitChar).mapM digit? >>= fun ds =>
      some (ds.dropWhile (· == 0))) = _
    rw [Success.mapM_map fun d hd => digit?_digitChar (hdigits d hd)]
    have hsignificant : (Radix.digits 16 n).dropWhile (· == 0) = Radix.digits 16 n := by
      rw [Radix.dropWhile_eq_digits (by decide) hdigits, Radix.value_digits (by decide)]
    exact congrArg some hsignificant

end TypedTx.Hex
