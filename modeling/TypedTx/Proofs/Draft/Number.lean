import TypedTx.Proofs.Draft.Layout

/-!
# Numbers on the wire

Every number has one form on the wire, its big-endian bytes without a leading
zero, and a number is read from this form alone. Any other item is refused for
the first of three reasons: it is a list, it starts with a zero byte, or it is
too long. Outside the fields leading zeros are allowed, and only the value of a
byte string counts.
-/

namespace TypedTx

namespace Bytes

variable {bs : Bytes}

/-- The value of a byte string in which the last byte has weight one and every
other byte 256 times the weight of the byte after it. -/
def bigEndian (bs : Bytes) : Nat :=
  Nat.ofDigits 256 (bs.reverse.map UInt8.toNat)

theorem toNat_eq_bigEndian (bs : Bytes) : bs.toNat = bs.bigEndian := by
  rw [toNat, Radix.value_eq_ofDigits, ← List.map_reverse, bigEndian]

end Bytes

namespace Word

variable {bs : Bytes} {w : Word}

/-- A byte string without a leading zero is too long exactly when its value is too
large. -/
theorem ofBytes?_eq_none_iff_length (hhead : bs.head? ≠ some 0) :
    ofBytes? bs = none ↔ 32 < bs.length := by
  have hlength : bs.length ≤ 32 ↔ bs.toNat < 2 ^ 256 :=
    Bytes.length_le_iff (Bytes.hasLeadingZero_eq_false_iff.mpr hhead)
  rw [ofBytes?_eq_none_iff, ← Nat.not_le, hlength, Nat.not_lt]

theorem toBytes_eq_iff : w.toBytes = bs ↔ ofBytes? bs = some w ∧ bs.head? ≠ some 0 := by
  rw [← Bytes.hasLeadingZero_eq_false_iff]
  constructor
  · rintro rfl
    exact ⟨w.ofBytes?_toBytes, w.hasLeadingZero_toBytes⟩
  · rintro ⟨hread, hzero⟩
    exact toBytes_of_ofBytes? hzero hread

end Word

/-- Why an item is not the form of a number. A zero byte at the front is looked for
before the size, so it is the reason for a byte string that is too long as well. -/
def wordFault? (field : String) : Rlp.Item → Option Fault
  | .list _ => some (.invalidFieldShape field)
  | .bytes bs =>
      if bs.head? = some 0 then some (.invalidFieldEncoding field)
      else if 32 < bs.length then some (.integerOverflow field)
      else none

section Fields

variable {field : String} {item : Rlp.Item} {fault : Fault}

theorem readWord_of_wordFault? (h : wordFault? field item = some fault) :
    readWord field item = .error fault := by
  cases item with
  | list items =>
      rw [← Option.some.inj h]
      rfl
  | bytes bs =>
      change (requireMinimal field bs >>= fun _ => _) = _
      rw [wordFault?] at h
      split at h
      · rename_i hhead
        have hzero : bs.hasLeadingZero = true := beq_iff_eq.mpr hhead
        rw [requireMinimal, if_pos hzero, ← Option.some.inj h]
        rfl
      · rename_i hhead
        obtain ⟨hlong, hfault⟩ := Option.ite_none_right_eq_some.mp h
        have hnone := (Word.ofBytes?_eq_none_iff_length hhead).mpr hlong
        rw [requireMinimal, Bytes.hasLeadingZero_eq_false_iff.mpr hhead,
          if_neg Bool.false_ne_true, hnone, ← Option.some.inj hfault]
        rfl

/-- An item with none of the three faults is the form of a number. -/
theorem exists_eq_ofWord_of_wordFault? (h : wordFault? field item = none) :
    ∃ w, item = .ofWord w := by
  cases item with
  | list items => exact absurd h nofun
  | bytes bs =>
      have hhead : bs.head? ≠ some 0 := fun hzero => by simp [wordFault?, hzero] at h
      have hshort : ¬ 32 < bs.length := fun hlong => by simp [wordFault?, hhead, hlong] at h
      rw [← Word.ofBytes?_eq_none_iff_length hhead] at hshort
      obtain ⟨w, hw⟩ := Option.ne_none_iff_exists'.mp hshort
      exact ⟨w, congrArg Rlp.Item.bytes (Word.toBytes_eq_iff.mpr ⟨hw, hhead⟩).symm⟩

theorem readWord_eq_error_iff :
    readWord field item = .error fault ↔ wordFault? field item = some fault := by
  refine ⟨fun h => ?_, readWord_of_wordFault?⟩
  cases hfault : wordFault? field item with
  | none =>
      obtain ⟨w, hw⟩ := exists_eq_ofWord_of_wordFault? hfault
      rw [readWord_eq_ok_iff.mpr hw] at h
      exact absurd h nofun
  | some other =>
      rw [readWord_of_wordFault? hfault] at h
      rw [Except.error.inj h]

end Fields

theorem requireAll_singleton {α : Type} (require : String → α → Except Fault Unit)
    (field : String) (x : α) : requireAll require [(field, x)] = require field x := by
  rw [requireAll]
  cases require field x <;> rfl

/-- The requirements on single fields may be made one after the other before the number is
read. Those of the shape and of the size refuse nothing more. -/
theorem readWord_eq_requireAll (field : String) (item : Rlp.Item) :
    readWord field item = (do
      requireAll requireBytes [(field, item)]
      let bs ← readBytes field item
      requireAll requireMinimal [(field, bs)]
      requireAll requireFits [(field, bs)]
      match Word.ofBytes? bs with
      | some w => .ok w
      | none => .error (.integerOverflow field)) := by
  simp only [requireAll_singleton]
  cases item with
  | list items => rfl
  | bytes bs =>
      change (requireMinimal field bs >>= fun _ => _) =
        (requireMinimal field bs >>= fun _ => requireFits field bs >>= fun _ => _)
      congr
      funext _
      rw [requireFits]
      cases Word.ofBytes? bs <;> rfl

/-- A field is read as the number `w` from the form of `w` and from nothing else,
and every other item is refused with its fault. The form of `w` is the one byte
string without a leading zero from which `w` is read back. A byte string of any
length is read as its value, if that fits in 256 bits, and otherwise not at all. -/
theorem readWord_minimal_only :
    (∀ (field : String) (item : Rlp.Item),
      (∀ w, readWord field item = .ok w ↔ item = .ofWord w) ∧
      ∀ fault, readWord field item = .error fault ↔ wordFault? field item = some fault) ∧
    ∀ bs : Bytes,
      (∀ w : Word, w.toBytes = bs ↔ Word.ofBytes? bs = some w ∧ bs.head? ≠ some 0) ∧
      (∀ w : Word, Word.ofBytes? bs = some w ↔ bs.bigEndian = w.toNat) ∧
      (Word.ofBytes? bs = none ↔ 2 ^ 256 ≤ bs.bigEndian) := by
  refine ⟨fun field item => ⟨fun w => readWord_eq_ok_iff, fun fault => readWord_eq_error_iff⟩,
    fun bs => ?_⟩
  rw [← Bytes.toNat_eq_bigEndian]
  exact ⟨fun w => Word.toBytes_eq_iff, fun w => Word.ofBytes?_eq_some_iff,
    Word.ofBytes?_eq_none_iff⟩

/-- What counts for 33 zero bytes is the first of them, not their number. -/
example : readWord "nonce" (.bytes (List.replicate 33 0)) =
    .error (.invalidFieldEncoding "nonce") := by
  decide

end TypedTx
