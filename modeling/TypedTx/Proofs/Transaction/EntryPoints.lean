import TypedTx.Proofs.Rlp.Depth
import TypedTx.Proofs.Transaction.Wire

/-!
# Entry points

Raw values can be handed over with their kind or be framed as a wire form, which tells
the kind by its first byte. Nothing is asked of the values: also a wrong count, a list
in the place of a number or a number with leading zeros is refused in the same words on
both ways. Only the depth limit of the reader is met on one way and not on the other.
-/

namespace TypedTx

namespace Kind

variable {kind : Kind} {values : List Rlp.Item}

/-- The type byte is taken off again. -/
theorem unframe_frame (kind : Kind) (values : List Rlp.Item) :
    kind.unframe (kind.frame values) =
      (Rlp.decodeList (Rlp.encodeList values)).mapError .malformedEncoding := by
  obtain rfl | htyped := kind.eq_legacy_or_isTyped
  · rfl
  · rw [frame_of_isTyped htyped, unframe_cons_of_isTyped htyped, if_pos rfl]

theorem decode_frame_eq_ite (hsize : (Rlp.encodeAll values).length < 2 ^ 64) (o : Options) :
    kind.decode (kind.frame values) o =
      if (Rlp.Item.list values).depth ≤ 16 then kind.buildValues values o
      else .error ⟨.malformedEncoding (.depthLimitExceeded 16), some (.kind kind.marker)⟩ := by
  rw [decode, unframe_frame, Rlp.decodeList_encodeList hsize]
  split <;> rfl

end Kind

/-- Values of any kind are built from their wire form as they are built by themselves,
with the same transaction or the same failure, if they are not nested too deep for the
reader. If they are, an admitted kind is refused with the fault of the limit. -/
theorem Gate.decode_frame (gate : Gate) (kind : Kind) (o : Options) (values : List Rlp.Item)
    (hsize : (Rlp.encodeAll values).length < 2 ^ 64) :
    gate.decode (kind.frame values) o =
      if (Rlp.Item.list values).depth ≤ 16 then gate.buildValues values kind o
      else gate.require kind >>= fun _ =>
        .error ⟨.malformedEncoding (.depthLimitExceeded 16), some (.kind kind.marker)⟩ := by
  have hkind : gate.decode (kind.frame values) o =
      gate.require kind >>= fun _ => kind.decode (kind.frame values) o := by
    rw [decode, Kind.kindOfBytes_frame hsize]
    rfl
  rw [hkind, Kind.decode_frame_eq_ite hsize]
  split <;> rfl

/-- Two values where nine or twelve are expected, for a kind that is not admitted and for
one that is, and a list behind sixteen others. -/
theorem Gate.decode_frame_of_malformed :
    let values : List Rlp.Item := [.bytes [0, 1], .list []]
    let nested : List Rlp.Item := [Nat.repeat (fun item => Rlp.Item.list [item]) 16 .empty]
    ethereum.decode (Kind.priority.frame values) {} = ethereum.buildValues values .priority {} ∧
      ethereum.decode (Kind.feeMarket.frame values) {} =
        ethereum.buildValues values .feeMarket {} ∧
      ethereum.buildValues values .feeMarket {} =
        .error ⟨.wrongFieldCount 9 12 2, some (.kind 0x02)⟩ ∧
      ethereum.decode (Kind.legacy.frame nested) {} =
        .error ⟨.malformedEncoding (.depthLimitExceeded 16), some (.kind 0x00)⟩ := by
  intro values nested
  have hpriority := Gate.decode_frame ethereum .priority {} values (by decide +kernel)
  have hmarket := Gate.decode_frame ethereum .feeMarket {} values (by decide +kernel)
  have hnested := Gate.decode_frame ethereum .legacy {} nested (by decide +kernel)
  rw [if_pos (by decide +kernel)] at hpriority hmarket
  rw [if_neg (by decide +kernel)] at hnested
  exact ⟨hpriority, hmarket, rfl, hnested⟩

end TypedTx
