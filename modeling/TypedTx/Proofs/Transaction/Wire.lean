import TypedTx.Proofs.Rlp.Codec
import TypedTx.Proofs.Transaction.Reachable

/-!
# The wire form of transactions

Taking a wire form apart and framing values are inverse to each other, and so are
reading values into a draft and writing its items. Hence bytes that are decoded are
the wire form of what they are decoded to, and a transaction whose signatures are
complete or absent is decoded from its wire form.
-/

namespace TypedTx

namespace Kind

variable {kind : Kind} {values : List Rlp.Item} {input : Bytes} {o : Options} {t : Transaction}

theorem frame_of_isTyped (h : kind.isTyped = true) :
    kind.frame values = kind.marker :: Rlp.encodeList values := by
  cases kind with
  | legacy => exact absurd h (by decide)
  | accessList | feeMarket | priority => rfl

theorem unframe_nil_of_isTyped (h : kind.isTyped = true) :
    kind.unframe [] = .error (.malformedEncoding (.header .inputTooShort)) := by
  cases kind with
  | legacy => exact absurd h (by decide)
  | accessList | feeMarket | priority => rfl

theorem unframe_cons_of_isTyped {found : UInt8} (h : kind.isTyped = true) :
    kind.unframe (found :: input) =
      if found = kind.marker then (Rlp.decodeList input).mapError .malformedEncoding
      else .error (.wrongTransactionType kind.marker found) := by
  cases kind with
  | legacy => exact absurd h (by decide)
  | accessList | feeMarket | priority => rfl

theorem unframe_eq_ok_iff :
    kind.unframe input = .ok values ↔
      input = kind.frame values ∧ Rlp.Item.depthAll values < Rlp.maxDepth ∧
        (Rlp.encodeAll values).length < 2 ^ 64 := by
  obtain rfl | htyped := kind.eq_legacy_or_isTyped
  · exact Success.mapError_iff.trans Rlp.decodeList_eq_ok_iff
  · rw [frame_of_isTyped htyped]
    cases input with
    | nil =>
        rw [unframe_nil_of_isTyped htyped]
        exact ⟨nofun, fun h => absurd h.1 nofun⟩
    | cons found payload =>
        rw [unframe_cons_of_isTyped htyped, Success.admit_iff, Success.mapError_iff,
          Rlp.decodeList_eq_ok_iff, List.cons.injEq, and_assoc]

/-- A legacy wire form begins with a list header. -/
theorem exists_frame_legacy (h : (Rlp.encodeAll values).length < 2 ^ 64) :
    ∃ first rest, Kind.legacy.frame values = first :: rest ∧ 0xc0 ≤ first := by
  obtain ⟨first, rest, hheader, hfirst⟩ := Rlp.exists_header_list h
  refine ⟨first, rest ++ Rlp.encodeAll values, ?_, hfirst⟩
  rw [frame, Rlp.encodeList_eq_frame, Rlp.Shape.frame, hheader, List.cons_append]

/-- The wire form tells the kind. -/
theorem kindOfBytes_frame (h : (Rlp.encodeAll values).length < 2 ^ 64) :
    Gate.kindOfBytes (kind.frame values) = .ok kind := by
  cases kind with
  | legacy =>
      obtain ⟨first, rest, hframe, hfirst⟩ := exists_frame_legacy h
      rw [hframe]
      exact if_pos hfirst
  | accessList | feeMarket | priority => rfl

theorem length_encodeAll_le_frame (kind : Kind) (values : List Rlp.Item) :
    (Rlp.encodeAll values).length ≤ (kind.frame values).length := by
  have hlist : (Rlp.encodeAll values).length ≤ (Rlp.encodeList values).length := by
    rw [Rlp.encodeList_eq_frame]
    exact Rlp.length_le_length_frame .list _
  cases kind with
  | legacy => exact hlist
  | accessList | feeMarket | priority => exact Nat.le_succ_of_le hlist

end Kind

theorem Draft.depth_item_le (d : Draft) (f : Field) : (d.item f).depth ≤ 3 := by
  cases f with
  | quantity q => exact Nat.zero_le _
  | recipient => exact Nat.zero_le _
  | data => exact Nat.zero_le _
  | accessList => exact AccessList.depth_toItem_le _

namespace Transaction

variable {t : Transaction}

/-- The signatures are complete or not there at all. -/
def IsSettled (t : Transaction) : Prop :=
  t.isSigned = true ∨ t.isBare = true

theorem unframe_encode (hsize : (Rlp.encodeAll t.rawValues).length < 2 ^ 64) :
    t.kind.unframe t.encode = .ok t.rawValues := by
  refine Kind.unframe_eq_ok_iff.mpr ⟨rfl, ?_, hsize⟩
  have hdepth : ∀ item ∈ t.rawValues, item.depth ≤ 3 := by
    intro item hitem
    rw [rawValues_eq] at hitem
    obtain ⟨f, -, rfl⟩ := List.mem_map.mp hitem
    exact Draft.depth_item_le _ f
  exact Nat.lt_of_le_of_lt (Rlp.Item.depthAll_le_iff.mpr hdepth) (by decide)

/-- The raw values carry all fields of a settled transaction. -/
theorem ofItems_rawValues (h : t.IsSettled) : Draft.ofItems t.kind t.rawValues = .ok t.draft := by
  rw [rawValues_eq, Draft.ofItems_map_item]
  rcases h with hsigned | hbare
  · rw [hsigned, readBack_of_isSigned hsigned]
  · rw [isSigned_of_isBare hbare, readBack_of_isBare hbare]

end Transaction

namespace Kind

variable {kind : Kind} {values : List Rlp.Item} {input : Bytes} {o : Options} {t : Transaction}

/-- Values give the settled transactions that have them as their raw values and are built
from their own draft. -/
theorem buildValues_iff_rawValues :
    kind.buildValues values o = .ok t ↔
      t.kind = kind ∧ t.rawValues = values ∧ t.IsSettled ∧ kind.build t.draft o = .ok t := by
  constructor
  · intro h
    obtain ⟨d, hitems, hbuild⟩ := buildValues_eq_ok_iff.mp h
    obtain ⟨signed, rfl, hread⟩ := Draft.exists_of_ofItems hitems
    obtain ⟨registry, -, hvalid, rfl⟩ := build_eq_ok_iff.mp hbuild
    have hdraft : (kind.assemble registry o d).draft = d :=
      draft_assemble hread (requireValid_iff.mp hvalid).1
    have hsigned : (kind.assemble registry o d).isSigned = signed := isSigned_assemble hread
    refine ⟨kind_assemble, ?_, ?_, ?_⟩
    · rw [Transaction.rawValues_eq, kind_assemble, hsigned, hdraft]
    · cases signed with
      | true => exact .inl hsigned
      | false => exact .inr (isBare_assemble hread)
    · rw [hdraft]
      exact hbuild
  · rintro ⟨rfl, rfl, hsettled, hbuild⟩
    exact buildValues_eq_ok_iff.mpr ⟨t.draft, Transaction.ofItems_rawValues hsettled, hbuild⟩

/-- Bytes are decoded to the settled transactions that have them as their wire form and
are built from their own draft. -/
theorem decode_iff_encode :
    kind.decode input o = .ok t ↔
      t.kind = kind ∧ t.encode = input ∧ (Rlp.encodeAll t.rawValues).length < 2 ^ 64 ∧
        t.IsSettled ∧ kind.build t.draft o = .ok t := by
  rw [decode_eq_ok_iff]
  constructor
  · rintro ⟨values, hunframe, hvalues⟩
    obtain ⟨rfl, -, hsize⟩ := unframe_eq_ok_iff.mp hunframe
    obtain ⟨rfl, rfl, hsettled, hbuild⟩ := buildValues_iff_rawValues.mp hvalues
    exact ⟨rfl, rfl, hsize, hsettled, hbuild⟩
  · rintro ⟨rfl, rfl, hsize, hsettled, hbuild⟩
    refine ⟨t.rawValues, Transaction.unframe_encode hsize, ?_⟩
    exact buildValues_iff_rawValues.mpr ⟨rfl, rfl, hsettled, hbuild⟩

end Kind

namespace Gate

variable {gate : Gate} {input : Bytes} {o : Options} {t : Transaction}

/-- A gate decodes what the kind decodes that the bytes name, if it admits that kind. -/
theorem decode_iff_encode :
    gate.decode input o = .ok t ↔
      gate.require t.kind = .ok () ∧ t.encode = input ∧
        (Rlp.encodeAll t.rawValues).length < 2 ^ 64 ∧ t.IsSettled ∧
        t.kind.build t.draft o = .ok t := by
  constructor
  · intro h
    obtain ⟨kind, -, h⟩ := Success.bind_iff.mp h
    obtain ⟨hgate, h⟩ := Success.seq_iff.mp h
    obtain ⟨rfl, hencode⟩ := Kind.decode_iff_encode.mp h
    exact ⟨hgate, hencode⟩
  · rintro ⟨hgate, rfl, hsize, hsettled⟩
    refine Success.bind_iff.mpr ⟨t.kind, Kind.kindOfBytes_frame hsize, ?_⟩
    refine Success.seq_iff.mpr ⟨hgate, ?_⟩
    exact Kind.decode_iff_encode.mpr ⟨rfl, rfl, hsize, hsettled⟩

theorem encode_of_decode (h : gate.decode input o = .ok t) : t.encode = input :=
  (decode_iff_encode.mp h).2.1

/-- Decoding is canonical: bytes are only ever decoded to a transaction with that very
wire form, so different bytes are never decoded to transactions with the same one,
whatever is admitted and whichever options are given. -/
theorem decode_canonical (h : gate.decode input o = .ok t) :
    t.encode = input ∧
      ∀ (gate' : Gate) (o' : Options) (input' : Bytes) (u : Transaction),
        gate'.decode input' o' = .ok u → u.encode = t.encode → input' = input := by
  have hinput : t.encode = input := encode_of_decode h
  refine ⟨hinput, ?_⟩
  intro gate' o' input' u hu heq
  rw [← encode_of_decode hu, heq, hinput]

/-- A signed transaction on chain 5 with a recipient, data and one storage slot listed. -/
theorem decode_canonical_of_listed :
    let input : Bytes :=
      [0x01, 0xf8, 0x60, 0x05, 0x03, 0x82, 0x03, 0xe8, 0x82, 0xea, 0x60, 0x94] ++
      List.replicate 19 0x00 ++ [0x01, 0x82, 0x01, 0x00, 0x82, 0x00, 0x09, 0xf8, 0x38, 0xf7, 0x94] ++
      List.replicate 19 0x00 ++ [0x02, 0xe1, 0xa0] ++
      List.replicate 31 0x00 ++ [0x03, 0x01, 0x05, 0x06]
    let d : Draft :=
      { chainId := some 5, nonce := some 3, gasPrice := some 1000, gasLimit := some 60000,
        recipient := some (Fixed.ofNat 20 1), value := some 256, data := some [0, 9],
        accessList := some [⟨Fixed.ofNat 20 2, [Fixed.ofNat 32 3]⟩],
        v := some 1, r := some 5, s := some 6 }
    let t := Kind.accessList.assemble (.ofChainId 5) {} d
    ethereum.decode input {} = .ok t ∧ t.isSigned = true ∧ t.encode = input ∧
      ∀ (gate' : Gate) (o' : Options) (input' : Bytes) (u : Transaction),
        gate'.decode input' o' = .ok u → u.encode = t.encode → input' = input := by
  intro input d t
  have h : ethereum.decode input {} = .ok t := by decide +kernel
  exact ⟨h, rfl, decode_canonical h⟩

/-- A valid transaction is decoded from its wire form, by every gate that admits its
kind. -/
theorem decode_encode (hgate : gate.require t.kind = .ok ()) (hvalid : t.Valid)
    (hsettled : t.IsSettled) (hsize : t.encode.length < 2 ^ 64) :
    gate.decode t.encode t.options = .ok t.uncached := by
  have hpayload : (Rlp.encodeAll t.rawValues).length < 2 ^ 64 :=
    Nat.lt_of_le_of_lt (Kind.length_encodeAll_le_frame _ _) hsize
  have hbuild : t.kind.build t.draft t.options = .ok t.uncached := Transaction.build_draft hvalid
  exact decode_iff_encode.mpr ⟨hgate, rfl, hpayload, hsettled, hbuild⟩

theorem require_permissive (kind : Kind) : permissive.require kind = .ok () := by
  cases kind <;> rfl

end Gate

/-- A reachable transaction whose signatures are complete or absent survives the way to
the wire and back, given its own registry and flags. -/
theorem Reachable.exists_decode_encode {scheme : Scheme} {t : Transaction}
    (h : Reachable scheme t) (hsettled : t.isSigned = true ∨ t.isBare = true)
    (hsize : t.encode.length < 2 ^ 64) :
    ∃ u, Gate.permissive.decode t.encode t.options = .ok u ∧
      u.kind = t.kind ∧ u.draft = t.draft ∧ u.rawValues = t.rawValues ∧
      u.signingMessage = t.signingMessage ∧ u.isSigned = t.isSigned := by
  have hdecode : Gate.permissive.decode t.encode t.options = .ok t.uncached :=
    Gate.decode_encode (Gate.require_permissive t.kind) h.valid hsettled hsize
  exact ⟨t.uncached, hdecode, rfl, rfl, rfl, rfl, rfl⟩

/-- A signed transaction with an access list. -/
theorem Reachable.exists_decode_encode_of_signed :
    let d : Draft := { v := some 1, r := some 2, s := some 3, accessList := some [] }
    let t := Kind.accessList.assemble .standard {} d
    ∃ u, Gate.permissive.decode t.encode t.options = .ok u ∧
      u.kind = t.kind ∧ u.draft = t.draft ∧ u.rawValues = t.rawValues ∧
      u.signingMessage = t.signingMessage ∧ u.isSigned = t.isSigned := by
  intro d t
  have hreach : Reachable Secp256k1.scheme t :=
    .build (show (Source.draftAs .accessList d).build {} = .ok t from rfl)
  exact hreach.exists_decode_encode (.inl rfl) (by decide)

end TypedTx
