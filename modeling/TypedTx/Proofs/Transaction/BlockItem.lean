import TypedTx.Proofs.Transaction.Wire

/-!
# Items of block bodies

The item of a block body that stands for a transaction is the list of its raw values, if
it is a legacy one, and else its wire form as a byte string. Every item that gives a
transaction is the one that stands for it or its wire form. Since a byte string is read
as any wire form is, a legacy transaction is also given by its wire form, which begins
with a list header.
-/

namespace TypedTx

/-- The item of a block body that stands for a transaction. -/
def Transaction.blockItem (t : Transaction) : Rlp.Item :=
  match t.kind with
  | .legacy => .list t.rawValues
  | _ => .bytes t.encode

theorem Transaction.blockItem_of_legacy {t : Transaction} (h : t.kind = .legacy) :
    t.blockItem = .list t.rawValues := by
  rw [blockItem, h]

theorem Transaction.blockItem_of_isTyped {t : Transaction} (h : t.kind.isTyped = true) :
    t.blockItem = .bytes t.encode := by
  rw [blockItem.eq_def]
  cases hkind : t.kind with
  | legacy =>
      rw [hkind] at h
      exact absurd h Bool.false_ne_true
  | accessList | feeMarket | priority => rfl

/-- Of all wire forms, the legacy ones alone begin with a list header. -/
theorem Kind.exists_frame_eq_cons (kind : Kind) {values : List Rlp.Item}
    (h : (Rlp.encodeAll values).length < 2 ^ 64) :
    ∃ first rest, kind.frame values = first :: rest ∧ (first < 0xc0 ↔ kind.isTyped = true) := by
  obtain rfl | htyped := kind.eq_legacy_or_isTyped
  · obtain ⟨first, rest, hframe, hfirst⟩ := exists_frame_legacy h
    refine ⟨first, rest, hframe, ?_⟩
    exact iff_of_false (UInt8.not_lt.mpr hfirst) (by decide)
  · refine ⟨kind.marker, Rlp.encodeList values, frame_of_isTyped htyped, ?_⟩
    exact iff_of_true kind.marker_lt htyped

theorem Transaction.bytes_encode_eq_blockItem_iff {t : Transaction} :
    .bytes t.encode = t.blockItem ↔ t.kind.isTyped = true := by
  obtain hlegacy | htyped := t.kind.eq_legacy_or_isTyped
  · rw [blockItem_of_legacy hlegacy, hlegacy]
    exact iff_of_false nofun (by decide)
  · rw [blockItem_of_isTyped htyped]
    exact iff_of_true rfl htyped

namespace Gate

variable {gate : Gate} {item : Rlp.Item} {o : Options} {t : Transaction}

/-- An item gives a transaction if it is the list of its raw values and the transaction is
a legacy one, or if it is its wire form, of whichever kind. -/
theorem buildItem_eq_ok_iff :
    gate.buildItem item o = .ok t ↔
      gate.require t.kind = .ok () ∧ t.IsSettled ∧ t.kind.build t.draft o = .ok t ∧
        (item = .list t.rawValues ∧ t.kind = .legacy ∨
          item = .bytes t.encode ∧ (Rlp.encodeAll t.rawValues).length < 2 ^ 64) := by
  cases item with
  | list values =>
      rw [buildItem, buildValues, Success.seq_iff, Kind.buildValues_iff_rawValues]
      constructor
      · rintro ⟨hgate, hkind, rfl, hsettled, hbuild⟩
        rw [hkind]
        exact ⟨hgate, hsettled, hbuild, .inl ⟨rfl, rfl⟩⟩
      · rintro ⟨hgate, hsettled, hbuild, ⟨hitem, hkind⟩ | ⟨hitem, -⟩⟩
        · rw [hkind] at hgate hbuild
          exact ⟨hgate, hkind, (Rlp.Item.list.inj hitem).symm, hsettled, hbuild⟩
        · nomatch hitem
  | bytes input =>
      rw [buildItem, decode_iff_encode]
      constructor
      · rintro ⟨hgate, rfl, hsize, hsettled, hbuild⟩
        exact ⟨hgate, hsettled, hbuild, .inr ⟨rfl, hsize⟩⟩
      · rintro ⟨hgate, hsettled, hbuild, ⟨hitem, -⟩ | ⟨hitem, hsize⟩⟩
        · nomatch hitem
        · exact ⟨hgate, (Rlp.Item.bytes.inj hitem).symm, hsize, hsettled, hbuild⟩

/-- The first byte tells whether an accepted item is the one that stands for the
transaction. -/
theorem eq_blockItem_iff (h : gate.buildItem item o = .ok t) :
    item = t.blockItem ↔ ∀ first rest, item = .bytes (first :: rest) → first < 0xc0 := by
  obtain ⟨-, -, -, ⟨rfl, hkind⟩ | ⟨rfl, hsize⟩⟩ := buildItem_eq_ok_iff.mp h
  · rw [Transaction.blockItem_of_legacy hkind]
    exact iff_of_true rfl nofun
  · -- The wire form stands for the typed kinds only, and its first byte tells those.
    obtain ⟨first, rest, hencode, hfirst⟩ := t.kind.exists_frame_eq_cons hsize
    rw [Transaction.bytes_encode_eq_blockItem_iff, ← hfirst, Transaction.encode, hencode]
    constructor
    · rintro hlt first' rest' heq
      obtain ⟨rfl, -⟩ := List.cons.inj (Rlp.Item.bytes.inj heq)
      exact hlt
    · intro hall
      exact hall first rest rfl

/-- A legacy transaction that one item gives is given by its other form as well. -/
theorem buildItem_of_legacy (h : gate.buildItem item o = .ok t) (hkind : t.kind = .legacy)
    (hsize : (Rlp.encodeAll t.rawValues).length < 2 ^ 64) :
    gate.buildItem (.list t.rawValues) o = .ok t ∧ gate.buildItem (.bytes t.encode) o = .ok t := by
  obtain ⟨hgate, hsettled, hbuild, -⟩ := buildItem_eq_ok_iff.mp h
  constructor
  · exact buildItem_eq_ok_iff.mpr ⟨hgate, hsettled, hbuild, .inl ⟨rfl, hkind⟩⟩
  · exact buildItem_eq_ok_iff.mpr ⟨hgate, hsettled, hbuild, .inr ⟨rfl, hsize⟩⟩

/-- An accepted item is the one that stands for the transaction unless it is a byte string
that begins with a list header. Then it is the wire form of a legacy transaction, and that
transaction has two items: the gate accepts its wire form and its raw values alike. -/
theorem blockItem_of_buildItem (h : gate.buildItem item o = .ok t) :
    (item = t.blockItem ↔ ∀ first rest, item = .bytes (first :: rest) → first < 0xc0) ∧
    (item ≠ t.blockItem → t.kind = .legacy ∧ item = .bytes t.encode) ∧
    (t.kind = .legacy → (Rlp.encodeAll t.rawValues).length < 2 ^ 64 →
      gate.buildItem (.list t.rawValues) o = .ok t ∧
        gate.buildItem (.bytes t.encode) o = .ok t) := by
  refine ⟨eq_blockItem_iff h, ?_, buildItem_of_legacy h⟩
  intro hother
  obtain ⟨-, -, -, ⟨rfl, hkind⟩ | ⟨rfl, -⟩⟩ := buildItem_eq_ok_iff.mp h
  · exact absurd (Transaction.blockItem_of_legacy hkind).symm hother
  · obtain hlegacy | htyped := t.kind.eq_legacy_or_isTyped
    · exact ⟨hlegacy, rfl⟩
    · exact absurd (Transaction.bytes_encode_eq_blockItem_iff.mpr htyped) hother

/-- The wire form of the legacy transaction without data, value or signature, as a byte
string. -/
theorem blockItem_of_buildItem_of_blank :
    let item : Rlp.Item := .bytes [0xc6, 0x80, 0x80, 0x80, 0x80, 0x80, 0x80]
    let t := Kind.legacy.assemble .standard {} {}
    permissive.buildItem item {} = .ok t ∧ ¬ (item = t.blockItem) ∧
      permissive.buildItem (.list t.rawValues) {} = .ok t := by
  intro item t
  have h : permissive.buildItem item {} = .ok t := by decide +kernel
  obtain ⟨hiff, -, hboth⟩ := blockItem_of_buildItem h
  refine ⟨h, ?_, (hboth rfl (by decide +kernel)).1⟩
  rw [hiff]
  intro hlt
  exact absurd (hlt 0xc6 _ rfl) (by decide)

/-- That byte string is accepted as a legacy transaction, whose item is a list. -/
theorem exists_buildItem_of_legacy_bytes :
    let item : Rlp.Item := .bytes [0xc6, 0x80, 0x80, 0x80, 0x80, 0x80, 0x80]
    ∃ t, permissive.buildItem item {} = .ok t ∧ t.kind = .legacy ∧
      t.blockItem = .list t.rawValues ∧ item ≠ t.blockItem := by
  intro item
  refine ⟨Kind.legacy.assemble .standard {} {}, by decide +kernel, rfl, rfl, ?_⟩
  exact nofun

end Gate
end TypedTx
