import TypedTx.Proofs.Rlp.Codec

/-!
# What headers announce

The grammar of wire forms is stated without the writer. A header says which shape the
payload behind it has and how many bytes that is, and every list of a value, however deep
it is nested, stands behind a header that announces the size of the list's own payload.

The writer fills its headers with sizes that it has predicted from the value, before
anything is written. The predictions are exact, so what is written is the one wire form
of the grammar.
-/

namespace TypedTx.Rlp

/-- The bytes of a header announce a payload of the given shape and size. A size below 56
is told by the first byte, and a larger one is written behind it, in as many bytes as
the first byte tells. -/
inductive Announces (shape : Shape) (size : Nat) : Bytes → Prop where
  | short {first : UInt8} :
      size < 56 → first.toNat = shape.base.toNat + size → Announces shape size [first]
  | long {first : UInt8} {digits : Bytes} :
      56 ≤ size → first.toNat = shape.base.toNat + 55 + digits.length →
      digits.toNat = size → digits.head? ≠ some 0 → Announces shape size (first :: digits)

mutual

/-- The bytes are a wire form of the value. -/
inductive IsWireForm : Item → Bytes → Prop where
  | small {b : UInt8} : b.toNat < 0x80 → IsWireForm (.bytes [b]) [b]
  | bytes {bs head : Bytes} :
      (∀ b, bs = [b] → ¬ b.toNat < 0x80) → Announces .bytes bs.length head →
      IsWireForm (.bytes bs) (head ++ bs)
  | list {items : List Item} {head payload : Bytes} :
      AreWireForms items payload → Announces .list payload.length head →
      IsWireForm (.list items) (head ++ payload)

/-- The bytes are wire forms of the values, one behind the other. -/
inductive AreWireForms : List Item → Bytes → Prop where
  | nil : AreWireForms [] []
  | cons {item : Item} {items : List Item} {bs rest : Bytes} :
      IsWireForm item bs → AreWireForms items rest → AreWireForms (item :: items) (bs ++ rest)

end

section Headers

variable {shape : Shape} {size : Nat} {head : Bytes}

theorem announces_header (hlt : size < 2 ^ 64) : Announces shape size (header shape.base size) := by
  by_cases hlong : 56 ≤ size
  · obtain ⟨first, hfirst, hheader, -⟩ := exists_header_long shape hlong hlt
    have hhead : (Bytes.ofNat size).head? ≠ some 0 :=
      Bytes.hasLeadingZero_eq_false_iff.mp (Bytes.hasLeadingZero_ofNat size)
    rw [hheader]
    exact .long hlong hfirst (Bytes.toNat_ofNat size) hhead
  · obtain ⟨first, hfirst, hheader⟩ := exists_header_short shape (Nat.not_le.mp hlong)
    rw [hheader]
    exact .short (Nat.not_le.mp hlong) hfirst

theorem Announces.eq_header (h : Announces shape size head) : head = header shape.base size := by
  cases h with
  | short hsize hfirst => exact (header_of_short hsize hfirst).symm
  | long hsize hfirst hvalue hhead =>
      have hdigits := Bytes.ofNat_toNat (Bytes.hasLeadingZero_eq_false_iff.mpr hhead)
      rw [hvalue] at hdigits
      rw [← hdigits] at hfirst ⊢
      exact (header_of_long hsize hfirst).symm

end Headers

theorem isSelfEncoded_eq_false_iff {bs : Bytes} :
    isSelfEncoded bs = false ↔ ∀ b, bs = [b] → ¬ b.toNat < 0x80 := by
  rw [Bool.eq_false_iff, ne_eq, isSelfEncoded_iff]
  simp only [not_exists, not_and]

theorem isWireForm_bytes_iff {bs wire : Bytes} (hlt : bs.length < 2 ^ 64) :
    IsWireForm (.bytes bs) wire ↔ wire = encode (.bytes bs) := by
  rw [encode_eq_frame, Item.shape, Item.payload]
  constructor
  · intro h
    cases h with
    | small hsmall =>
        exact (frame_of_isSelfEncoded (isSelfEncoded_singleton_iff.mpr hsmall)).symm
    | bytes hlone hhead =>
        rw [frame_of_header fun _ => isSelfEncoded_eq_false_iff.mpr hlone, hhead.eq_header]
  · rintro rfl
    by_cases hself : isSelfEncoded bs = true
    · rw [frame_of_isSelfEncoded hself]
      obtain ⟨b, rfl, hsmall⟩ := isSelfEncoded_iff.mp hself
      exact .small hsmall
    · have hlone : isSelfEncoded bs = false := Bool.eq_false_iff.mpr hself
      rw [frame_of_header fun _ => hlone]
      exact .bytes (isSelfEncoded_eq_false_iff.mp hlone) (announces_header hlt)

theorem isWireForm_list_iff {items : List Item} {wire : Bytes}
    (hlt : (encodeAll items).length < 2 ^ 64)
    (hitems : ∀ payload, AreWireForms items payload ↔ payload = encodeAll items) :
    IsWireForm (.list items) wire ↔ wire = encode (.list items) := by
  rw [← encodeList_eq_encode, encodeList_eq_frame, Shape.frame]
  constructor
  · intro h
    cases h with
    | list hmembers hhead =>
        obtain rfl := (hitems _).mp hmembers
        rw [hhead.eq_header, Shape.base]
  · rintro rfl
    have hhead : Announces .list (encodeAll items).length
        (header Shape.list.base (encodeAll items).length) := announces_header hlt
    exact .list ((hitems _).mpr rfl) hhead

theorem areWireForms_nil_iff {wire : Bytes} : AreWireForms [] wire ↔ wire = encodeAll [] := by
  rw [encodeAll_nil]
  constructor
  · rintro ⟨⟩
    rfl
  · rintro rfl
    exact .nil

theorem areWireForms_cons_iff {item : Item} {items : List Item} {wire : Bytes}
    (hitem : ∀ wire, IsWireForm item wire ↔ wire = encode item)
    (hitems : ∀ wire, AreWireForms items wire ↔ wire = encodeAll items) :
    AreWireForms (item :: items) wire ↔ wire = encodeAll (item :: items) := by
  rw [encodeAll_cons]
  constructor
  · intro h
    cases h with
    | cons hfirst hrest => rw [(hitem _).mp hfirst, (hitems _).mp hrest]
  · rintro rfl
    exact .cons ((hitem _).mpr rfl) ((hitems _).mpr rfl)

/-- What is written is a wire form, and there is no other. The payload of a list holds
those of its members, so its size bounds theirs. -/
theorem isWireForm_iff_and_areWireForms_iff :
    (∀ item : Item, item.payload.length < 2 ^ 64 →
      ∀ wire, IsWireForm item wire ↔ wire = encode item) ∧
    ∀ items, (encodeAll items).length < 2 ^ 64 →
      ∀ wire, AreWireForms items wire ↔ wire = encodeAll items := by
  apply encode.mutual_induct
  case case1 =>
    intro bs hlt wire
    exact isWireForm_bytes_iff hlt
  case case2 =>
    intro items ih hlt wire
    exact isWireForm_list_iff hlt (ih hlt)
  case case3 =>
    intro _ wire
    exact areWireForms_nil_iff
  case case4 =>
    intro item items hitem hitems hlt wire
    rw [encodeAll_cons, List.length_append] at hlt
    have hpayload := length_payload_le item
    exact areWireForms_cons_iff (hitem (by omega)) (hitems (by omega))

/-- A wire form has exactly the predicted number of bytes, and a list is written in the
same way on its own and as a value. So every header that is written announces the payload
behind it, at each level of nesting: the wire form of the grammar, which demands this of
every header, is the one that is written. -/
theorem encodedLength_exact :
    (∀ item, (encode item).length = encodedLength item) ∧
    (∀ items, encodeList items = encode (.list items)) ∧
    ∀ item : Item, item.payload.length < 2 ^ 64 →
      ∀ wire, IsWireForm item wire ↔ wire = encode item :=
  ⟨length_encode, encodeList_eq_encode, isWireForm_iff_and_areWireForms_iff.1⟩

/-- A list of two lists, the payloads of which have 55 and 56 bytes, and of a byte string
that needs no header. -/
theorem encodedLength_exact_of_boundary :
    let short := Item.list [.bytes (List.replicate 54 0x2a)]
    let long := Item.list [.bytes (List.replicate 55 0x2a)]
    let items := [short, long, .bytes [0x7f]]
    (encode (.list items)).length = encodedLength (.list items) ∧
      encodeList items = encode (.list items) ∧
      (Item.list items).payload.length < 2 ^ 64 ∧
      IsWireForm (.list items) (encode (.list items)) := by
  intro short long items
  have hsize : (Item.list items).payload.length < 2 ^ 64 := by decide +kernel
  obtain ⟨hlength, hlist, hform⟩ := encodedLength_exact
  exact ⟨hlength _, hlist _, hsize, (hform _ hsize _).mpr rfl⟩

end TypedTx.Rlp
