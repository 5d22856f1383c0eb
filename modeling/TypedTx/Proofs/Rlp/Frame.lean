import TypedTx.Proofs.BigEndian
import TypedTx.Proofs.Success
import TypedTx.Rlp.Decode

/-!
# Headers and payloads

A value on the wire is a payload in the frame of its shape: a header that
announces the payload, or no header for a small single byte. `Chunk.read` takes
a frame off the input exactly when the input starts with the one frame of some
payload that a header can announce. A frame is thus never the start of another
frame, whatever follows it.
-/

namespace TypedTx.Rlp

/-- Where the headers of a shape start. -/
def Shape.base : Shape → UInt8
  | .bytes => 0x80
  | .list => 0xc0

def Shape.frame : Shape → Bytes → Bytes
  | .bytes, payload => encodeBytes payload
  | .list, payload => header 0xc0 payload.length ++ payload

theorem Shape.base_le (shape : Shape) : shape.base.toNat ≤ 0xc0 := by
  cases shape <;> decide

theorem isSelfEncoded_iff {bs : Bytes} :
    isSelfEncoded bs = true ↔ ∃ b : UInt8, bs = [b] ∧ b.toNat < 0x80 := by
  match bs with
  | [] => simp [isSelfEncoded]
  | [b] => simp [isSelfEncoded, UInt8.lt_iff_toNat_lt]
  | _ :: _ :: _ => simp [isSelfEncoded]

/-- Only a single byte can do without a header. -/
theorem isSelfEncoded_of_length_ne {bs : Bytes} (h : bs.length ≠ 1) :
    isSelfEncoded bs = false := by
  rw [Bool.eq_false_iff, ne_eq, isSelfEncoded_iff]
  rintro ⟨b, rfl, -⟩
  exact h rfl

theorem isSelfEncoded_singleton_iff {b : UInt8} : isSelfEncoded [b] = true ↔ b.toNat < 0x80 := by
  simp [isSelfEncoded, UInt8.lt_iff_toNat_lt]

theorem isSelfEncoded_singleton_eq_false_iff {b : UInt8} :
    isSelfEncoded [b] = false ↔ ¬ b.toNat < 0x80 := by
  rw [Bool.eq_false_iff, ne_eq, isSelfEncoded_singleton_iff]

theorem frame_of_isSelfEncoded {payload : Bytes} (h : isSelfEncoded payload = true) :
    Shape.bytes.frame payload = payload := by
  rw [Shape.frame, encodeBytes, if_pos h]

theorem frame_of_header {shape : Shape} {payload : Bytes}
    (h : shape = .bytes → isSelfEncoded payload = false) :
    shape.frame payload = header shape.base payload.length ++ payload := by
  cases shape with
  | bytes => rw [Shape.frame, encodeBytes, h rfl, if_neg Bool.false_ne_true, Shape.base]
  | list => rfl

theorem header_of_short {base first : UInt8} {size : Nat} (hsize : size < 56)
    (hfirst : first.toNat = base.toNat + size) : header base size = [first] := by
  have hbound := first.toNat_lt
  have heq : base + UInt8.ofNat size = first := by
    apply UInt8.toNat_inj.mp
    rw [UInt8.toNat_add, UInt8.toNat_ofNat', hfirst]
    omega
  rw [header, if_pos hsize, heq]

theorem header_of_long {base first : UInt8} {size : Nat} (hsize : 56 ≤ size)
    (hfirst : first.toNat = base.toNat + 55 + (Bytes.ofNat size).length) :
    header base size = first :: Bytes.ofNat size := by
  have hbound := first.toNat_lt
  have heq : base + 55 + UInt8.ofNat (Bytes.ofNat size).length = first := by
    apply UInt8.toNat_inj.mp
    rw [UInt8.toNat_add, UInt8.toNat_add, UInt8.toNat_ofNat', hfirst]
    change ((base.toNat + 55) % 256 + _) % 256 = _
    omega
  rw [header, if_neg (Nat.not_lt.mpr hsize)]
  exact congrArg (· :: Bytes.ofNat size) heq

theorem exists_header_short (shape : Shape) {size : Nat} (hsize : size < 56) :
    ∃ first : UInt8, first.toNat = shape.base.toNat + size ∧ header shape.base size = [first] := by
  have hbase := shape.base_le
  have hfirst : (UInt8.ofNat (shape.base.toNat + size)).toNat = shape.base.toNat + size :=
    UInt8.toNat_ofNat_of_lt' (show shape.base.toNat + size < 256 by omega)
  exact ⟨_, hfirst, header_of_short hsize hfirst⟩

/-- The sizes that a header can announce are written in one to eight bytes. -/
theorem exists_header_long (shape : Shape) {size : Nat} (hsize : 56 ≤ size)
    (hlt : size < 2 ^ 64) :
    ∃ first : UInt8, first.toNat = shape.base.toNat + 55 + (Bytes.ofNat size).length ∧
      header shape.base size = first :: Bytes.ofNat size ∧
      0 < (Bytes.ofNat size).length ∧ (Bytes.ofNat size).length ≤ 8 := by
  have hbase := shape.base_le
  have hupper : (Bytes.ofNat size).length ≤ 8 := Bytes.length_ofNat_le_iff.mpr hlt
  have hlower : 0 < (Bytes.ofNat size).length := by
    by_contra hzero
    have := Bytes.length_ofNat_le_iff.mp (Nat.not_lt.mp hzero)
    omega
  have hfirst : (UInt8.ofNat (shape.base.toNat + 55 + (Bytes.ofNat size).length)).toNat =
      shape.base.toNat + 55 + (Bytes.ofNat size).length :=
    UInt8.toNat_ofNat_of_lt' (show shape.base.toNat + 55 + _ < 256 by omega)
  exact ⟨_, hfirst, header_of_long hsize hfirst, hlower, hupper⟩

/-- The first byte of a list lies above the first bytes of all byte strings. -/
theorem exists_header_list {size : Nat} (hlt : size < 2 ^ 64) :
    ∃ (first : UInt8) (rest : Bytes), header 0xc0 size = first :: rest ∧ 0xc0 ≤ first.toNat := by
  by_cases hsize : size < 56
  · obtain ⟨first, hfirst, hheader⟩ := exists_header_short .list hsize
    exact ⟨first, [], hheader, hfirst ▸ Nat.le_add_right _ _⟩
  · obtain ⟨first, hfirst, hheader, -⟩ := exists_header_long .list (Nat.not_lt.mp hsize) hlt
    refine ⟨first, _, hheader, ?_⟩
    rw [hfirst, Nat.add_assoc]
    exact Nat.le_add_right _ _

theorem splitExactly_eq_ok_iff {size : Nat} {input front rest : Bytes} :
    splitExactly size input = .ok (front, rest) ↔
      input = front ++ rest ∧ front.length = size := by
  rw [splitExactly, Success.refuse_iff]
  constructor
  · rintro ⟨hlen, h⟩
    obtain ⟨rfl, rfl⟩ := Prod.mk.inj (Except.ok.inj h)
    refine ⟨(List.take_append_drop size input).symm, ?_⟩
    rw [List.length_take] at hlen ⊢
    omega
  · rintro ⟨rfl, rfl⟩
    simp

/-- A size is read exactly from its minimal bytes, and only if it is large. -/
theorem readSize_eq_ok_iff {width size : Nat} {input rest : Bytes} :
    readSize width input = .ok (size, rest) ↔
      input = Bytes.ofNat size ++ rest ∧ (Bytes.ofNat size).length = width ∧ 56 ≤ size := by
  rw [readSize, Success.bind_iff]
  constructor
  · rintro ⟨⟨digits, rest'⟩, hsplit, h⟩
    obtain ⟨rfl, hlen⟩ := splitExactly_eq_ok_iff.mp hsplit
    obtain ⟨hzero, h⟩ := Success.refuse_iff.mp h
    obtain ⟨hsize, h⟩ := Success.refuse_iff.mp h
    obtain ⟨rfl, rfl⟩ := Prod.mk.inj (Except.ok.inj h)
    rw [Bytes.ofNat_toNat (Bool.eq_false_iff.mpr hzero)]
    exact ⟨rfl, hlen, Nat.not_lt.mp hsize⟩
  · rintro ⟨rfl, hlen, hsize⟩
    refine ⟨(Bytes.ofNat size, rest), splitExactly_eq_ok_iff.mpr ⟨rfl, hlen⟩, ?_⟩
    simp [hsize]

theorem Chunk.cut_eq_ok_iff {shape found : Shape} {size : Nat} {input payload rest : Bytes} :
    Chunk.cut shape size input = .ok ⟨found, payload, rest⟩ ↔
      found = shape ∧ input = payload ++ rest ∧ payload.length = size := by
  rw [Chunk.cut, Success.bind_iff]
  constructor
  · rintro ⟨⟨front, tail⟩, hsplit, h⟩
    obtain ⟨rfl, rfl, rfl⟩ := Chunk.mk.inj (Except.ok.inj h)
    exact ⟨rfl, splitExactly_eq_ok_iff.mp hsplit⟩
  · rintro ⟨rfl, hinput, hlen⟩
    exact ⟨(payload, rest), splitExactly_eq_ok_iff.mpr ⟨hinput, hlen⟩, rfl⟩

namespace Chunk

variable {shape : Shape} {input payload rest : Bytes}

/-- The first byte decides how to go on. Its value is compared as a number, which
is what the arithmetic of headers speaks of. -/
theorem read_cons (first : UInt8) (tail : Bytes) :
    read (first :: tail) =
      if first.toNat < 0x80 then .ok ⟨.bytes, [first], tail⟩
      else if first.toNat = 0x81 then
        match tail with
        | [] => .error .inputTooShort
        | b :: _ => if b.toNat < 0x80 then .error .nonCanonicalSingleByte else cut .bytes 1 tail
      else if first.toNat ≤ 0xb7 then cut .bytes (first.toNat - 0x80) tail
      else if first.toNat ≤ 0xbf then
        readSize (first.toNat - 0xb7) tail >>= fun size => cut .bytes size.1 size.2
      else if first.toNat ≤ 0xf7 then cut .list (first.toNat - 0xc0) tail
      else readSize (first.toNat - 0xf7) tail >>= fun size => cut .list size.1 size.2 := by
  rw [read.eq_def]
  simp only [UInt8.lt_iff_toNat_lt, UInt8.le_iff_toNat_le, ← UInt8.toNat_inj]
  rfl

/-- A size in front of the payload of that size. -/
private theorem readSize_cut_iff {width : Nat} {found : Shape} :
    (readSize width input >>= fun size => cut shape size.1 size.2) = .ok ⟨found, payload, rest⟩ ↔
      found = shape ∧ input = Bytes.ofNat payload.length ++ (payload ++ rest) ∧
        (Bytes.ofNat payload.length).length = width ∧ 56 ≤ payload.length := by
  rw [Success.bind_iff]
  constructor
  · rintro ⟨⟨size, tail⟩, hsize, hcut⟩
    obtain ⟨hshape, rfl, rfl⟩ := cut_eq_ok_iff.mp hcut
    exact ⟨hshape, readSize_eq_ok_iff.mp hsize⟩
  · rintro ⟨hshape, hinput, hwidth, hlong⟩
    exact ⟨(payload.length, payload ++ rest), readSize_eq_ok_iff.mpr ⟨hinput, hwidth, hlong⟩,
      cut_eq_ok_iff.mpr ⟨hshape, rfl, rfl⟩⟩

private theorem read_header_short {size : Nat} (hsize : size < 56)
    (hlone : shape = .bytes → size ≠ 1) :
    read (header shape.base size ++ rest) = cut shape size rest := by
  obtain ⟨first, hfirst, hheader⟩ := exists_header_short shape hsize
  rw [hheader, List.singleton_append, read_cons]
  cases shape with
  | bytes =>
      change first.toNat = 0x80 + size at hfirst
      have hne := hlone rfl
      rw [if_neg (by omega), if_neg (by omega), if_pos (by omega), hfirst, Nat.add_sub_cancel_left]
  | list =>
      change first.toNat = 0xc0 + size at hfirst
      rw [if_neg (by omega), if_neg (by omega), if_neg (by omega), if_neg (by omega),
        if_pos (by omega), hfirst, Nat.add_sub_cancel_left]

/-- A lone byte carries a header if it is not small. -/
private theorem read_header_lone {b : UInt8} (hb : ¬ b.toNat < 0x80) :
    read (header Shape.bytes.base 1 ++ b :: rest) = cut .bytes 1 (b :: rest) := by
  have hheader : header Shape.bytes.base 1 = [0x81] := header_of_short (by decide) rfl
  rw [hheader, List.singleton_append, read_cons, if_neg (by decide), if_pos (by decide)]
  exact if_neg hb

/-- The first byte of a long header tells in how many bytes the size is written. -/
theorem read_of_long {first : UInt8} {width : Nat}
    (hfirst : first.toNat = shape.base.toNat + 55 + width) (hpos : 0 < width) (hle : width ≤ 8) :
    read (first :: input) = readSize width input >>= fun size => cut shape size.1 size.2 := by
  rw [read_cons]
  cases shape with
  | bytes =>
      change first.toNat = 0xb7 + width at hfirst
      rw [if_neg (by omega), if_neg (by omega), if_neg (by omega), if_pos (by omega), hfirst,
        Nat.add_sub_cancel_left]
  | list =>
      change first.toNat = 0xf7 + width at hfirst
      rw [if_neg (by omega), if_neg (by omega), if_neg (by omega), if_neg (by omega),
        if_neg (by omega), hfirst, Nat.add_sub_cancel_left]

private theorem read_header_long {size : Nat} (hsize : 56 ≤ size) (hlt : size < 2 ^ 64) :
    read (header shape.base size ++ rest) = cut shape size rest := by
  obtain ⟨first, hfirst, hheader, hpos, hle⟩ := exists_header_long shape hsize hlt
  have hread : readSize (Bytes.ofNat size).length (Bytes.ofNat size ++ rest) = .ok (size, rest) :=
    readSize_eq_ok_iff.mpr ⟨rfl, rfl, hsize⟩
  rw [hheader, List.cons_append, read_of_long hfirst hpos hle, hread]
  rfl

/-- Behind a header, a payload of the announced size is cut off. A lone byte must not be
a small one, which has no header. -/
theorem read_header {size : Nat} (hlt : size < 2 ^ 64)
    (hlone : shape = .bytes → size = 1 → ∀ b tail, rest = b :: tail → ¬ b.toNat < 0x80) :
    read (header shape.base size ++ rest) = cut shape size rest := by
  by_cases hlong : 56 ≤ size
  · exact read_header_long hlong hlt
  · by_cases hone : shape = .bytes ∧ size = 1
    · obtain ⟨rfl, rfl⟩ := hone
      cases rest with
      | nil => rfl
      | cons b tail => exact read_header_lone (hlone rfl rfl b tail rfl)
    · exact read_header_short (Nat.not_le.mp hlong) fun hshape hsize => hone ⟨hshape, hsize⟩

/-- A frame is read back, and what follows it is left alone. -/
theorem read_frame (hlt : payload.length < 2 ^ 64) :
    read (shape.frame payload ++ rest) = .ok ⟨shape, payload, rest⟩ := by
  by_cases hself : shape = .bytes ∧ isSelfEncoded payload = true
  · obtain ⟨rfl, hself⟩ := hself
    rw [frame_of_isSelfEncoded hself]
    obtain ⟨b, rfl, hb⟩ := isSelfEncoded_iff.mp hself
    rw [List.singleton_append, read_cons, if_pos hb]
  · have hheader : shape = .bytes → isSelfEncoded payload = false := fun hshape =>
      Bool.eq_false_iff.mpr fun h => hself ⟨hshape, h⟩
    have hcut : cut shape payload.length (payload ++ rest) = .ok ⟨shape, payload, rest⟩ :=
      cut_eq_ok_iff.mpr ⟨rfl, rfl, rfl⟩
    rw [frame_of_header hheader, List.append_assoc, read_header hlt, hcut]
    intro hshape hone b tail hb
    obtain ⟨c, rfl⟩ := List.length_eq_one_iff.mp hone
    obtain ⟨rfl, -⟩ := List.cons.inj hb
    exact isSelfEncoded_singleton_eq_false_iff.mp (hheader hshape)

private theorem frame_of_short {first : UInt8} (hsize : payload.length < 56)
    (hfirst : first.toNat = shape.base.toNat + payload.length)
    (hself : shape = .bytes → isSelfEncoded payload = false) :
    first :: (payload ++ rest) = shape.frame payload ++ rest := by
  rw [frame_of_header hself, header_of_short hsize hfirst, List.append_assoc,
    List.singleton_append]

private theorem frame_of_long {first : UInt8} (hsize : 56 ≤ payload.length)
    (hfirst : first.toNat = shape.base.toNat + 55 + (Bytes.ofNat payload.length).length) :
    first :: (Bytes.ofNat payload.length ++ (payload ++ rest)) = shape.frame payload ++ rest := by
  rw [frame_of_header fun _ => isSelfEncoded_of_length_ne (by omega),
    header_of_long hsize hfirst, List.append_assoc, List.cons_append]

/-- The number of length bytes in a header bounds the payload. -/
private theorem length_lt_of_width {size : Nat} (hwidth : (Bytes.ofNat size).length ≤ 8) :
    size < 2 ^ 64 :=
  Bytes.length_ofNat_le_iff.mp hwidth

/-- Whatever is read is the frame of its payload. -/
theorem eq_frame_of_read (h : read input = .ok ⟨shape, payload, rest⟩) :
    input = shape.frame payload ++ rest ∧ payload.length < 2 ^ 64 := by
  cases input with
  | nil => exact absurd h nofun
  | cons first tail =>
      have hbound := first.toNat_lt
      rw [read_cons] at h
      split at h
      · rename_i hself
        cases h
        rw [frame_of_isSelfEncoded (isSelfEncoded_singleton_iff.mpr hself)]
        exact ⟨rfl, Nat.one_lt_two_pow (by decide)⟩
      split at h
      · rename_i hone
        cases tail with
        | nil => exact absurd h nofun
        | cons b tail =>
            obtain ⟨hb, h⟩ := Success.refuse_iff.mp h
            obtain ⟨rfl, htail, hlen⟩ := cut_eq_ok_iff.mp h
            obtain ⟨c, rfl⟩ := List.length_eq_one_iff.mp hlen
            obtain ⟨rfl, rfl⟩ := List.cons.inj htail
            have hself : isSelfEncoded [b] = false := isSelfEncoded_singleton_eq_false_iff.mpr hb
            have hframe : first :: ([b] ++ tail) = Shape.bytes.frame [b] ++ tail :=
              frame_of_short (by simp) hone fun _ => hself
            exact ⟨hframe, Nat.one_lt_two_pow (by decide)⟩
      split at h
      · obtain ⟨rfl, rfl, hlen⟩ := cut_eq_ok_iff.mp h
        have hfirst : first.toNat = Shape.bytes.base.toNat + payload.length := by
          change first.toNat = 0x80 + payload.length
          omega
        exact ⟨frame_of_short (by omega) hfirst fun _ => isSelfEncoded_of_length_ne (by omega),
          by omega⟩
      split at h
      · obtain ⟨rfl, rfl, hwidth, hlong⟩ := readSize_cut_iff.mp h
        have hfirst : first.toNat =
            Shape.bytes.base.toNat + 55 + (Bytes.ofNat payload.length).length := by
          change first.toNat = 0xb7 + _
          omega
        exact ⟨frame_of_long hlong hfirst, length_lt_of_width (by omega)⟩
      split at h
      · obtain ⟨rfl, rfl, hlen⟩ := cut_eq_ok_iff.mp h
        have hfirst : first.toNat = Shape.list.base.toNat + payload.length := by
          change first.toNat = 0xc0 + payload.length
          omega
        exact ⟨frame_of_short (by omega) hfirst nofun, by omega⟩
      · obtain ⟨rfl, rfl, hwidth, hlong⟩ := readSize_cut_iff.mp h
        have hfirst : first.toNat =
            Shape.list.base.toNat + 55 + (Bytes.ofNat payload.length).length := by
          change first.toNat = 0xf7 + _
          omega
        exact ⟨frame_of_long hlong hfirst, length_lt_of_width (by omega)⟩

/-- A chunk is read exactly if the input starts with the frame of its payload. -/
theorem read_eq_ok_iff :
    read input = .ok ⟨shape, payload, rest⟩ ↔
      input = shape.frame payload ++ rest ∧ payload.length < 2 ^ 64 := by
  constructor
  · exact eq_frame_of_read
  · rintro ⟨rfl, hlt⟩
    exact read_frame hlt

end Chunk

end TypedTx.Rlp
