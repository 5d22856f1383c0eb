import TypedTx.Proofs.Rlp.Frame

/-!
# Reading what was written

`readItem` takes a value off the input exactly when the input starts with its wire
form, the value is nested no deeper than allowed, and its payload has a size that
a header can announce. Reading back and canonicity are the two directions of this
equivalence, and the wire form determines the value.
-/

namespace TypedTx.Rlp

namespace Item

def shape : Item → Shape
  | .bytes _ => .bytes
  | .list _ => .list

def payload : Item → Bytes
  | .bytes bs => bs
  | .list items => encodeAll items

theorem depthAll_le_iff {items : List Item} {n : Nat} :
    depthAll items ≤ n ↔ ∀ item ∈ items, item.depth ≤ n := by
  induction items with
  | nil => simp [depthAll]
  | cons item items ih =>
      rw [depthAll, List.forall_mem_cons, ← ih]
      exact Nat.max_le

end Item

theorem length_header (base : UInt8) (size : Nat) :
    (header base size).length = headerLength size := by
  rw [header, headerLength]
  split
  · rfl
  · exact Nat.add_comm _ _

theorem length_encodeBytes (bs : Bytes) :
    (encodeBytes bs).length = encodedLength (.bytes bs) := by
  rw [encodeBytes, encodedLength]
  split
  · rename_i hself
    obtain ⟨b, rfl, -⟩ := isSelfEncoded_iff.mp hself
    rfl
  · rw [List.length_append, length_header]

/-- A wire form has the size that was predicted for it, and so have the members of a
list together. -/
theorem length_encode_and_encodeAll :
    (∀ item, (encode item).length = encodedLength item) ∧
      ∀ items, (encodeAll items).length = payloadLength items := by
  apply encode.mutual_induct
  case case1 =>
    intro bs
    rw [encode, length_encodeBytes]
  case case2 =>
    intro items ih
    rw [encode, encodedLength, List.length_append, length_header, ih]
  case case3 => rw [encodeAll, payloadLength, List.length_nil]
  case case4 =>
    intro item items hitem hitems
    rw [encodeAll, payloadLength, List.length_append, hitem, hitems]

theorem length_encode (item : Item) : (encode item).length = encodedLength item :=
  length_encode_and_encodeAll.1 item

/-- The header of a list announces the size of what follows it. -/
theorem length_encodeAll (items : List Item) : (encodeAll items).length = payloadLength items :=
  length_encode_and_encodeAll.2 items

theorem encodeList_eq_frame (items : List Item) :
    encodeList items = Shape.list.frame (encodeAll items) := by
  rw [encodeList, Shape.frame, length_encodeAll]

theorem encodeList_eq_encode (items : List Item) : encodeList items = encode (.list items) := by
  rw [encodeList, encode]

theorem encode_eq_frame (item : Item) : encode item = item.shape.frame item.payload := by
  cases item with
  | bytes bs => rw [encode, Item.shape, Item.payload, Shape.frame]
  | list items => rw [← encodeList_eq_encode, encodeList_eq_frame, Item.shape, Item.payload]

theorem header_ne_nil (base : UInt8) (size : Nat) : header base size ≠ [] := by
  rw [header]
  split <;> exact List.cons_ne_nil _ _

theorem frame_ne_nil (shape : Shape) (payload : Bytes) : shape.frame payload ≠ [] := by
  by_cases hself : shape = .bytes ∧ isSelfEncoded payload = true
  · obtain ⟨rfl, hself⟩ := hself
    obtain ⟨b, rfl, -⟩ := isSelfEncoded_iff.mp hself
    rw [frame_of_isSelfEncoded hself]
    exact List.cons_ne_nil _ _
  · rw [frame_of_header fun hshape => Bool.eq_false_iff.mpr fun h => hself ⟨hshape, h⟩]
    exact List.append_ne_nil_of_left_ne_nil (header_ne_nil _ _) _

theorem length_le_length_frame (shape : Shape) (payload : Bytes) :
    payload.length ≤ (shape.frame payload).length := by
  by_cases hself : shape = .bytes ∧ isSelfEncoded payload = true
  · obtain ⟨rfl, hself⟩ := hself
    rw [frame_of_isSelfEncoded hself]
  · rw [frame_of_header fun hshape => Bool.eq_false_iff.mpr fun h => hself ⟨hshape, h⟩,
      List.length_append]
    exact Nat.le_add_left _ _

theorem encode_ne_nil (item : Item) : encode item ≠ [] := by
  rw [encode_eq_frame]
  exact frame_ne_nil _ _

theorem length_payload_le (item : Item) : item.payload.length ≤ (encode item).length := by
  rw [encode_eq_frame]
  exact length_le_length_frame _ _

@[simp] theorem encodeAll_nil : encodeAll [] = [] := by
  rw [encodeAll]

@[simp] theorem encodeAll_cons (item : Item) (items : List Item) :
    encodeAll (item :: items) = encode item ++ encodeAll items := by
  rw [encodeAll]

@[simp] theorem encodeAll_append (xs ys : List Item) :
    encodeAll (xs ++ ys) = encodeAll xs ++ encodeAll ys := by
  induction xs with
  | nil => simp
  | cons x xs ih => simp [ih]

/-- The members of a list are no longer than its payload. -/
theorem length_encode_le_of_mem {item : Item} {items : List Item} (h : item ∈ items) :
    (encode item).length ≤ (encodeAll items).length := by
  obtain ⟨front, back, rfl⟩ := List.append_of_mem h
  simp only [encodeAll_append, encodeAll_cons, List.length_append]
  omega

theorem length_payload_lt_of_mem {item : Item} {items : List Item} {n : Nat} (h : item ∈ items)
    (hlt : (encodeAll items).length < n) : item.payload.length < n :=
  Nat.lt_of_le_of_lt ((length_payload_le item).trans (length_encode_le_of_mem h)) hlt

theorem headerLength_mono {m n : Nat} (h : m ≤ n) : headerLength m ≤ headerLength n := by
  have hdigits : (Bytes.ofNat m).length ≤ (Bytes.ofNat n).length :=
    Bytes.length_ofNat_le_iff.mpr
      (Nat.lt_of_le_of_lt h (Bytes.length_ofNat_le_iff.mp (Nat.le_refl _)))
  rw [headerLength, headerLength]
  split <;> split <;> omega

/-- A larger payload makes a larger frame, so the size of a frame tells the payload
from its header, whatever the header says. -/
theorem header_append_inj {base : UInt8} {p q : Bytes}
    (h : header base p.length ++ p = header base q.length ++ q) : p = q := by
  have hlen := congrArg List.length h
  simp only [List.length_append, length_header] at hlen
  have hsize : p.length = q.length := by
    rcases Nat.le_total p.length q.length with hle | hle
    · have := headerLength_mono hle
      omega
    · have := headerLength_mono hle
      omega
  exact (List.append_inj' h hsize).2

section Collect

variable {step : Bytes → Except Fault (Item × Bytes)} {bound : Nat} {input : Bytes}
variable {acc items : List Item}

theorem collect_succ (hinput : input ≠ []) :
    collect step (bound + 1) input acc =
      match step input with
      | .error fault => .error fault
      | .ok (item, rest) => collect step bound rest (item :: acc) := by
  cases input with
  | nil => exact absurd rfl hinput
  | cons b bs => rfl

/-- Members that a step reads back are collected in order. -/
theorem collect_encodeAll
    (hstep : ∀ item ∈ items, ∀ rest, step (encode item ++ rest) = .ok (item, rest))
    (hbound : (encodeAll items).length ≤ bound) :
    collect step bound (encodeAll items) acc = .ok (acc.reverse ++ items) := by
  induction items generalizing bound acc with
  | nil => simp [collect]
  | cons item items ih =>
      have hpos : 0 < (encode item).length := List.length_pos_iff.mpr (encode_ne_nil item)
      rw [encodeAll_cons, List.length_append] at hbound
      obtain ⟨bound, rfl⟩ : ∃ n, bound = n + 1 := ⟨bound - 1, by omega⟩
      have hne : encode item ++ encodeAll items ≠ [] :=
        List.append_ne_nil_of_left_ne_nil (encode_ne_nil item) _
      rw [encodeAll_cons, collect_succ hne, hstep item List.mem_cons_self]
      dsimp only
      rw [ih (fun x hx => hstep x (List.mem_cons_of_mem item hx)) (by omega)]
      simp

/-- What is collected by a step that reads wire forms only is a sequence of wire
forms. -/
theorem eq_encodeAll_of_collect {p : Item → Prop}
    (hstep : ∀ input item rest, step input = .ok (item, rest) →
      input = encode item ++ rest ∧ p item)
    (h : collect step bound input acc = .ok items) :
    ∃ members, items = acc.reverse ++ members ∧ input = encodeAll members ∧
      ∀ item ∈ members, p item := by
  induction bound generalizing input acc with
  | zero =>
      cases input with
      | nil => exact ⟨[], by simpa [collect] using h.symm, rfl, nofun⟩
      | cons b bs => exact absurd h nofun
  | succ bound ih =>
      by_cases hinput : input = []
      · subst hinput
        exact ⟨[], by simpa [collect] using h.symm, rfl, nofun⟩
      · rw [collect_succ hinput] at h
        cases hitem : step input with
        | error fault =>
            rw [hitem] at h
            exact absurd h nofun
        | ok read =>
            obtain ⟨item, rest⟩ := read
            rw [hitem] at h
            obtain ⟨rfl, hp⟩ := hstep _ _ _ hitem
            obtain ⟨members, rfl, rfl, hmembers⟩ := ih h
            exact ⟨item :: members, by simp, by simp, List.forall_mem_cons.mpr ⟨hp, hmembers⟩⟩

end Collect

section Items

variable {levels : Nat} {input payload rest : Bytes} {item : Item}

theorem readItem_of_bytes (h : Chunk.read input = .ok ⟨.bytes, payload, rest⟩) :
    readItem levels input = .ok (.bytes payload, rest) := by
  cases levels <;> simp only [readItem, h]

theorem readItem_of_list (h : Chunk.read input = .ok ⟨.list, payload, rest⟩) :
    readItem (levels + 1) input =
      (collect (readItem levels) payload.length payload []).map
        fun items => (.list items, rest) := by
  simp only [readItem, h]
  cases collect (readItem levels) payload.length payload [] <;> rfl

/-- What a successful reading has read, with the chunk it came from. -/
theorem readItem_cases (h : readItem levels input = .ok (item, rest)) :
    (∃ bs, Chunk.read input = .ok ⟨.bytes, bs, rest⟩ ∧ item = .bytes bs) ∨
      ∃ inner payload items, levels = inner + 1 ∧
        Chunk.read input = .ok ⟨.list, payload, rest⟩ ∧
        collect (readItem inner) payload.length payload [] = .ok items ∧ item = .list items := by
  cases hread : Chunk.read input with
  | error fault => cases levels <;> simp [readItem, hread] at h
  | ok chunk =>
      obtain ⟨shape, payload, tail⟩ := chunk
      cases shape with
      | bytes =>
          rw [readItem_of_bytes hread] at h
          obtain ⟨rfl, rfl⟩ := Prod.mk.inj (Except.ok.inj h)
          exact .inl ⟨payload, rfl, rfl⟩
      | list =>
          cases levels with
          | zero => simp [readItem, hread] at h
          | succ inner =>
              rw [readItem_of_list hread] at h
              cases hitems : collect (readItem inner) payload.length payload [] with
              | error fault =>
                  rw [hitems] at h
                  exact absurd h nofun
              | ok items =>
                  rw [hitems] at h
                  obtain ⟨rfl, rfl⟩ := Prod.mk.inj (Except.ok.inj h)
                  exact .inr ⟨inner, payload, items, rfl, rfl, hitems, rfl⟩

theorem read_encode (hsize : item.payload.length < 2 ^ 64) :
    Chunk.read (encode item ++ rest) = .ok ⟨item.shape, item.payload, rest⟩ := by
  rw [encode_eq_frame]
  exact Chunk.read_frame hsize

/-- A value is read back, and what follows it is left alone. -/
theorem readItem_encode (hdepth : item.depth ≤ levels) (hsize : item.payload.length < 2 ^ 64) :
    readItem levels (encode item ++ rest) = .ok (item, rest) := by
  induction levels generalizing item rest with
  | zero =>
      cases item with
      | bytes bs => exact readItem_of_bytes (read_encode hsize)
      | list items => exact absurd hdepth (by simp [Item.depth])
  | succ levels ih =>
      cases item with
      | bytes bs => exact readItem_of_bytes (read_encode hsize)
      | list items =>
          have hmembers : ∀ item ∈ items, ∀ rest,
              readItem levels (encode item ++ rest) = .ok (item, rest) := by
            intro item hitem rest
            rw [Item.depth, Nat.add_le_add_iff_right, Item.depthAll_le_iff] at hdepth
            exact ih (hdepth item hitem) (length_payload_lt_of_mem hitem hsize)
          rw [readItem_of_list (read_encode hsize), Item.payload,
            collect_encodeAll hmembers (Nat.le_refl _)]
          rfl

/-- Whatever is read is the wire form of its value, within the limits. -/
theorem eq_encode_of_readItem (h : readItem levels input = .ok (item, rest)) :
    input = encode item ++ rest ∧ item.depth ≤ levels ∧ item.payload.length < 2 ^ 64 := by
  induction levels generalizing input rest item with
  | zero =>
      obtain ⟨bs, hread, rfl⟩ | ⟨_, _, _, hlevels, -⟩ := readItem_cases h
      · obtain ⟨hinput, hsize⟩ := Chunk.eq_frame_of_read hread
        exact ⟨hinput, Nat.le_refl _, hsize⟩
      · exact absurd hlevels nofun
  | succ levels ih =>
      obtain ⟨bs, hread, rfl⟩ | ⟨_, payload, items, ⟨⟩, hread, hitems, rfl⟩ := readItem_cases h
      · obtain ⟨hinput, hsize⟩ := Chunk.eq_frame_of_read hread
        exact ⟨hinput, Nat.zero_le _, hsize⟩
      · obtain ⟨hinput, hsize⟩ := Chunk.eq_frame_of_read hread
        obtain ⟨members, rfl, rfl, hdepth⟩ :=
          eq_encodeAll_of_collect (p := fun item => item.depth ≤ levels)
            (fun _ _ _ hitem => ⟨(ih hitem).1, (ih hitem).2.1⟩) hitems
        refine ⟨?_, ?_, hsize⟩
        · rw [encode_eq_frame]
          exact hinput
        · rw [Item.depth, Nat.add_le_add_iff_right, Item.depthAll_le_iff]
          exact hdepth

theorem readItem_eq_ok_iff :
    readItem levels input = .ok (item, rest) ↔
      input = encode item ++ rest ∧ item.depth ≤ levels ∧ item.payload.length < 2 ^ 64 := by
  constructor
  · exact eq_encode_of_readItem
  · rintro ⟨rfl, hdepth, hsize⟩
    exact readItem_encode hdepth hsize

theorem decode_eq_ok_iff :
    decode input = .ok item ↔
      input = encode item ∧ item.depth ≤ maxDepth ∧ item.payload.length < 2 ^ 64 := by
  have hread : readItem maxDepth input = .ok (item, []) ↔ _ := readItem_eq_ok_iff
  rw [List.append_nil] at hread
  rw [← hread, decode]
  cases readItem maxDepth input with
  | error fault => exact ⟨nofun, nofun⟩
  | ok read =>
      obtain ⟨found, rest⟩ := read
      cases rest with
      | nil => simp
      | cons b bs => simp

theorem decodeList_eq_ok_iff {items : List Item} :
    decodeList input = .ok items ↔
      input = encodeList items ∧ Item.depthAll items < maxDepth ∧
        (encodeAll items).length < 2 ^ 64 := by
  have hdecode : decode input = .ok (.list items) ↔ _ := decode_eq_ok_iff
  rw [Item.depth, Item.payload, Nat.add_one_le_iff] at hdecode
  rw [encodeList_eq_encode, ← hdecode, decodeList]
  cases decode input with
  | error fault => simp
  | ok found =>
      cases found with
      | bytes bs => simp
      | list found => simp

end Items

/-- No wire form is the start of the wire form of another value. -/
theorem encode_append_inj {x y : Item} {r s : Bytes} (hx : x.payload.length < 2 ^ 64)
    (hy : y.payload.length < 2 ^ 64) (h : encode x ++ r = encode y ++ s) : x = y ∧ r = s := by
  have hread : readItem (max x.depth y.depth) (encode x ++ r) = .ok (x, r) :=
    readItem_encode (Nat.le_max_left _ _) hx
  rw [h, readItem_encode (Nat.le_max_right _ _) hy] at hread
  obtain ⟨rfl, rfl⟩ := Prod.mk.inj (Except.ok.inj hread)
  exact ⟨rfl, rfl⟩

theorem encodeAll_inj {xs ys : List Item} (hx : ∀ x ∈ xs, x.payload.length < 2 ^ 64)
    (hy : ∀ y ∈ ys, y.payload.length < 2 ^ 64) (h : encodeAll xs = encodeAll ys) : xs = ys := by
  induction xs generalizing ys with
  | nil =>
      cases ys with
      | nil => rfl
      | cons y ys => simp [encode_ne_nil] at h
  | cons x xs ih =>
      cases ys with
      | nil => simp [encode_ne_nil] at h
      | cons y ys =>
          obtain ⟨hx, hxs⟩ := List.forall_mem_cons.mp hx
          obtain ⟨hy, hys⟩ := List.forall_mem_cons.mp hy
          rw [encodeAll_cons, encodeAll_cons] at h
          obtain ⟨rfl, hrest⟩ := encode_append_inj hx hy h
          rw [ih hxs hys hrest]

end TypedTx.Rlp
