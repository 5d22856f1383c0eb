import TypedTx.Proofs.Rlp.Codec

/-!
# The depth limit

The reader takes back every wire form up to the depth limit, and refuses exactly the
deeper ones. The members of a list are read from left to right, and those in front
of the first member that is too deep are read without a fault, so the fault is always
that of the limit, wherever in the value it is exceeded. Conversely, nothing but the
wire form of a value within the limit is read.
-/

namespace TypedTx.Rlp

theorem Item.depthAll_cons_eq_max (item : Item) (items : List Item) :
    depthAll (item :: items) = max item.depth (depthAll items) := by
  rw [depthAll]

section Deep

variable {step : Bytes → Except Fault (Item × Bytes)} {levels bound : Nat} {rest : Bytes}
variable {acc items : List Item} {item : Item} {fault : Fault}

/-- A list with a member that is too deep is refused with the fault of that member. -/
theorem collect_encodeAll_of_deep
    (hshallow : ∀ item ∈ items, item.depth ≤ levels →
      ∀ rest, step (encode item ++ rest) = .ok (item, rest))
    (hdeep : ∀ item ∈ items, levels < item.depth →
      ∀ rest, step (encode item ++ rest) = .error fault)
    (hlevels : levels < Item.depthAll items) (hbound : (encodeAll items).length ≤ bound) :
    collect step bound (encodeAll items) acc = .error fault := by
  induction items generalizing bound acc with
  | nil => exact absurd hlevels (Nat.not_lt_zero _)
  | cons item items ih =>
      have hpos : 0 < (encode item).length := List.length_pos_iff.mpr (encode_ne_nil item)
      rw [encodeAll_cons, List.length_append] at hbound
      obtain ⟨bound, rfl⟩ : ∃ n, bound = n + 1 := ⟨bound - 1, by omega⟩
      have hne : encode item ++ encodeAll items ≠ [] :=
        List.append_ne_nil_of_left_ne_nil (encode_ne_nil item) _
      rw [encodeAll_cons, collect_succ hne]
      by_cases hitem : item.depth ≤ levels
      · -- The member is read, so one behind it is too deep.
        have hbehind : levels < Item.depthAll items := by
          rw [Item.depthAll_cons_eq_max] at hlevels
          omega
        rw [hshallow item List.mem_cons_self hitem]
        dsimp only
        apply ih
        · intro x hx
          exact hshallow x (List.mem_cons_of_mem item hx)
        · intro x hx
          exact hdeep x (List.mem_cons_of_mem item hx)
        · exact hbehind
        · omega
      · rw [hdeep item List.mem_cons_self (Nat.not_le.mp hitem)]

theorem readItem_zero_of_list {input payload : Bytes}
    (h : Chunk.read input = .ok ⟨.list, payload, rest⟩) :
    readItem 0 input = .error (.depthLimitExceeded maxDepth) := by
  simp only [readItem, h]

/-- A value that is nested too deep is refused, whatever follows it. -/
theorem readItem_encode_of_deep (hdepth : levels < item.depth)
    (hsize : item.payload.length < 2 ^ 64) :
    readItem levels (encode item ++ rest) = .error (.depthLimitExceeded maxDepth) := by
  -- On the levels that are left. The members of a list have one level less, each of them
  -- with another one behind it.
  induction levels generalizing item rest with
  | zero =>
      cases item with
      | bytes bs => exact absurd hdepth (Nat.lt_irrefl 0)
      | list items => exact readItem_zero_of_list (read_encode hsize)
  | succ levels ih =>
      cases item with
      | bytes bs => exact absurd hdepth (Nat.not_lt_zero _)
      | list items =>
          have hinner : levels < Item.depthAll items := by
            rw [Item.depth] at hdepth
            exact Nat.lt_of_succ_lt_succ hdepth
          have hcollect : collect (readItem levels) (encodeAll items).length (encodeAll items) [] =
              .error (.depthLimitExceeded maxDepth) := by
            apply collect_encodeAll_of_deep
            · intro x hx hshallow rest
              exact readItem_encode hshallow (length_payload_lt_of_mem hx hsize)
            · intro x hx hdeep rest
              exact ih hdeep (length_payload_lt_of_mem hx hsize)
            · exact hinner
            · exact Nat.le_refl _
          rw [readItem_of_list (read_encode hsize), Item.payload, hcollect]
          rfl

end Deep

theorem decode_encode_of_shallow {item : Item} (hdepth : item.depth ≤ maxDepth)
    (hsize : item.payload.length < 2 ^ 64) : decode (encode item) = .ok item :=
  decode_eq_ok_iff.mpr ⟨rfl, hdepth, hsize⟩

theorem decode_encode_of_deep {item : Item} (hdepth : maxDepth < item.depth)
    (hsize : item.payload.length < 2 ^ 64) :
    decode (encode item) = .error (.depthLimitExceeded maxDepth) := by
  have hread : readItem maxDepth (encode item ++ []) = _ := readItem_encode_of_deep hdepth hsize
  rw [List.append_nil] at hread
  rw [decode, hread]

/-- The reader of lists gives back the members under the same limit. -/
theorem decodeList_encodeList {items : List Item} (hsize : (encodeAll items).length < 2 ^ 64) :
    decodeList (encodeList items) =
      if (Item.list items).depth ≤ 16 then .ok items
      else .error (.depthLimitExceeded 16) := by
  by_cases hdepth : (Item.list items).depth ≤ 16
  · have hdecode : decode (encodeList items) = .ok (.list items) :=
      decode_encode_of_shallow hdepth hsize
    rw [decodeList, hdecode, if_pos hdepth]
  · have hdecode : decode (encodeList items) = .error (.depthLimitExceeded 16) :=
      decode_encode_of_deep (Nat.not_le.mp hdepth) hsize
    rw [decodeList, hdecode, if_neg hdepth]

/-- Decoding inverts encoding up to sixteen nested lists, and refuses deeper values
with the fault of the limit. The payload of a value holds those of its members, so
its size bounds theirs. -/
theorem decode_encode_eq_ite_depth (item : Item) (hsize : item.payload.length < 2 ^ 64) :
    decode (encode item) =
      if item.depth ≤ 16 then .ok item else .error (.depthLimitExceeded 16) := by
  by_cases hdepth : item.depth ≤ 16
  · rw [if_pos hdepth]
    exact decode_encode_of_shallow hdepth hsize
  · rw [if_neg hdepth]
    exact decode_encode_of_deep (Nat.not_le.mp hdepth) hsize

/-- Sixteen lists around an empty byte string, alone and behind a short member of a
seventeenth list. -/
theorem decode_encode_eq_ite_depth_of_nested :
    let nested := Nat.repeat (fun item => Item.list [item]) 16 .empty
    let deeper := Item.list [.bytes [0x80], nested]
    decode (encode nested) = .ok nested ∧
      decode (encode deeper) = .error (.depthLimitExceeded 16) := by
  intro nested deeper
  have hnested := decode_encode_eq_ite_depth nested (by decide +kernel)
  have hdeeper := decode_encode_eq_ite_depth deeper (by decide +kernel)
  rw [if_pos (by decide +kernel)] at hnested
  rw [if_neg (by decide +kernel)] at hdeeper
  exact ⟨hnested, hdeeper⟩

/-- What is decoded was canonical: it is the wire form of the decoded value, which is
nested no deeper than sixteen lists, and no other input is decoded to that value. -/
theorem canonical_of_decode {input : Bytes} {item : Item} (h : decode input = .ok item) :
    encode item = input ∧ item.depth ≤ 16 ∧
      ∀ other, decode other = .ok item → other = input := by
  obtain ⟨hinput, hdepth, -⟩ := decode_eq_ok_iff.mp h
  refine ⟨hinput.symm, hdepth, ?_⟩
  intro other hother
  obtain ⟨hother, -⟩ := decode_eq_ok_iff.mp hother
  rw [hother, hinput]

/-- A list that holds the empty list and a byte with a header. -/
theorem canonical_of_decode_of_pair :
    let input : Bytes := [0xc3, 0xc0, 0x81, 0x80]
    let item := Item.list [.list [], .bytes [0x80]]
    decode input = .ok item ∧ encode item = input ∧ item.depth ≤ 16 ∧
      ∀ other, decode other = .ok item → other = input := by
  intro input item
  have h : decode input = .ok item := by decide +kernel
  exact ⟨h, canonical_of_decode h⟩

end TypedTx.Rlp
