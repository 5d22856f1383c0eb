import TypedTx.Proofs.Rlp.Depth

/-!
# Wire forms that are cut off or continued

The outermost header announces the whole payload. So it is there that the missing end of a
wire form is found out, wherever it was cut: in front of the header, among the bytes of
the size, or anywhere in the payload. The members of the payload are not looked at before.
Bytes behind a wire form are found when the value in front of them has been read.
-/

namespace TypedTx.Rlp

theorem splitExactly_of_lt {size : Nat} {input : Bytes} (h : input.length < size) :
    splitExactly size input = .error .inputTooShort := by
  have hshort : (input.take size).length < size :=
    Nat.lt_of_le_of_lt (List.length_take_le' size input) h
  exact if_pos hshort

theorem readSize_of_lt {width : Nat} {input : Bytes} (h : input.length < width) :
    readSize width input = .error .inputTooShort := by
  rw [readSize, splitExactly_of_lt h]
  rfl

namespace Chunk

variable {shape : Shape} {payload front back : Bytes} {size : Nat}

theorem cut_of_lt {input : Bytes} (h : input.length < size) :
    cut shape size input = .error .inputTooShort := by
  rw [cut, splitExactly_of_lt h]
  rfl

/-- A header that is cut off is too short. -/
theorem read_of_header_eq_append (hlt : size < 2 ^ 64)
    (hheader : header shape.base size = front ++ back) (hback : back ≠ []) :
    read front = .error .inputTooShort := by
  by_cases hlong : 56 ≤ size
  · obtain ⟨first, hfirst, heq, hpos, hle⟩ := exists_header_long shape hlong hlt
    rw [heq] at hheader
    cases front with
    | nil => rfl
    | cons _ digits =>
        -- The first byte announces the bytes of the size, and some of them are missing.
        rw [List.cons_append] at hheader
        obtain ⟨rfl, hdigits⟩ := List.cons.inj hheader
        have hfew : digits.length < (Bytes.ofNat size).length := by
          rw [hdigits, List.length_append]
          exact Nat.lt_add_of_pos_right (List.length_pos_iff.mpr hback)
        rw [read_of_long hfirst hpos hle, readSize_of_lt hfew]
        rfl
  · obtain ⟨first, -, heq⟩ := exists_header_short shape (Nat.not_le.mp hlong)
    rw [heq] at hheader
    obtain ⟨rfl, -⟩ | ⟨-, rfl⟩ := List.singleton_eq_append_iff.mp hheader
    · rfl
    · exact absurd rfl hback

/-- A header in front of fewer bytes than it announces is too short. -/
theorem read_header_of_lt (hlt : size < 2 ^ 64) (hfew : front.length < size) :
    read (header shape.base size ++ front) = .error .inputTooShort := by
  rw [read_header hlt, cut_of_lt hfew]
  intro _ hone b tail hfront
  -- Nothing is there of a single byte.
  rw [hone, hfront] at hfew
  exact absurd hfew (by simp)

/-- A frame that is cut off anywhere is too short. -/
theorem read_of_frame_eq_append (hlt : payload.length < 2 ^ 64)
    (hframe : shape.frame payload = front ++ back) (hback : back ≠ []) :
    read front = .error .inputTooShort := by
  by_cases hself : shape = .bytes ∧ isSelfEncoded payload = true
  · obtain ⟨rfl, hself⟩ := hself
    obtain ⟨b, rfl, -⟩ := isSelfEncoded_iff.mp hself
    rw [frame_of_isSelfEncoded hself] at hframe
    obtain ⟨rfl, -⟩ | ⟨-, rfl⟩ := List.singleton_eq_append_iff.mp hframe
    · rfl
    · exact absurd rfl hback
  · have hheader : shape = .bytes → isSelfEncoded payload = false := fun hshape =>
      Bool.eq_false_iff.mpr fun h => hself ⟨hshape, h⟩
    rw [frame_of_header hheader] at hframe
    obtain ⟨middle, rfl, hpayload⟩ | ⟨middle, hcut, rfl⟩ := List.append_eq_append_iff.mp hframe
    · have hfew : middle.length < payload.length := by
        rw [hpayload, List.length_append]
        exact Nat.lt_add_of_pos_right (List.length_pos_iff.mpr hback)
      exact read_header_of_lt hlt hfew
    · by_cases hmiddle : middle = []
      · -- The cut is between the header and the payload.
        subst hmiddle
        have hread : read (header shape.base payload.length ++ []) = .error .inputTooShort :=
          read_header_of_lt hlt (List.length_pos_iff.mpr hback)
        rwa [List.append_nil, hcut, List.append_nil] at hread
      · exact read_of_header_eq_append hlt hcut hmiddle

end Chunk

theorem decode_of_read_error {input : Bytes} {fault : HeaderFault}
    (h : Chunk.read input = .error fault) : decode input = .error (.header fault) := by
  have hread : readItem maxDepth input = .error (.header fault) := by
    rw [maxDepth, readItem, h]
  rw [decode, hread]

theorem decode_of_prefix {item : Item} {front : Bytes} (hsize : item.payload.length < 2 ^ 64)
    (hfront : front <+: encode item) (hne : front ≠ encode item) :
    decode front = .error (.header .inputTooShort) := by
  obtain ⟨back, hback⟩ := hfront
  have hmissing : back ≠ [] := by
    rintro rfl
    exact hne ((List.append_nil front).symm.trans hback)
  rw [encode_eq_frame] at hback
  exact decode_of_read_error (Chunk.read_of_frame_eq_append hsize hback.symm hmissing)

theorem decode_encode_append {item : Item} {suffix : Bytes} (hsize : item.payload.length < 2 ^ 64)
    (hsuffix : suffix ≠ []) :
    decode (encode item ++ suffix) =
      if item.depth ≤ 16 then .error (.trailingBytes suffix.length)
      else .error (.depthLimitExceeded 16) := by
  by_cases hdepth : item.depth ≤ 16
  · have hread : readItem maxDepth (encode item ++ suffix) = .ok (item, suffix) :=
      readItem_encode hdepth hsize
    rw [if_pos hdepth, decode, hread]
    cases suffix with
    | nil => exact absurd rfl hsuffix
    | cons b bs => rfl
  · have hread : readItem maxDepth (encode item ++ suffix) = .error (.depthLimitExceeded 16) :=
      readItem_encode_of_deep (Nat.not_le.mp hdepth) hsize
    rw [if_neg hdepth, decode, hread]

/-- Wire forms delimit themselves. Whatever is cut off at the end, the rest is refused as
too short, however deep the value is nested. Whatever is added is counted once the value
is read, if the value is not nested too deep to be read. -/
theorem decode_selfDelimiting (item : Item) (hsize : item.payload.length < 2 ^ 64) :
    (∀ front, front <+: encode item → front ≠ encode item →
      decode front = .error (.header .inputTooShort)) ∧
    ∀ suffix, suffix ≠ [] →
      decode (encode item ++ suffix) =
        if item.depth ≤ 16 then .error (.trailingBytes suffix.length)
        else .error (.depthLimitExceeded 16) := by
  constructor
  · intro front hfront hne
    exact decode_of_prefix hsize hfront hne
  · intro suffix hsuffix
    exact decode_encode_append hsize hsuffix

/-- A list of one member of 300 bytes, cut off among the bytes of its size, among those of
the size of the member and among the member's own, and the same list behind and in front
of others. -/
theorem decode_selfDelimiting_of_long :
    let item := Item.list [.bytes (List.replicate 300 0x2a)]
    let deep := Nat.repeat (fun item => Item.list [item]) 16 item
    decode ((encode item).take 2) = .error (.header .inputTooShort) ∧
      decode ((encode item).take 4) = .error (.header .inputTooShort) ∧
      decode ((encode item).take 200) = .error (.header .inputTooShort) ∧
      decode (encode item ++ encode item) = .error (.trailingBytes 306) ∧
      decode ((encode deep).take 200) = .error (.header .inputTooShort) ∧
      decode (encode deep ++ [0]) = .error (.depthLimitExceeded 16) := by
  intro item deep
  obtain ⟨hcut, hcontinued⟩ := decode_selfDelimiting item (by decide +kernel)
  obtain ⟨hdeepCut, hdeepContinued⟩ := decode_selfDelimiting deep (by decide +kernel)
  have hitem := hcontinued (encode item) (by decide +kernel)
  have hdeep := hdeepContinued [0] (by decide)
  have hlength : (encode item).length = 306 := by decide +kernel
  rw [if_pos (by decide +kernel), hlength] at hitem
  rw [if_neg (by decide +kernel)] at hdeep
  refine ⟨?_, ?_, ?_, hitem, ?_, hdeep⟩
  · exact hcut _ (List.take_prefix 2 _) (by decide +kernel)
  · exact hcut _ (List.take_prefix 4 _) (by decide +kernel)
  · exact hcut _ (List.take_prefix 200 _) (by decide +kernel)
  · exact hdeepCut _ (List.take_prefix 200 _) (by decide +kernel)

end TypedTx.Rlp
