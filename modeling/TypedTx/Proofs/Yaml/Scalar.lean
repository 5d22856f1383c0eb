import TypedTx.Proofs.BigEndian
import TypedTx.Proofs.Hex
import TypedTx.Yaml.Scalar

/-!
# Scalars are read back

A text is written between double quotes, where letters, digits and underscores stand for
themselves and every other character is an escape of eight digits. A plain scalar is
written as it is, if it consists of letters, digits and underscores. Both are read on a
line of their own text, so no break and no document mark is in sight.
-/

namespace TypedTx.Yaml

/-- A character that is written as it is. -/
def isWordChar (c : Char) : Bool :=
  c.isAlphanum || c == '_'

/-- The last digits of a number in base 16. -/
def hexDigits : (width n : Nat) → List Char
  | 0, _ => []
  | width + 1, n => hexDigits width (n / 16) ++ [Nat.digitChar (n % 16)]

def writeChar (c : Char) : List Char :=
  if isWordChar c then [c] else '\\' :: 'U' :: hexDigits 8 c.toNat

def writeText (cs : List Char) : List Char :=
  cs.flatMap writeChar

def writeQuoted (cs : List Char) : List Char :=
  '\x22' :: (writeText cs ++ ['\x22'])

section Word

variable {c : Char} {cs rest : List Char}

theorem writeText_cons : writeText (c :: cs) = writeChar c ++ writeText cs := rfl

theorem length_lt_writeQuoted_append (cs rest : List Char) :
    rest.length < (writeQuoted cs ++ rest).length := by
  rw [List.length_append, writeQuoted, List.length_cons]
  omega

/-- The codes of the characters that are written as they are. -/
theorem toNat_of_isWordChar (h : isWordChar c = true) :
    (48 ≤ c.toNat ∧ c.toNat ≤ 57) ∨ (65 ≤ c.toNat ∧ c.toNat ≤ 90) ∨ c.toNat = 95 ∨
      (97 ≤ c.toNat ∧ c.toNat ≤ 122) := by
  have hupper (h : c.isUpper = true) : 65 ≤ c.toNat ∧ c.toNat ≤ 90 := of_decide_eq_true h
  have hlower (h : c.isLower = true) : 97 ≤ c.toNat ∧ c.toNat ≤ 122 :=
    (Bool.and_eq_true_iff.mp h).imp of_decide_eq_true of_decide_eq_true
  have hdigit (h : c.isDigit = true) : 48 ≤ c.toNat ∧ c.toNat ≤ 57 :=
    (Bool.and_eq_true_iff.mp h).imp of_decide_eq_true of_decide_eq_true
  obtain h | h := Bool.or_eq_true_iff.mp h
  · obtain h | h := Bool.or_eq_true_iff.mp h
    · obtain h | h := Bool.or_eq_true_iff.mp h
      · exact .inr (.inl (hupper h))
      · exact .inr (.inr (.inr (hlower h)))
    · exact .inl (hdigit h)
  · rw [beq_iff_eq.mp h]
    exact .inr (.inr (.inl rfl))

theorem ne_of_isWordChar {d : Char} (h : isWordChar c = true) (hd : isWordChar d = false) :
    c ≠ d := by
  rintro rfl
  rw [h] at hd
  cases hd

theorem notMem_of_isWordChar {l : List Char} (h : isWordChar c = true)
    (hl : l.any isWordChar = false) : c ∉ l := by
  intro hmem
  rw [List.any_eq_true.mpr ⟨c, hmem, h⟩] at hl
  cases hl

theorem isBlank_of_isWordChar (h : isWordChar c = true) : isBlank c = false := by
  have hspace : c ≠ ' ' := ne_of_isWordChar h (by decide)
  have htab : c ≠ '\t' := ne_of_isWordChar h (by decide)
  simp [isBlank, hspace, htab]

theorem isBreak_of_isWordChar (h : isWordChar c = true) : isBreak c = false := by
  have hnot : c ∉ ['\n', '\r', '\u0085', '\u2028', '\u2029'] := notMem_of_isWordChar h (by decide)
  simp only [List.mem_cons, not_or] at hnot
  simp [isBreak, isLineEnd, isSeparator, hnot]

theorem isFlowIndicator_of_isWordChar (h : isWordChar c = true) : isFlowIndicator c = false := by
  rw [isFlowIndicator, List.contains_eq_mem, decide_eq_false_iff_not]
  exact notMem_of_isWordChar h (by decide)

theorem isPrintable_of_isWordChar (h : isWordChar c = true) : isPrintable c = true := by
  have hcode := toNat_of_isWordChar h
  simp only [isPrintable, Bool.or_eq_true, Bool.and_eq_true, beq_iff_eq, decide_eq_true_eq]
  omega

end Word

section Digits

variable {width n : Nat}

theorem length_hexDigits (width n : Nat) : (hexDigits width n).length = width := by
  induction width generalizing n with
  | zero => rfl
  | succ width ih => rw [hexDigits, List.length_append, ih, List.length_singleton]

theorem isWordChar_of_mem_hexDigits {d : Char} (h : d ∈ hexDigits width n) :
    isWordChar d = true := by
  have hall : ∀ k < 16, isWordChar (Nat.digitChar k) = true := by decide
  induction width generalizing n with
  | zero => cases h
  | succ width ih =>
      obtain h | h := List.mem_append.mp h
      · exact ih h
      · rw [List.mem_singleton.mp h]
        exact hall _ (Nat.mod_lt _ (by decide))

theorem exists_mapM_hexDigits (width : Nat) (h : n < 16 ^ width) :
    ∃ ds, (hexDigits width n).mapM (Numeral.digitIn? 16) = some ds ∧ Radix.value 16 ds = n := by
  induction width generalizing n with
  | zero =>
      rw [Nat.pow_zero, Nat.lt_one_iff] at h
      exact ⟨[], rfl, h.symm⟩
  | succ width ih =>
      obtain ⟨ds, hread, hvalue⟩ := ih (n := n / 16) (by omega)
      have hdigit := Hex.digit?_digitChar (Nat.mod_lt n (by decide : 16 > 0))
      refine ⟨ds ++ [n % 16], ?_, ?_⟩
      · rw [hexDigits, List.mapM_append, hread]
        change (do let d ← (do let d ← Hex.digit? (Nat.digitChar (n % 16)); pure [d]); _) = _
        rw [hdigit]
        rfl
      · rw [Radix.value_concat, hvalue]
        omega

theorem ofDigits?_hexDigits (h : n < 16 ^ (width + 1)) :
    Numeral.ofDigits? 16 (hexDigits (width + 1) n) = some n := by
  obtain ⟨ds, hread, hvalue⟩ := exists_mapM_hexDigits (width + 1) h
  have hnonempty : (hexDigits (width + 1) n).isEmpty = false := by
    rw [hexDigits]
    simp
  rw [Numeral.ofDigits?, hnonempty, hread]
  exact congrArg some hvalue

end Digits

section Cursor

variable {c : Cursor} {cs rest : List Char}

theorem Cursor.skip_skip (c : Cursor) (m n : Nat) : (c.skip m).skip n = c.skip (m + n) := by
  simp [skip, Nat.add_assoc]

theorem Cursor.atMark_of_column (h : 0 < c.column) (mark : Char) : c.atMark mark = false := by
  rw [atMark, beq_false_of_ne (Nat.ne_of_gt h)]
  rfl

theorem Cursor.atDocument_of_column (h : 0 < c.column) : c.atDocument = false := by
  rw [atDocument, atMark_of_column h, atMark_of_column h]
  rfl

theorem Cursor.rest_skip_append (h : c.rest = cs ++ rest) : (c.skip cs.length).rest = rest := by
  change c.rest.drop cs.length = rest
  rw [h, List.drop_left]

theorem Cursor.startsWith_cons {x : Char} {p : Char → Bool} (h : c.rest = x :: rest) :
    c.startsWith p = p x := by
  rw [startsWith, h]
  rfl

/-- The escape of a character is read as the character. -/
theorem Cursor.escape?_hexDigits (x : Char) (h : c.rest = 'U' :: (hexDigits 8 x.toNat ++ rest)) :
    c.escape? = some (x, c.skip 9) := by
  have hlt : x.toNat < 16 ^ 8 := x.val.toNat_lt_size
  have hlength := length_hexDigits 8 x.toNat
  have htake : (hexDigits 8 x.toNat ++ rest).take 8 = hexDigits 8 x.toNat := by
    rw [List.take_append_of_le_length hlength.ge, List.take_of_length_le hlength.le]
  have hvalid : x.toNat.isValidChar := x.valid
  have hchar : charOfCode? x.toNat = some x := by
    rw [charOfCode?, dif_pos hvalid]
    rfl
  rw [escape?, h]
  simp only [escapeWidth?, htake, ofDigits?_hexDigits hlt, hlength, Option.bind_eq_bind,
    Option.bind_some, hchar, if_true]

end Cursor

section Quoted

variable {c : Cursor} {cs rest text : List Char} {x : Char} {bound : Nat}

theorem quotedPieces?_word (hcolumn : 0 < c.column) (hx : isWordChar x = true)
    (h : c.rest = x :: rest) :
    quotedPieces? .double (bound + 1) c text =
      quotedPieces? .double bound (c.skip 1) (x :: text) := by
  have hquote : x ≠ '\x22' := ne_of_isWordChar hx (by decide)
  have hescape : x ≠ '\\' := ne_of_isWordChar hx (by decide)
  rw [quotedPieces?, Cursor.atDocument_of_column hcolumn, h]
  simp [Quotes.char, hquote, hescape, isBlank_of_isWordChar hx, isBreak_of_isWordChar hx]

theorem quotedPieces?_escape (hcolumn : 0 < c.column)
    (h : c.rest = '\\' :: 'U' :: (hexDigits 8 x.toNat ++ rest)) :
    quotedPieces? .double (bound + 1) c text =
      quotedPieces? .double bound (c.skip 10) (x :: text) := by
  have hnext : (c.skip 1).rest = 'U' :: (hexDigits 8 x.toNat ++ rest) := by
    change c.rest.drop 1 = _
    rw [h, List.drop_one, List.tail_cons]
  have hbreak : (c.skip 1).break? = none := by
    rw [Cursor.break?, hnext]
    rfl
  rw [quotedPieces?, Cursor.atDocument_of_column hcolumn, h]
  simp [Quotes.char, hbreak, Cursor.escape?_hexDigits x hnext, Cursor.skip_skip]

theorem quotedPieces?_writeChar (hcolumn : 0 < c.column) (h : c.rest = writeChar x ++ rest) :
    quotedPieces? .double (bound + 1) c text =
      quotedPieces? .double bound (c.skip (writeChar x).length) (x :: text) := by
  rw [writeChar] at h ⊢
  split at h
  · rename_i hx
    rw [if_pos hx]
    exact quotedPieces?_word hcolumn hx h
  · rename_i hx
    rw [if_neg hx, List.length_cons, List.length_cons, length_hexDigits]
    exact quotedPieces?_escape hcolumn h

theorem quotedPieces?_end (hcolumn : 0 < c.column) (h : c.rest = '\x22' :: rest) :
    quotedPieces? .double (bound + 1) c text = some (text, c.skip 1) := by
  rw [quotedPieces?, Cursor.atDocument_of_column hcolumn, h]
  simp [Quotes.char]

/-- A written text is read character by character up to behind its closing quote. -/
theorem quotedPieces?_writeText (bound : Nat) (text : List Char) (hcolumn : 0 < c.column)
    (h : c.rest = writeText cs ++ '\x22' :: rest) :
    quotedPieces? .double (bound + cs.length + 1) c text =
      some (cs.reverse ++ text, c.skip ((writeText cs).length + 1)) := by
  induction cs generalizing c text with
  | nil => exact quotedPieces?_end hcolumn h
  | cons x cs ih =>
      rw [writeText_cons, List.append_assoc] at h
      have hskip := Cursor.rest_skip_append h
      have hcolumn' : 0 < (c.skip (writeChar x).length).column := Nat.add_pos_left hcolumn _
      rw [List.length_cons, ← Nat.add_assoc, quotedPieces?_writeChar hcolumn h, ih _ hcolumn' hskip,
        Cursor.skip_skip, writeText_cons, List.length_append, List.reverse_cons, List.append_assoc,
        List.singleton_append, Nat.add_assoc]

theorem length_le_length_writeText (cs : List Char) : cs.length ≤ (writeText cs).length := by
  induction cs with
  | nil => exact Nat.le_refl 0
  | cons x cs ih =>
      have hchar : 1 ≤ (writeChar x).length := by
        rw [writeChar]
        split <;> simp
      rw [writeText_cons, List.length_append, List.length_cons]
      omega

/-- A quoted scalar is read from its opening quote on. -/
theorem Cursor.quoted?_writeQuoted (hcolumn : 0 < c.column) (h : c.rest = writeQuoted cs ++ rest)
    (hbound : (writeQuoted cs).length ≤ bound) :
    (c.skip 1).quoted? .double bound =
      some (⟨String.ofList cs, false⟩, c.skip (writeQuoted cs).length) := by
  have hlength : (writeQuoted cs).length = 1 + ((writeText cs).length + 1) := by
    rw [writeQuoted, List.length_cons, List.length_append, List.length_singleton, Nat.add_comm]
  have hle := length_le_length_writeText cs
  have hrest : (c.skip 1).rest = writeText cs ++ '\x22' :: rest := by
    change c.rest.drop 1 = _
    rw [h, writeQuoted]
    simp
  have hread :=
    quotedPieces?_writeText (bound - cs.length - 1) [] (Nat.add_pos_left hcolumn 1) hrest
  rw [show bound - cs.length - 1 + cs.length + 1 = bound by omega] at hread
  rw [quoted?, hread, Cursor.skip_skip, hlength]
  simp

end Quoted

section Plain

variable {c : Cursor} {cs rest word : List Char}

/-- What may follow a word that is a plain scalar. -/
def EndsWord (rest : List Char) : Prop :=
  ∃ x tail, rest = x :: tail ∧ isFlowIndicator x = true

theorem plainWord?_word (hcs : ∀ x ∈ cs, isWordChar x = true) (hrest : EndsWord rest) :
    plainWord? true (cs ++ rest) word = some (cs.reverse ++ word) := by
  induction cs generalizing word with
  | nil =>
      obtain ⟨x, tail, rfl, hends⟩ := hrest
      have hcolon : x ≠ ':' := by
        rintro rfl
        exact absurd hends (by decide)
      simp [plainWord?, hcolon, hends]
  | cons x cs ih =>
      obtain ⟨hx, hcs⟩ := List.forall_mem_cons.mp hcs
      have hcolon : x ≠ ':' := ne_of_isWordChar hx (by decide)
      rw [List.cons_append, plainWord?]
      simp [hcolon, isBlank_of_isWordChar hx, isBreak_of_isWordChar hx,
        isFlowIndicator_of_isWordChar hx, ih hcs]

/-- A word in front of a flow indicator is a plain scalar. -/
theorem Cursor.plain?_word (margin bound : Nat) (hcolumn : 0 < c.column) (hne : cs ≠ [])
    (hcs : ∀ x ∈ cs, isWordChar x = true) (hrest : EndsWord rest) (h : c.rest = cs ++ rest) :
    c.plain? true margin (bound + 1) =
      some (⟨String.ofList cs, true⟩, false, c.skip cs.length) := by
  have hskip := Cursor.rest_skip_append h
  have hword : plainWord? true c.rest [] = some cs.reverse := by
    rw [h, plainWord?_word hcs hrest, List.append_nil]
  have hcomment : c.startsWith (· == '#') = false := by
    obtain ⟨x, tail, rfl⟩ := List.exists_cons_of_ne_nil hne
    have hx : x ≠ '#' := ne_of_isWordChar (hcs x List.mem_cons_self) (by decide)
    rw [startsWith_cons h, beq_false_of_ne hx]
  have hgap : (c.skip cs.length).startsWith (fun x => isBlank x || isBreak x) = false := by
    obtain ⟨x, tail, rfl, hends⟩ := hrest
    have hnot : [',', '[', ']', '{', '}'].any (fun d => isBlank d || isBreak d) = false := by decide
    rw [startsWith_cons hskip, Bool.eq_false_iff]
    exact List.any_eq_false.mp hnot x (List.contains_iff_mem.mp hends)
  rw [plain?, plainWords?, atDocument_of_column hcolumn, hcomment, hword]
  simp [hgap, hne, Gap.folded, Gap.empty, Gap.isBroken]

end Plain

section Number

variable {n : Nat}

/-- The digits of a number in base 10. -/
def decimal (n : Nat) : List Char :=
  if n = 0 then ['0'] else (Radix.digits 10 n).map Nat.digitChar

theorem digitIn?_digitChar {d : Nat} (h : d < 10) :
    Numeral.digitIn? 10 (Nat.digitChar d) = some d := by
  have hall : ∀ d < 10, Numeral.digitIn? 10 (Nat.digitChar d) = some d := by decide
  exact hall d h

/-- Neither a sign nor a zero stands in front of the digits of a positive number. -/
theorem exists_decimal_cons (hn : n ≠ 0) :
    ∃ d ds, Radix.digits 10 n = d :: ds ∧ Nat.digitChar d ≠ '+' ∧ Nat.digitChar d ≠ '0' := by
  have hne : Radix.digits 10 n ≠ [] := by
    rw [Radix.digits_eq_reverse (by decide), ne_eq, List.reverse_eq_nil_iff]
    exact Nat.digits_ne_nil_iff_ne_zero.mpr hn
  obtain ⟨d, ds, hdigits⟩ := List.exists_cons_of_ne_nil hne
  have hmem : d ∈ Radix.digits 10 n := by
    rw [hdigits]
    exact List.mem_cons_self
  have hlt : d < 10 := Radix.lt_of_mem_digits (by decide) hmem
  have hzero : d ≠ 0 := by
    rintro rfl
    have hhead := Radix.head?_digits_ne_zero (by decide : 1 < 10) n
    rw [hdigits] at hhead
    exact hhead rfl
  have hall : ∀ d < 10, d ≠ 0 → Nat.digitChar d ≠ '+' ∧ Nat.digitChar d ≠ '0' := by decide
  exact ⟨d, ds, hdigits, hall d hlt hzero⟩

theorem Scalar.nat?_of_head {x : Char} {cs : List Char} (hplus : x ≠ '+') (hzero : x ≠ '0') :
    Scalar.nat? ⟨String.ofList (x :: cs), true⟩ = Numeral.ofDigits? 10 (x :: cs) := by
  simp [nat?, hplus, hzero]

/-- A number in base 10 is read back. -/
theorem Scalar.nat?_decimal (n : Nat) : Scalar.nat? ⟨String.ofList (decimal n), true⟩ = some n := by
  by_cases hn : n = 0
  · subst hn
    decide
  · obtain ⟨d, ds, hdigits, hplus, hzero⟩ := exists_decimal_cons hn
    have hread : ((Radix.digits 10 n).map Nat.digitChar).mapM (Numeral.digitIn? 10) =
        some (Radix.digits 10 n) :=
      Success.mapM_map fun e he => digitIn?_digitChar (Radix.lt_of_mem_digits (by decide) he)
    have hdecimal : decimal n = Nat.digitChar d :: ds.map Nat.digitChar := by
      rw [decimal, if_neg hn, hdigits, List.map_cons]
    rw [hdecimal, nat?_of_head hplus hzero, Numeral.ofDigits?, ← List.map_cons, ← hdigits, hread]
    have hempty : ((Radix.digits 10 n).map Nat.digitChar).isEmpty = false := by
      rw [hdigits]
      rfl
    rw [hempty]
    exact congrArg some (Radix.value_digits (by decide) n)

/-- A number in base 10 is a word. -/
theorem isWordChar_decimal (n : Nat) :
    decimal n ≠ [] ∧ ∀ x ∈ decimal n, isWordChar x = true := by
  have hall : ∀ d < 10, isWordChar (Nat.digitChar d) = true := by decide
  rw [decimal]
  split
  · exact ⟨nofun, List.forall_mem_singleton.mpr (by decide)⟩
  · rename_i hn
    obtain ⟨d, ds, hdigits, -⟩ := exists_decimal_cons hn
    refine ⟨by rw [hdigits]; exact List.cons_ne_nil _ _, ?_⟩
    rw [List.forall_mem_map]
    intro e he
    exact hall e (Radix.lt_of_mem_digits (by decide) he)

end Number

end TypedTx.Yaml
