import TypedTx.Proofs.Hex

/-!
# Which texts are hexadecimal

The written forms are stated without the readers. A digit is written as `Nat.digitChar`
writes it, or as the capital of that. A byte is spelled by two digits, and a text writes a
byte string if digits that spell it stand behind one prefix, `0x` or `0X`.

Reading a byte string accepts these texts and one more family: a second prefix, in lower
case, may stand before the digits. No text belongs to both, since `x` is not a digit.
-/

namespace TypedTx.Hex

/-- The character is a digit of value `n`, in either case. -/
def IsDigit (c : Char) (n : Nat) : Prop :=
  n < 16 ∧ (c = Nat.digitChar n ∨ c = (Nat.digitChar n).toUpper)

theorem digit?_of_isDigit {c : Char} {n : Nat} (h : IsDigit c n) : digit? c = some n := by
  have hupper : ∀ n < 16, digit? (Nat.digitChar n).toUpper = some n := by decide
  obtain ⟨hlt, rfl | rfl⟩ := h
  · exact digit?_digitChar hlt
  · exact hupper n hlt

/-- The digits of a kind have consecutive codes, so a code tells the value. -/
theorem eq_ofNat_add_of_le {c low : Char} (h : low ≤ c) :
    c = Char.ofNat (low.toNat + (c.toNat - low.toNat)) := by
  have hle : low.toNat ≤ c.toNat := h
  rw [Nat.add_sub_cancel' hle, Char.ofNat_toNat]

theorem isDigit_of_digit? {c : Char} {n : Nat} (h : digit? c = some n) : IsDigit c n := by
  have hdecimal : ∀ k < 10, Char.ofNat ('0'.toNat + k) = Nat.digitChar k := by decide
  have hlower : ∀ k < 6, Char.ofNat ('a'.toNat + k) = Nat.digitChar (k + 10) := by decide
  have hupper : ∀ k < 6, Char.ofNat ('A'.toNat + k) = (Nat.digitChar (k + 10)).toUpper := by
    decide
  obtain ⟨d, hd, hlt⟩ := Option.bind_eq_some_iff.mp h
  rw [Option.ite_none_right_eq_some, Option.some.injEq] at hlt
  obtain ⟨hlt, rfl⟩ := hlt
  rw [Numeral.digit?] at hd
  split at hd
  · rename_i hrange
    obtain rfl := Option.some.inj hd
    have hle : c.toNat ≤ '9'.toNat := hrange.2
    refine ⟨hlt, .inl ?_⟩
    rw [← hdecimal _ (by change _ ≤ 57 at hle; change _ - 48 < _; omega)]
    exact eq_ofNat_add_of_le hrange.1
  · split at hd
    · rename_i hrange
      obtain rfl := Option.some.inj hd
      refine ⟨hlt, .inl ?_⟩
      rw [← hlower _ (by omega)]
      exact eq_ofNat_add_of_le hrange.1
    · rw [Option.ite_none_right_eq_some] at hd
      obtain ⟨hrange, hd⟩ := hd
      obtain rfl := Option.some.inj hd
      refine ⟨hlt, .inr ?_⟩
      rw [← hupper _ (by omega)]
      exact eq_ofNat_add_of_le hrange.1

theorem not_isDigit_x (n : Nat) : ¬ IsDigit 'x' n := by
  intro h
  exact absurd (digit?_of_isDigit h) (by rw [show digit? 'x' = none from rfl]; exact nofun)

/-- The digits spell the bytes, two digits a byte. -/
inductive Spells : List Char → Bytes → Prop where
  | nil : Spells [] []
  | cons {high low : Char} {h l : Nat} {digits : List Char} {bs : Bytes} :
      IsDigit high h → IsDigit low l → Spells digits bs →
      Spells (high :: low :: digits) (UInt8.ofNat (16 * h + l) :: bs)

theorem decodeOnto_of_spells {digits : List Char} {bs : Bytes} (h : Spells digits bs)
    (acc : Bytes) : decodeOnto digits acc = some (acc.reverse ++ bs) := by
  induction h generalizing acc with
  | nil => rw [decodeOnto, List.append_nil]
  | cons hhigh hlow _ ih =>
      rw [decodeOnto, digit?_of_isDigit hhigh, digit?_of_isDigit hlow]
      dsimp only
      rw [ih, List.reverse_cons, List.append_assoc, List.singleton_append]

theorem exists_spells_of_decodeOnto {digits : List Char} {acc out : Bytes}
    (h : decodeOnto digits acc = some out) :
    ∃ bs, Spells digits bs ∧ out = acc.reverse ++ bs := by
  fun_induction decodeOnto digits acc with
  | case1 acc => exact ⟨[], .nil, by rw [← Option.some.inj h, List.append_nil]⟩
  | case2 => exact absurd h nofun
  | case3 acc high low rest h l hlow hhigh ih =>
      obtain ⟨bs, hspells, rfl⟩ := ih h
      refine ⟨_, .cons (isDigit_of_digit? hhigh) (isDigit_of_digit? hlow) hspells, ?_⟩
      rw [List.reverse_cons, List.append_assoc, List.singleton_append]
  | case4 => exact absurd h nofun

/-- Reading digits accepts exactly those that spell a byte string. -/
theorem decode?_eq_some_iff {digits : List Char} {bs : Bytes} :
    decode? digits = some bs ↔ Spells digits bs := by
  constructor
  · intro h
    obtain ⟨found, hspells, rfl⟩ := exists_spells_of_decodeOnto h
    exact hspells
  · intro h
    exact decodeOnto_of_spells h []

theorem Spells.length_eq {digits : List Char} {bs : Bytes} (h : Spells digits bs) :
    digits.length = 2 * bs.length := by
  induction h with
  | nil => rfl
  | cons _ _ _ ih =>
      simp only [List.length_cons]
      omega

theorem Spells.isDigit {digits : List Char} {bs : Bytes} (h : Spells digits bs) :
    ∀ c ∈ digits, ∃ n, IsDigit c n := by
  induction h with
  | nil => exact nofun
  | cons hhigh hlow _ ih =>
      simp only [List.forall_mem_cons]
      exact ⟨⟨_, hhigh⟩, ⟨_, hlow⟩, ih⟩

theorem exists_spells : {digits : List Char} → digits.length % 2 = 0 →
    (∀ c ∈ digits, ∃ n, IsDigit c n) → ∃ bs, Spells digits bs
  | [], _, _ => ⟨[], .nil⟩
  | [_], hlength, _ => absurd hlength Nat.one_ne_zero
  | high :: low :: digits, hlength, hdigits => by
      simp only [List.forall_mem_cons] at hdigits
      obtain ⟨⟨h, hhigh⟩, ⟨l, hlow⟩, hrest⟩ := hdigits
      have heven : digits.length % 2 = 0 := by
        simp only [List.length_cons] at hlength
        omega
      obtain ⟨bs, hspells⟩ := exists_spells heven hrest
      exact ⟨_, .cons hhigh hlow hspells⟩

/-- An even number of digits spells a byte string, and nothing else does. -/
theorem exists_spells_iff {digits : List Char} :
    (∃ bs, Spells digits bs) ↔
      digits.length % 2 = 0 ∧ ∀ c ∈ digits, ∃ n, IsDigit c n := by
  constructor
  · rintro ⟨bs, h⟩
    refine ⟨?_, h.isDigit⟩
    rw [h.length_eq]
    exact Nat.mul_mod_right 2 _
  · rintro ⟨hlength, hdigits⟩
    exact exists_spells hlength hdigits

/-- The text is one prefix, with what is given behind it. -/
def Prefixed (text : String) (body : List Char) : Prop :=
  text.toList = '0' :: 'x' :: body ∨ text.toList = '0' :: 'X' :: body

theorem unprefixed?_eq_some_iff {text : String} {body : List Char} :
    unprefixed? text = some body ↔ Prefixed text body := by
  constructor
  · intro h
    rw [unprefixed?] at h
    split at h
    · rename_i rest hlower
      exact .inl (Option.some.inj h ▸ hlower)
    · rename_i rest hupper
      exact .inr (Option.some.inj h ▸ hupper)
    · cases h
  · rintro (h | h)
    · rw [unprefixed?, h]
      rfl
    · rw [unprefixed?, h]
      rfl

/-- The text writes the byte string: digits that spell it stand behind one prefix. -/
def Writes (text : String) (bs : Bytes) : Prop :=
  ∃ digits, Prefixed text digits ∧ Spells digits bs

/-- The written form of a byte string writes it. -/
theorem writes_text (bs : Bytes) : Writes (text bs) bs :=
  ⟨encode bs, unprefixed?_eq_some_iff.mp (unprefixed?_append _),
    decode?_eq_some_iff.mp (decodeOnto_encode bs [])⟩

/-- The text has a second prefix, in lower case, before the digits that spell the byte
string. -/
def WritesBehindTwo (text : String) (bs : Bytes) : Prop :=
  ∃ digits, Prefixed text ('0' :: 'x' :: digits) ∧ Spells digits bs

theorem exists_writes_iff {text : String} :
    (∃ bs, Writes text bs) ↔
      ∃ digits, Prefixed text digits ∧ digits.length % 2 = 0 ∧
        ∀ c ∈ digits, ∃ n, IsDigit c n := by
  unfold Writes
  rw [exists_comm]
  refine exists_congr fun digits => ?_
  rw [exists_and_left, exists_spells_iff]

theorem not_spells_of_prefixed (digits : List Char) (bs : Bytes) :
    ¬ Spells ('0' :: 'x' :: digits) bs := by
  intro h
  obtain ⟨n, hx⟩ := h.isDigit 'x' (by simp)
  exact not_isDigit_x n hx

/-- What stands behind the prefix of a text is told by the text. -/
theorem Prefixed.body_inj {text : String} {body body' : List Char} (h : Prefixed text body)
    (h' : Prefixed text body') : body = body' :=
  Option.some.inj
    ((unprefixed?_eq_some_iff.mpr h).symm.trans (unprefixed?_eq_some_iff.mpr h'))

theorem WritesBehindTwo.not_writes {text : String} {bs : Bytes} (h : WritesBehindTwo text bs)
    (bs' : Bytes) : ¬ Writes text bs' := by
  obtain ⟨digits, hprefixed, -⟩ := h
  rintro ⟨digits', hprefixed', hspells'⟩
  rw [hprefixed'.body_inj hprefixed] at hspells'
  exact not_spells_of_prefixed digits bs' hspells'

/-- Reading a byte string accepts what is written with one prefix, and with two. -/
theorem bytes?_eq_some_iff {text : String} {bs : Bytes} :
    bytes? text = some bs ↔ Writes text bs ∨ WritesBehindTwo text bs := by
  rw [bytes?]
  constructor
  · intro h
    obtain ⟨body, hbody, h⟩ := Option.bind_eq_some_iff.mp h
    have hprefixed : Prefixed text body := unprefixed?_eq_some_iff.mp hbody
    rw [Option.ite_none_right_eq_some] at h
    obtain ⟨-, h⟩ := h
    split at h
    · exact .inr ⟨_, hprefixed, decode?_eq_some_iff.mp h⟩
    · exact .inl ⟨_, hprefixed, decode?_eq_some_iff.mp h⟩
  · rintro (⟨digits, hprefixed, hspells⟩ | ⟨digits, hprefixed, hspells⟩)
    · refine Option.bind_eq_some_iff.mpr ⟨digits, unprefixed?_eq_some_iff.mpr hprefixed, ?_⟩
      have heven : digits.length % 2 = 0 := (exists_spells_iff.mp ⟨bs, hspells⟩).1
      rw [if_pos heven]
      split
      · exact absurd hspells (not_spells_of_prefixed _ bs)
      · exact decode?_eq_some_iff.mpr hspells
    · refine Option.bind_eq_some_iff.mpr ⟨_, unprefixed?_eq_some_iff.mpr hprefixed, ?_⟩
      have heven : ('0' :: 'x' :: digits).length % 2 = 0 := by
        rw [List.length_cons, List.length_cons, hspells.length_eq]
        omega
      rw [if_pos heven]
      exact decode?_eq_some_iff.mpr hspells

end TypedTx.Hex
