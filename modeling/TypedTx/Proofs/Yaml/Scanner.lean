import TypedTx.Proofs.Yaml.Scalar
import TypedTx.Yaml.Token

/-!
# Tokens in flow style

What reading one token does to a scanner that is behind the first character of a line,
within flow collections, and has no place where nothing but a key can stand. Indentation
means nothing there, and places of keys that have become too far away are given up without
harm. A step of reading keeps enough of the bound on the number of steps for the rest of
the text, so steps are put together without counting them.
-/

namespace TypedTx.Yaml.Scanner

/-- No key is missing its colon here. -/
def Optional (place : Option KeyPlace) : Prop :=
  ∀ p, place = some p → p.required = false

/-- Where a scanner stands: the text ahead, the tokens read, the last one first, and the
number of open flow collections. -/
structure Stands (s : Scanner) (rest : List Char) (tokens : List Token) (depth : Nat)
    (keyAllowed : Bool) : Prop where
  rest : s.cursor.rest = rest
  column : 0 < s.cursor.column
  tokens : s.tokens = tokens
  count : s.count = s.tokens.length
  margins : s.margins = []
  place : Optional s.place
  places : ∀ place ∈ s.places, Optional place
  depth : s.places.length = depth
  keyAllowed : s.keyAllowed = keyAllowed

/-- Reading goes on from `s` as from `s'`, with a bound that is enough for the rest. -/
def Leads (s s' : Scanner) : Prop :=
  ∀ bound, s.cursor.rest.length + 2 ≤ bound →
    ∃ bound', s'.cursor.rest.length + 2 ≤ bound' ∧ run bound s = run bound' s'

section Leads

variable {s s' s'' : Scanner}

theorem Leads.refl (s : Scanner) : Leads s s :=
  fun bound hbound => ⟨bound, hbound, rfl⟩

theorem Leads.trans (h : Leads s s') (h' : Leads s' s'') : Leads s s'' := by
  intro bound hbound
  obtain ⟨bound', hbound', hrun⟩ := h bound hbound
  obtain ⟨bound'', hbound'', hrun'⟩ := h' bound' hbound'
  exact ⟨bound'', hbound'', hrun.trans hrun'⟩

/-- A step that reads something. -/
theorem Leads.step (hlt : s'.cursor.rest.length < s.cursor.rest.length)
    (h : ∀ bound, s.cursor.rest.length < bound → run (bound + 1) s = run bound s') :
    Leads s s' := by
  intro bound hbound
  obtain ⟨bound, rfl⟩ : ∃ n, bound = n + 1 := ⟨bound - 1, by omega⟩
  exact ⟨bound, by omega, h bound (by omega)⟩

end Leads

section Space

variable {c : Cursor} {rest : List Char} {x : Char}

/-- Neither a blank nor a break nor the mark of a comment. -/
def startsToken (x : Char) : Bool :=
  !isBlank x && !isBreak x && x != '#'

theorem startsToken_iff :
    startsToken x = true ↔ isBlank x = false ∧ isBreak x = false ∧ x ≠ '#' := by
  simp [startsToken, and_assoc]

theorem break?_of_startsToken (h : startsToken x = true) (hrest : c.rest = x :: rest) :
    c.break? = none := by
  obtain ⟨-, hbreak, -⟩ := startsToken_iff.mp h
  rw [isBreak, Bool.or_eq_false_iff] at hbreak
  rw [Cursor.break?, hrest]
  split
  · rename_i heq
    cases heq
    exact absurd hbreak.1 (by decide)
  · rename_i heq
    cases heq
    rw [hbreak.1, hbreak.2]
    rfl
  · rename_i heq
    cases heq

theorem skipWhile_of_head {p : Char → Bool} (hp : p x = false) (hrest : c.rest = x :: rest) :
    c.skipWhile p = c := by
  rw [Cursor.skipWhile, hrest, List.takeWhile_cons_of_neg (by simp [hp])]
  rfl

theorem skipByteOrderMark_of_column (h : 0 < c.column) : c.skipByteOrderMark = c := by
  rw [Cursor.skipByteOrderMark, beq_false_of_ne (Nat.ne_of_gt h)]
  rfl

/-- Nothing is passed over in front of a token. -/
theorem skipSpace_of_startsToken (flow keyAllowed : Bool) (bound : Nat)
    (hmark : c.skipByteOrderMark = c) (h : startsToken x = true) (hrest : c.rest = x :: rest) :
    skipSpace flow bound c keyAllowed = (c, keyAllowed) := by
  cases bound with
  | zero => rfl
  | succ bound =>
      obtain ⟨hblank, -, hcomment⟩ := startsToken_iff.mp h
      obtain ⟨hspace, htab⟩ : x ≠ ' ' ∧ x ≠ '\t' := by simpa [isBlank] using hblank
      have hwhile : c.skipWhile
          (fun x => x == ' ' || ((flow || !keyAllowed) && x == '\t')) = c :=
        skipWhile_of_head (by simp [hspace, htab]) hrest
      have hstart : c.startsWith (· == '#') = false := by
        rw [Cursor.startsWith_cons hrest, beq_false_of_ne hcomment]
      rw [skipSpace, hmark]
      simp only [hwhile, hstart, Bool.false_eq_true, if_false, break?_of_startsToken h hrest]

theorem skipSpace_of_end {flow keyAllowed : Bool} (bound : Nat) (hcolumn : 0 < c.column)
    (hrest : c.rest = []) : skipSpace flow bound c keyAllowed = (c, keyAllowed) := by
  cases bound with
  | zero => rfl
  | succ bound =>
      have hwhile : ∀ p, c.skipWhile p = c := by
        intro p
        rw [Cursor.skipWhile, hrest]
        rfl
      have hstart : c.startsWith (· == '#') = false := by
        rw [Cursor.startsWith, hrest]
        rfl
      have hbreak : c.break? = none := by
        rw [Cursor.break?, hrest]
      rw [skipSpace, skipByteOrderMark_of_column hcolumn]
      simp only [hwhile, hstart, Bool.false_eq_true, if_false, hbreak]

end Space

section Keys

variable {s : Scanner}

theorem optional_none : Optional none := by
  rintro p ⟨⟩

theorem giveUp_of_optional {place : Option KeyPlace} (h : Optional place) :
    giveUp place = some none := by
  cases place with
  | none => rfl
  | some p =>
      rw [giveUp, h p rfl]
      rfl

theorem dropKey_of_optional (h : Optional s.place) :
    s.dropKey = some { s with place := none } := by
  rw [dropKey, giveUp_of_optional h]
  rfl

/-- In flow style a key may always be something else. -/
theorem saveKey_of_inFlow (hflow : s.inFlow = true) (h : Optional s.place)
    (hallowed : s.keyAllowed = true) :
    s.saveKey = some { s with
      place := some ⟨s.count, s.cursor.index, s.cursor.line, s.cursor.column, false⟩ } := by
  have hflow' : inFlow { s with place := none } = true := hflow
  rw [saveKey, if_pos hallowed, dropKey_of_optional h]
  simp only [Option.bind_eq_bind, Option.bind_some, hflow', Bool.not_true, Bool.false_and]

theorem exists_saveKey (hflow : s.inFlow = true) (h : Optional s.place) :
    ∃ place, s.saveKey = some { s with place } ∧ Optional place := by
  by_cases hallowed : s.keyAllowed = true
  · refine ⟨_, saveKey_of_inFlow hflow h hallowed, ?_⟩
    rintro p ⟨⟩
    rfl
  · refine ⟨s.place, ?_, h⟩
    rw [saveKey, if_neg hallowed]

theorem exists_mapM {α β : Type} {P : β → Prop} {f : α → Option β} {xs : List α}
    (h : ∀ x ∈ xs, ∃ y, f x = some y ∧ P y) :
    ∃ ys, xs.mapM f = some ys ∧ ys.length = xs.length ∧ ∀ y ∈ ys, P y := by
  induction xs with
  | nil => exact ⟨[], rfl, rfl, nofun⟩
  | cons x xs ih =>
      obtain ⟨⟨y, hy, hP⟩, hxs⟩ := List.forall_mem_cons.mp h
      obtain ⟨ys, hys, hlength, hPs⟩ := ih hxs
      refine ⟨y :: ys, ?_, congrArg (· + 1) hlength, List.forall_mem_cons.mpr ⟨hP, hPs⟩⟩
      rw [List.mapM_cons, hy, hys]
      rfl

/-- Giving up places that are too far away never fails, and leaves one that is not. -/
theorem exists_dropStale (hplace : Optional s.place)
    (hplaces : ∀ place ∈ s.places, Optional place) :
    ∃ place places, s.dropStale = some { s with place, places } ∧ Optional place ∧
      (∀ place ∈ places, Optional place) ∧ places.length = s.places.length ∧
      ((∀ p, s.place = some p → p.isStale s.cursor = false) → place = s.place) := by
  have hcheck : ∀ place, Optional place → ∃ kept,
      (if place.any (·.isStale s.cursor) then giveUp place else some place) = some kept ∧
        Optional kept := by
    intro place h
    by_cases hstale : place.any (·.isStale s.cursor) = true
    · exact ⟨none, by rw [if_pos hstale, giveUp_of_optional h], optional_none⟩
    · exact ⟨place, if_neg hstale, h⟩
  obtain ⟨place, hkept, hoptional⟩ := hcheck s.place hplace
  obtain ⟨places, hmapM, hlength, hoptionals⟩ := exists_mapM fun q hq => hcheck q (hplaces q hq)
  refine ⟨place, places, ?_, hoptional, hoptionals, hlength, ?_⟩
  · simp only [dropStale, hkept, hmapM, Option.bind_eq_bind, Option.bind_some]
  · intro hfresh
    have hany : s.place.any (·.isStale s.cursor) = false := by
      cases h : s.place with
      | none => rfl
      | some p => exact hfresh p h
    rw [hany] at hkept
    exact (Option.some.inj hkept).symm

end Keys

section Steps

variable {s t : Scanner} {cs rest : List Char} {tokens : List Token} {depth : Nat}
variable {keyAllowed : Bool} {x : Char}

theorem Stands.inFlow (h : Stands s rest tokens (depth + 1) keyAllowed) : s.inFlow = true := by
  rw [Scanner.inFlow, Bool.not_eq_true', List.isEmpty_eq_false_iff, ← List.length_pos_iff, h.depth]
  exact Nat.succ_pos depth

/-- In front of a token nothing else is read. -/
theorem Stands.exists_run (h : Stands s (x :: rest) tokens (depth + 1) keyAllowed)
    (hx : startsToken x = true) :
    ∃ t, Stands t (x :: rest) tokens (depth + 1) keyAllowed ∧ t.cursor = s.cursor ∧
      ((∀ p, s.place = some p → p.isStale s.cursor = false) → t.place = s.place) ∧
      ∀ bound, run (bound + 1) s = (t.token bound).bind (run bound) := by
  obtain ⟨place, places, hdrop, hplace, hplaces, hlength, hfresh⟩ :=
    exists_dropStale h.place h.places
  let t : Scanner := { s with place, places }
  have ht : Stands t (x :: rest) tokens (depth + 1) keyAllowed :=
    { h with place := hplace, places := hplaces, depth := hlength.trans h.depth }
  refine ⟨t, ht, rfl, hfresh, ?_⟩
  intro bound
  have hspace := skipSpace_of_startsToken s.inFlow s.keyAllowed bound
    (skipByteOrderMark_of_column h.column) hx h.rest
  have hclose : t.closeBlocks (s.cursor.column + 1) = t := if_pos ht.inFlow
  rw [run, hspace]
  simp only [hdrop, Option.bind_eq_bind, Option.bind_some, h.rest, List.isEmpty_cons,
    Bool.false_eq_true, if_false]
  exact congrArg (fun u : Scanner => (u.token bound).bind (run bound)) hclose

/-- Reading one token, once what is in front of it has been passed over. -/
theorem Stands.leads {u : Scanner} {cs' : List Char} {tokens' : List Token} {depth' : Nat}
    {keyAllowed' : Bool} (h : Stands s cs tokens depth keyAllowed)
    (hu : Stands u cs' tokens' depth' keyAllowed') (hlt : cs'.length < cs.length)
    (hrun : ∀ bound, run (bound + 1) s = (t.token bound).bind (run bound))
    (htoken : ∀ bound, cs.length < bound → t.token bound = some u) : Leads s u := by
  apply Leads.step
  · rw [h.rest, hu.rest]
    exact hlt
  · intro bound hbound
    rw [h.rest] at hbound
    rw [hrun, htoken bound hbound]
    rfl

theorem Stands.exists_leads {cs' : List Char} {tokens' : List Token} {depth' : Nat}
    {keyAllowed' : Bool} (h : Stands s (x :: rest) tokens (depth + 1) keyAllowed)
    (hx : startsToken x = true) (hlt : cs'.length < (x :: rest).length)
    (htoken : ∀ t, Stands t (x :: rest) tokens (depth + 1) keyAllowed →
      ∃ u, (∀ bound, (x :: rest).length < bound → t.token bound = some u) ∧
        Stands u cs' tokens' depth' keyAllowed') :
    ∃ u, Leads s u ∧ Stands u cs' tokens' depth' keyAllowed' := by
  obtain ⟨t, ht, -, -, hrun⟩ := h.exists_run hx
  obtain ⟨u, hread, hu⟩ := htoken t ht
  exact ⟨u, h.leads hu hlt hrun hread, hu⟩

theorem Stands.rest_skip (h : Stands s (cs ++ rest) tokens depth keyAllowed) :
    (s.cursor.skip cs.length).rest = rest :=
  Cursor.rest_skip_append h.rest

theorem Stands.rest_tail (h : Stands s (x :: rest) tokens depth keyAllowed) :
    (s.cursor.skip 1).rest = rest := by
  change s.cursor.rest.drop 1 = rest
  rw [h.rest, List.drop_one, List.tail_cons]

theorem Stands.comma (h : Stands s (',' :: rest) tokens (depth + 1) keyAllowed) :
    ∃ u, Leads s u ∧ Stands u rest (.comma :: tokens) (depth + 1) true := by
  apply h.exists_leads (by decide) (Nat.lt_succ_self _)
  intro t ht
  refine ⟨{ t.take .comma 1 with place := none, keyAllowed := true }, ?_, ?_⟩
  · intro bound _
    rw [token, Cursor.atMark_of_column ht.column, Cursor.atMark_of_column ht.column, ht.rest]
    simp only [Bool.false_eq_true, if_false, Scanner.comma, dropKey_of_optional ht.place]
    rfl
  · exact { ht with
      rest := rest_tail ht
      column := Nat.add_pos_left ht.column 1
      tokens := congrArg _ ht.tokens
      count := congrArg (· + 1) ht.count
      place := optional_none
      keyAllowed := rfl }

theorem Stands.openSequence (h : Stands s ('[' :: rest) tokens (depth + 1) keyAllowed) :
    ∃ u, Leads s u ∧ Stands u rest (.flowSequence :: tokens) (depth + 2) true := by
  apply h.exists_leads (by decide) (Nat.lt_succ_self _)
  intro t ht
  obtain ⟨place, hsave, hplace⟩ := exists_saveKey ht.inFlow ht.place
  refine ⟨{ t.take .flowSequence 1 with
    place := none, places := place :: t.places, keyAllowed := true }, ?_, ?_⟩
  · intro bound _
    rw [token, Cursor.atMark_of_column ht.column, Cursor.atMark_of_column ht.column, ht.rest]
    simp only [Bool.false_eq_true, if_false, openFlow, hsave]
    rfl
  · exact { ht with
      rest := rest_tail ht
      column := Nat.add_pos_left ht.column 1
      tokens := congrArg _ ht.tokens
      count := congrArg (· + 1) ht.count
      place := optional_none
      places := List.forall_mem_cons.mpr ⟨hplace, ht.places⟩
      depth := congrArg (· + 1) ht.depth
      keyAllowed := rfl }

/-- The end of a collection brings back the place of a key around it. -/
theorem Stands.exists_closeFlow (h : Stands s (x :: rest) tokens (depth + 1) keyAllowed)
    (closing : Token) :
    ∃ u, s.closeFlow closing = some u ∧ Stands u rest (closing :: tokens) depth false := by
  obtain ⟨place, places, hplaces⟩ := List.exists_cons_of_length_eq_add_one h.depth
  have hoptional := h.places
  have hdepth := h.depth
  rw [hplaces] at hoptional hdepth
  refine ⟨{ s.take closing 1 with place, places, keyAllowed := false }, ?_, ?_⟩
  · simp only [closeFlow, dropKey_of_optional h.place, Option.bind_eq_bind, Option.bind_some, take,
      push, hplaces]
  · exact { h with
      rest := rest_tail h
      column := Nat.add_pos_left h.column 1
      tokens := congrArg _ h.tokens
      count := congrArg (· + 1) h.count
      place := hoptional _ List.mem_cons_self
      places := fun q hq => hoptional q (List.mem_cons_of_mem _ hq)
      depth := Nat.succ.inj hdepth
      keyAllowed := rfl }

theorem Stands.closeSequence (h : Stands s (']' :: rest) tokens (depth + 1) keyAllowed) :
    ∃ u, Leads s u ∧ Stands u rest (.flowSequenceEnd :: tokens) depth false := by
  apply h.exists_leads (by decide) (Nat.lt_succ_self _)
  intro t ht
  obtain ⟨u, hclose, hu⟩ := ht.exists_closeFlow .flowSequenceEnd
  refine ⟨u, fun bound _ => ?_, hu⟩
  rw [token, Cursor.atMark_of_column ht.column, Cursor.atMark_of_column ht.column, ht.rest]
  exact hclose

theorem Stands.closeMapping (h : Stands s ('}' :: rest) tokens (depth + 1) keyAllowed) :
    ∃ u, Leads s u ∧ Stands u rest (.flowMappingEnd :: tokens) depth false := by
  apply h.exists_leads (by decide) (Nat.lt_succ_self _)
  intro t ht
  obtain ⟨u, hclose, hu⟩ := ht.exists_closeFlow .flowMappingEnd
  refine ⟨u, fun bound _ => ?_, hu⟩
  rw [token, Cursor.atMark_of_column ht.column, Cursor.atMark_of_column ht.column, ht.rest]
  exact hclose

/-- Reading a quoted scalar, which may be a key if one is allowed. -/
theorem Stands.exists_quoted (h : Stands s (writeQuoted cs ++ rest) tokens (depth + 1) keyAllowed) :
    ∃ u, (∀ bound, (writeQuoted cs ++ rest).length < bound → s.token bound = some u) ∧
      Stands u rest (.scalar ⟨String.ofList cs, false⟩ :: tokens) (depth + 1) false ∧
      u.cursor = s.cursor.skip (writeQuoted cs).length ∧
      (keyAllowed = true → u.place =
        some ⟨s.count, s.cursor.index, s.cursor.line, s.cursor.column, false⟩) := by
  obtain ⟨place, hsave, hplace⟩ := exists_saveKey h.inFlow h.place
  refine ⟨{ s.push (.scalar ⟨String.ofList cs, false⟩) with
    cursor := s.cursor.skip (writeQuoted cs).length, place, keyAllowed := false }, ?_, ?_, rfl, ?_⟩
  · intro bound hbound
    have hread := Cursor.quoted?_writeQuoted h.column h.rest (by
      rw [List.length_append] at hbound
      omega : (writeQuoted cs).length ≤ bound)
    rw [token, Cursor.atMark_of_column h.column, Cursor.atMark_of_column h.column, h.rest]
    change s.quoted .double bound = _
    simp only [Scanner.quoted, hsave, hread, Option.bind_eq_bind, Option.bind_some]
    rfl
  · exact { h with
      rest := h.rest_skip
      column := Nat.add_pos_left h.column _
      tokens := congrArg _ h.tokens
      count := congrArg (· + 1) h.count
      place := hplace
      keyAllowed := rfl }
  · intro hallowed
    rw [saveKey_of_inFlow h.inFlow h.place (h.keyAllowed.trans hallowed),
      Option.some.injEq] at hsave
    exact congrArg Scanner.place hsave.symm

theorem Stands.quoted (h : Stands s (writeQuoted cs ++ rest) tokens (depth + 1) keyAllowed) :
    ∃ u, Leads s u ∧
      Stands u rest (.scalar ⟨String.ofList cs, false⟩ :: tokens) (depth + 1) false := by
  apply h.exists_leads (by decide) (length_lt_writeQuoted_append cs rest)
  intro t ht
  obtain ⟨u, hread, hu, -⟩ := ht.exists_quoted
  exact ⟨u, hread, hu⟩

/-- Reading a colon, which makes a key of the scalar in front of it. -/
theorem Stands.exists_colon {scalar : Scalar} {place : KeyPlace}
    (h : Stands s (':' :: rest) (.scalar scalar :: tokens) (depth + 1) keyAllowed)
    (hplace : s.place = some place) (hnumber : place.tokens = tokens.length) :
    ∃ u, (∀ bound, s.token bound = some u) ∧
      Stands u rest (.value :: .scalar scalar :: .key :: tokens) (depth + 1) false := by
  have hlater : s.count - place.tokens = 1 := by
    rw [h.count, h.tokens, List.length_cons, hnumber, Nat.add_sub_cancel_left]
  have hinsert : s.insert place.tokens .key = { s with
      tokens := .scalar scalar :: .key :: tokens, count := s.count + 1 } := by
    rw [insert, hlater, h.tokens]
    rfl
  have hblock : (s.insert place.tokens .key).openBlock place.column place.tokens .blockMapping =
      s.insert place.tokens .key := by
    rw [openBlock, show (s.insert place.tokens .key).inFlow = true from h.inFlow]
    rfl
  refine ⟨{ s with
    cursor := s.cursor.skip 1
    tokens := .value :: .scalar scalar :: .key :: tokens
    count := s.count + 1 + 1
    place := none
    keyAllowed := false }, ?_, ?_⟩
  · intro bound
    rw [token, Cursor.atMark_of_column h.column, Cursor.atMark_of_column h.column, h.rest, h.inFlow]
    change s.colon = some _
    rw [colon, hplace]
    simp only [hblock]
    rw [hinsert]
    rfl
  · exact { h with
      rest := rest_tail h
      column := Nat.add_pos_left h.column 1
      tokens := rfl
      count := by
        change s.count + 1 + 1 = _
        rw [h.count, h.tokens]
        rfl
      place := optional_none
      keyAllowed := rfl }

/-- A quoted scalar is a key if the colon behind it is near enough. -/
theorem Stands.key (h : Stands s (writeQuoted cs ++ ':' :: rest) tokens (depth + 1) true)
    (hlength : (writeQuoted cs).length ≤ 1024) :
    ∃ u, Leads s u ∧
      Stands u rest (.value :: .scalar ⟨String.ofList cs, false⟩ :: .key :: tokens) (depth + 1)
        false := by
  obtain ⟨s', hs', -, -, hrun⟩ := h.exists_run (by decide)
  obtain ⟨t, hread, ht, hcursor, hplace⟩ := hs'.exists_quoted
  have hkey := hplace rfl
  -- the place of the key is kept only because the colon is on its line and within reach
  have hfresh : ∀ p, t.place = some p → p.isStale t.cursor = false := by
    rintro p hp
    rw [hkey, Option.some.injEq] at hp
    subst hp
    rw [hcursor]
    simp [KeyPlace.isStale, Cursor.skip, hlength]
  obtain ⟨t', ht', -, hkept, hrun'⟩ := ht.exists_run (by decide)
  have hnumber : s'.count = tokens.length := by
    rw [hs'.count, hs'.tokens]
  obtain ⟨u, hcolon, hu⟩ := ht'.exists_colon ((hkept hfresh).trans hkey) hnumber
  have hfirst := h.leads ht (length_lt_writeQuoted_append cs _) hrun hread
  have hsecond := ht.leads hu (Nat.lt_succ_self _) hrun' fun bound _ => hcolon bound
  exact ⟨u, hfirst.trans hsecond, hu⟩

theorem startsPlain_of_isWordChar {flow : Bool} (hx : isWordChar x = true) :
    startsPlain flow (x :: rest) = true := by
  have hne : ∀ d, isWordChar d = false → x ≠ d := fun d => ne_of_isWordChar hx
  have hindicator : isIndicator x = false := by
    rw [isIndicator, isFlowIndicator_of_isWordChar hx, Bool.false_or, List.contains_eq_mem,
      decide_eq_false_iff_not]
    exact notMem_of_isWordChar hx (by decide)
  simp [startsPlain, hne '-' (by decide), hne '?' (by decide), hne ':' (by decide), hindicator,
    isBlank_of_isWordChar hx, isBreak_of_isWordChar hx]

/-- No token but a plain scalar starts with a character of a word. -/
theorem Stands.token_of_isWordChar (h : Stands s (x :: rest) tokens (depth + 1) keyAllowed)
    (hx : isWordChar x = true) (bound : Nat) : s.token bound = s.plain bound := by
  have hne : ∀ d, isWordChar d = false → x ≠ d := fun d => ne_of_isWordChar hx
  rw [token, Cursor.atMark_of_column h.column, Cursor.atMark_of_column h.column, h.rest]
  simp only [Bool.false_eq_true, if_false]
  split
  case h_8 y tail hlist =>
    cases hlist
    simp [hne '-' (by decide), hne '?' (by decide), hne ':' (by decide),
      startsPlain_of_isWordChar hx]
  case h_9 hlist => cases hlist
  all_goals
    rename_i hlist
    cases hlist
    exact absurd hx (by decide)

theorem Stands.exists_plain (h : Stands s (x :: cs ++ rest) tokens (depth + 1) keyAllowed)
    (hcs : ∀ y ∈ x :: cs, isWordChar y = true) (hrest : EndsWord rest) :
    ∃ u, (∀ bound, (x :: cs ++ rest).length < bound → s.token bound = some u) ∧
      Stands u rest (.scalar ⟨String.ofList (x :: cs), true⟩ :: tokens) (depth + 1) false := by
  obtain ⟨place, hsave, hplace⟩ := exists_saveKey h.inFlow h.place
  refine ⟨{ s.push (.scalar ⟨String.ofList (x :: cs), true⟩) with
    cursor := s.cursor.skip (x :: cs).length, place, keyAllowed := false }, ?_, ?_⟩
  · intro bound hbound
    obtain ⟨bound, rfl⟩ : ∃ n, bound = n + 1 := ⟨bound - 1, by omega⟩
    have hread := Cursor.plain?_word s.margin bound h.column (List.cons_ne_nil x cs) hcs hrest
      h.rest
    rw [h.token_of_isWordChar (hcs x List.mem_cons_self), Scanner.plain, hsave]
    change (s.cursor.plain? s.inFlow s.margin (bound + 1)).bind _ = _
    rw [h.inFlow, hread]
    rfl
  · exact { h with
      rest := h.rest_skip
      column := Nat.add_pos_left h.column _
      tokens := congrArg _ h.tokens
      count := congrArg (· + 1) h.count
      place := hplace
      keyAllowed := rfl }

theorem startsToken_of_isWordChar (hx : isWordChar x = true) : startsToken x = true :=
  startsToken_iff.mpr ⟨isBlank_of_isWordChar hx, isBreak_of_isWordChar hx,
    ne_of_isWordChar hx (by decide)⟩

theorem Stands.plain (h : Stands s (x :: cs ++ rest) tokens (depth + 1) keyAllowed)
    (hcs : ∀ y ∈ x :: cs, isWordChar y = true) (hrest : EndsWord rest) :
    ∃ u, Leads s u ∧
      Stands u rest (.scalar ⟨String.ofList (x :: cs), true⟩ :: tokens) (depth + 1) false := by
  have hx := startsToken_of_isWordChar (hcs x List.mem_cons_self)
  refine h.exists_leads hx (by simp) ?_
  intro t ht
  exact Stands.exists_plain ht hcs hrest

end Steps

section Ends

variable {s : Scanner} {rest : List Char} {tokens : List Token} {keyAllowed : Bool}

/-- A scanner behind the brace that starts a text. -/
theorem exists_run_openMapping (rest : List Char) :
    ∃ s, Stands s rest [.flowMapping] 1 true ∧
      ∀ bound, run (bound + 1) { cursor := ⟨'{' :: rest, 0, 0, 0⟩ } = run bound s := by
  let start : Scanner := { cursor := ⟨'{' :: rest, 0, 0, 0⟩ }
  let place : KeyPlace := ⟨0, 0, 0, 0, false⟩
  let s : Scanner :=
    { start.take .flowMapping 1 with place := none, places := [some place], keyAllowed := true }
  refine ⟨s, ?_, ?_⟩
  · exact {
      rest := rfl
      column := Nat.one_pos
      tokens := rfl
      count := rfl
      margins := rfl
      place := optional_none
      places := by
        rintro q hq p rfl
        cases List.mem_singleton.mp hq
        rfl
      depth := rfl
      keyAllowed := rfl }
  · intro bound
    have hspace : skipSpace start.inFlow bound start.cursor start.keyAllowed = _ :=
      skipSpace_of_startsToken _ _ bound rfl (by decide : startsToken '{' = true) rfl
    have htoken : start.token bound = some s := by
      rfl
    rw [run, hspace]
    change (start.token bound).bind (run bound) = _
    rw [htoken]
    rfl

/-- At the end of the text outside of all collections, the tokens read are the result. -/
theorem Stands.run_end (h : Stands s [] tokens 0 keyAllowed) (bound : Nat) :
    run (bound + 1) s = some tokens.reverse := by
  obtain ⟨place, places, hdrop, hplace, -⟩ := exists_dropStale h.place h.places
  let t : Scanner := { s with place, places }
  have hclose : t.closeBlocks 0 = t := by
    rw [closeBlocks, show t.margins = [] from h.margins, closeOnto, ite_self]
  have hkey : t.dropKey = some { t with place := none } := dropKey_of_optional hplace
  rw [run, skipSpace_of_end bound h.column h.rest]
  simp only [hdrop, Option.bind_eq_bind, Option.bind_some, h.rest, List.isEmpty_nil, if_true]
  change ((t.closeBlocks 0).dropKey.bind fun u => some u.tokens.reverse) = _
  rw [hclose, hkey]
  exact congrArg (fun ts : List Token => some ts.reverse) h.tokens

end Ends

end TypedTx.Yaml.Scanner
