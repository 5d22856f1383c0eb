import TypedTx.Proofs.Yaml.Scanner
import TypedTx.Yaml.Mapping

/-!
# Mappings are read back from flow style

A mapping is written on one line: quoted keys, a colon behind each, and a comma between
entries as well as between the members of a sequence. Its keys must be short enough to be
recognized, and its plain scalars must be words. Reading the text gives back the mapping.
-/

namespace TypedTx.Yaml

/-- Parts of a list with something between them. -/
def joined {α : Type} (between : α) : List (List α) → List α
  | [] => []
  | part :: parts => part ++ parts.flatMap (between :: ·)

/-- A plain scalar must be a word. Between quotes anything can stand. -/
def Scalar.IsWritable (s : Scalar) : Prop :=
  s.plain = true → s.text.toList ≠ [] ∧ ∀ x ∈ s.text.toList, isWordChar x = true

def Scalar.write (s : Scalar) : List Char :=
  if s.plain then s.text.toList else writeQuoted s.text.toList

def Value.write : Value → List Char
  | .scalar s => s.write
  | .sequence items => '[' :: (joined ',' (items.map Scalar.write) ++ [']'])

def Value.tokens : Value → List Token
  | .scalar s => [.scalar s]
  | .sequence items =>
      .flowSequence :: (joined .comma (items.map fun s => [.scalar s]) ++ [.flowSequenceEnd])

def Value.scalars : Value → List Scalar
  | .scalar s => [s]
  | .sequence items => items

def writeEntry (entry : String × Value) : List Char :=
  writeQuoted entry.1.toList ++ ':' :: entry.2.write

def entryTokens (entry : String × Value) : List Token :=
  .key :: .scalar ⟨entry.1, false⟩ :: .value :: entry.2.tokens

namespace Mapping

def write (m : Mapping) : List Char :=
  '{' :: (joined ',' (m.map writeEntry) ++ ['}'])

def tokens (m : Mapping) : List Token :=
  .flowMapping :: (joined .comma (m.map entryTokens) ++ [.flowMappingEnd])

/-- Whether a mapping can be written. -/
structure IsWritable (m : Mapping) : Prop where
  keys : ∀ entry ∈ m, (writeQuoted entry.1.toList).length ≤ 1024
  scalars : ∀ entry ∈ m, ∀ s ∈ entry.2.scalars, s.IsWritable

end Mapping

section Scanning

open Scanner

variable {cs rest : List Char} {ts : List Token} {depth : Nat}

/-- Within a flow collection the scanner reads the tokens `ts` from the text `cs`. -/
def Scans (keyAllowed : Bool) (cs : List Char) (ts : List Token) : Prop :=
  ∀ ⦃s rest tokens depth⦄, EndsWord rest → Stands s (cs ++ rest) tokens (depth + 1) keyAllowed →
    ∃ u after, Leads s u ∧ Stands u rest (ts.reverse ++ tokens) (depth + 1) after

theorem endsWord_cons {x : Char} (h : isFlowIndicator x = true) (tail : List Char) :
    EndsWord (x :: tail) :=
  ⟨x, tail, rfl, h⟩

theorem scans_scalar {s : Scalar} (h : s.IsWritable) (keyAllowed : Bool) :
    Scans keyAllowed s.write [.scalar s] := by
  intro t rest tokens depth hrest ht
  obtain ⟨text, plain⟩ := s
  cases plain with
  | true =>
      obtain ⟨hne, hword⟩ := h rfl
      obtain ⟨x, cs, hcs⟩ := List.exists_cons_of_ne_nil hne
      change text.toList = x :: cs at hcs
      change Stands t (text.toList ++ rest) tokens (depth + 1) keyAllowed at ht
      change ∀ y ∈ text.toList, _ at hword
      rw [hcs] at ht hword
      obtain ⟨u, hleads, hu⟩ := ht.plain hword hrest
      rw [← hcs, String.ofList_toList] at hu
      exact ⟨u, false, hleads, hu⟩
  | false =>
      change Stands t (writeQuoted text.toList ++ rest) tokens (depth + 1) keyAllowed at ht
      obtain ⟨u, hleads, hu⟩ := ht.quoted
      rw [String.ofList_toList] at hu
      exact ⟨u, false, hleads, hu⟩

section Joined

variable {α : Type} {write : α → List Char} {tokensOf : α → List Token}

theorem endsWord_flatMap (parts : List α) (hrest : EndsWord rest) :
    EndsWord (parts.flatMap (fun part => ',' :: write part) ++ rest) := by
  cases parts with
  | nil => exact hrest
  | cons part parts => exact endsWord_cons (by decide) _

/-- Commas allow keys, so every part is read as if it was the first one. -/
theorem scans_flatMap {parts : List α} (h : ∀ part ∈ parts, Scans true (write part) (tokensOf part))
    (keyAllowed : Bool) :
    Scans keyAllowed (parts.flatMap fun part => ',' :: write part)
      (parts.flatMap fun part => .comma :: tokensOf part) := by
  induction parts generalizing keyAllowed with
  | nil =>
      intro s rest tokens depth _ hs
      exact ⟨s, keyAllowed, Leads.refl s, hs⟩
  | cons part parts ih =>
      obtain ⟨hpart, hparts⟩ := List.forall_mem_cons.mp h
      intro s rest tokens depth hrest hs
      rw [List.flatMap_cons, List.append_assoc, List.cons_append] at hs
      obtain ⟨t, hcomma, ht⟩ := hs.comma
      obtain ⟨u, after, hread, hu⟩ := hpart (endsWord_flatMap parts hrest) ht
      obtain ⟨v, after, hreads, hv⟩ := ih hparts after hrest hu
      refine ⟨v, after, (hcomma.trans hread).trans hreads, ?_⟩
      simpa using hv

theorem scans_joined {parts : List α}
    (h : ∀ part ∈ parts, Scans true (write part) (tokensOf part)) :
    Scans true (joined ',' (parts.map write)) (joined .comma (parts.map tokensOf)) := by
  cases parts with
  | nil =>
      intro s rest tokens depth _ hs
      exact ⟨s, true, Leads.refl s, hs⟩
  | cons part parts =>
      obtain ⟨hpart, hparts⟩ := List.forall_mem_cons.mp h
      intro s rest tokens depth hrest hs
      simp only [joined, List.map_cons, List.flatMap_map, List.append_assoc] at hs ⊢
      obtain ⟨t, after, hread, ht⟩ := hpart (endsWord_flatMap parts hrest) hs
      obtain ⟨u, after, hreads, hu⟩ := scans_flatMap hparts after hrest ht
      refine ⟨u, after, hread.trans hreads, ?_⟩
      simpa using hu

end Joined

theorem scans_value {value : Value} (h : ∀ s ∈ value.scalars, s.IsWritable) (keyAllowed : Bool) :
    Scans keyAllowed value.write value.tokens := by
  cases value with
  | scalar s => exact scans_scalar (h s List.mem_cons_self) keyAllowed
  | sequence items =>
      intro s rest tokens depth hrest hs
      rw [Value.write, List.cons_append, List.append_assoc] at hs
      obtain ⟨t, hopen, ht⟩ := hs.openSequence
      have hitems : Scans true (joined ',' (items.map Scalar.write))
          (joined .comma (items.map fun s => [.scalar s])) :=
        scans_joined fun item hitem => scans_scalar (h item hitem) true
      obtain ⟨u, after, hread, hu⟩ := hitems (endsWord_cons (by decide) _) ht
      obtain ⟨v, hclose, hv⟩ := hu.closeSequence
      refine ⟨v, false, (hopen.trans hread).trans hclose, ?_⟩
      simpa [Value.tokens] using hv

theorem scans_entry {entry : String × Value}
    (hkey : (writeQuoted entry.1.toList).length ≤ 1024)
    (h : ∀ s ∈ entry.2.scalars, s.IsWritable) :
    Scans true (writeEntry entry) (entryTokens entry) := by
  intro s rest tokens depth hrest hs
  rw [writeEntry, List.append_assoc, List.cons_append] at hs
  obtain ⟨t, hread, ht⟩ := hs.key hkey
  obtain ⟨u, after, hvalue, hu⟩ := scans_value h false hrest ht
  refine ⟨u, after, hread.trans hvalue, ?_⟩
  simpa [entryTokens] using hu

variable {m : Mapping}

theorem run_write (h : Mapping.IsWritable m) :
    run ((Mapping.write m).length + 2) { cursor := ⟨Mapping.write m, 0, 0, 0⟩ } =
      some (Mapping.tokens m) := by
  obtain ⟨s, hs, hstart⟩ := exists_run_openMapping (joined ',' (m.map writeEntry) ++ ['}'])
  have hentries := scans_joined fun entry hentry =>
    scans_entry (h.keys entry hentry) (h.scalars entry hentry)
  obtain ⟨t, after, hread, ht⟩ := hentries (endsWord_cons (by decide) []) hs
  obtain ⟨u, hclose, hu⟩ := ht.closeMapping
  obtain ⟨bound, hbound, hrun⟩ := hread.trans hclose ((Mapping.write m).length + 1) (by
    rw [hs.rest]
    exact Nat.le_refl _)
  obtain ⟨bound, rfl⟩ : ∃ n, bound = n + 1 := ⟨bound - 1, by omega⟩
  refine (hstart _).trans (hrun.trans ((hu.run_end bound).trans ?_))
  simp [Mapping.tokens]

end Scanning

section Printable

theorem isPrintable_of_mem_joined {parts : List (List Char)}
    (h : ∀ part ∈ parts, ∀ x ∈ part, isPrintable x = true) {x : Char} (hx : x ∈ joined ',' parts) :
    isPrintable x = true := by
  cases parts with
  | nil => cases hx
  | cons part parts =>
      obtain ⟨hpart, hparts⟩ := List.forall_mem_cons.mp h
      obtain hx | hx := List.mem_append.mp hx
      · exact hpart x hx
      · obtain ⟨other, hother, hx⟩ := List.mem_flatMap.mp hx
        obtain rfl | hx := List.mem_cons.mp hx
        · decide
        · exact hparts other hother x hx

theorem isPrintable_of_mem_writeQuoted {cs : List Char} {x : Char} (hx : x ∈ writeQuoted cs) :
    isPrintable x = true := by
  have hchar : ∀ c, x ∈ writeChar c → isPrintable x = true := by
    intro c hx
    rw [writeChar] at hx
    split at hx
    · rename_i hc
      rw [List.mem_singleton.mp hx]
      exact isPrintable_of_isWordChar hc
    · obtain rfl | hx := List.mem_cons.mp hx
      · decide
      obtain rfl | hx := List.mem_cons.mp hx
      · decide
      exact isPrintable_of_isWordChar (isWordChar_of_mem_hexDigits hx)
  obtain rfl | hx := List.mem_cons.mp hx
  · decide
  obtain hx | hx := List.mem_append.mp hx
  · obtain ⟨c, -, hx⟩ := List.mem_flatMap.mp hx
    exact hchar c hx
  · rw [List.mem_singleton.mp hx]
    decide

theorem isPrintable_of_mem_scalar {s : Scalar} (h : s.IsWritable) {x : Char} (hx : x ∈ s.write) :
    isPrintable x = true := by
  rw [Scalar.write] at hx
  split at hx
  · rename_i hplain
    exact isPrintable_of_isWordChar ((h hplain).2 x hx)
  · exact isPrintable_of_mem_writeQuoted hx

theorem isPrintable_of_mem_value {value : Value} (h : ∀ s ∈ value.scalars, s.IsWritable) {x : Char}
    (hx : x ∈ value.write) : isPrintable x = true := by
  cases value with
  | scalar s => exact isPrintable_of_mem_scalar (h s List.mem_cons_self) hx
  | sequence items =>
      obtain rfl | hx := List.mem_cons.mp hx
      · decide
      obtain hx | hx := List.mem_append.mp hx
      · refine isPrintable_of_mem_joined ?_ hx
        intro part hpart y hy
        obtain ⟨s, hs, rfl⟩ := List.mem_map.mp hpart
        exact isPrintable_of_mem_scalar (h s hs) hy
      · rw [List.mem_singleton.mp hx]
        decide

theorem all_isPrintable_write {m : Mapping} (h : Mapping.IsWritable m) :
    (Mapping.write m).all isPrintable = true := by
  rw [List.all_eq_true]
  intro x hx
  obtain rfl | hx := List.mem_cons.mp hx
  · decide
  obtain hx | hx := List.mem_append.mp hx
  · refine isPrintable_of_mem_joined ?_ hx
    intro part hpart y hy
    obtain ⟨entry, hentry, rfl⟩ := List.mem_map.mp hpart
    obtain hy | hy := List.mem_append.mp hy
    · exact isPrintable_of_mem_writeQuoted hy
    obtain rfl | hy := List.mem_cons.mp hy
    · decide
    · exact isPrintable_of_mem_value (h.scalars entry hentry) hy
  · rw [List.mem_singleton.mp hx]
    decide

end Printable

theorem tokens?_write {m : Mapping} (h : Mapping.IsWritable m) :
    tokens? (String.ofList (Mapping.write m)) = some (Mapping.tokens m) := by
  rw [tokens?, String.toList_ofList]
  exact (if_pos (all_isPrintable_write h)).trans (run_write h)

section Reading

variable (rest : List Token)

theorem flowSequence?_flatMap (items acc : List Scalar) (first : Scalar) :
    flowSequence? (items.flatMap (fun s => [.comma, .scalar s]) ++ .flowSequenceEnd :: rest)
      (first :: acc) = some ((first :: acc).reverse ++ items, rest) := by
  induction items generalizing first acc with
  | nil => simp [flowSequence?]
  | cons item items ih =>
      simp only [List.flatMap_cons, List.cons_append, List.nil_append]
      rw [flowSequence?, ih]
      simp

theorem flowSequence?_joined (items : List Scalar) :
    flowSequence? (joined .comma (items.map fun s => [.scalar s]) ++ .flowSequenceEnd :: rest) [] =
      some (items, rest) := by
  cases items with
  | nil => rfl
  | cons item items =>
      simp only [joined, List.map_cons, List.flatMap_map]
      change flowSequence? (.scalar item :: _) [] = _
      rw [flowSequence?]
      exact flowSequence?_flatMap rest items [] item

theorem flowEntry?_entryTokens (entry : String × Value) :
    flowEntry? (entryTokens entry ++ rest) = some (entry, rest) := by
  obtain ⟨key, value⟩ := entry
  cases value with
  | scalar s => rfl
  | sequence items =>
      have hread := flowSequence?_joined rest items
      simp [entryTokens, flowEntry?, scalarOr?, Value.tokens, flowValue?, hread]

theorem flowMapping?_flatMap (m acc : Mapping) (first : String × Value) (bound : Nat) :
    flowMapping? (bound + m.length + 1) (m.flatMap (fun entry => .comma :: entryTokens entry) ++
      .flowMappingEnd :: rest) (first :: acc) = some ((first :: acc).reverse ++ m, rest) := by
  induction m generalizing first acc with
  | nil => simp [flowMapping?]
  | cons entry m ih =>
      have hread := flowEntry?_entryTokens (m.flatMap (fun entry => .comma :: entryTokens entry) ++
        .flowMappingEnd :: rest) entry
      simp only [List.flatMap_cons, List.cons_append, List.append_assoc, List.length_cons]
      rw [flowMapping?]
      · rw [hread]
        change flowMapping? (bound + m.length + 1) _ (entry :: first :: acc) = _
        rw [ih]
        simp
      · rintro tail ⟨⟩

theorem flowMapping?_joined (m : Mapping) (bound : Nat) :
    flowMapping? (bound + m.length + 1) (joined .comma (m.map entryTokens) ++
      .flowMappingEnd :: rest) [] = some (m, rest) := by
  cases m with
  | nil => rfl
  | cons entry m =>
      have hread := flowEntry?_entryTokens (m.flatMap (fun entry => .comma :: entryTokens entry) ++
        .flowMappingEnd :: rest) entry
      simp only [joined, List.map_cons, List.flatMap_map, List.append_assoc, List.length_cons]
      rw [flowMapping?]
      · rw [hread]
        exact flowMapping?_flatMap rest m [] entry bound
      · rintro tail ⟨⟩

theorem length_le_length_joined (m : Mapping) :
    m.length ≤ (joined .comma (m.map entryTokens) ++ [Token.flowMappingEnd]).length := by
  have hentries : ∀ m : Mapping,
      m.length ≤ (m.flatMap fun entry => .comma :: entryTokens entry).length := by
    intro m
    induction m with
    | nil => exact Nat.le_refl 0
    | cons entry m ih =>
        rw [List.flatMap_cons, List.length_append, List.length_cons, List.length_cons]
        omega
  cases m with
  | nil => exact Nat.zero_le _
  | cons entry m =>
      have hrest := hentries m
      simp only [joined, List.map_cons, List.flatMap_map, List.length_append, List.length_cons]
      omega

end Reading

/-- Reading gives back the mapping that was written. -/
theorem mapping?_write {m : Mapping} (h : Mapping.IsWritable m) :
    mapping? (String.ofList (Mapping.write m)) = some m := by
  have hlength := length_le_length_joined m
  have hread := flowMapping?_joined [] m
    ((joined .comma (m.map entryTokens) ++ [Token.flowMappingEnd]).length - m.length)
  rw [Nat.sub_add_cancel hlength] at hread
  rw [mapping?, tokens?_write h]
  simp only [Mapping.tokens, Option.bind_eq_bind, Option.bind_some]
  rw [hread]
  rfl

end TypedTx.Yaml
