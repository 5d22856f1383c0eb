import TypedTx.Proofs.Registry.Settings
import TypedTx.Proofs.Yaml.Flow

/-!
# Which settings are loaded

Only complete descriptions are loaded, and of their upgrades only those that are 32-bit
numbers can be read. There is a text for each of these descriptions: one line in flow style
with quoted texts and numbers in base 10. So they are exactly those that can be loaded from
a file.
-/

namespace TypedTx.Settings

open Yaml (decimal)

section Load

variable {explain : String → String} {path text : String} {s : Settings} {fault : SettingsFault}

theorem ofText_eq_ok_iff :
    ofText explain path text = .ok s ↔ ofYaml? text = some s ∧ s.IsComplete := by
  rw [ofText]
  cases ofYaml? text with
  | none => simp
  | some found =>
      simp only [Success.map_iff, Success.mapError_iff, Option.some.injEq]
      constructor
      · rintro ⟨_, hvalid, rfl⟩
        exact ⟨rfl, reported_eq_nil_iff.mp (validate_eq_ok_iff.mp hvalid)⟩
      · rintro ⟨rfl, hcomplete⟩
        exact ⟨(), validate_eq_ok_iff.mpr (reported_eq_nil_iff.mpr hcomplete), rfl⟩

/-- A text that holds no description is malformed, and a description that is not complete
is reported with all its problems. -/
theorem ofText_eq_error_iff :
    ofText explain path text = .error fault ↔
      (ofYaml? text = none ∧ fault = .malformed path (explain text)) ∨
        ∃ s, ofYaml? text = some s ∧ ¬ s.IsComplete ∧ fault = .invalid s.reported := by
  rw [ofText]
  cases ofYaml? text with
  | none => simp [eq_comm]
  | some found =>
      simp only [Success.map_eq_error_iff, Success.mapError_eq_error_iff, validate_eq_error_iff,
        ne_eq, reported_eq_nil_iff, Option.some.injEq, reduceCtorEq, false_and, false_or]
      constructor
      · rintro ⟨_, ⟨hincomplete, rfl⟩, rfl⟩
        exact ⟨found, rfl, hincomplete, rfl⟩
      · rintro ⟨_, rfl, hincomplete, rfl⟩
        exact ⟨found.reported, ⟨hincomplete, rfl⟩, rfl⟩

theorem fromUTF8?_eq_some_iff {bs : Bytes} :
    String.fromUTF8? ⟨bs.toArray⟩ = some text ↔ bs = text.toUTF8.data.toList := by
  constructor
  · intro h
    rw [String.fromUTF8?] at h
    split at h
    · cases h
      exact List.toList_toArray.symm
    · cases h
  · rintro rfl
    exact dif_pos text.isValidUTF8

/-- A file is loaded from the text that its bytes encode. -/
theorem ofFile_eq_ok_iff {content : Except String Bytes} :
    ofFile explain path content = .ok s ↔
      ∃ text : String, content = .ok text.toUTF8.data.toList ∧
        ofText explain path text = .ok s := by
  rw [ofFile, Success.bind_iff]
  simp only [Success.mapError_iff]
  constructor
  · rintro ⟨bs, hcontent, h⟩
    split at h
    · cases h
    · rename_i text htext
      rw [fromUTF8?_eq_some_iff.mp htext] at hcontent
      exact ⟨text, hcontent, h⟩
  · rintro ⟨text, hcontent, h⟩
    refine ⟨_, hcontent, ?_⟩
    rw [fromUTF8?_eq_some_iff.mpr rfl]
    exact h

end Load

section Write

variable {s : Settings}

/-- The mapping that holds a description. -/
def mapping (s : Settings) : Yaml.Mapping :=
  [("name", .scalar ⟨s.name, false⟩),
   ("chain_id", .scalar ⟨String.ofList (decimal s.chainId.toNat), true⟩),
   ("hardfork", .scalar ⟨s.fork, false⟩),
   ("eips", .sequence (s.eips.map fun eip => ⟨String.ofList (decimal eip), true⟩))]

theorem numberOf?_decimal {bound n : Nat} (h : n < bound) :
    numberOf? bound ⟨String.ofList (decimal n), true⟩ = some n := by
  rw [numberOf?, Yaml.Scalar.nat?_decimal]
  exact if_pos h

theorem ofMapping?_mapping (h : ∀ eip ∈ s.eips, eip < UInt32.size) :
    ofMapping? s.mapping = some s := by
  have hid : chainIdOf? (.scalar ⟨String.ofList (decimal s.chainId.toNat), true⟩) =
      some s.chainId := by
    rw [chainIdOf?, numberOf?_decimal s.chainId.toNat_lt_size, Option.map_some, UInt64.ofNat_toNat]
  have heips : eipsOf? (.sequence (s.eips.map fun eip => ⟨String.ofList (decimal eip), true⟩)) =
      some s.eips := Success.mapM_map fun eip heip => numberOf?_decimal (h eip heip)
  have hname : optional s.mapping "name" scalarOf? none = some s.name := rfl
  have hchain : optional s.mapping "chain_id" chainIdOf? none = some s.chainId := hid
  have hfork : optional s.mapping "hardfork" scalarOf? (some Fork.standard.name) = some s.fork :=
    rfl
  have hlist : optional s.mapping "eips" eipsOf? (some []) = some s.eips := heips
  have hkeys : s.mapping.map Prod.fst = ["name", "chain_id", "hardfork", "eips"] := rfl
  simp only [ofMapping?, hkeys, hname, hchain, hfork, hlist]
  exact if_pos (by decide)

theorem isWritable_decimal (n : Nat) :
    Yaml.Scalar.IsWritable ⟨String.ofList (decimal n), true⟩ := by
  intro _
  rw [String.toList_ofList]
  exact Yaml.isWordChar_decimal n

theorem isWritable_mapping (s : Settings) : Yaml.Mapping.IsWritable s.mapping where
  keys := by
    intro entry hentry
    have hkeys : ∀ key ∈ ["name", "chain_id", "hardfork", "eips"],
        (Yaml.writeQuoted key.toList).length ≤ 1024 := by decide
    exact hkeys entry.1 (List.mem_map_of_mem hentry)
  scalars := by
    intro entry hentry scalar hscalar
    simp only [mapping, List.mem_cons, List.not_mem_nil, or_false] at hentry
    obtain rfl | rfl | rfl | rfl := hentry
    · cases List.mem_singleton.mp hscalar
      exact nofun
    · cases List.mem_singleton.mp hscalar
      exact isWritable_decimal _
    · cases List.mem_singleton.mp hscalar
      exact nofun
    · obtain ⟨eip, -, rfl⟩ := List.mem_map.mp hscalar
      exact isWritable_decimal eip

def yaml (s : Settings) : String :=
  String.ofList (Yaml.Mapping.write s.mapping)

theorem ofYaml?_yaml (h : ∀ eip ∈ s.eips, eip < UInt32.size) : ofYaml? s.yaml = some s := by
  rw [ofYaml?, yaml, Yaml.mapping?_write s.isWritable_mapping, Option.bind_some,
    ofMapping?_mapping h]

end Write

section Read

variable {text : String} {s : Settings}

theorem lt_of_numberOf? {bound n : Nat} {scalar : Yaml.Scalar}
    (h : numberOf? bound scalar = some n) : n < bound := by
  obtain ⟨_, -, h⟩ := Option.bind_eq_some_iff.mp h
  split at h
  · cases h
    assumption
  · cases h

theorem lt_of_mapM_numberOf? {bound : Nat} {scalars : List Yaml.Scalar} {ns : List Nat}
    (h : scalars.mapM (numberOf? bound) = some ns) : ∀ n ∈ ns, n < bound := by
  replace h := Success.mapM_iff.mp h
  induction h with
  | nil => exact List.forall_mem_nil _
  | cons hn _ ih => exact List.forall_mem_cons.mpr ⟨lt_of_numberOf? hn, ih⟩

theorem lt_of_eipsOf? {value : Yaml.Value} {eips : List Nat} (h : eipsOf? value = some eips) :
    ∀ eip ∈ eips, eip < UInt32.size := by
  cases value with
  | scalar scalar =>
      rw [eipsOf?] at h
      split at h
      · cases h
        exact nofun
      · cases h
  | sequence items => exact lt_of_mapM_numberOf? h

/-- Only 32-bit numbers are read as upgrades. -/
theorem lt_of_ofYaml? (h : ofYaml? text = some s) : ∀ eip ∈ s.eips, eip < UInt32.size := by
  obtain ⟨m, -, h⟩ := Option.bind_eq_some_iff.mp h
  rw [ofMapping?] at h
  split at h
  · obtain ⟨name, -, h⟩ := Option.bind_eq_some_iff.mp h
    obtain ⟨chainId, -, h⟩ := Option.bind_eq_some_iff.mp h
    obtain ⟨fork, -, h⟩ := Option.bind_eq_some_iff.mp h
    obtain ⟨eips, heips, h⟩ := Option.bind_eq_some_iff.mp h
    cases h
    rw [optional] at heips
    split at heips
    · exact lt_of_eipsOf? heips
    · cases heips
      exact nofun
  · cases h

end Read

/-- The descriptions that can be loaded are the complete ones whose upgrades are 32-bit
numbers. -/
theorem exists_ofFile_eq_ok_iff (explain : String → String) (path : String) (s : Settings) :
    (∃ content, ofFile explain path content = .ok s) ↔
      s.IsComplete ∧ ∀ eip ∈ s.eips, eip < UInt32.size := by
  constructor
  · rintro ⟨content, h⟩
    obtain ⟨text, -, h⟩ := ofFile_eq_ok_iff.mp h
    obtain ⟨hread, hcomplete⟩ := ofText_eq_ok_iff.mp h
    exact ⟨hcomplete, lt_of_ofYaml? hread⟩
  · rintro ⟨hcomplete, heips⟩
    have hload : ofText explain path s.yaml = .ok s :=
      ofText_eq_ok_iff.mpr ⟨ofYaml?_yaml heips, hcomplete⟩
    exact ⟨_, ofFile_eq_ok_iff.mpr ⟨s.yaml, rfl, hload⟩⟩

/-- Block style is read as well, and the hard fork may be left out. -/
example : ofYaml? "name: devnet\nchain_id: 1337\neips: [3860]\n" =
    some ⟨"devnet", 1337, Fork.standard.name, [3860]⟩ := by
  decide +kernel

end TypedTx.Settings
