import TypedTx.Proofs.Transaction.Signing

/-!
# Verification of two signatures

The second signature of a priority transaction is recovered from the same digest as the
first one, and recovering both keys is recovering one after the other. Verification and
the list of problems look at the first signature alone. So they speak of both signatures
exactly if the second one can be recovered whenever the first one can.
-/

namespace TypedTx

theorem Word.eq_zero_or_one {v : Word} (h : v ≤ 1) : v = 0 ∨ v = 1 := by
  have hle : v.toNat ≤ 1 := BitVec.le_def.mp h
  rw [← BitVec.toNat_inj, ← BitVec.toNat_inj]
  change v.toNat = 0 ∨ v.toNat = 1
  omega

/-- No other problem is worded like this one. -/
theorem TransactionProblem.message_eq_iff {problem : TransactionProblem} :
    problem.message = "invalid signature" ↔ problem = .invalidSignature := by
  cases problem with
  | invalidSignature => exact ⟨fun _ => rfl, fun _ => rfl⟩
  | gasLimitTooLow given needed =>
      constructor
      · intro h
        have htext : "gasLimit is too low. given " ++ given.decimal ++ ", need at least " ++
            needed.decimal = "invalid signature" := h
        have hhead := congrArg (fun text => text.toList.head?) htext
        simp at hhead
      · intro h
        cases h

namespace Transaction

variable {scheme : Scheme} {t : Transaction}

/-- The rule on the parity of a typed signature makes the two ways agree in which the
first signature is handed to the scheme. -/
theorem recoverSender_eq_recoverPart (ht : t.Valid) (hkind : t.kind = .priority)
    (hsigned : t.isSigned = true) {v r s : Word} (hfirst : t.signature = .ofWords v r s) :
    t.recoverSender scheme = t.recoverPart scheme "s" (v, r, s) := by
  have hv : t.signature.v = some v := by rw [hfirst]; rfl
  have hcomplete : t.signature.complete? = some (v, r, s) := by rw [hfirst]; rfl
  have hparity : t.parity? = v.toUInt8? := parity?_of_isTyped (Kind.isTyped_of_priority hkind) hv
  have hadmits : t.kind.AdmitsV t.registry v := ht.parity v hv
  rw [hkind] at hadmits
  rw [recoverSender, hsigned, hcomplete]
  dsimp only
  rw [hparity]
  -- One way narrows `v` to a byte and the other to eight of them. They could differ only on
  -- a `v` that the parity rule does not let in.
  obtain rfl | rfl := Word.eq_zero_or_one hadmits
  · rfl
  · rfl

theorem exists_second_of_priority (hkind : t.kind = .priority) :
    ∃ second, t.secondSignature? = some second := by
  rw [kind] at hkind
  rw [secondSignature?]
  cases hterms : t.terms with
  | priority market second => exact ⟨second, rfl⟩
  | legacy | accessList | feeMarket =>
      rw [hterms] at hkind
      cases hkind

/-- Recovering both keys is recovering the first and then the second. -/
theorem bothKeys_eq (ht : t.Valid) (hkind : t.kind = .priority) :
    t.bothKeys scheme =
      (do
        let sender ← t.senderKey scheme
        let second ← t.secondKey scheme
        .ok (sender, second)) := by
  cases hsigned : t.isSigned with
  | false => rw [bothKeys, senderKey, recoverSender, hsigned]; rfl
  | true =>
      obtain ⟨hfirst, hsecond⟩ := isSigned_iff.mp hsigned
      obtain ⟨v, r, s, hfirst⟩ := SignatureParts.complete?_isSome_iff.mp hfirst
      obtain ⟨second, hmem⟩ := exists_second_of_priority hkind
      obtain ⟨pV, pR, pS, rfl⟩ := SignatureParts.complete?_isSome_iff.mp (hsecond second hmem)
      have hsender : t.senderKey scheme = t.subject.annotate (t.recoverPart scheme "s" (v, r, s)) :=
        congrArg t.subject.annotate (recoverSender_eq_recoverPart ht hkind hsigned hfirst)
      have hother : t.secondKey scheme =
          t.subject.annotate (t.recoverPart scheme "pS" (pV, pR, pS)) := by
        rw [secondKey, hsigned, hmem]
        rfl
      rw [bothKeys, hsigned, hmem, hfirst, hsender, hother]
      simp only [SignatureParts.complete?, SignatureParts.ofWords, Option.bind_some,
        Success.annotate_bind]
      rfl

theorem isOk_bothKeys (ht : t.Valid) (hkind : t.kind = .priority) :
    (t.bothKeys scheme).isOk = (t.verifies scheme && (t.secondKey scheme).isOk) := by
  rw [bothKeys_eq ht hkind, verifies]
  cases t.senderKey scheme with
  | error failure => rfl
  | ok sender =>
      cases t.secondKey scheme with
      | error failure => rfl
      | ok second => rfl

theorem mem_problems_iff {problem : TransactionProblem} :
    problem ∈ (t.problems scheme).1 ↔
      ((t.isSigned && !t.verifies scheme) = true ∧ problem = .invalidSignature) ∨
        (t.gasLimit < t.intrinsicGas.1 ∧
          problem = .gasLimitTooLow t.gasLimit t.intrinsicGas.1) := by
  rw [problems]
  change _ ∈ _ ++ _ ↔ _
  rw [List.mem_append, List.mem_ite_nil_right, List.mem_ite_nil_right, List.mem_singleton,
    List.mem_singleton]

theorem invalidSignature_mem_problems_iff (hsigned : t.isSigned = true) :
    "invalid signature" ∈ (t.problems scheme).1.map TransactionProblem.message ↔
      t.verifies scheme = false := by
  have hmessage : "invalid signature" ∈ (t.problems scheme).1.map TransactionProblem.message ↔
      .invalidSignature ∈ (t.problems scheme).1 := by
    simp [TransactionProblem.message_eq_iff]
  rw [hmessage, mem_problems_iff, hsigned]
  simp

theorem isValid_eq_false_of_mem {problem : TransactionProblem}
    (h : problem ∈ (t.problems scheme).1) : (t.isValid scheme).1 = false := by
  change (t.problems scheme).1.isEmpty = false
  rw [List.isEmpty_eq_false_iff]
  exact List.ne_nil_of_mem h

/-- Verification, the list of problems and validity all speak of both signatures. -/
structure VerdictsCoverBoth (scheme : Scheme) (t : Transaction) : Prop where
  verifies : t.verifies scheme = true ↔ (t.bothKeys scheme).isOk = true
  problems : (t.senderKey scheme).isOk = false ∨ (t.secondKey scheme).isOk = false →
    "invalid signature" ∈ (t.problems scheme).1.map TransactionProblem.message
  isValid : (t.senderKey scheme).isOk = false ∨ (t.secondKey scheme).isOk = false →
    (t.isValid scheme).1 = false

theorem verdictsCoverBoth_iff (ht : t.Valid) (hkind : t.kind = .priority)
    (hsigned : t.isSigned = true) :
    t.VerdictsCoverBoth scheme ↔
      (t.verifies scheme = true → (t.secondKey scheme).isOk = true) := by
  have hboth : (t.bothKeys scheme).isOk = (t.verifies scheme && (t.secondKey scheme).isOk) :=
    isOk_bothKeys ht hkind
  constructor
  · intro hcover hverifies
    rw [hcover.verifies, hboth, Bool.and_eq_true] at hverifies
    exact hverifies.2
  · intro hsecond
    have hfails : (t.senderKey scheme).isOk = false ∨ (t.secondKey scheme).isOk = false →
        t.verifies scheme = false := by
      rintro (hfirst | hother)
      · exact hfirst
      · by_contra hverifies
        rw [hsecond (by simpa using hverifies)] at hother
        exact absurd hother (by decide)
    have hmem : (t.senderKey scheme).isOk = false ∨ (t.secondKey scheme).isOk = false →
        "invalid signature" ∈ (t.problems scheme).1.map TransactionProblem.message := fun h =>
      (invalidSignature_mem_problems_iff hsigned).mpr (hfails h)
    refine ⟨?_, hmem, ?_⟩
    · rw [hboth, Bool.and_eq_true]
      exact ⟨fun h => ⟨h, hsecond h⟩, fun h => h.1⟩
    · intro h
      obtain ⟨problem, hproblem, -⟩ := List.mem_map.mp (hmem h)
      exact isValid_eq_false_of_mem hproblem

end Transaction

/-- Both keys of a signed priority transaction are recovered if and only if it verifies
and its second signature can be recovered, but an invalid signature is reported if and
only if it does not verify. So the verdicts on it cover both signatures exactly if the
second one can be recovered whenever the first one can. -/
theorem Reachable.verdictsCoverBoth_iff_secondKey {scheme : Scheme} {t : Transaction}
    (h : Reachable scheme t) (hkind : t.kind = .priority) (hsigned : t.isSigned = true) :
    ((t.bothKeys scheme).isOk = true ↔
      t.verifies scheme = true ∧ (t.secondKey scheme).isOk = true) ∧
    ("invalid signature" ∈ (t.problems scheme).1.map TransactionProblem.message ↔
      t.verifies scheme = false) ∧
    (t.VerdictsCoverBoth scheme ↔
      (t.verifies scheme = true → (t.secondKey scheme).isOk = true)) := by
  refine ⟨?_, ?_, ?_⟩
  · rw [Transaction.isOk_bothKeys h.valid hkind, Bool.and_eq_true]
  · exact Transaction.invalidSignature_mem_problems_iff hsigned
  · exact Transaction.verdictsCoverBoth_iff h.valid hkind hsigned

/-- The first signature can be recovered. The second one has `r = 0`, so it cannot, and the
verdicts do not cover it. -/
theorem Reachable.verdictsCoverBoth_iff_secondKey_of_zero :
    let d : Draft :=
      { gasLimit := some 60000, v := some 0, r := some 1, s := some 1,
        pV := some 0, pR := some 0, pS := some 1 }
    let t := Kind.priority.assemble .standard {} d
    let scheme := Secp256k1.scheme
    t.verifies scheme = true ∧ (t.secondKey scheme).isOk = false ∧
      (t.bothKeys scheme).isOk ≠ true ∧
      "invalid signature" ∉ (t.problems scheme).1.map TransactionProblem.message ∧
      ¬ t.VerdictsCoverBoth scheme := by
  intro d t scheme
  have hreach : Reachable scheme t :=
    .build (show (Source.draftAs .priority d).build {} = .ok t from rfl)
  have hverifies : t.verifies scheme = true := by decide +kernel
  have hsecond : (t.secondKey scheme).isOk = false := by decide +kernel
  obtain ⟨hboth, hmem, hcover⟩ := Reachable.verdictsCoverBoth_iff_secondKey hreach rfl rfl
  rw [hsecond] at hboth hcover
  rw [hverifies] at hmem
  refine ⟨hverifies, hsecond, ?_, ?_, ?_⟩
  · exact fun h => absurd (hboth.mp h).2 (by decide)
  · exact fun h => absurd (hmem.mp h) (by decide)
  · exact fun h => absurd (hcover.mp h hverifies) (by decide)

/-- Nothing is said against that transaction, though its second key cannot be
recovered. -/
theorem Reachable.not_verdictsCoverBoth :
    let d : Draft :=
      { gasLimit := some 60000, v := some 0, r := some 1, s := some 1,
        pV := some 0, pR := some 0, pS := some 1 }
    let t := Kind.priority.assemble .standard {} d
    let scheme := Secp256k1.scheme
    Reachable scheme t ∧ t.kind = .priority ∧ t.isSigned = true ∧
      (t.bothKeys scheme).isOk = false ∧ t.verifies scheme = true ∧
      (t.problems scheme).1 = [] ∧ ¬ t.VerdictsCoverBoth scheme := by
  intro d t scheme
  have hreach : Reachable scheme t :=
    .build (show (Source.draftAs .priority d).build {} = .ok t from rfl)
  have hverifies : t.verifies scheme = true := by decide +kernel
  have hsecond : (t.secondKey scheme).isOk = false := by decide +kernel
  have hboth : (t.bothKeys scheme).isOk = false := by
    rw [Transaction.isOk_bothKeys hreach.valid rfl, hsecond, Bool.and_false]
  have hgas : ¬ t.gasLimit < t.intrinsicGas.1 := by decide +kernel
  have hproblems : (t.problems scheme).1 = [] := by
    simp only [Transaction.problems, hverifies, hgas, Bool.not_true, Bool.and_false,
      Bool.false_eq_true, ↓reduceIte, List.append_nil]
  refine ⟨hreach, rfl, rfl, hboth, hverifies, hproblems, ?_⟩
  rw [Transaction.verdictsCoverBoth_iff hreach.valid rfl rfl, hsecond]
  intro hcover
  exact absurd (hcover hverifies) (by decide)

end TypedTx
