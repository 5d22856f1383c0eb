import TypedTx.Proofs.Transaction.Resigning

/-!
# What freezing fixes

A frozen transaction refuses updates, and nothing else. It is still signed, moved to
other registries and asked questions; signing builds a new transaction from its draft
and flags, and moving copies it, so both have to bring the flag and every field along
by themselves. What they keep is the payload: all that is left of a transaction when
its signatures, its registry and what it remembers are taken away.
-/

namespace TypedTx

/-- Whether a change reads back something that was written of the transaction. What
comes of it is a new transaction, under options of its own. -/
def Change.readsBack : Change → Bool
  | .reparse .. | .rebuild .. => true
  | .sign .. | .signLegacy .. | .update _ | .rebind _ | .freeze => false

/-- What can be done with a transaction that one holds: it can be changed, without
going through something written of it, and it can be asked. -/
inductive Operation where
  | change (change : Change) (h : change.readsBack = false)
  | read {α : Type} (query : Query α)

/-- What came of an operation, and the transaction that is current after it. -/
structure Event where
  operation : Operation
  outcome : Except Refusal Transaction
  current : Transaction

namespace Transaction

section Runs

variable (scheme : Scheme)

/-- Attempt an operation. A question leaves the transaction with the caches that it
filled. -/
def perform (t : Transaction) : Operation → Except Refusal Transaction
  | .change change _ => t.apply scheme change
  | .read query => .ok (t.answer scheme query).2

/-- What is current after an operation. One that fails leaves everything as it was. -/
def after (t : Transaction) (op : Operation) : Transaction :=
  match t.perform scheme op with
  | .ok u => u
  | .error _ => t

/-- Carry out operations from left to right, each on what is current then. -/
def events (t : Transaction) : List Operation → List Event
  | [] => []
  | op :: ops => ⟨op, t.perform scheme op, t.after scheme op⟩ :: (t.after scheme op).events ops

end Runs

variable {scheme : Scheme} {t u : Transaction}

/-- The transaction without signatures, on the standard registry, with nothing
remembered. -/
def payload (t : Transaction) : Transaction :=
  { t.resigned {} {} with registry := .standard }

@[simp] theorem frozen_payload (t : Transaction) : t.payload.frozen = t.frozen := rfl

@[simp] theorem kind_payload (t : Transaction) : t.payload.kind = t.kind := by
  change (t.resigned {} {}).kind = t.kind
  exact kind_resigned

@[simp] theorem unsignedValues_payload (t : Transaction) :
    t.payload.unsignedValues = t.unsignedValues := by
  change (t.resigned {} {}).unsignedValues = t.unsignedValues
  exact unsignedValues_resigned

@[simp] theorem failure_payload (t : Transaction) (fault : Fault) :
    t.payload.failure fault = t.failure fault := by
  simp only [failure, subject, kind_payload]
  rfl

@[simp] theorem payload_resigned (t : Transaction) (first second : SignatureParts) :
    (t.resigned first second).payload = t.payload := by
  obtain ⟨nonce, gasLimit, recipient, value, data, terms, signature, bound, frozen, unlimited,
    hashCache, dataFeeCache⟩ := t
  cases terms <;> rfl

theorem payload_uncached (t : Transaction) : t.uncached.payload = t.payload := rfl

@[simp] theorem payload_bindTo (t : Transaction) (registry : Registry) :
    (t.bindTo registry).payload = t.payload := by
  rw [← payload_uncached, uncached_bindTo]
  rfl

@[simp] theorem payload_answer {α : Type} (t : Transaction) (query : Query α) :
    (t.answer scheme query).2.payload = t.payload := by
  rw [← payload_uncached, uncached_answer, payload_uncached]

theorem payload_freeze (h : t.frozen = true) : t.freeze.payload = t.payload := by
  rw [freeze, ← h]

theorem update_of_frozen (h : t.frozen = true) (edit : Draft → Draft) :
    t.update edit = .error (t.failure .frozen) :=
  if_pos h

theorem payload_of_withSignatures {first second : SignatureParts} (ht : t.Valid)
    (h : t.withSignatures first second = .ok u) : u.payload = t.payload := by
  rw [eq_resigned_of_withSignatures ht h, payload_resigned]

/-- Whatever succeeds on a frozen transaction keeps its payload. -/
theorem payload_of_perform (ht : t.Valid) (hfrozen : t.frozen = true) {op : Operation}
    (h : t.perform scheme op = .ok u) : u.payload = t.payload := by
  cases op with
  | read query =>
      rw [← Except.ok.inj h, payload_answer]
  | change change hchange =>
      cases change with
      | sign key secondKey =>
          obtain ⟨first, second, h⟩ := exists_withSignatures_of_sign (Refusal.ofExcept_iff.mp h)
          exact payload_of_withSignatures ht h
      | signLegacy key mode =>
          rw [perform, apply] at h
          split at h
          · obtain ⟨signature, h⟩ :=
              exists_withSignatures_of_signLegacy (Refusal.ofExcept_iff.mp h)
            exact payload_of_withSignatures ht h
          · cases h
      | update edit =>
          have hupdate : t.update edit = .ok u := Refusal.ofExcept_iff.mp h
          rw [update_of_frozen hfrozen] at hupdate
          cases hupdate
      | rebind registry =>
          rw [eq_bindTo_of_rebind (Refusal.ofExcept_iff.mp h), payload_bindTo]
      | freeze =>
          rw [← Except.ok.inj h]
          exact payload_freeze hfrozen
      | reparse gate o => cases hchange
      | rebuild gate o => cases hchange

theorem valid_of_perform (ht : t.Valid) {op : Operation} (h : t.perform scheme op = .ok u) :
    u.Valid := by
  cases op with
  | read query =>
      rw [← Except.ok.inj h]
      exact valid_answer ht query
  | change change hchange => exact valid_of_apply ht h

/-- What every transaction of a run has in common with the first one. -/
structure Continues (t u : Transaction) : Prop where
  valid : u.Valid
  frozen : u.frozen = true
  payload : u.payload = t.payload

theorem Continues.trans {v : Transaction} (h : t.Continues u) (h' : u.Continues v) :
    t.Continues v :=
  ⟨h'.valid, h'.frozen, h'.payload.trans h.payload⟩

/-- A step of a run, whether or not the operation succeeds. -/
theorem continues_after (ht : t.Valid) (hfrozen : t.frozen = true) (op : Operation) :
    t.Continues (t.after scheme op) := by
  rw [after]
  cases h : t.perform scheme op with
  | error refusal => exact ⟨ht, hfrozen, rfl⟩
  | ok u =>
      have hpayload : u.payload = t.payload := payload_of_perform ht hfrozen h
      have hflag : u.frozen = t.frozen := by simpa using congrArg frozen hpayload
      exact ⟨valid_of_perform ht h, hflag.trans hfrozen, hpayload⟩

theorem failure_eq_of_payload_eq (h : u.payload = t.payload) (fault : Fault) :
    u.failure fault = t.failure fault := by
  simpa using congrArg (fun v => v.failure fault) h

/-- Every event of a run comes of an operation on a transaction that continues the first
one, and leaves such a transaction. -/
theorem exists_continues_of_mem_events {ops : List Operation} {event : Event} (ht : t.Valid)
    (hfrozen : t.frozen = true) (hevent : event ∈ t.events scheme ops) :
    t.Continues event.current ∧
      ∃ u, t.Continues u ∧ event.outcome = u.perform scheme event.operation := by
  -- On the operations. What the rest of them starts from is valid and frozen again.
  induction ops generalizing t with
  | nil => cases hevent
  | cons op ops ih =>
      have hstep : t.Continues (t.after scheme op) := continues_after ht hfrozen op
      rcases List.mem_cons.mp hevent with rfl | hrest
      · exact ⟨hstep, t, ⟨ht, hfrozen, rfl⟩, rfl⟩
      · obtain ⟨hcurrent, u, hu, houtcome⟩ := ih hstep.valid hstep.frozen hrest
        exact ⟨hstep.trans hcurrent, u, hstep.trans hu, houtcome⟩

end Transaction

/-- Whatever is done with a frozen transaction, all that is reached is frozen and has its
kind, its unsigned values and in fact its whole payload, so that nothing but the
signatures and the registry differs. Every attempt at an update is refused because the
transaction is frozen. -/
theorem Reachable.keeps_payload_of_frozen {scheme : Scheme} {t : Transaction}
    (h : Reachable scheme t) (hfrozen : t.frozen = true) (ops : List Operation) :
    ∀ event ∈ t.events scheme ops,
      event.current.frozen = true ∧ event.current.kind = t.kind ∧
        event.current.unsignedValues = t.unsignedValues ∧
        event.current.payload = t.payload ∧
        ∀ edit, event.operation = .change (.update edit) rfl →
          event.outcome = .error (.failed (t.failure .frozen)) := by
  intro event hevent
  obtain ⟨hcurrent, u, hu, houtcome⟩ :=
    Transaction.exists_continues_of_mem_events h.valid hfrozen hevent
  refine ⟨hcurrent.frozen, ?_, ?_, hcurrent.payload, ?_⟩
  · simpa using congrArg Transaction.kind hcurrent.payload
  · simpa using congrArg Transaction.unsignedValues hcurrent.payload
  · intro edit hedit
    have hupdate : u.update edit = .error (u.failure .frozen) :=
      Transaction.update_of_frozen hu.frozen edit
    rw [houtcome, hedit, ← Transaction.failure_eq_of_payload_eq hu.payload]
    exact congrArg Refusal.ofExcept hupdate

/-- A transaction that is moved to an earlier fork, asked for its data fee and signed,
with attempts to erase its fields in between. -/
theorem Reachable.keeps_payload_of_frozen_of_moved :
    let scheme := Secp256k1.scheme
    let london := Registry.standard.withFork .london
    let t := Kind.feeMarket.assemble .standard {} {}
    let move : Operation := .change (.rebind london) rfl
    let sign : Operation := .change (.sign (List.replicate 32 1) none) rfl
    let erase : Operation := .change (.update fun _ => {}) rfl
    let ops : List Operation := [move, .read .dataFee, erase, sign, erase]
    Reachable scheme t ∧ t.frozen = true ∧ (t.after scheme move).registry = london ∧
      ∀ event ∈ t.events scheme ops,
        event.current.frozen = true ∧ event.current.kind = t.kind ∧
          event.current.unsignedValues = t.unsignedValues ∧
          event.current.payload = t.payload ∧
          ∀ edit, event.operation = .change (.update edit) rfl →
            event.outcome = .error (.failed (t.failure .frozen)) := by
  intro scheme london t move sign erase ops
  have ht : Reachable scheme t :=
    .build (show (Source.draftAs .feeMarket {}).build {} = _ from rfl)
  exact ⟨ht, rfl, rfl, Reachable.keeps_payload_of_frozen ht rfl ops⟩

end TypedTx
