import TypedTx.Proofs.Transaction.Caches

/-!
# Runs of sessions

A run carries out commands one after the other and collects the replies. How questions
are answered is a parameter: a session asks the transaction, which may look up what it
remembers, whereas a session without memory computes every answer from the fields and
the registry and changes nothing. The two give the same replies to all commands.
-/

namespace TypedTx

inductive Command where
  | build (source : Source) (o : Options)
  /-- Make another position current. -/
  | select (i : Nat)
  /-- Append a copy of the current transaction, with what it remembers. -/
  | copy
  | change (change : Change)
  | ask (question : Question)

/-- What comes of a command. -/
inductive Reply where
  | done
  | refused (refusal : Refusal)
  | answer (question : Question) (answer : question.Answer)

namespace Session

/-- A way of answering questions about the current transaction. -/
abbrev Asking :=
  Session → (question : Question) → Except Refusal (question.Answer × Session)

/-- Ask the transaction, which keeps what it remembers. -/
def asking (scheme : Scheme) : Asking := fun session question =>
  session.ask scheme question.query

/-- Compute the answer from the fields and the registry. -/
def askingAfresh (scheme : Scheme) : Asking := fun session question =>
  match session.current? with
  | none => .error .noTransaction
  | some t => .ok (t.answerAfresh scheme question, session)

def copy (session : Session) : Except Refusal Session :=
  match session.current? with
  | none => .error .noTransaction
  | some t => .ok (session.push t)

/-- The session that comes of an attempt, which stays as it was if that fails. -/
def settle (session : Session) : Except Refusal Session → Reply × Session
  | .ok session' => (.done, session')
  | .error refusal => (.refused refusal, session)

variable (scheme : Scheme) (asking : Asking)

def step (session : Session) : Command → Reply × Session
  | .build source o => session.settle (session.build source o)
  | .select i => (.done, session.select i)
  | .copy => session.settle session.copy
  | .change change => session.settle (session.change scheme change)
  | .ask question =>
      match asking session question with
      | .ok (answer, session) => (.answer question answer, session)
      | .error refusal => (.refused refusal, session)

def run : List Command → Session → List Reply × Session
  | [], session => ([], session)
  | command :: commands, session =>
      let (reply, session) := session.step scheme asking command
      let (replies, session) := run commands session
      (reply :: replies, session)

end Session

namespace Session

variable (scheme : Scheme) {session : Session} {t : Transaction}

def uncached (session : Session) : Session :=
  { session with transactions := session.transactions.map Transaction.uncached }

def Coherent (session : Session) : Prop :=
  ∀ t ∈ session.transactions, t.Coherent

@[simp] theorem current?_uncached (session : Session) :
    session.uncached.current? = session.current?.map Transaction.uncached := by
  rw [current?, current?, uncached]
  cases session.current with
  | none => rfl
  | some i => exact Array.getElem?_map

@[simp] theorem uncached_push (session : Session) (t : Transaction) :
    (session.push t).uncached = session.uncached.push t.uncached := by
  simp [push, uncached]

theorem mem_of_current? (h : session.current? = some t) : t ∈ session.transactions := by
  obtain ⟨i, -, hi⟩ := Option.bind_eq_some_iff.mp h
  exact Array.mem_of_getElem? hi

theorem Coherent.push (h : session.Coherent) (ht : t.Coherent) : (session.push t).Coherent := by
  intro u hu
  rcases Array.mem_push.mp hu with hmem | rfl
  · exact h u hmem
  · exact ht

theorem build_eq_map (session : Session) (source : Source) (o : Options) :
    session.build source o = (Refusal.ofExcept (source.build o)).map session.push := by
  rw [build]
  cases Refusal.ofExcept (source.build o) <;> rfl

theorem change_eq_map (h : session.current? = some t) (change : Change) :
    session.change scheme change = (t.apply scheme change).map session.push := by
  rw [Session.change, h]
  dsimp only
  cases t.apply scheme change <;> rfl

/-- What a session and the one without memory make of a command: the same reply, and
sessions that again differ in what is remembered only. -/
structure Agree (real fresh : Reply × Session) : Prop where
  reply : real.1 = fresh.1
  session : real.2.uncached = fresh.2
  coherent : real.2.Coherent

/-- Attempts at the same transaction, up to what is remembered, are settled alike. -/
theorem Coherent.settle_push (h : session.Coherent) (x : Except Refusal Transaction)
    (hx : ∀ t, x = .ok t → t.Coherent) :
    Agree (session.settle (x.map session.push))
      (session.uncached.settle ((x.map Transaction.uncached).map session.uncached.push)) := by
  cases x with
  | error refusal => exact ⟨rfl, rfl, h⟩
  | ok t => exact ⟨rfl, uncached_push session t, h.push (hx t rfl)⟩

theorem Coherent.step_build (h : session.Coherent) (source : Source) (o : Options) :
    Agree (session.settle (session.build source o))
      (session.uncached.settle (session.uncached.build source o)) := by
  have hbuilt : ∀ t, source.build o = .ok t → t.Built := fun _ => Source.built_of_build
  have hx := h.settle_push (Refusal.ofExcept (source.build o)) fun t ht =>
    (hbuilt t (Refusal.ofExcept_iff.mp ht)).coherent
  rwa [Transaction.map_uncached_of_built hbuilt, ← build_eq_map, ← build_eq_map] at hx

theorem Coherent.step_change (h : session.Coherent) (change : Change) :
    Agree (session.settle (session.change scheme change))
      (session.uncached.settle (session.uncached.change scheme change)) := by
  cases hcurrent : session.current? with
  | none =>
      have hfresh : session.uncached.current? = none := by
        rw [current?_uncached, hcurrent]
        rfl
      rw [Session.change, Session.change, hcurrent, hfresh]
      exact ⟨rfl, rfl, h⟩
  | some t =>
      have hfresh : session.uncached.current? = some t.uncached := by
        rw [current?_uncached, hcurrent]
        rfl
      rw [change_eq_map scheme hcurrent, change_eq_map scheme hfresh, Transaction.apply_uncached]
      apply h.settle_push
      intro u hu
      exact (h t (mem_of_current? hcurrent)).of_apply hu

theorem Coherent.step_copy (h : session.Coherent) :
    Agree (session.settle session.copy) (session.uncached.settle session.uncached.copy) := by
  rw [copy, copy, current?_uncached]
  cases hcurrent : session.current? with
  | none => exact ⟨rfl, rfl, h⟩
  | some t => exact ⟨rfl, uncached_push session t, h.push (h t (mem_of_current? hcurrent))⟩

theorem Coherent.setIfInBounds (h : session.Coherent) (ht : t.Coherent) (i : Nat) :
    ({ session with
        transactions := session.transactions.setIfInBounds i t } : Session).Coherent := by
  intro u hu
  rcases Array.mem_or_eq_of_mem_setIfInBounds hu with hmem | rfl
  · exact h u hmem
  · exact ht

/-- Replacing a transaction by one that differs in what it remembers. -/
theorem uncached_setIfInBounds {u : Transaction} {i : Nat} (hi : session.transactions[i]? = some t)
    (h : u.uncached = t.uncached) :
    ({ session with transactions := session.transactions.setIfInBounds i u } : Session).uncached =
      session.uncached := by
  rw [uncached, uncached]
  congr 1
  apply Array.ext_getElem?
  intro j
  rw [Array.getElem?_map, Array.getElem?_map, Array.getElem?_setIfInBounds]
  by_cases hij : i = j
  · subst hij
    have hlt : i < session.transactions.size := (Array.getElem?_eq_some_iff.mp hi).1
    rw [if_pos rfl, if_pos hlt, hi, Option.map_some, Option.map_some, h]
  · rw [if_neg hij]

theorem Coherent.step_ask (h : session.Coherent) (question : Question) :
    Agree (session.step scheme (asking scheme) (.ask question))
      (session.uncached.step scheme (askingAfresh scheme) (.ask question)) := by
  have hfresh := current?_uncached session
  cases hcurrent : session.current? with
  | none =>
      rw [hcurrent, Option.map_none] at hfresh
      have hask : asking scheme session question = .error .noTransaction := by
        rw [asking, ask, hcurrent]
        cases session.current <;> rfl
      have hafresh : askingAfresh scheme session.uncached question = .error .noTransaction := by
        rw [askingAfresh, hfresh]
      rw [step, step, hask, hafresh]
      exact ⟨rfl, rfl, h⟩
  | some t =>
      -- The transaction is replaced by one that differs in what it remembers.
      rw [hcurrent, Option.map_some] at hfresh
      obtain ⟨i, hi, ht⟩ := Option.bind_eq_some_iff.mp hcurrent
      obtain ⟨hanswer, hcoherent⟩ := (h t (mem_of_current? hcurrent)).answer_spec scheme question
      have hask : asking scheme session question =
          .ok ((t.answer scheme question.query).1,
            { session with transactions :=
                session.transactions.setIfInBounds i (t.answer scheme question.query).2 }) := by
        rw [asking, ask, hcurrent, hi]
      have hafresh : askingAfresh scheme session.uncached question =
          .ok (t.answerAfresh scheme question, session.uncached) := by
        rw [askingAfresh, hfresh]
        dsimp only
        rw [Transaction.answerAfresh_uncached]
      rw [step, step, hask, hafresh]
      refine ⟨?_, ?_, ?_⟩
      · dsimp only
        rw [hanswer]
      · exact uncached_setIfInBounds ht (Transaction.uncached_answer question.query)
      · exact h.setIfInBounds hcoherent i

/-- One command keeps a session and the one without memory together. -/
theorem Coherent.step_spec (h : session.Coherent) (command : Command) :
    Agree (session.step scheme (asking scheme) command)
      (session.uncached.step scheme (askingAfresh scheme) command) := by
  cases command with
  | build source o => exact h.step_build source o
  | select i => exact ⟨rfl, rfl, h⟩
  | copy => exact h.step_copy
  | change change => exact h.step_change scheme change
  | ask question => exact h.step_ask scheme question

theorem run_cons (asking : Asking) (command : Command) (commands : List Command)
    (session : Session) :
    run scheme asking (command :: commands) session =
      ((session.step scheme asking command).1 ::
          (run scheme asking commands (session.step scheme asking command).2).1,
        (run scheme asking commands (session.step scheme asking command).2).2) := rfl

/-- The induction is on the commands, and what carries it is that the two sessions
differ in what is remembered only. -/
theorem Coherent.run_spec (h : session.Coherent) (commands : List Command) :
    (run scheme (asking scheme) commands session).1 =
        (run scheme (askingAfresh scheme) commands session.uncached).1 ∧
      (run scheme (asking scheme) commands session).2.Coherent := by
  induction commands generalizing session with
  | nil => exact ⟨rfl, h⟩
  | cons command commands ih =>
      obtain ⟨hreply, hsession, hcoherent⟩ := h.step_spec scheme command
      obtain ⟨hreplies, hfinal⟩ := ih hcoherent
      rw [hsession] at hreplies
      rw [run_cons, run_cons, hreply, hreplies]
      exact ⟨rfl, hfinal⟩

theorem uncached_empty : ({} : Session).uncached = {} := by
  rw [uncached, Array.map_empty]

theorem coherent_empty : ({} : Session).Coherent := by
  intro t ht
  exact absurd ht (Array.not_mem_empty t)

/-- Over every run, from the empty session on, each reply is the one of the session
without memory, and at the end of the run, which may be any point of a longer one,
every transaction answers every question as its fields and its registry do. -/
theorem replies_run_eq_afresh (commands : List Command) :
    (run scheme (asking scheme) commands {}).1 =
        (run scheme (askingAfresh scheme) commands {}).1 ∧
      ∀ t ∈ (run scheme (asking scheme) commands {}).2.transactions, ∀ question,
        (t.answer scheme question.query).1 = t.answerAfresh scheme question := by
  obtain ⟨hreplies, hcoherent⟩ := coherent_empty.run_spec scheme commands
  rw [uncached_empty] at hreplies
  refine ⟨hreplies, ?_⟩
  intro t ht question
  exact ((hcoherent t ht).answer_spec scheme question).1

end Session
end TypedTx
