/-
**Durable flows: programs that call, wait, and are told.**

An engine for durable execution runs programs that do nothing by themselves.  A call is carried out
elsewhere, by attempts of which any may fail, be given up or go on after it was given up; the
program is told one answer.  A wait ends when a signal was delivered or when a timer fires.  Signals
are kept in the order in which they came and delivered into one slot, where the next one replaces
the last.  This module says what such a program is and what becomes of an execution of it; it names
no particular program.

Main definitions:

* `Durable.Flow` — a program, with its monad;
* `Durable.Execution` — how far an execution has come;
* `Durable.Execution.next` — **what happens to it**, one event after the other;
* `Durable.Closed` — a set of programs that an execution does not leave;
* `Durable.Execution.Fed` — how far the signals that were taken have come.

Main results:

* `Durable.Flow.bind_assoc` and the monad laws;
* `Durable.Execution.next_cases` — what an event does, case by case;
* `Durable.Execution.next_closed` — an execution stays among its positions;
* `Durable.Execution.next_scheduled` — a call that is under way is so until it is answered;
* `Durable.Execution.Fed.next` — signals are delivered in the order in which they were taken.
-/

import Mathlib.Data.List.Basic

set_option relaxedAutoImplicit false
set_option autoImplicit false

namespace Durable

variable {Call : Type} {Res : Call → Type} {Sig α β γ : Type}

/-! ### Programs -/

/-- **A durable program.**  A wait goes on with what is in the slot, or without anything if the
timer was first; `stuck` is an exception the program does not end with: the engine tries the same
step again and again. -/
inductive Flow {Call : Type} (Res : Call → Type) (Sig α : Type) : Type
  | ret (a : α)
  | stuck (text : String)
  | call (c : Call) (k : Res c → Flow Res Sig α)
  | await (k : Option Sig → Flow Res Sig α)

namespace Flow

def bind : Flow Res Sig α → (α → Flow Res Sig β) → Flow Res Sig β
  | ret a, f => f a
  | stuck text, _ => stuck text
  | call c k, f => call c fun r => (k r).bind f
  | await k, f => await fun o => (k o).bind f

instance : Monad (Flow Res Sig) where
  pure := ret
  bind := bind

theorem bind_ret (p : Flow Res Sig α) : p.bind ret = p := by
  induction p with
  | ret a => rfl
  | stuck text => rfl
  | call c k ih => simp only [bind, ih]
  | await k ih => simp only [bind, ih]

theorem bind_assoc (p : Flow Res Sig α) (f : α → Flow Res Sig β) (g : β → Flow Res Sig γ) :
    (p.bind f).bind g = p.bind fun a => (f a).bind g := by
  induction p with
  | ret a => rfl
  | stuck text => rfl
  | call c k ih => simp only [bind, ih]
  | await k ih => simp only [bind, ih]

instance : LawfulMonad (Flow Res Sig) :=
  LawfulMonad.mk' _ bind_ret (fun _ _ => rfl) bind_assoc

theorem call_bind (c : Call) (k : Res c → Flow Res Sig α) (f : α → Flow Res Sig β) :
    (call c k >>= f) = call c fun r => k r >>= f := rfl

theorem await_bind (k : Option Sig → Flow Res Sig α) (f : α → Flow Res Sig β) :
    (await k >>= f) = await fun o => k o >>= f := rfl

/-- The call a program is at. -/
def call? : Flow Res Sig α → Option Call
  | call c _ => some c
  | _ => none

/-- Whether a program has ended. -/
def done : Flow Res Sig α → Bool
  | ret _ => true
  | _ => false

theorem call?_eq_some {p : Flow Res Sig α} {c : Call} (h : p.call? = some c) :
    ∃ k, p = call c k := by
  cases p with
  | call c' k => cases h; exact ⟨k, rfl⟩
  | ret a => cases h
  | stuck text => cases h
  | await k => cases h

end Flow

/-! ### Executions -/

/-- **An execution**: what is left of the program, how many calls were answered, how often the one
that is under way was given up, the signals that were taken but not delivered, the slot, and whether
it has failed. -/
structure Execution {Call : Type} (Res : Call → Type) (Sig α : Type) where
  flow : Flow Res Sig α
  answered : ℕ
  attempts : ℕ
  inbox : List Sig
  slot : Option Sig
  failed : Bool

/-- What may happen to an execution. -/
inductive Event {Call : Type} (Res : Call → Type) (Sig : Type)
  | signal (s : Sig)
  | deliver
  | resume
  | timeout
  | answer (c : Call) (r : Res c)
  | giveUp
  | fail

namespace Execution

def start (p : Flow Res Sig α) : Execution Res Sig α := ⟨p, 0, 0, [], none, false⟩

/-- An execution that has neither ended nor failed. -/
def isOpen (e : Execution Res Sig α) : Bool := !e.failed && !e.flow.done

/-- The call under way, and its number. -/
def scheduled? (e : Execution Res Sig α) : Option (ℕ × Call) :=
  if e.isOpen then e.flow.call?.map fun c => (e.answered + 1, c) else none

theorem scheduled?_eq_some {e : Execution Res Sig α} {n : ℕ} {c : Call} :
    e.scheduled? = some (n, c) ↔
      e.isOpen = true ∧ e.flow.call? = some c ∧ n = e.answered + 1 := by
  simp only [scheduled?]
  split
  next hopen =>
    simp only [Option.map_eq_some_iff, Prod.mk.injEq, hopen, true_and]
    constructor
    · rintro ⟨c', hc', rfl, rfl⟩
      exact ⟨hc', rfl⟩
    · rintro ⟨hc, rfl⟩
      exact ⟨c, hc, rfl, rfl⟩
  next hopen => simp [hopen]

variable [DecidableEq Call]

/-- **What happens to an execution**, if it can happen to it.  A call is given up fewer than `limit`
times. -/
def next (limit : ℕ) (e : Execution Res Sig α) (event : Event Res Sig) :
    Option (Execution Res Sig α) :=
  if e.isOpen then
    match event with
    | .signal s => some { e with inbox := e.inbox ++ [s] }
    | .deliver =>
        match e.inbox with
        | [] => none
        | s :: rest => some { e with inbox := rest, slot := some s }
    | .resume =>
        match e.flow with
        | .await k => e.slot.map fun s => { e with flow := k (some s) }
        | _ => none
    | .timeout =>
        match e.flow with
        | .await k => if e.slot.isSome then none else some { e with flow := k none }
        | _ => none
    | .answer c r =>
        match e.flow with
        | .call c' k =>
            if h : c = c' then
              some { e with flow := k (h ▸ r), answered := e.answered + 1, attempts := 0 }
            else none
        | _ => none
    | .giveUp =>
        match e.flow with
        | .call _ _ =>
            if e.attempts + 1 < limit then some { e with attempts := e.attempts + 1 } else none
        | _ => none
    | .fail =>
        match e.flow with
        | .call _ _ => some { e with failed := true }
        | _ => none
  else none

/-- **What an event does**, case by case. -/
inductive Happened (limit : ℕ) (e : Execution Res Sig α) :
    Event Res Sig → Execution Res Sig α → Prop
  | signal (s : Sig) : Happened limit e (.signal s) { e with inbox := e.inbox ++ [s] }
  | deliver (s : Sig) (rest : List Sig) (hi : e.inbox = s :: rest) :
      Happened limit e .deliver { e with inbox := rest, slot := some s }
  | resume (k : Option Sig → Flow Res Sig α) (s : Sig) (hf : e.flow = .await k)
      (hs : e.slot = some s) : Happened limit e .resume { e with flow := k (some s) }
  | timeout (k : Option Sig → Flow Res Sig α) (hf : e.flow = .await k) (hs : e.slot = none) :
      Happened limit e .timeout { e with flow := k none }
  | answer (c : Call) (k : Res c → Flow Res Sig α) (r : Res c) (hf : e.flow = .call c k) :
      Happened limit e (.answer c r)
        { e with flow := k r, answered := e.answered + 1, attempts := 0 }
  | giveUp (c : Call) (k : Res c → Flow Res Sig α) (hf : e.flow = .call c k)
      (hlimit : e.attempts + 1 < limit) :
      Happened limit e .giveUp { e with attempts := e.attempts + 1 }
  | fail (c : Call) (k : Res c → Flow Res Sig α) (hf : e.flow = .call c k) :
      Happened limit e .fail { e with failed := true }

theorem next_cases {limit : ℕ} {e e' : Execution Res Sig α} {event : Event Res Sig}
    (h : e.next limit event = some e') : e.isOpen = true ∧ Happened limit e event e' := by
  simp only [next] at h
  split at h
  next hopen =>
    refine ⟨hopen, ?_⟩
    cases event with
    | signal s => cases h; exact .signal s
    | deliver =>
        simp only at h
        split at h
        next => cases h
        next s rest hi => cases h; exact .deliver s rest hi
    | resume =>
        simp only at h
        split at h
        next k hf =>
          obtain ⟨s, hs, rfl⟩ := Option.map_eq_some_iff.1 h
          exact .resume k s hf hs
        next => cases h
    | timeout =>
        simp only at h
        split at h
        next k hf =>
          split at h
          next => cases h
          next hs => cases h; exact .timeout k hf (by simpa using hs)
        next => cases h
    | answer c r =>
        simp only at h
        split at h
        next c' k hf =>
          split at h
          next heq => subst heq; cases h; exact .answer c k r hf
          next => cases h
        next => cases h
    | giveUp =>
        simp only at h
        split at h
        next c k hf =>
          split at h
          next hlimit => cases h; exact .giveUp c k hf hlimit
          next => cases h
        next => cases h
    | fail =>
        simp only at h
        split at h
        next c k hf => cases h; exact .fail c k hf
        next => cases h
  next => cases h

end Execution

/-! ### Signals in their order -/

/-- The signal of an event. -/
def Event.signal? : Event Res Sig → Option Sig
  | .signal s => some s
  | _ => none

/-- **How far the signals `σ` that were taken have come**, in their order: the first `n` were
delivered, and the last of these is in the slot. -/
structure Execution.Fed (e : Execution Res Sig α) (σ : List Sig) (n : ℕ) : Prop where
  le : n ≤ σ.length
  inbox : e.inbox = σ.drop n
  slot : e.slot = (σ.take n).getLast?

theorem Execution.fed_start (p : Flow Res Sig α) : (Execution.start p).Fed [] 0 :=
  ⟨Nat.le_refl _, rfl, rfl⟩

/-- One more signal is taken. -/
theorem Execution.Fed.signal {e : Execution Res Sig α} {σ : List Sig} {n : ℕ} (h : e.Fed σ n)
    (s : Sig) : Execution.Fed { e with inbox := e.inbox ++ [s] } (σ ++ [s]) n := by
  have hle := h.le
  refine ⟨?_, ?_, ?_⟩
  · rw [List.length_append]
    omega
  · rw [List.drop_append_of_le_length hle, ← h.inbox]
  · rw [List.take_append_of_le_length hle, ← h.slot]

/-- One more signal is delivered. -/
theorem Execution.Fed.deliver {e : Execution Res Sig α} {σ : List Sig} {n : ℕ} (h : e.Fed σ n)
    {s : Sig} {rest : List Sig} (hi : e.inbox = s :: rest) :
    Execution.Fed { e with inbox := rest, slot := some s } σ (n + 1) := by
  have hdrop : σ.drop n = s :: rest := h.inbox.symm.trans hi
  have hlt : n < σ.length := by
    by_contra hge
    rw [List.drop_eq_nil_of_le (by omega)] at hdrop
    cases hdrop
  have hget : σ[n] = s ∧ σ.drop (n + 1) = rest := by
    rw [List.drop_eq_getElem_cons hlt] at hdrop
    exact List.cons.inj hdrop
  refine ⟨hlt, hget.2.symm, ?_⟩
  rw [List.take_succ_eq_append_getElem hlt, List.getLast?_concat, hget.1]

variable [DecidableEq Call] in
/-- **The signals come on, in their order**, whatever happens. -/
theorem Execution.Fed.next {limit : ℕ} {e e' : Execution Res Sig α} {event : Event Res Sig}
    {σ : List Sig} {n : ℕ} (h : e.Fed σ n) (hn : e.next limit event = some e') :
    ∃ m, e'.Fed (σ ++ event.signal?.toList) m := by
  have hsame : ∀ {e'' : Execution Res Sig α}, e''.inbox = e.inbox → e''.slot = e.slot →
      e''.Fed (σ ++ []) n := fun hi hs => by
    rw [List.append_nil]
    exact ⟨h.le, hi.trans h.inbox, hs.trans h.slot⟩
  cases (next_cases hn).2 with
  | signal s => exact ⟨n, h.signal s⟩
  | deliver s rest hi =>
      refine ⟨n + 1, ?_⟩
      have hfed := h.deliver hi
      simpa [Event.signal?] using hfed
  | resume k s hf hs => exact ⟨n, hsame rfl rfl⟩
  | timeout k hf hs => exact ⟨n, hsame rfl rfl⟩
  | answer c k r hf => exact ⟨n, hsame rfl rfl⟩
  | giveUp c k hf hlimit => exact ⟨n, hsame rfl rfl⟩
  | fail c k hf => exact ⟨n, hsame rfl rfl⟩

/-! ### Positions -/

/-- **A set of programs that an execution does not leave**: whatever it is told, the rest of the
program is one of them. -/
structure Closed (P : Flow Res Sig α → Prop) : Prop where
  call : ∀ {c k}, P (.call c k) → ∀ r, P (k r)
  await : ∀ {k}, P (.await k) → ∀ o, P (k o)

variable [DecidableEq Call]

/-- **An execution stays among its positions.** -/
theorem Execution.next_closed {P : Flow Res Sig α → Prop} (hP : Closed P) {limit : ℕ}
    {e e' : Execution Res Sig α} {event : Event Res Sig} (h : e.next limit event = some e')
    (he : P e.flow) : P e'.flow := by
  cases (next_cases h).2 with
  | resume k s hf hs => exact hP.await (hf ▸ he) _
  | timeout k hf hs => exact hP.await (hf ▸ he) _
  | answer c k r hf => exact hP.call (hf ▸ he) r
  | _ => exact he

/-- Only an answer is counted. -/
theorem Execution.next_answered {limit : ℕ} {e e' : Execution Res Sig α} {event : Event Res Sig}
    (h : e.next limit event = some e') : e.answered ≤ e'.answered := by
  cases (next_cases h).2 with
  | answer c k r hf => exact Nat.le_succ _
  | _ => exact Nat.le_refl _

/-- **A call that is under way stays so until it is answered**, also when the execution fails. -/
theorem Execution.next_scheduled {limit : ℕ} {e e' : Execution Res Sig α} {event : Event Res Sig}
    (h : e.next limit event = some e') {c : Call} (hc : e.flow.call? = some c) :
    (e'.flow.call? = some c ∧ e'.answered = e.answered) ∨
      (e'.answered = e.answered + 1 ∧ ∃ r, event = .answer c r) := by
  obtain ⟨k, hk⟩ := Flow.call?_eq_some hc
  cases (next_cases h).2 with
  | resume k' s hf hs => rw [hk] at hf; cases hf
  | timeout k' hf hs => rw [hk] at hf; cases hf
  | answer c' k' r hf =>
      rw [hk] at hf
      cases hf
      exact Or.inr ⟨rfl, r, rfl⟩
  | _ => exact Or.inl ⟨hc, rfl⟩

end Durable
