/-
**Transactions at READ COMMITTED, run side by side.**

Several programs share one database.  Each of them sends statements one at a time; between two
statements of one program any number of statements of the others may run.  This module says what
a program is and what running several of them does; it names no table and no application, and a
development instantiates it with its own database, statements and programs.

The isolation level is READ COMMITTED: a statement sees the rows that are committed when it runs,
together with what its own transaction has written so far, and nothing of what another
transaction has not committed.  What a transaction writes is kept apart until it commits, so an
aborted transaction leaves nothing.  A statement that writes locks the rows and the unique-index
entries it touches until its transaction ends, and a statement that wants one of them waits.

Main definitions:

* `ReadCommitted.Schema` — a database: what a statement does, when it is refused, what it locks;
* `ReadCommitted.Prog` — a program: statements, questions to the outside, commits, and a result
  or an exception;
* `ReadCommitted.Host` — what surrounds the programs: which may start, and an external system
  that answers their questions and moves on its own;
* `ReadCommitted.World` — the committed database, the log of committed transactions, the external
  system and the running tasks; `ReadCommitted.World.step` is one step of it, as a function of
  the scheduler's choice;
* `ReadCommitted.Reaches` — the worlds reached by runs whose steps all meet a condition.

Main results:

* `ReadCommitted.Prog.bind_assoc` and the monad laws;
* `ReadCommitted.World.kept_of_step` — a step leaves alone what it is not about;
* `ReadCommitted.reaches_of_run` — a schedule that can be executed is a run;
* `ReadCommitted.Reaches.mono` — a condition may be weakened.
-/

import Mathlib.Data.List.Basic

set_option relaxedAutoImplicit false
set_option autoImplicit false

namespace ReadCommitted

/-! ### Databases -/

/-- **A database.**  `apply` is the effect of a statement, `fault` the reason the database refuses
it (a constraint, a policy) when the rows are as given, and `locks` the rows and unique-index
entries it locks until its transaction ends.  `Occupied k d` says that the row or entry `k` is
there; only a statement that locks an entry can change whether it is. -/
structure Schema (Db Write Fault Key : Type) where
  apply : Db → Write → Db
  fault : Db → Write → Option Fault
  locks : Write → List Key
  Occupied : Key → Db → Prop
  occupied_apply : ∀ (d : Db) (w : Write) (k : Key), k ∉ locks w →
    (Occupied k (apply d w) ↔ Occupied k d)

section Programs

variable {Db Write Fault Key Ask : Type} {Ans : Ask → Type} {Exc : Type}

/-- What a transaction that has written `ws` sees of the committed database `d`. -/
def Schema.view (S : Schema Db Write Fault Key) (d : Db) (ws : List Write) : Db :=
  ws.foldl S.apply d

@[simp] theorem Schema.view_nil (S : Schema Db Write Fault Key) (d : Db) : S.view d [] = d := rfl

@[simp] theorem Schema.view_cons (S : Schema Db Write Fault Key) (d : Db) (w : Write)
    (ws : List Write) : S.view d (w :: ws) = S.view (S.apply d w) ws := rfl

theorem Schema.view_append (S : Schema Db Write Fault Key) (d : Db) (ws vs : List Write) :
    S.view d (ws ++ vs) = S.view (S.view d ws) vs := by
  simp [Schema.view, List.foldl_append]

/-- An entry that none of the statements locks is there after them exactly when it was before. -/
theorem Schema.occupied_view (S : Schema Db Write Fault Key) {k : Key} :
    ∀ (ws : List Write) (d : Db), (∀ w ∈ ws, k ∉ S.locks w) →
      (S.Occupied k (S.view d ws) ↔ S.Occupied k d) := by
  intro ws
  induction ws with
  | nil => intro d _; exact Iff.rfl
  | cons w ws ih =>
      intro d h
      rw [S.view_cons, ih _ fun v hv => h v (List.mem_cons_of_mem _ hv)]
      exact S.occupied_apply d w k (h w List.mem_cons_self)

/-! ### Programs -/

/-- **A program.**  `query` is a read, which gets the rows as the statement sees them; `exec` is
a statement that writes, answered by the fault it ran into, if any; `ask` is a question to
something outside the database. -/
inductive Prog (Db Write Fault : Type) {Ask : Type} (Ans : Ask → Type) (Exc α : Type) : Type
  | ret (a : α)
  | raise (e : Exc)
  | ask (q : Ask) (k : Ans q → Prog Db Write Fault Ans Exc α)
  | query (k : Db → Prog Db Write Fault Ans Exc α)
  | exec (w : Write) (k : Option Fault → Prog Db Write Fault Ans Exc α)
  | commit (k : Prog Db Write Fault Ans Exc α)
  | rollback (k : Prog Db Write Fault Ans Exc α)

namespace Prog

variable {α β γ : Type}

/-- Sequencing: an exception of the first program skips the second. -/
def bind : Prog Db Write Fault Ans Exc α → (α → Prog Db Write Fault Ans Exc β) →
    Prog Db Write Fault Ans Exc β
  | ret a, f => f a
  | raise e, _ => raise e
  | ask q k, f => ask q fun a => (k a).bind f
  | query k, f => query fun d => (k d).bind f
  | exec w k, f => exec w fun o => (k o).bind f
  | commit k, f => commit (k.bind f)
  | rollback k, f => rollback (k.bind f)

instance : Monad (Prog Db Write Fault Ans Exc) where
  pure := ret
  bind := bind

theorem bind_ret (p : Prog Db Write Fault Ans Exc α) : p.bind ret = p := by
  induction p with
  | ret a => rfl
  | raise e => rfl
  | ask q k ih => simp only [bind, ih]
  | query k ih => simp only [bind, ih]
  | exec w k ih => simp only [bind, ih]
  | commit k ih => simp only [bind, ih]
  | rollback k ih => simp only [bind, ih]

theorem bind_assoc (p : Prog Db Write Fault Ans Exc α) (f : α → Prog Db Write Fault Ans Exc β)
    (g : β → Prog Db Write Fault Ans Exc γ) :
    (p.bind f).bind g = p.bind fun a => (f a).bind g := by
  induction p with
  | ret a => rfl
  | raise e => rfl
  | ask q k ih => simp only [bind, ih]
  | query k ih => simp only [bind, ih]
  | exec w k ih => simp only [bind, ih]
  | commit k ih => simp only [bind, ih]
  | rollback k ih => simp only [bind, ih]

instance : LawfulMonad (Prog Db Write Fault Ans Exc) :=
  LawfulMonad.mk' _ bind_ret (fun _ _ => rfl) bind_assoc

theorem bind_eq (p : Prog Db Write Fault Ans Exc α) (f : α → Prog Db Write Fault Ans Exc β) :
    p >>= f = p.bind f := rfl

theorem pure_eq (a : α) : (pure a : Prog Db Write Fault Ans Exc α) = ret a := rfl

/-- Catching an exception: the handler takes over after the transaction in which the exception
was raised has been rolled back. -/
def tryCatch : Prog Db Write Fault Ans Exc α → (Exc → Option (Prog Db Write Fault Ans Exc α)) →
    Prog Db Write Fault Ans Exc α
  | ret a, _ => ret a
  | raise e, h => match h e with
      | some p => rollback p
      | none => raise e
  | ask q k, h => ask q fun a => (k a).tryCatch h
  | query k, h => query fun d => (k d).tryCatch h
  | exec w k, h => exec w fun o => (k o).tryCatch h
  | commit k, h => commit (k.tryCatch h)
  | rollback k, h => rollback (k.tryCatch h)

/-- **A program that stays inside its transaction**: it neither commits nor rolls back, and what it
asks, raises and writes meets the conditions. -/
def Inside (asks : Ask → Prop) (raises : Exc → Prop) (writes : Write → Prop) :
    Prog Db Write Fault Ans Exc α → Prop
  | ret _ => True
  | raise e => raises e
  | ask q k => asks q ∧ ∀ a, (k a).Inside asks raises writes
  | query k => ∀ d, (k d).Inside asks raises writes
  | exec w k => writes w ∧ ∀ o, (k o).Inside asks raises writes
  | commit _ => False
  | rollback _ => False

theorem Inside.bind {asks : Ask → Prop} {raises : Exc → Prop} {writes : Write → Prop}
    {p : Prog Db Write Fault Ans Exc α} {f : α → Prog Db Write Fault Ans Exc β}
    (hp : p.Inside asks raises writes) (hf : ∀ a, (f a).Inside asks raises writes) :
    (p >>= f).Inside asks raises writes := by
  rw [bind_eq]
  induction p with
  | ret a => exact hf a
  | raise e => exact hp
  | ask q k ih => exact ⟨hp.1, fun a => ih a (hp.2 a)⟩
  | query k ih => exact fun d => ih d (hp d)
  | exec w k ih => exact ⟨hp.1, fun o => ih o (hp.2 o)⟩
  | commit k => exact hp.elim
  | rollback k => exact hp.elim

theorem Inside.mono {asks asks' : Ask → Prop} {raises raises' : Exc → Prop}
    {writes writes' : Write → Prop} {p : Prog Db Write Fault Ans Exc α}
    (hasks : ∀ q, asks q → asks' q) (hraises : ∀ e, raises e → raises' e)
    (hwrites : ∀ w, writes w → writes' w) (hp : p.Inside asks raises writes) :
    p.Inside asks' raises' writes' := by
  induction p with
  | ret a => trivial
  | raise e => exact hraises e hp
  | ask q k ih => exact ⟨hasks q hp.1, fun a => ih a (hp.2 a)⟩
  | query k ih => exact fun d => ih d (hp d)
  | exec w k ih => exact ⟨hwrites w hp.1, fun o => ih o (hp.2 o)⟩
  | commit k => exact hp.elim
  | rollback k => exact hp.elim

/-- A program that has ended, with a result or an exception. -/
def done : Prog Db Write Fault Ans Exc α → Bool
  | ret _ => true
  | raise _ => true
  | _ => false

end Prog

/-! ### Worlds -/

/-- The programs a development runs, by kind. -/
structure Programs (Db Write Fault : Type) {Ask : Type} (Ans : Ask → Type) (Exc : Type) where
  Kind : Type
  Result : Kind → Type
  prog : (κ : Kind) → Prog Db Write Fault Ans Exc (Result κ)
  /-- What a task ends with whose process was killed. -/
  crash : Exc

variable {P : Programs Db Write Fault Ans Exc}

/-- **A task**: a program on its way, with what its open transaction has written. -/
structure Task (P : Programs Db Write Fault Ans Exc) where
  kind : P.Kind
  writes : List Write
  prog : Prog Db Write Fault Ans Exc (P.Result kind)

/-- The task moved on to `p`.  A program that has ended has left its transaction, which is rolled
back unless it was committed. -/
def Task.goto (t : Task P) (ws : List Write) (p : Prog Db Write Fault Ans Exc (P.Result t.kind)) :
    Task P :=
  ⟨t.kind, if p.done then [] else ws, p⟩

@[simp] theorem Task.goto_kind (t : Task P) (ws : List Write)
    (p : Prog Db Write Fault Ans Exc (P.Result t.kind)) : (t.goto ws p).kind = t.kind := rfl

@[simp] theorem Task.goto_prog (t : Task P) (ws : List Write)
    (p : Prog Db Write Fault Ans Exc (P.Result t.kind)) : (t.goto ws p).prog = p := rfl

/-- A committed transaction, as the log keeps it. -/
structure Entry (P : Programs Db Write Fault Ans Exc) where
  task : ℕ
  kind : P.Kind
  writes : List Write

/-- **What surrounds the programs.**  `spawn` says which programs may start, `answer` which
answers the external system may give to a question and what it is afterwards, and `tick` how it
moves on its own, looking at the tasks that have ended. -/
structure Host (P : Programs Db Write Fault Ans Exc) where
  Ext : Type
  Tick : Type
  spawn : Db → Ext → P.Kind → Bool
  answer : Ext → Db → (κ : P.Kind) → (q : Ask) → Ans q → Option Ext
  tick : Ext → Db → List (Task P) → Tick → Option Ext

/-- The state of everything: the committed rows, the transactions that were committed, the
external system, and the tasks. -/
structure World (H : Host P) where
  db : Db
  log : List (Entry P)
  ext : H.Ext
  tasks : List (Task P)

/-- A choice of the scheduler. -/
inductive Action (H : Host P)
  | spawn (κ : P.Kind)
  | advance (i : ℕ) (answers : (q : Ask) → Ans q)
  | kill (i : ℕ)
  | tick (τ : H.Tick)

namespace World

variable {H : Host P} (S : Schema Db Write Fault Key) [DecidableEq Key]

/-- Whether no other task's transaction holds a lock that the statement needs. -/
def free (w : World H) (i : ℕ) (x : Write) : Bool :=
  w.tasks.zipIdx.all fun tj => tj.2 == i ||
    tj.1.writes.all fun y => (S.locks y).all fun k => !(S.locks x).contains k

/-- The next statement of task `i`. -/
def advance (w : World H) (i : ℕ) (answers : (q : Ask) → Ans q) (t : Task P) :
    Prog Db Write Fault Ans Exc (P.Result t.kind) → Option (World H)
  | .ret _ => none
  | .raise _ => none
  | .ask q k => (H.answer w.ext w.db t.kind q (answers q)).map fun e =>
      { w with ext := e, tasks := w.tasks.set i (t.goto t.writes (k (answers q))) }
  | .query k =>
      some { w with tasks := w.tasks.set i (t.goto t.writes (k (S.view w.db t.writes))) }
  | .exec x k =>
      match S.fault (S.view w.db t.writes) x with
      | some f => some { w with tasks := w.tasks.set i (t.goto t.writes (k (some f))) }
      | none =>
          if w.free S i x then
            some { w with tasks := w.tasks.set i (t.goto (t.writes ++ [x]) (k none)) }
          else none
  | .commit k =>
      some { w with
        db := S.view w.db t.writes
        log := w.log ++ [⟨i, t.kind, t.writes⟩]
        tasks := w.tasks.set i (t.goto [] k) }
  | .rollback k => some { w with tasks := w.tasks.set i (t.goto [] k) }

/-- **One step of the world**, if the choice is possible in it. -/
def step (w : World H) : Action H → Option (World H)
  | .spawn κ =>
      if H.spawn w.db w.ext κ then
        some { w with tasks := w.tasks ++ [⟨κ, [], P.prog κ⟩] }
      else none
  | .advance i answers => (w.tasks[i]?).bind fun t => w.advance S i answers t t.prog
  | .kill i => (w.tasks[i]?).map fun t =>
      { w with tasks := w.tasks.set i ⟨t.kind, [], .raise P.crash⟩ }
  | .tick τ => (H.tick w.ext w.db w.tasks τ).map fun e => { w with ext := e }

/-- A schedule, executed. -/
def run (w : World H) : List (Action H) → Option (World H)
  | [] => some w
  | a :: as => (w.step S a).bind fun w' => w'.run as

end World

variable {H : Host P} (S : Schema Db Write Fault Key) [DecidableEq Key]

/-- **The worlds reached from `w₀`** by runs each of whose steps meets the condition `ok`, a
condition on the world before the step and on the choice made. -/
inductive Reaches (ok : World H → Action H → Prop) (w₀ : World H) : World H → Prop
  | refl : Reaches ok w₀ w₀
  | tail {w w' : World H} {a : Action H} (h : Reaches ok w₀ w) (hok : ok w a)
      (hs : w.step S a = some w') : Reaches ok w₀ w'

/-- The worlds reached by any run. -/
abbrev Reachable (w₀ : World H) : World H → Prop := Reaches S (fun _ _ => True) w₀

variable {S}

theorem Reaches.mono {ok ok' : World H → Action H → Prop} {w₀ w : World H}
    (himp : ∀ w a, ok w a → ok' w a) (h : Reaches S ok w₀ w) : Reaches S ok' w₀ w := by
  induction h with
  | refl => exact Reaches.refl
  | tail _ hok hs ih => exact ih.tail (himp _ _ hok) hs

theorem Reaches.reachable {ok : World H → Action H → Prop} {w₀ w : World H}
    (h : Reaches S ok w₀ w) : Reachable S w₀ w :=
  h.mono fun _ _ _ => trivial

theorem Reaches.trans {ok : World H → Action H → Prop} {w₀ w w' : World H}
    (h : Reaches S ok w₀ w) (h' : Reaches S ok w w') : Reaches S ok w₀ w' := by
  induction h' with
  | refl => exact h
  | tail _ hok hs ih => exact ih.tail hok hs

/-! ### What a step does -/

/-- **What advancing a task does**, case by case: the inversion of `World.advance`. -/
inductive Advanced (S : Schema Db Write Fault Key) (w : World H) (i : ℕ) (t : Task P) :
    World H → Prop
  | ask (q : Ask) (k : Ans q → Prog Db Write Fault Ans Exc (P.Result t.kind)) (a : Ans q)
      (e : H.Ext) (hp : t.prog = .ask q k) (he : H.answer w.ext w.db t.kind q a = some e) :
      Advanced S w i t { w with ext := e, tasks := w.tasks.set i (t.goto t.writes (k a)) }
  | query (k : Db → Prog Db Write Fault Ans Exc (P.Result t.kind)) (hp : t.prog = .query k) :
      Advanced S w i t
        { w with tasks := w.tasks.set i (t.goto t.writes (k (S.view w.db t.writes))) }
  | refused (x : Write) (k : Option Fault → Prog Db Write Fault Ans Exc (P.Result t.kind))
      (f : Fault) (hp : t.prog = .exec x k) (hf : S.fault (S.view w.db t.writes) x = some f) :
      Advanced S w i t { w with tasks := w.tasks.set i (t.goto t.writes (k (some f))) }
  | exec (x : Write) (k : Option Fault → Prog Db Write Fault Ans Exc (P.Result t.kind))
      (hp : t.prog = .exec x k) (hf : S.fault (S.view w.db t.writes) x = none)
      (hfree : ∀ j t', j ≠ i → w.tasks[j]? = some t' → ∀ y ∈ t'.writes, ∀ k ∈ S.locks y,
        k ∉ S.locks x) :
      Advanced S w i t { w with tasks := w.tasks.set i (t.goto (t.writes ++ [x]) (k none)) }
  | commit (k : Prog Db Write Fault Ans Exc (P.Result t.kind)) (hp : t.prog = .commit k) :
      Advanced S w i t { w with
        db := S.view w.db t.writes
        log := w.log ++ [⟨i, t.kind, t.writes⟩]
        tasks := w.tasks.set i (t.goto [] k) }
  | rollback (k : Prog Db Write Fault Ans Exc (P.Result t.kind)) (hp : t.prog = .rollback k) :
      Advanced S w i t { w with tasks := w.tasks.set i (t.goto [] k) }

theorem World.free_iff {w : World H} {i : ℕ} {x : Write} (h : w.free S i x = true) {j : ℕ}
    {t : Task P} (hj : j ≠ i) (ht : w.tasks[j]? = some t) :
    ∀ y ∈ t.writes, ∀ k ∈ S.locks y, k ∉ S.locks x := by
  intro y hy k hk hkx
  have hmem : (t, j) ∈ w.tasks.zipIdx := List.mem_zipIdx_iff_getElem?.2 ht
  have hone := List.all_eq_true.1 h _ hmem
  rcases Bool.or_eq_true_iff.1 hone with hij | hall
  · exact hj (by simpa using hij)
  · have hlock := List.all_eq_true.1 (List.all_eq_true.1 hall y hy) k hk
    simp [hkx] at hlock

theorem World.advance_cases {w w' : World H} {i : ℕ} {answers : (q : Ask) → Ans q} {t : Task P}
    (h : w.advance S i answers t t.prog = some w') : Advanced S w i t w' := by
  generalize hp : t.prog = p at h
  cases p with
  | ret a => simp [World.advance] at h
  | raise e => simp [World.advance] at h
  | ask q k =>
      simp only [World.advance, Option.map_eq_some_iff] at h
      obtain ⟨e, he, rfl⟩ := h
      exact .ask q k _ e hp he
  | query k =>
      simp only [World.advance, Option.some.injEq] at h
      exact h ▸ .query k hp
  | exec x k =>
      simp only [World.advance] at h
      split at h
      next f hf =>
        simp only [Option.some.injEq] at h
        exact h ▸ .refused x k f hp hf
      next hf =>
        split at h
        next hfree =>
          simp only [Option.some.injEq] at h
          exact h ▸ .exec x k hp hf fun j t' hj ht => World.free_iff hfree hj ht
        next => simp at h
  | commit k =>
      simp only [World.advance, Option.some.injEq] at h
      exact h ▸ .commit k hp
  | rollback k =>
      simp only [World.advance, Option.some.injEq] at h
      exact h ▸ .rollback k hp

/-- **What a step does**, case by case. -/
inductive Stepped (S : Schema Db Write Fault Key) (w : World H) : Action H → World H → Prop
  | spawn (κ : P.Kind) (hκ : H.spawn w.db w.ext κ = true) :
      Stepped S w (.spawn κ) { w with tasks := w.tasks ++ [⟨κ, [], P.prog κ⟩] }
  | advance (i : ℕ) (answers : (q : Ask) → Ans q) (t : Task P) (w' : World H)
      (ht : w.tasks[i]? = some t) (h : Advanced S w i t w') : Stepped S w (.advance i answers) w'
  | kill (i : ℕ) (t : Task P) (ht : w.tasks[i]? = some t) :
      Stepped S w (.kill i) { w with tasks := w.tasks.set i ⟨t.kind, [], .raise P.crash⟩ }
  | tick (τ : H.Tick) (e : H.Ext) (he : H.tick w.ext w.db w.tasks τ = some e) :
      Stepped S w (.tick τ) { w with ext := e }

theorem World.step_cases {w w' : World H} {a : Action H} (h : w.step S a = some w') :
    Stepped S w a w' := by
  cases a with
  | spawn κ =>
      simp only [World.step] at h
      split at h
      next hκ =>
        simp only [Option.some.injEq] at h
        exact h ▸ .spawn κ hκ
      next => simp at h
  | advance i answers =>
      simp only [World.step, Option.bind_eq_some_iff] at h
      obtain ⟨t, ht, h⟩ := h
      exact .advance i answers t w' ht (World.advance_cases h)
  | kill i =>
      simp only [World.step, Option.map_eq_some_iff] at h
      obtain ⟨t, ht, rfl⟩ := h
      exact .kill i t ht
  | tick τ =>
      simp only [World.step, Option.map_eq_some_iff] at h
      obtain ⟨e, he, rfl⟩ := h
      exact .tick τ e he

omit [DecidableEq Key] in
/-- What a step of a task leaves of the tasks and the log. -/
theorem Advanced.shape {w w' : World H} {i : ℕ} {t : Task P} (h : Advanced S w i t w') :
    ∃ u : Task P, w'.tasks = w.tasks.set i u ∧ u.kind = t.kind ∧
      (w'.log = w.log ∨ w'.log = w.log ++ [⟨i, t.kind, t.writes⟩]) := by
  cases h with
  | commit k hp => exact ⟨_, rfl, rfl, Or.inr rfl⟩
  | _ => exact ⟨_, rfl, rfl, Or.inl rfl⟩

/-- **A transaction that a step has logged** is one that the step has committed. -/
theorem World.committed_of_log {w w' : World H} {a : Action H} (h : w.step S a = some w')
    {e : Entry P} (hlog : w'.log = w.log ++ [e]) :
    ∃ (t : Task P) (k : Prog Db Write Fault Ans Exc (P.Result t.kind)),
      w.tasks[e.task]? = some t ∧ t.prog = .commit k ∧ t.kind = e.kind ∧ t.writes = e.writes ∧
        w'.db = S.view w.db e.writes := by
  have hno : w.log ≠ w.log ++ [e] := fun heq => by
    simpa using congrArg List.length heq
  cases World.step_cases h with
  | spawn κ hκ => exact absurd hlog hno
  | kill i t ht => exact absurd hlog hno
  | tick τ e' he => exact absurd hlog hno
  | advance i answers t w' ht hadv =>
      cases hadv with
      | commit k hp =>
          have he := List.append_cancel_left hlog
          simp only [List.cons.injEq, and_true] at he
          subst he
          exact ⟨t, k, ht, hp, rfl, rfl, rfl⟩
      | ask q k b e' hp he => exact absurd hlog hno
      | query k hp => exact absurd hlog hno
      | refused x k f hp hf => exact absurd hlog hno
      | exec x k hp hf hfree => exact absurd hlog hno
      | rollback k hp => exact absurd hlog hno

/-- What was logged stays in the log. -/
theorem World.logged_of_step {w w' : World H} {a : Action H} (h : w.step S a = some w') :
    w.log ⊆ w'.log := by
  cases World.step_cases h with
  | advance i answers t' w' ht' hadv =>
      cases hadv with
      | commit k hp => exact List.subset_append_left _ _
      | _ => exact fun e he => he
  | _ => exact fun e he => he

/-- Tasks stay, and what they are. -/
theorem World.kinds_of_step {w w' : World H} {a : Action H} (h : w.step S a = some w') :
    w.tasks.map Task.kind <+: w'.tasks.map Task.kind := by
  have hset : ∀ {i : ℕ} {t t' : Task P}, w.tasks[i]? = some t → t'.kind = t.kind →
      w.tasks.map Task.kind <+: (w.tasks.set i t').map Task.kind := by
    intro i t t' ht hkind
    have hsame : (w.tasks.map Task.kind)[i]? = some t'.kind := by
      rw [List.getElem?_map, ht, hkind]
      rfl
    obtain ⟨hlt, heq⟩ := List.getElem?_eq_some_iff.1 hsame
    have hmap : (w.tasks.set i t').map Task.kind = w.tasks.map Task.kind := by
      rw [List.map_set, ← heq, List.set_getElem_self]
    exact ⟨[], (List.append_nil _).trans hmap.symm⟩
  cases World.step_cases h with
  | spawn κ hκ =>
      rw [List.map_append]
      exact List.prefix_append _ _
  | kill i t ht => exact hset ht rfl
  | tick τ e he => exact List.prefix_refl _
  | advance i answers t w' ht hadv => cases hadv <;> exact hset ht rfl

/-- **Only a commit changes the rows and the log.** -/
theorem World.commit_cases {w w' : World H} {a : Action H} (h : w.step S a = some w') :
    (w'.db = w.db ∧ w'.log = w.log) ∨
    ∃ (i : ℕ) (t : Task P) (k : Prog Db Write Fault Ans Exc (P.Result t.kind)),
      w.tasks[i]? = some t ∧ t.prog = .commit k ∧ w'.db = S.view w.db t.writes ∧
        w'.log = w.log ++ [⟨i, t.kind, t.writes⟩] := by
  cases World.step_cases h with
  | advance i answers t w' ht hadv =>
      cases hadv with
      | commit k hp => exact Or.inr ⟨i, t, k, ht, hp, rfl, rfl⟩
      | _ => exact Or.inl ⟨rfl, rfl⟩
  | _ => exact Or.inl ⟨rfl, rfl⟩

theorem World.committed_of_db {w w' : World H} {a : Action H} (h : w.step S a = some w')
    (hne : w'.db ≠ w.db) :
    ∃ (i : ℕ) (t : Task P) (k : Prog Db Write Fault Ans Exc (P.Result t.kind)),
      w.tasks[i]? = some t ∧ t.prog = .commit k ∧ w'.db = S.view w.db t.writes ∧
        w'.log = w.log ++ [⟨i, t.kind, t.writes⟩] :=
  (World.commit_cases h).resolve_left fun hsame => hne hsame.1

/-- **A step that is not about a task** leaves it as it is, and logs nothing of it. -/
theorem World.kept_of_step {w w' : World H} {a : Action H} (h : w.step S a = some w') {j : ℕ}
    {t : Task P} (ht : w.tasks[j]? = some t) (hadvance : ∀ answers, a ≠ .advance j answers)
    (hkill : a ≠ .kill j) :
    w'.tasks[j]? = some t ∧ ∀ e ∈ w'.log, e.task = j → e ∈ w.log := by
  cases World.step_cases h with
  | spawn κ hκ =>
      refine ⟨?_, fun e he _ => he⟩
      have hlt := (List.getElem?_eq_some_iff.1 ht).1
      exact (List.getElem?_append_left hlt).trans ht
  | kill i t' ht' =>
      have hij : i ≠ j := fun heq => hkill (heq ▸ rfl)
      exact ⟨(List.getElem?_set_ne hij).trans ht, fun e he _ => he⟩
  | tick τ e' he => exact ⟨ht, fun e he _ => he⟩
  | advance i answers t' w' ht' hadv =>
      have hij : i ≠ j := fun heq => hadvance answers (heq ▸ rfl)
      have hset : ∀ t'' : Task P, (w.tasks.set i t'')[j]? = some t := fun t'' =>
        (List.getElem?_set_ne hij).trans ht
      cases hadv with
      | commit k hp =>
          refine ⟨hset _, fun e he hej => ?_⟩
          rcases List.mem_append.1 he with he | he
          · exact he
          · rw [List.mem_singleton.1 he] at hej
            exact absurd hej hij
      | ask q k b e hp he => exact ⟨hset _, fun e he _ => he⟩
      | query k hp => exact ⟨hset _, fun e he _ => he⟩
      | refused x k f hp hf => exact ⟨hset _, fun e he _ => he⟩
      | exec x k hp hf hfree => exact ⟨hset _, fun e he _ => he⟩
      | rollback k hp => exact ⟨hset _, fun e he _ => he⟩

/-! ### Schedules -/

/-- A schedule that can be executed is a run. -/
theorem reaches_of_run {ok : World H → Action H → Prop} {w₀ : World H} : ∀ (as : List (Action H)),
    (∀ a ∈ as, ∀ w, ok w a) → ∀ {w w' : World H},
      Reaches S ok w₀ w → w.run S as = some w' → Reaches S ok w₀ w' := by
  intro as
  induction as with
  | nil =>
      intro _ w w' h hr
      simp only [World.run, Option.some.injEq] at hr
      exact hr ▸ h
  | cons a as ih =>
      intro hok w w' h hr
      simp only [World.run, Option.bind_eq_some_iff] at hr
      obtain ⟨v, hv, hr⟩ := hr
      exact ih (fun a ha => hok a (List.mem_cons_of_mem _ ha))
        (h.tail (hok a List.mem_cons_self w) hv) hr

/-- Where a schedule leads; where it cannot be executed, nowhere. -/
def World.follow (S : Schema Db Write Fault Key) (w : World H) (as : List (Action H)) : World H :=
  (w.run S as).getD w

/-- A step that can be taken leads where its schedule does. -/
theorem World.step_eq_follow {w : World H} {a : Action H} (h : (w.step S a).isSome = true) :
    w.step S a = some (w.follow S [a]) := by
  obtain ⟨w', hw⟩ := Option.isSome_iff_exists.1 h
  rw [World.follow, World.run, hw]
  rfl

/-- A schedule of steps that are allowed wherever they are taken. -/
theorem reaches_follow {ok : World H → Action H → Prop} (w : World H) {as : List (Action H)}
    (hok : ∀ a ∈ as, ∀ w, ok w a) : Reaches S ok w (w.follow S as) := by
  cases h : w.run S as with
  | none => rw [World.follow, h]; exact Reaches.refl
  | some w' => rw [World.follow, h]; exact reaches_of_run as hok Reaches.refl h

theorem reachable_follow (w : World H) (as : List (Action H)) :
    Reachable S w (w.follow S as) :=
  reaches_follow w fun _ _ _ => trivial

/-- A schedule that is not about a task leaves it as it is. -/
theorem World.kept_of_follow {w : World H} {as : List (Action H)} {j : ℕ} {t : Task P}
    (ht : w.tasks[j]? = some t)
    (has : ∀ a ∈ as, (∀ answers, a ≠ .advance j answers) ∧ a ≠ .kill j) :
    (w.follow S as).tasks[j]? = some t := by
  have hrun : ∀ (as : List (Action H)) {w w' : World H}, w.tasks[j]? = some t →
      (∀ a ∈ as, (∀ answers, a ≠ .advance j answers) ∧ a ≠ .kill j) → w.run S as = some w' →
      w'.tasks[j]? = some t := by
    intro as
    induction as with
    | nil =>
        intro w w' ht _ hr
        cases hr
        exact ht
    | cons a as ih =>
        intro w w' ht has hr
        simp only [World.run, Option.bind_eq_some_iff] at hr
        obtain ⟨v, hv, hr⟩ := hr
        obtain ⟨hadvance, hkill⟩ := has a List.mem_cons_self
        exact ih (World.kept_of_step hv ht hadvance hkill).1
          (fun a ha => has a (List.mem_cons_of_mem _ ha)) hr
  cases h : w.run S as with
  | none => rw [World.follow, h]; exact ht
  | some w' => rw [World.follow, h]; exact hrun as ht has h

end Programs

end ReadCommitted
