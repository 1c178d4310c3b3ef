/-
**Programs of one transaction.**

A program that returns only what it has committed, and does nothing that can fail after that, is
atomic for whoever waits for it: a result means that its transaction is there, an exception that it
is not.  Only a process that is killed leaves the question open.  The condition is on the text of
the program; here it is carried to worlds, where any number of programs run side by side.  A task
that has ended holds nothing, so what is left of one that has committed nothing is nothing at all:
the others go on as if it had not begun.

Main definitions:

* `ReadCommitted.Prog.Silent` — a program that asks, and returns;
* `ReadCommitted.Prog.CommitsOnce` — **a program of one transaction**;
* `ReadCommitted.World.entriesOf` — the transactions a task has committed;
* `ReadCommitted.World.put` — a world with another task in the place of one.

Main results:

* `ReadCommitted.Prog.Within.commitsOnce`, `ReadCommitted.Prog.CommitsOnce.bind` — how such programs
  are put together;
* `ReadCommitted.entries_of_once` — **a task has committed exactly once when it has returned, and
  nothing when it has failed**;
* `ReadCommitted.Reaches.db_eq` — the rows are those that were committed;
* `ReadCommitted.World.run_put` — **a task that holds nothing is nothing to the others**.
-/

import FinAssist.ReadCommitted

set_option relaxedAutoImplicit false
set_option autoImplicit false

namespace ReadCommitted

variable {Db Write Fault Key Ask : Type} {Ans : Ask → Type} {Exc : Type} {α β : Type}

/-! ### Programs -/

namespace Prog

/-- A piece of a program inside a transaction. -/
abbrev Within (p : Prog Db Write Fault Ans Exc α) : Prop :=
  p.Inside (fun _ => True) (fun _ => True) fun _ => True

/-- A program that only asks before it returns. -/
def Silent : Prog Db Write Fault Ans Exc α → Prop
  | ret _ => True
  | raise _ => False
  | ask _ k => ∀ a, (k a).Silent
  | query _ => False
  | exec _ _ => False
  | commit _ => False
  | rollback _ => False

/-- **A program of one transaction**: it commits before it returns, and is silent after that. -/
def CommitsOnce : Prog Db Write Fault Ans Exc α → Prop
  | ret _ => False
  | raise _ => True
  | ask _ k => ∀ a, (k a).CommitsOnce
  | query k => ∀ d, (k d).CommitsOnce
  | exec _ k => ∀ o, (k o).CommitsOnce
  | commit k => k.Silent
  | rollback k => k.CommitsOnce

theorem Silent.bind {p : Prog Db Write Fault Ans Exc α} {f : α → Prog Db Write Fault Ans Exc β}
    (hp : p.Silent) (hf : ∀ a, (f a).Silent) : (p >>= f).Silent := by
  rw [bind_eq]
  induction p with
  | ret a => exact hf a
  | ask q k ih => exact fun a => ih a (hp a)
  | _ => exact hp.elim

/-- What stays inside its transaction may come first. -/
theorem Within.commitsOnce {p : Prog Db Write Fault Ans Exc α}
    {f : α → Prog Db Write Fault Ans Exc β} (hp : p.Within) (hf : ∀ a, (f a).CommitsOnce) :
    (p >>= f).CommitsOnce := by
  rw [bind_eq]
  induction p with
  | ret a => exact hf a
  | raise e => trivial
  | ask q k ih => exact fun a => ih a (hp.2 a)
  | query k ih => exact fun d => ih d (hp d)
  | exec w k ih => exact fun o => ih o (hp.2 o)
  | commit k => exact hp.elim
  | rollback k => exact hp.elim

/-- What is silent may come last. -/
theorem CommitsOnce.bind {p : Prog Db Write Fault Ans Exc α}
    {f : α → Prog Db Write Fault Ans Exc β} (hp : p.CommitsOnce) (hf : ∀ a, (f a).Silent) :
    (p >>= f).CommitsOnce := by
  rw [bind_eq]
  induction p with
  | ret a => exact hp.elim
  | raise e => trivial
  | ask q k ih => exact fun a => ih a (hp a)
  | query k ih => exact fun d => ih d (hp d)
  | exec w k ih => exact fun o => ih o (hp o)
  | commit k => exact Silent.bind hp hf
  | rollback k ih => exact ih hp

end Prog

/-! ### Worlds -/

variable {P : Programs Db Write Fault Ans Exc} {S : Schema Db Write Fault Key} {H : Host P}

/-- The transactions that a task has committed. -/
def World.entriesOf (w : World H) (i : ℕ) : List (Entry P) := w.log.filter fun e => e.task = i

/-- What is known of a task whose program commits once: what it has committed so far, and what is
left of it. -/
def World.OnceAt (w : World H) (i : ℕ) (t : Task P) : Prop :=
  (w.entriesOf i = [] ∧ t.prog.CommitsOnce) ∨
    ((w.entriesOf i).length = 1 ∧ (t.prog.Silent ∨ t.prog = .raise P.crash))

/-- What is known of a world whose tasks commit once if their program does. -/
structure World.Once (w : World H) : Prop where
  logged : ∀ e ∈ w.log, (w.tasks.map Task.kind)[e.task]? = some e.kind
  tasks : ∀ (i : ℕ) t, w.tasks[i]? = some t → (P.prog t.kind).CommitsOnce → w.OnceAt i t

/-- A step of a task that is not its commit. -/
theorem World.OnceAt.goto {w w' : World H} {i : ℕ} {t : Task P} (h : w.OnceAt i t)
    (hlog : w'.log = w.log) {ws : List Write} {p : Prog Db Write Fault Ans Exc (P.Result t.kind)}
    (hbefore : t.prog.CommitsOnce → p.CommitsOnce)
    (hafter : t.prog.Silent → p.Silent) (hdone : t.prog.done = false) :
    w'.OnceAt i (t.goto ws p) := by
  have hentries : w'.entriesOf i = w.entriesOf i := by rw [entriesOf, hlog, entriesOf]
  rw [OnceAt, hentries]
  rcases h with ⟨hnone, hp⟩ | ⟨hone, hp | hcrash⟩
  · exact Or.inl ⟨hnone, hbefore hp⟩
  · exact Or.inr ⟨hone, Or.inl (hafter hp)⟩
  · rw [hcrash] at hdone
    cases hdone

/-- **A step of a task keeps what is known of it.** -/
theorem World.OnceAt.advance {w w' : World H} {i : ℕ} {t : Task P} (h : w.OnceAt i t)
    (ht : w.tasks[i]? = some t) (hadv : Advanced S w i t w') {u : Task P}
    (hu : w'.tasks[i]? = some u) : w'.OnceAt i u := by
  have hself : ∀ {u' : Task P}, (w.tasks.set i u')[i]? = some u → u' = u := by
    intro u' hu'
    rw [List.getElem?_set_self (List.getElem?_eq_some_iff.1 ht).1] at hu'
    exact Option.some.inj hu'
  cases hadv with
  | ask q k a e hp he =>
      obtain rfl := hself hu
      refine h.goto rfl ?_ ?_ ?_ <;> rw [hp]
      · exact fun hk => hk a
      · exact fun hk => hk a
      · rfl
  | query k hp =>
      obtain rfl := hself hu
      refine h.goto rfl ?_ ?_ ?_ <;> rw [hp]
      · exact fun hk => hk _
      · exact fun hk => hk.elim
      · rfl
  | refused x k f hp hf =>
      obtain rfl := hself hu
      refine h.goto rfl ?_ ?_ ?_ <;> rw [hp]
      · exact fun hk => hk _
      · exact fun hk => hk.elim
      · rfl
  | exec x k hp hf hfree =>
      obtain rfl := hself hu
      refine h.goto rfl ?_ ?_ ?_ <;> rw [hp]
      · exact fun hk => hk _
      · exact fun hk => hk.elim
      · rfl
  | rollback k hp =>
      obtain rfl := hself hu
      refine h.goto rfl ?_ ?_ ?_ <;> rw [hp]
      · exact fun hk => hk
      · exact fun hk => hk.elim
      · rfl
  | commit k hp =>
      obtain rfl := hself hu
      -- what has committed cannot do so again
      rw [OnceAt, hp] at h
      rcases h with ⟨hnone, hk⟩ | ⟨-, hk | hcrash⟩
      · refine Or.inr ⟨?_, Or.inl hk⟩
        rw [entriesOf] at hnone
        simp [entriesOf, List.filter_append, hnone]
      · exact hk.elim
      · cases hcrash

/-- The task of a transaction in the log. -/
theorem World.Once.task_lt {w : World H} (h : w.Once) {e : Entry P} (he : e ∈ w.log) :
    e.task < w.tasks.length := by
  obtain ⟨hlt, -⟩ := List.getElem?_eq_some_iff.1 (h.logged e he)
  rwa [List.length_map] at hlt

variable [DecidableEq Key]

/-- **What is known of the tasks is kept by every step.** -/
theorem World.Once.step {w w' : World H} {a : Action H} (h : w.Once)
    (hs : w.step S a = some w') : w'.Once := by
  have hkinds : ∀ {i : ℕ} {κ : P.Kind}, (w.tasks.map Task.kind)[i]? = some κ →
      (w'.tasks.map Task.kind)[i]? = some κ := by
    intro i κ hκ
    obtain ⟨rest, hrest⟩ := World.kinds_of_step hs
    rw [← hrest, List.getElem?_append_left (List.getElem?_eq_some_iff.1 hκ).1]
    exact hκ
  have hlogged : ∀ e ∈ w'.log, (w'.tasks.map Task.kind)[e.task]? = some e.kind := by
    intro e he
    rcases World.commit_cases hs with ⟨-, hlog⟩ | ⟨i, t, k, ht, -, -, hlog⟩ <;> rw [hlog] at he
    · exact hkinds (h.logged e he)
    · rcases List.mem_append.1 he with he | he
      · exact hkinds (h.logged e he)
      · rw [List.mem_singleton.1 he]
        refine hkinds ?_
        rw [List.getElem?_map, ht]
        rfl
  have hsame : ∀ {w₁ : World H} {i : ℕ} {t : Task P}, w₁.entriesOf i = w.entriesOf i →
      w.tasks[i]? = some t → (P.prog t.kind).CommitsOnce → w₁.OnceAt i t := by
    intro w₁ i t hentries ht hκ
    rw [OnceAt, hentries]
    exact h.tasks i t ht hκ
  cases World.step_cases hs with
  | spawn κ hκ =>
      refine ⟨hlogged, fun i u hu hk => ?_⟩
      rw [List.getElem?_append] at hu
      split at hu
      next => exact hsame rfl hu hk
      next hlt =>
        -- a new task has committed nothing
        obtain rfl : u = ⟨κ, [], P.prog κ⟩ := by simpa using List.mem_of_getElem? hu
        refine Or.inl ⟨List.filter_eq_nil_iff.2 fun e he => ?_, hk⟩
        have := h.task_lt he
        simp only [decide_eq_true_eq]
        omega
  | tick τ e he => exact ⟨hlogged, fun i t ht hk => hsame rfl ht hk⟩
  | kill i t ht =>
      refine ⟨hlogged, fun j u hu hk => ?_⟩
      rcases eq_or_ne i j with rfl | hij
      · rw [List.getElem?_set_self (List.getElem?_eq_some_iff.1 ht).1] at hu
        cases hu
        rcases h.tasks i t ht hk with ⟨hnone, -⟩ | ⟨hone, -⟩
        · exact Or.inl ⟨hnone, trivial⟩
        · exact Or.inr ⟨hone, Or.inr rfl⟩
      · rw [List.getElem?_set_ne hij] at hu
        exact hsame rfl hu hk
  | advance i answers t w' ht hadv =>
      obtain ⟨u', hset, hkind, hlog⟩ := hadv.shape
      have hlt := (List.getElem?_eq_some_iff.1 ht).1
      refine ⟨hlogged, fun j u hu hk => ?_⟩
      rcases eq_or_ne i j with rfl | hij
      · have hu' : u = u' := by
          rw [hset, List.getElem?_set_self hlt] at hu
          exact (Option.some.inj hu).symm
        rw [hu', hkind] at hk
        exact (h.tasks i t ht hk).advance ht hadv hu
      · rw [hset, List.getElem?_set_ne hij] at hu
        refine hsame ?_ hu hk
        rcases hlog with hlog | hlog
        · rw [entriesOf, hlog, entriesOf]
        · simp [entriesOf, hlog, List.filter_append, hij]

/-- **What is known of the tasks is known in every world that is reached.** -/
theorem Reaches.once {ok : World H → Action H → Prop} {w₀ w : World H} (htasks : w₀.tasks = [])
    (hlog : w₀.log = []) (h : Reaches S ok w₀ w) : w.Once := by
  induction h with
  | refl => exact ⟨by simp [hlog], by simp [htasks]⟩
  | tail _ _ hs ih => exact ih.step hs

/-- **A task whose program commits once** has committed exactly once when it has returned, nothing
when it has failed, and never more than once. -/
theorem entries_of_once {ok : World H → Action H → Prop} {w₀ w : World H}
    (htasks : w₀.tasks = []) (hlog : w₀.log = []) (h : Reaches S ok w₀ w) {i : ℕ} {t : Task P}
    (ht : w.tasks[i]? = some t) (honce : (P.prog t.kind).CommitsOnce) :
    (∀ r, t.prog = .ret r → (w.entriesOf i).length = 1) ∧
      (∀ e, t.prog = .raise e → e ≠ P.crash → w.entriesOf i = []) ∧
      (w.entriesOf i).length ≤ 1 := by
  have hat := (h.once htasks hlog).tasks i t ht honce
  refine ⟨fun r hr => ?_, fun e he hne => ?_, ?_⟩
  · rcases hat with ⟨-, hp⟩ | ⟨hone, -⟩
    · rw [hr] at hp
      exact hp.elim
    · exact hone
  · rcases hat with ⟨hnone, -⟩ | ⟨-, hp | hp⟩
    · exact hnone
    · rw [he] at hp
      exact hp.elim
    · rw [he] at hp
      cases hp
      exact absurd rfl hne
  · rcases hat with ⟨hnone, -⟩ | ⟨hone, -⟩
    · simp [hnone]
    · exact Nat.le_of_eq hone

/-! ### What has ended -/

/-- A task that has ended holds nothing. -/
theorem Reaches.ended {ok : World H → Action H → Prop} {w₀ w : World H} (htasks : w₀.tasks = [])
    (h : Reaches S ok w₀ w) : ∀ t ∈ w.tasks, t.prog.done = true → t.writes = [] := by
  induction h with
  | refl => simp [htasks]
  | @tail w w' a _ _ hs ih =>
      have hset : ∀ {i : ℕ} {u : Task P}, (u.prog.done = true → u.writes = []) →
          ∀ t ∈ w.tasks.set i u, t.prog.done = true → t.writes = [] := by
        intro i u hu t ht
        rcases List.mem_or_eq_of_mem_set ht with ht | rfl
        · exact ih t ht
        · exact hu
      cases World.step_cases hs with
      | spawn κ hκ =>
          intro t ht
          rcases List.mem_append.1 ht with ht | ht
          · exact ih t ht
          · obtain rfl := List.mem_singleton.1 ht
            exact fun _ => rfl
      | tick τ e he => exact ih
      | kill i t ht => exact hset fun _ => rfl
      | advance i answers t w' ht hadv => cases hadv <;> exact hset fun hdone => if_pos hdone

/-- **The rows are those that were committed**, one transaction after the other. -/
theorem Reaches.db_eq {ok : World H → Action H → Prop} {w₀ w : World H} (hlog : w₀.log = [])
    (h : Reaches S ok w₀ w) : w.db = S.view w₀.db (w.log.flatMap Entry.writes) := by
  induction h with
  | refl =>
      rw [hlog]
      rfl
  | @tail w w' a _ _ hs ih =>
      rcases World.commit_cases hs with ⟨hdb, hlog⟩ | ⟨i, t, k, -, -, hdb, hlog⟩
      · rw [hdb, hlog, ih]
      · rw [hdb, hlog, List.flatMap_append, S.view_append, ← ih, List.flatMap_singleton]

/-- Whether a choice of the scheduler is about another task, or about none. -/
def Action.Leaves (i : ℕ) : Action H → Prop
  | .spawn _ => True
  | .advance j _ => j ≠ i
  | .kill j => j ≠ i
  | .tick _ => False

/-- Another task in the place of one. -/
def World.put (w : World H) (i : ℕ) (u : Task P) : World H := { w with tasks := w.tasks.set i u }

theorem World.free_eq_true {w : World H} {j : ℕ} {x : Write} : w.free S j x = true ↔
    ∀ (i : ℕ) t, i ≠ j → w.tasks[i]? = some t → ∀ y ∈ t.writes, ∀ k ∈ S.locks y, k ∉ S.locks x := by
  constructor
  · exact fun h i t hij ht => World.free_iff h hij ht
  · intro h
    refine List.all_eq_true.2 fun ⟨t, i⟩ hmem => ?_
    by_cases hij : i = j
    · simp [hij]
    · have hlocks := h i t hij (List.mem_zipIdx_iff_getElem?.1 hmem)
      refine Bool.or_eq_true_iff.2 (Or.inr ?_)
      refine List.all_eq_true.2 fun y hy => List.all_eq_true.2 fun k hk => ?_
      simpa using hlocks y hy k hk

/-- A task that holds nothing keeps no statement waiting. -/
theorem World.free_put {w : World H} {i : ℕ} {t u : Task P} (ht : w.tasks[i]? = some t)
    (hnone : t.writes = []) (hu : u.writes = []) (j : ℕ) (x : Write) :
    (w.put i u).free S j x = w.free S j x := by
  have hempty : ∀ {v : Task P}, v.writes = [] →
      ∀ y ∈ v.writes, ∀ k ∈ S.locks y, k ∉ S.locks x := by
    intro v hv y hy
    rw [hv] at hy
    cases hy
  have hself : (w.put i u).tasks[i]? = some u :=
    List.getElem?_set_self (List.getElem?_eq_some_iff.1 ht).1
  rw [Bool.eq_iff_iff, free_eq_true, free_eq_true]
  refine forall_congr' fun m => ?_
  rcases eq_or_ne i m with rfl | him
  · rw [hself, ht]
    constructor <;> rintro - v - hv <;> cases hv
    · exact hempty hnone
    · exact hempty hu
  · rw [show (w.put i u).tasks[m]? = w.tasks[m]? from List.getElem?_set_ne him]

theorem World.advance_put {w : World H} {i j : ℕ} {t u : Task P} (ht : w.tasks[i]? = some t)
    (hnone : t.writes = []) (hu : u.writes = []) (hij : i ≠ j) (answers : (q : Ask) → Ans q)
    (v : Task P) : ∀ p, (w.put i u).advance S j answers v p =
      (w.advance S j answers v p).map fun w' => w'.put i u := by
  have hcomm : ∀ v' : Task P, (w.tasks.set i u).set j v' = (w.tasks.set j v').set i u :=
    fun v' => List.set_comm _ _ hij
  intro p
  cases p with
  | ret a => rfl
  | raise e => rfl
  | ask q k =>
      simp only [advance, put, Option.map_map, Function.comp_def, hcomm]
  | query k => simp only [advance, put, Option.map_some, hcomm]
  | exec x k =>
      have hfree := World.free_put (S := S) ht hnone hu j x
      simp only [advance]
      rw [hfree]
      simp only [put]
      split
      next => simp only [Option.map_some, hcomm]
      next =>
        split
        next => simp only [Option.map_some, hcomm]
        next => rfl
  | commit k => simp only [advance, put, Option.map_some, hcomm]
  | rollback k => simp only [advance, put, Option.map_some, hcomm]

/-- **A task that holds nothing is nothing to a step of another one**: with what else in its place
that holds nothing, the step is the same. -/
theorem World.step_put {w : World H} {i : ℕ} {t u : Task P} (ht : w.tasks[i]? = some t)
    (hnone : t.writes = []) (hu : u.writes = []) {a : Action H} (ha : a.Leaves i) :
    (w.put i u).step S a = (w.step S a).map fun w' => w'.put i u := by
  have hlt := (List.getElem?_eq_some_iff.1 ht).1
  cases a with
  | tick τ => exact ha.elim
  | spawn κ =>
      simp only [step, put]
      by_cases hκ : H.spawn w.db w.ext κ = true
      · simp only [hκ, if_true, Option.map_some, List.set_append_left _ _ hlt]
      · simp only [hκ, if_false, Option.map_none, Bool.false_eq_true]
  | kill j =>
      have hij : i ≠ j := Ne.symm ha
      simp only [step, put, List.getElem?_set_ne hij]
      cases w.tasks[j]? with
      | none => rfl
      | some v => simp only [Option.map_some, List.set_comm _ _ hij]
  | advance j answers =>
      have hij : i ≠ j := Ne.symm ha
      simp only [step]
      rw [show (w.put i u).tasks[j]? = w.tasks[j]? from List.getElem?_set_ne hij]
      cases w.tasks[j]? with
      | none => rfl
      | some v => exact World.advance_put ht hnone hu hij answers v v.prog

/-- **A task that holds nothing is nothing to the others**: whatever they do, they do with what else
in its place that holds nothing. -/
theorem World.run_put {i : ℕ} {t u : Task P} (hnone : t.writes = []) (hu : u.writes = []) :
    ∀ (as : List (Action H)), (∀ a ∈ as, a.Leaves i) → ∀ {w : World H}, w.tasks[i]? = some t →
      (w.put i u).run S as = (w.run S as).map fun w' => w'.put i u := by
  intro as
  induction as with
  | nil => exact fun _ _ _ => rfl
  | cons a as ih =>
      intro has w ht
      have ha := has a List.mem_cons_self
      rw [run, run, World.step_put ht hnone hu ha]
      cases hs : w.step S a with
      | none => rfl
      | some v =>
          have hkept := (World.kept_of_step hs ht (fun answers heq => ?_) fun heq => ?_).1
          · exact ih (fun a' ha' => has a' (List.mem_cons_of_mem _ ha')) hkept
          · rw [heq] at ha
            exact ha rfl
          · rw [heq] at ha
            exact ha rfl

end ReadCommitted
