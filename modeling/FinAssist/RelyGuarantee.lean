/-
**Invariants of interleaved transactions, from the programs alone.**

`FinAssist/ReadCommitted.lean` runs programs side by side.  To know something of every world they
reach one would look at each statement of each program against every statement of every other.
This module does that once.  A development names an invariant of the committed rows and a relation
`Rely` that every commit respects; for each program it shows, by going through its statements one
after the other, what is known when the program asks, commits, raises or returns, assuming that
between two statements the rows change only as `Rely` allows.  From this the invariant follows for
every interleaving, and what was shown of a program holds of each of its steps.

The locks are what makes it work.  A statement that was granted once stays granted until its
transaction ends: nobody else can occupy the entries it has locked.  So at its commit a
transaction knows that all its statements would go through on the rows as they are *then*
(`ReadCommitted.Schema.Granted`), however old its reads are.

Main definitions:

* `ReadCommitted.Schema.Granted` — a list of statements goes through, one after the other;
* `ReadCommitted.Discipline` — the invariant and the relation;
* `ReadCommitted.Contract` — what a program promises where it asks, commits and raises;
* `ReadCommitted.Discipline.wp` — the weakest precondition of a program under interference;
* `ReadCommitted.Outline` — every program of a development meets its contract.

Main results:

* `ReadCommitted.Discipline.granted_stable` — granted statements stay granted;
* `ReadCommitted.Discipline.wp_bind`, `wp_mono`, `wp_tryCatch` — the rules for programs;
* `ReadCommitted.Outline.sound` — **every reachable world is sound**: the invariant holds, locks
  exclude each other, and each task is where its program's contract says.
-/

import FinAssist.ReadCommitted
import Mathlib.Data.List.Induction

set_option relaxedAutoImplicit false
set_option autoImplicit false

namespace ReadCommitted

variable {Db Write Fault Key Ask : Type} {Ans : Ask → Type} {Exc : Type}

/-! ### Granted statements -/

/-- The statements go through one after the other on the rows `d`. -/
def Schema.Granted (S : Schema Db Write Fault Key) : Db → List Write → Prop
  | _, [] => True
  | d, w :: ws => S.fault d w = none ∧ S.Granted (S.apply d w) ws

@[simp] theorem Schema.granted_nil (S : Schema Db Write Fault Key) (d : Db) : S.Granted d [] :=
  trivial

theorem Schema.granted_append (S : Schema Db Write Fault Key) :
    ∀ (ws vs : List Write) (d : Db),
      S.Granted d (ws ++ vs) ↔ S.Granted d ws ∧ S.Granted (S.view d ws) vs := by
  intro ws
  induction ws with
  | nil => intro vs d; simp [Schema.Granted]
  | cons w ws ih =>
      intro vs d
      simp only [List.cons_append, Schema.Granted, Schema.view_cons, ih, and_assoc]

theorem Schema.granted_snoc (S : Schema Db Write Fault Key) (ws : List Write) (w : Write)
    (d : Db) : S.Granted d (ws ++ [w]) ↔ S.Granted d ws ∧ S.fault (S.view d ws) w = none := by
  simp [S.granted_append, Schema.Granted]

/-! ### Disciplines -/

/-- **An invariant of the committed rows, and what a commit may do to them.**  `fault_stable` says
that the constraints look at nothing but the entries a statement locks and rows that stay. -/
structure Discipline (S : Schema Db Write Fault Key) where
  Inv : Db → Prop
  Rely : Db → Db → Prop
  rely_refl : ∀ d, Rely d d
  rely_trans : ∀ d d' d'', Rely d d' → Rely d' d'' → Rely d d''
  fault_stable : ∀ d d' ws w, Rely d d' →
    (∀ k ∈ S.locks w, S.Occupied k d' ↔ S.Occupied k d) →
    S.fault (S.view d ws) w = none → S.fault (S.view d' ws) w = none

namespace Discipline

variable {S : Schema Db Write Fault Key} (D : Discipline S)

/-- Granted statements stay granted while nobody else touches the entries they lock. -/
theorem granted_stable {d d' : Db} (hr : D.Rely d d') {ws : List Write} :
    (∀ w ∈ ws, ∀ k ∈ S.locks w, S.Occupied k d' ↔ S.Occupied k d) → S.Granted d ws →
      S.Granted d' ws := by
  induction ws using List.reverseRecOn with
  | nil => intro _ _; trivial
  | append_singleton ws w ih =>
      intro hk hg
      obtain ⟨hws, hw⟩ := (S.granted_snoc ws w d).1 hg
      refine (S.granted_snoc ws w d').2 ⟨ih (fun v hv => hk v (by simp [hv])) hws, ?_⟩
      exact D.fault_stable d d' ws w hr (hk w (by simp)) hw

/-- What may have happened to the committed rows between two statements of a transaction that has
written `ws`. -/
structure Interf (ws : List Write) (d d' : Db) : Prop where
  inv : D.Inv d'
  rely : D.Rely d d'
  granted : S.Granted d' ws

variable {D}

/-- Granted statements, on rows that satisfy the invariant, with nothing in between. -/
theorem Interf.now {ws : List Write} {d d' : Db} (h : D.Interf ws d d') : D.Interf ws d' d' :=
  ⟨h.inv, D.rely_refl d', h.granted⟩

theorem Interf.trans {ws : List Write} {d d' d'' : Db} (h : D.Rely d d')
    (h' : D.Interf ws d' d'') : D.Interf ws d d'' :=
  ⟨h'.inv, D.rely_trans _ _ _ h h'.rely, h'.granted⟩

end Discipline

/-! ### Contracts and the weakest precondition -/

/-- What is known of a program where it asks a question, commits, and raises. -/
structure Contract (Db Write Ask Exc : Type) where
  asks : Ask → Db → Prop
  commits : Db → List Write → Prop
  raises : Exc → Db → Prop

namespace Discipline

variable {S : Schema Db Write Fault Key} (D : Discipline S)
variable {α β : Type}

/-- **The weakest precondition of a program under interference.**  Before each statement the rows
may have changed, but only as the discipline allows; at the statement itself they are the ones
the rest of the program is judged by. -/
def wp (C : Contract Db Write Ask Exc) :
    Prog Db Write Fault Ans Exc α → (α → List Write → Db → Prop) → List Write → Db → Prop
  | .ret a, Q, ws, d => Q a ws d
  | .raise e, _, _, d => C.raises e d
  | .ask q k, Q, ws, d => ∀ d', D.Interf ws d d' → C.asks q d' ∧ ∀ a, wp C (k a) Q ws d'
  | .query k, Q, ws, d => ∀ d', D.Interf ws d d' → wp C (k (S.view d' ws)) Q ws d'
  | .exec w k, Q, ws, d => ∀ d', D.Interf ws d d' →
      (S.fault (S.view d' ws) w = none → wp C (k none) Q (ws ++ [w]) d') ∧
      (∀ f, S.fault (S.view d' ws) w = some f → wp C (k (some f)) Q ws d')
  | .commit k, Q, ws, d => ∀ d', D.Interf ws d d' →
      C.commits d' ws ∧ wp C k Q [] (S.view d' ws)
  | .rollback k, Q, ws, d => ∀ d', D.Interf ws d d' → wp C k Q [] d'

variable {C : Contract Db Write Ask Exc}

theorem wp_mono {p : Prog Db Write Fault Ans Exc α} {Q Q' : α → List Write → Db → Prop}
    (h : ∀ a ws d, Q a ws d → Q' a ws d) :
    ∀ {ws d}, D.wp C p Q ws d → D.wp C p Q' ws d := by
  induction p with
  | ret a => intro ws d hp; exact h a ws d hp
  | raise e => intro ws d hp; exact hp
  | ask q k ih => intro ws d hp d' hi; exact ⟨(hp d' hi).1, fun a => ih a ((hp d' hi).2 a)⟩
  | query k ih => intro ws d hp d' hi; exact ih _ (hp d' hi)
  | exec w k ih =>
      intro ws d hp d' hi
      exact ⟨fun hf => ih _ ((hp d' hi).1 hf), fun f hf => ih _ ((hp d' hi).2 f hf)⟩
  | commit k ih => intro ws d hp d' hi; exact ⟨(hp d' hi).1, ih (hp d' hi).2⟩
  | rollback k ih => intro ws d hp d' hi; exact ih (hp d' hi)

/-- A contract may be weakened. -/
theorem wp_weaken {C' : Contract Db Write Ask Exc} {p : Prog Db Write Fault Ans Exc α}
    (hasks : ∀ q d, C.asks q d → C'.asks q d) (hcommits : ∀ d ws, C.commits d ws → C'.commits d ws)
    (hraises : ∀ e d, C.raises e d → C'.raises e d) {Q : α → List Write → Db → Prop} :
    ∀ {ws d}, D.wp C p Q ws d → D.wp C' p Q ws d := by
  induction p with
  | ret a => intro ws d hp; exact hp
  | raise e => intro ws d hp; exact hraises e d hp
  | ask q k ih =>
      intro ws d hp d' hi
      exact ⟨hasks q d' (hp d' hi).1, fun a => ih a ((hp d' hi).2 a)⟩
  | query k ih => intro ws d hp d' hi; exact ih _ (hp d' hi)
  | exec w k ih =>
      intro ws d hp d' hi
      exact ⟨fun hf => ih _ ((hp d' hi).1 hf), fun f hf => ih _ ((hp d' hi).2 f hf)⟩
  | commit k ih =>
      intro ws d hp d' hi
      exact ⟨hcommits d' ws (hp d' hi).1, ih (hp d' hi).2⟩
  | rollback k ih => intro ws d hp d' hi; exact ih (hp d' hi)

theorem wp_pure {a : α} {Q : α → List Write → Db → Prop} {ws : List Write} {d : Db} :
    D.wp C (pure a : Prog Db Write Fault Ans Exc α) Q ws d ↔ Q a ws d :=
  Iff.rfl

/-- Two postconditions at once. -/
theorem wp_and {p : Prog Db Write Fault Ans Exc α} {Q Q' : α → List Write → Db → Prop} :
    ∀ {ws : List Write} {d : Db}, D.wp C p Q ws d → D.wp C p Q' ws d →
      D.wp C p (fun a ws d => Q a ws d ∧ Q' a ws d) ws d := by
  induction p with
  | ret a => exact fun h h' => ⟨h, h'⟩
  | raise e => exact fun h _ => h
  | ask q k ih =>
      exact fun h h' d' hi => ⟨(h d' hi).1, fun a => ih a ((h d' hi).2 a) ((h' d' hi).2 a)⟩
  | query k ih => exact fun h h' d' hi => ih _ (h d' hi) (h' d' hi)
  | exec x k ih =>
      exact fun h h' d' hi => ⟨fun hf => ih _ ((h d' hi).1 hf) ((h' d' hi).1 hf),
        fun f hf => ih _ ((h d' hi).2 f hf) ((h' d' hi).2 f hf)⟩
  | commit k ih => exact fun h h' d' hi => ⟨(h d' hi).1, ih (h d' hi).2 (h' d' hi).2⟩
  | rollback k ih => exact fun h h' d' hi => ih (h d' hi) (h' d' hi)

/-- Programs are judged piece by piece. -/
theorem wp_bind (p : Prog Db Write Fault Ans Exc α) (f : α → Prog Db Write Fault Ans Exc β)
    (Q : β → List Write → Db → Prop) :
    ∀ ws d, D.wp C (p.bind f) Q ws d ↔ D.wp C p (fun a ws d => D.wp C (f a) Q ws d) ws d := by
  induction p with
  | ret a => intro ws d; exact Iff.rfl
  | raise e => intro ws d; exact Iff.rfl
  | ask q k ih => intro ws d; simp only [Prog.bind, wp, ih]
  | query k ih => intro ws d; simp only [Prog.bind, wp, ih]
  | exec w k ih => intro ws d; simp only [Prog.bind, wp, ih]
  | commit k ih => intro ws d; simp only [Prog.bind, wp, ih]
  | rollback k ih => intro ws d; simp only [Prog.bind, wp, ih]

/-- The same, for programs written in sequence. -/
theorem wp_seq {p : Prog Db Write Fault Ans Exc α} {f : α → Prog Db Write Fault Ans Exc β}
    {Q : β → List Write → Db → Prop} {ws : List Write} {d : Db}
    (h : D.wp C p (fun a ws d => D.wp C (f a) Q ws d) ws d) : D.wp C (p >>= f) Q ws d :=
  (D.wp_bind p f Q ws d).2 h

/-- Whatever a program does, the rows change only as the discipline allows, when its own commits
respect it. -/
theorem wp_rely {p : Prog Db Write Fault Ans Exc α}
    (hcommits : ∀ d ws, D.Inv d → S.Granted d ws → C.commits d ws → D.Rely d (S.view d ws))
    {Q : α → List Write → Db → Prop} :
    ∀ {ws d}, D.wp C p Q ws d →
      D.wp { C with raises := fun e d' => C.raises e d' ∧ D.Rely d d' } p
        (fun a ws' d' => Q a ws' d' ∧ D.Rely d d') ws d := by
  have hlater : ∀ {d d' : Db} {p : Prog Db Write Fault Ans Exc α} {ws : List Write}
      {Q : α → List Write → Db → Prop}, D.Rely d d' →
      D.wp { C with raises := fun e d'' => C.raises e d'' ∧ D.Rely d' d'' } p
        (fun a ws' d'' => Q a ws' d'' ∧ D.Rely d' d'') ws d' →
      D.wp { C with raises := fun e d'' => C.raises e d'' ∧ D.Rely d d'' } p
        (fun a ws' d'' => Q a ws' d'' ∧ D.Rely d d'') ws d' := by
    intro d d' p ws Q hr h
    have hpost := D.wp_mono (fun a ws' d'' hQ =>
      (⟨hQ.1, D.rely_trans _ _ _ hr hQ.2⟩ : Q a ws' d'' ∧ D.Rely d d'')) h
    refine D.wp_weaken ?_ ?_ ?_ hpost
    · exact fun _ _ h => h
    · exact fun _ _ h => h
    · exact fun e d'' h => ⟨h.1, D.rely_trans _ _ _ hr h.2⟩
  induction p with
  | ret a => intro ws d hp; exact ⟨hp, D.rely_refl d⟩
  | raise e => intro ws d hp; exact ⟨hp, D.rely_refl d⟩
  | ask q k ih =>
      intro ws d hp d' hi
      exact ⟨(hp d' hi).1, fun a => hlater hi.rely (ih a ((hp d' hi).2 a))⟩
  | query k ih => intro ws d hp d' hi; exact hlater hi.rely (ih _ (hp d' hi))
  | exec w k ih =>
      intro ws d hp d' hi
      exact ⟨fun hf => hlater hi.rely (ih _ ((hp d' hi).1 hf)),
        fun f hf => hlater hi.rely (ih _ ((hp d' hi).2 f hf))⟩
  | commit k ih =>
      intro ws d hp d' hi
      obtain ⟨hc, hk⟩ := hp d' hi
      exact ⟨hc, hlater (D.rely_trans _ _ _ hi.rely (hcommits d' ws hi.inv hi.granted hc)) (ih hk)⟩
  | rollback k ih => intro ws d hp d' hi; exact hlater hi.rely (ih (hp d' hi))

/-- **A program that stays inside its transaction** writes only what it may, and its transaction
stays granted. -/
theorem wp_inside {asks : Ask → Prop} {raises : Exc → Prop} {writes : Write → Prop}
    {p : Prog Db Write Fault Ans Exc α} (hp : p.Inside asks raises writes)
    (hasks : ∀ q d, asks q → C.asks q d) {Q : α → List Write → Db → Prop} :
    ∀ {ws : List Write} {d : Db}, D.Interf ws d d →
      (∀ e d' vs, raises e → S.Granted d' (ws ++ vs) → C.raises e d') →
      (∀ a vs d', (∀ w ∈ vs, writes w) → D.Interf (ws ++ vs) d d' → Q a (ws ++ vs) d') →
      D.wp C p Q ws d := by
  induction p with
  | ret a =>
      intro ws d hi _ hQ
      have hend := hQ a [] d (by simp) (by simpa using hi)
      rw [List.append_nil] at hend
      exact hend
  | raise e =>
      intro ws d hi hraises _
      exact hraises e d [] hp (by simpa using hi.granted)
  | ask q k ih =>
      intro ws d hi hraises hQ d' hi'
      refine ⟨hasks q d' hp.1, fun a => ih a (hp.2 a) hi'.now hraises ?_⟩
      intro b vs d'' hvs hi''
      exact hQ b vs d'' hvs (hi''.trans hi'.rely)
  | query k ih =>
      intro ws d hi hraises hQ d' hi'
      refine ih _ (hp _) hi'.now hraises ?_
      intro b vs d'' hvs hi''
      exact hQ b vs d'' hvs (hi''.trans hi'.rely)
  | exec w k ih =>
      intro ws d hi hraises hQ d' hi'
      constructor
      · intro hf
        have hnow : D.Interf (ws ++ [w]) d' d' :=
          ⟨hi'.inv, D.rely_refl d', (S.granted_snoc ws w d').2 ⟨hi'.granted, hf⟩⟩
        refine ih none (hp.2 none) hnow ?_ ?_
        · intro e d'' vs he hg
          rw [List.append_assoc] at hg
          exact hraises e d'' ([w] ++ vs) he hg
        · intro b vs d'' hvs hi''
          rw [List.append_assoc] at hi'' ⊢
          refine hQ b ([w] ++ vs) d'' ?_ (hi''.trans hi'.rely)
          intro v hv
          rcases List.mem_append.1 hv with hv | hv
          · exact List.mem_singleton.1 hv ▸ hp.1
          · exact hvs v hv
      · intro f hf
        refine ih (some f) (hp.2 (some f)) hi'.now hraises ?_
        intro b vs d'' hvs hi''
        exact hQ b vs d'' hvs (hi''.trans hi'.rely)
  | commit k => exact hp.elim
  | rollback k => exact hp.elim

/-- A program whose exceptions are caught: what was known where it raised one is what the handler
may start from. -/
theorem wp_tryCatch (p : Prog Db Write Fault Ans Exc α)
    (h : Exc → Option (Prog Db Write Fault Ans Exc α)) {R : Exc → Db → Prop}
    {Q : α → List Write → Db → Prop}
    (hsome : ∀ e p' ws d, R e d → h e = some p' → D.wp C (.rollback p') Q ws d)
    (hnone : ∀ e d, R e d → h e = none → C.raises e d) :
    ∀ ws d, D.wp { C with raises := R } p Q ws d → D.wp C (p.tryCatch h) Q ws d := by
  induction p with
  | ret a => intro ws d hp; exact hp
  | raise e =>
      intro ws d hp
      simp only [Prog.tryCatch]
      split
      next p' hp' => exact hsome e p' ws d hp hp'
      next hp' => exact hnone e d hp hp'
  | ask q k ih => intro ws d hp d' hi; exact ⟨(hp d' hi).1, fun a => ih a _ _ ((hp d' hi).2 a)⟩
  | query k ih => intro ws d hp d' hi; exact ih _ _ _ (hp d' hi)
  | exec w k ih =>
      intro ws d hp d' hi
      exact ⟨fun hf => ih _ _ _ ((hp d' hi).1 hf), fun f hf => ih _ _ _ ((hp d' hi).2 f hf)⟩
  | commit k ih => intro ws d hp d' hi; exact ⟨(hp d' hi).1, ih _ _ (hp d' hi).2⟩
  | rollback k ih => intro ws d hp d' hi; exact ih _ _ (hp d' hi)

/-- What is known of a program on its way stays known while others commit. -/
theorem wp_interf {p : Prog Db Write Fault Ans Exc α} (hp : p.done = false)
    {Q : α → List Write → Db → Prop} {ws : List Write} {d d' : Db} (hr : D.Rely d d')
    (h : D.wp C p Q ws d) : D.wp C p Q ws d' := by
  cases p with
  | ret a => simp [Prog.done] at hp
  | raise e => simp [Prog.done] at hp
  | ask q k => exact fun d'' hi => h d'' (hi.trans hr)
  | query k => exact fun d'' hi => h d'' (hi.trans hr)
  | exec w k => exact fun d'' hi => h d'' (hi.trans hr)
  | commit k => exact fun d'' hi => h d'' (hi.trans hr)
  | rollback k => exact fun d'' hi => h d'' (hi.trans hr)

end Discipline

/-! ### Outlines, and their soundness -/

variable {P : Programs Db Write Fault Ans Exc} {S : Schema Db Write Fault Key}

/-- **A proof outline** for all the programs: each meets its contract when it starts from rows that
satisfy the invariant, and what a commit is known to do keeps the invariant and respects the
relation.  A contract may speak of the rows the program started from. -/
structure Outline (P : Programs Db Write Fault Ans Exc) (D : Discipline S) where
  contract : P.Kind → Db → Contract Db Write Ask Exc
  returns : (κ : P.Kind) → Db → P.Result κ → Db → Prop
  verified : ∀ κ d, D.Inv d →
    D.wp (contract κ d) (P.prog κ) (fun a _ d' => returns κ d a d') [] d
  commit_ok : ∀ κ d₀ d ws, D.Inv d → S.Granted d ws → (contract κ d₀).commits d ws →
    D.Inv (S.view d ws) ∧ D.Rely d (S.view d ws)

namespace Outline

variable {D : Discipline S} (O : Outline P D) {H : Host P}

/-- What is left of a task's program meets its contract; `pre` holds of the rows it started
from. -/
def Live (pre : P.Kind → Db → Prop) (t : Task P) (ws : List Write)
    (p : Prog Db Write Fault Ans Exc (P.Result t.kind)) (d : Db) : Prop :=
  ∃ d₀, pre t.kind d₀ ∧ D.Inv d₀ ∧
    D.wp (O.contract t.kind d₀) p (fun a _ d' => O.returns t.kind d₀ a d') ws d

/-- **A sound world**: the invariant holds, the statements of the open transactions are granted and
lock no entry in common, and each task on its way meets what is left of its contract. -/
structure Sound (pre : P.Kind → Db → Prop) (w : World H) : Prop where
  inv : D.Inv w.db
  granted : ∀ (i : ℕ) (t : Task P), w.tasks[i]? = some t → S.Granted w.db t.writes
  apart : ∀ (i j : ℕ) (t t' : Task P), i ≠ j → w.tasks[i]? = some t → w.tasks[j]? = some t' →
    ∀ x ∈ t.writes, ∀ y ∈ t'.writes, ∀ k ∈ S.locks x, k ∉ S.locks y
  live : ∀ (i : ℕ) (t : Task P), w.tasks[i]? = some t → t.prog.done = false →
    O.Live pre t t.writes t.prog w.db

variable {O} {pre : P.Kind → Db → Prop}

theorem Sound.interf {w : World H} (hs : O.Sound pre w) {i : ℕ} {t : Task P}
    (ht : w.tasks[i]? = some t) : D.Interf t.writes w.db w.db :=
  ⟨hs.inv, D.rely_refl _, hs.granted i t ht⟩

/-- What is known of a task that is about to ask. -/
theorem Sound.asks {w : World H} (hs : O.Sound pre w) {i : ℕ} {t : Task P}
    (ht : w.tasks[i]? = some t) {q : Ask} {k : Ans q → Prog Db Write Fault Ans Exc (P.Result t.kind)}
    (hp : t.prog = .ask q k) :
    ∃ d₀, pre t.kind d₀ ∧ D.Inv d₀ ∧ (O.contract t.kind d₀).asks q w.db := by
  obtain ⟨d₀, hpre, h₀, hl⟩ := hs.live i t ht (by rw [hp]; rfl)
  rw [hp] at hl
  exact ⟨d₀, hpre, h₀, (hl w.db (hs.interf ht)).1⟩

/-- What is known of a task that is about to commit. -/
theorem Sound.commits {w : World H} (hs : O.Sound pre w) {i : ℕ} {t : Task P}
    (ht : w.tasks[i]? = some t) {k : Prog Db Write Fault Ans Exc (P.Result t.kind)}
    (hp : t.prog = .commit k) :
    ∃ d₀, pre t.kind d₀ ∧ D.Inv d₀ ∧ (O.contract t.kind d₀).commits w.db t.writes := by
  obtain ⟨d₀, hpre, h₀, hl⟩ := hs.live i t ht (by rw [hp]; rfl)
  rw [hp] at hl
  exact ⟨d₀, hpre, h₀, (hl w.db (hs.interf ht)).1⟩

/-- **The contract moves along with the program**: right after a step of a task, what is left of
it meets what is left of its contract, on the rows as they are now. -/
theorem Live.next {w w' : World H} {i : ℕ} {t : Task P} (hi : D.Interf t.writes w.db w.db)
    (hl : t.prog.done = false → O.Live pre t t.writes t.prog w.db) (h : Advanced S w i t w') :
    ∃ ws p, w'.tasks = w.tasks.set i (t.goto ws p) ∧ O.Live pre t ws p w'.db := by
  cases h with
  | ask q k a e hp he =>
      rw [hp] at hl
      obtain ⟨d₀, hpre, h₀, hl⟩ := hl rfl
      exact ⟨_, _, rfl, d₀, hpre, h₀, (hl w.db hi).2 a⟩
  | query k hp =>
      rw [hp] at hl
      obtain ⟨d₀, hpre, h₀, hl⟩ := hl rfl
      exact ⟨_, _, rfl, d₀, hpre, h₀, hl w.db hi⟩
  | refused x k f hp hf =>
      rw [hp] at hl
      obtain ⟨d₀, hpre, h₀, hl⟩ := hl rfl
      exact ⟨_, _, rfl, d₀, hpre, h₀, (hl w.db hi).2 f hf⟩
  | exec x k hp hf hfree =>
      rw [hp] at hl
      obtain ⟨d₀, hpre, h₀, hl⟩ := hl rfl
      exact ⟨_, _, rfl, d₀, hpre, h₀, (hl w.db hi).1 hf⟩
  | commit k hp =>
      rw [hp] at hl
      obtain ⟨d₀, hpre, h₀, hl⟩ := hl rfl
      exact ⟨_, _, rfl, d₀, hpre, h₀, (hl w.db hi).2⟩
  | rollback k hp =>
      rw [hp] at hl
      obtain ⟨d₀, hpre, h₀, hl⟩ := hl rfl
      exact ⟨_, _, rfl, d₀, hpre, h₀, hl w.db hi⟩

theorem Sound.next {w w' : World H} (hs : O.Sound pre w) {i : ℕ} {t : Task P}
    (ht : w.tasks[i]? = some t) (h : Advanced S w i t w') :
    ∃ ws p, w'.tasks = w.tasks.set i (t.goto ws p) ∧ O.Live pre t ws p w'.db :=
  Live.next (hs.interf ht) (hs.live i t ht) h

/-- A program that has ended meets its contract whatever it has written. -/
theorem Live.goto {t : Task P} {ws : List Write}
    {p : Prog Db Write Fault Ans Exc (P.Result t.kind)} {d : Db} (h : O.Live pre t ws p d) :
    O.Live pre (t.goto ws p) (t.goto ws p).writes (t.goto ws p).prog d := by
  obtain ⟨d₀, hpre, h₀, hl⟩ := h
  refine ⟨d₀, hpre, h₀, ?_⟩
  cases p <;> exact hl

end Outline

theorem getElem?_set_cases {α : Type} {l : List α} {i j : ℕ} {a b : α}
    (h : (l.set i a)[j]? = some b) : (j = i ∧ b = a) ∨ (j ≠ i ∧ l[j]? = some b) := by
  rcases eq_or_ne i j with rfl | hij
  · rw [List.getElem?_set_self'] at h
    cases hl : l[i]? with
    | none => simp [hl] at h
    | some c => simp [hl] at h; exact Or.inl ⟨rfl, h.symm⟩
  · rw [List.getElem?_set_ne hij] at h
    exact Or.inr ⟨hij.symm, h⟩

theorem Task.goto_of_not_done {t : Task P} {ws : List Write}
    {p : Prog Db Write Fault Ans Exc (P.Result t.kind)} (h : p.done = false) :
    t.goto ws p = ⟨t.kind, ws, p⟩ := by
  rw [Task.goto, if_neg (by simp [h])]

theorem Task.goto_writes_subset {t : Task P} {ws : List Write}
    {p : Prog Db Write Fault Ans Exc (P.Result t.kind)} {x : Write}
    (h : x ∈ (t.goto ws p).writes) : x ∈ ws := by
  simp only [Task.goto] at h
  split at h
  next => simp at h
  next => exact h

namespace Outline

variable {D : Discipline S} {O : Outline P D} {H : Host P} {pre : P.Kind → Db → Prop}

/-- A sound world stays sound when one task moves on, if the others' entries are left alone. -/
theorem Sound.set {w : World H} (hs : O.Sound pre w) {i : ℕ} {db : Db} {log : List (Entry P)}
    {ext : H.Ext} {t : Task P} {ws : List Write}
    {p : Prog Db Write Fault Ans Exc (P.Result t.kind)}
    (hinv : D.Inv db) (hrely : D.Rely w.db db)
    (hkeep : ∀ j u, j ≠ i → w.tasks[j]? = some u → ∀ y ∈ u.writes, ∀ k ∈ S.locks y,
      (S.Occupied k db ↔ S.Occupied k w.db))
    (hgranted : S.Granted db ws)
    (hapart : ∀ j u, j ≠ i → w.tasks[j]? = some u → ∀ x ∈ ws, ∀ y ∈ u.writes,
      ∀ k ∈ S.locks x, k ∉ S.locks y)
    (hlive : p.done = false → O.Live pre t ws p db) :
    O.Sound pre (⟨db, log, ext, w.tasks.set i (t.goto ws p)⟩ : World H) := by
  refine ⟨hinv, ?_, ?_, ?_⟩
  · intro j u hu
    rcases getElem?_set_cases hu with ⟨-, rfl⟩ | ⟨hj, hu⟩
    · simp only [Task.goto]
      split
      next => exact S.granted_nil db
      next => exact hgranted
    · exact D.granted_stable hrely (hkeep j u hj hu) (hs.granted j u hu)
  · intro j j' u u' hne hu hu' x hx y hy k hk hk'
    rcases getElem?_set_cases hu with ⟨rfl, rfl⟩ | ⟨hj, hold⟩
    · rcases getElem?_set_cases hu' with ⟨rfl, -⟩ | ⟨hj', hold'⟩
      · exact hne rfl
      · exact hapart j' u' hj' hold' x (Task.goto_writes_subset hx) y hy k hk hk'
    · rcases getElem?_set_cases hu' with ⟨rfl, rfl⟩ | ⟨hj', hold'⟩
      · exact hapart j u hj hold y (Task.goto_writes_subset hy) x hx k hk' hk
      · exact hs.apart j j' u u' hne hold hold' x hx y hy k hk hk'
  · intro j u hu hdone
    rcases getElem?_set_cases hu with ⟨-, rfl⟩ | ⟨hj, hu⟩
    · rw [Task.goto_prog] at hdone
      rw [Task.goto_of_not_done hdone]
      exact hlive hdone
    · obtain ⟨d₀, hpre, h₀, hl⟩ := hs.live j u hu hdone
      exact ⟨d₀, hpre, h₀, D.wp_interf hdone hrely hl⟩

/-- A world without tasks is sound. -/
theorem Sound.start {w : World H} (h : D.Inv w.db) (htasks : w.tasks = []) : O.Sound pre w :=
  ⟨h, by simp [htasks], by simp [htasks], by simp [htasks]⟩

variable [DecidableEq Key]

/-- **Soundness is kept by every step**, when every program that starts meets `pre`. -/
theorem Sound.step {w w' : World H} {a : Action H} (hs : O.Sound pre w)
    (hpre : ∀ κ, H.spawn w.db w.ext κ = true → pre κ w.db) (h : w.step S a = some w') :
    O.Sound pre w' := by
  cases World.step_cases h with
  | spawn κ hκ =>
      have hnew : ∀ {j : ℕ} {u : Task P}, (w.tasks ++ [⟨κ, [], P.prog κ⟩])[j]? = some u →
          w.tasks[j]? = some u ∨ u = ⟨κ, [], P.prog κ⟩ := by
        intro j u hu
        rw [List.getElem?_append] at hu
        split at hu
        next => exact Or.inl hu
        next => exact Or.inr (by simpa using List.mem_of_getElem? hu)
      refine ⟨hs.inv, ?_, ?_, ?_⟩
      · intro j u hu
        rcases hnew hu with hu | rfl
        · exact hs.granted j u hu
        · exact S.granted_nil _
      · intro i j t t' hne ht ht' x hx y hy
        rcases hnew ht with ht | rfl
        · rcases hnew ht' with ht' | rfl
          · exact hs.apart i j t t' hne ht ht' x hx y hy
          · simp at hy
        · simp at hx
      · intro j u hu hdone
        rcases hnew hu with hu | rfl
        · exact hs.live j u hu hdone
        · exact ⟨w.db, hpre κ hκ, hs.inv, O.verified κ w.db hs.inv⟩
  | advance i answers t w' ht h =>
      have hsame : ∀ j u, j ≠ i → w.tasks[j]? = some u → ∀ x ∈ t.writes, ∀ y ∈ u.writes,
          ∀ k ∈ S.locks x, k ∉ S.locks y := fun j u hj hu => hs.apart i j t u hj.symm ht hu
      have hkeep : ∀ j u, j ≠ i → w.tasks[j]? = some u → ∀ y ∈ u.writes, ∀ k ∈ S.locks y,
          (S.Occupied k w.db ↔ S.Occupied k w.db) := fun _ _ _ _ _ _ _ _ => Iff.rfl
      have hi := hs.interf ht
      have hlive : t.prog.done = false → O.Live pre t t.writes t.prog w.db := hs.live i t ht
      cases h with
      | ask q k a e hp he =>
          rw [hp] at hlive
          obtain ⟨d₀, hpre₀, h₀, hl⟩ := hlive rfl
          exact hs.set hs.inv (D.rely_refl _) hkeep hi.granted hsame
            fun _ => ⟨d₀, hpre₀, h₀, (hl w.db hi).2 a⟩
      | query k hp =>
          rw [hp] at hlive
          obtain ⟨d₀, hpre₀, h₀, hl⟩ := hlive rfl
          exact hs.set hs.inv (D.rely_refl _) hkeep hi.granted hsame
            fun _ => ⟨d₀, hpre₀, h₀, hl w.db hi⟩
      | refused x k f hp hf =>
          rw [hp] at hlive
          obtain ⟨d₀, hpre₀, h₀, hl⟩ := hlive rfl
          exact hs.set hs.inv (D.rely_refl _) hkeep hi.granted hsame
            fun _ => ⟨d₀, hpre₀, h₀, (hl w.db hi).2 f hf⟩
      | exec x k hp hf hfree =>
          rw [hp] at hlive
          obtain ⟨d₀, hpre₀, h₀, hl⟩ := hlive rfl
          refine hs.set hs.inv (D.rely_refl _) hkeep ((S.granted_snoc _ _ _).2
            ⟨hi.granted, hf⟩) ?_ fun _ => ⟨d₀, hpre₀, h₀, (hl w.db hi).1 hf⟩
          intro j u hj hu z hz y hy k' hk' hky
          rcases List.mem_append.1 hz with hz | hz
          · exact hsame j u hj hu z hz y hy k' hk' hky
          · -- the statement would have had to wait for a lock that is held
            rw [List.mem_singleton.1 hz] at hk'
            exact hfree j u hj hu y hy k' hky hk'
      | commit k hp =>
          rw [hp] at hlive
          obtain ⟨d₀, hpre₀, h₀, hl⟩ := hlive rfl
          obtain ⟨hc, hl⟩ := hl w.db hi
          obtain ⟨hinv, hrely⟩ := O.commit_ok t.kind d₀ w.db t.writes hs.inv hi.granted hc
          refine hs.set hinv hrely ?_ (S.granted_nil _) (by simp) fun _ => ⟨d₀, hpre₀, h₀, hl⟩
          -- what the others have locked, this transaction has not written
          intro j u hj hu y hy k' hk'
          exact S.occupied_view t.writes w.db fun x hx hkx => hsame j u hj hu x hx y hy k' hkx hk'
      | rollback k hp =>
          rw [hp] at hlive
          obtain ⟨d₀, hpre₀, h₀, hl⟩ := hlive rfl
          exact hs.set hs.inv (D.rely_refl _) hkeep (S.granted_nil _) (by simp)
            fun _ => ⟨d₀, hpre₀, h₀, hl w.db hi⟩
  | kill i t ht =>
      have hnone : ∀ j u, j ≠ i → w.tasks[j]? = some u → ∀ y ∈ u.writes, ∀ k ∈ S.locks y,
          (S.Occupied k w.db ↔ S.Occupied k w.db) := fun _ _ _ _ _ _ _ _ => Iff.rfl
      have hend : (.raise P.crash : Prog Db Write Fault Ans Exc (P.Result t.kind)).done = false →
          O.Live pre t [] (.raise P.crash) w.db := by simp [Prog.done]
      exact hs.set hs.inv (D.rely_refl _) hnone (S.granted_nil _) (by simp) hend
  | tick τ e he => exact ⟨hs.inv, hs.granted, hs.apart, hs.live⟩

/-- **The same outline, with the rows it started from kept in mind**: where a program returns or
raises, the rows have come from those. -/
def since (O : Outline P D) : Outline P D where
  contract κ d₀ := { O.contract κ d₀ with
    raises := fun e d => (O.contract κ d₀).raises e d ∧ D.Rely d₀ d }
  returns κ d₀ a d := O.returns κ d₀ a d ∧ D.Rely d₀ d
  verified κ d₀ h := D.wp_rely
    (fun d ws hd hg hc => (O.commit_ok κ d₀ d ws hd hg hc).2) (O.verified κ d₀ h)
  commit_ok := O.commit_ok

/-- **Every reachable world is sound**, when any program may start from any rows. -/
theorem sound {ok : World H → Action H → Prop} {w₀ w : World H} (hpre : ∀ κ d, pre κ d)
    (h₀ : D.Inv w₀.db) (htasks : w₀.tasks = []) (h : Reaches S ok w₀ w) : O.Sound pre w := by
  induction h with
  | refl => exact Sound.start h₀ htasks
  | tail _ _ hs ih => exact ih.step (fun κ _ => hpre κ _) hs

/-- A step respects the relation. -/
theorem Sound.rely {w w' : World H} {a : Action H} (hs : O.Sound pre w)
    (h : w.step S a = some w') : D.Rely w.db w'.db := by
  by_cases hdb : w'.db = w.db
  · rw [hdb]
    exact D.rely_refl _
  · obtain ⟨i, t, k, ht, hp, hview, -⟩ := World.committed_of_db h hdb
    obtain ⟨d₀, -, -, hc⟩ := hs.commits ht hp
    rw [hview]
    exact (O.commit_ok t.kind d₀ w.db t.writes hs.inv (hs.granted i t ht) hc).2

end Outline

end ReadCommitted
