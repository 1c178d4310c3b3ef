/-
**What a program has seen, and what it then commits.**

Here nothing is known of the other programs but that something, `V`, holds of the committed rows
whenever one looks at them.  That says something about all that a program sees, and so about the
transactions that it commits and about what it returns.  No locks and no constraints are needed for it,
and nothing has to be known of how the rows change, as it has in `FinAssist/RelyGuarantee.lean`.

Main definitions:

* `ReadCommitted.Prog.Given` — whatever a program sees, it commits such transactions.

Main results:

* `ReadCommitted.Prog.given_bind`, `given_inside`, `given_tryCatch` — the rules for programs;
* `ReadCommitted.Reaches.given` — **the transactions in the log are such**, in every run in which `V`
  holds of the committed rows before each step;
* `ReadCommitted.Reaches.toward` — every world of a run is reached from its first, and goes on to its
  last.
-/

import FinAssist.ReadCommitted

set_option relaxedAutoImplicit false
set_option autoImplicit false

namespace ReadCommitted

variable {Db Write Fault Key Ask : Type} {Ans : Ask → Type} {Exc : Type}

namespace Prog

variable {α β : Type}

/-- **Whatever a program that has written `ws` sees of rows that meet `V`**, it commits transactions
that meet `C`, and ends with a result that meets `Q` or with an exception. -/
def Given (S : Schema Db Write Fault Key) (V : Db → Prop) (C : List Write → Prop) :
    Prog Db Write Fault Ans Exc α → (α → List Write → Prop) → List Write → Prop
  | .ret a, Q, ws => Q a ws
  | .raise _, _, _ => True
  | .ask _ k, Q, ws => ∀ a, (k a).Given S V C Q ws
  | .query k, Q, ws => ∀ d, V d → (k (S.view d ws)).Given S V C Q ws
  | .exec w k, Q, ws =>
      (k none).Given S V C Q (ws ++ [w]) ∧ ∀ f, (k (some f)).Given S V C Q ws
  | .commit k, Q, ws => C ws ∧ k.Given S V C Q []
  | .rollback k, Q, _ => k.Given S V C Q []

section Rules

variable {S : Schema Db Write Fault Key} {V : Db → Prop} {C : List Write → Prop}

/-! The rules for single statements. -/

theorem given_ret_iff {a : α} {Q : α → List Write → Prop} {ws : List Write} :
    (ret a : Prog Db Write Fault Ans Exc α).Given S V C Q ws ↔ Q a ws := Iff.rfl

theorem given_ret {a : α} {Q : α → List Write → Prop} {ws : List Write} (h : Q a ws) :
    (ret a : Prog Db Write Fault Ans Exc α).Given S V C Q ws := h

theorem given_raise {e : Exc} {Q : α → List Write → Prop} {ws : List Write} :
    (raise e : Prog Db Write Fault Ans Exc α).Given S V C Q ws := trivial

theorem given_ask {q : Ask} {k : Ans q → Prog Db Write Fault Ans Exc α}
    {Q : α → List Write → Prop} {ws : List Write} (h : ∀ a, (k a).Given S V C Q ws) :
    (ask q k).Given S V C Q ws := h

theorem given_query {k : Db → Prog Db Write Fault Ans Exc α} {Q : α → List Write → Prop}
    {ws : List Write} (h : ∀ d, V d → (k (S.view d ws)).Given S V C Q ws) :
    (query k).Given S V C Q ws := h

theorem given_exec {w : Write} {k : Option Fault → Prog Db Write Fault Ans Exc α}
    {Q : α → List Write → Prop} {ws : List Write} (h : (k none).Given S V C Q (ws ++ [w]))
    (hrefused : ∀ f, (k (some f)).Given S V C Q ws) : (exec w k).Given S V C Q ws := ⟨h, hrefused⟩

theorem given_commit {k : Prog Db Write Fault Ans Exc α} {Q : α → List Write → Prop}
    {ws : List Write} (hC : C ws) (h : k.Given S V C Q []) : (commit k).Given S V C Q ws := ⟨hC, h⟩

theorem given_mono {p : Prog Db Write Fault Ans Exc α} {Q Q' : α → List Write → Prop}
    (h : ∀ a ws, Q a ws → Q' a ws) :
    ∀ {ws}, p.Given S V C Q ws → p.Given S V C Q' ws := by
  induction p with
  | ret a => intro ws hp; exact h a ws hp
  | raise e => intro ws _; trivial
  | ask q k ih => intro ws hp a; exact ih a (hp a)
  | query k ih => intro ws hp d hd; exact ih _ (hp d hd)
  | exec w k ih => intro ws hp; exact ⟨ih none hp.1, fun f => ih (some f) (hp.2 f)⟩
  | commit k ih => intro ws hp; exact ⟨hp.1, ih hp.2⟩
  | rollback k ih => intro ws hp; exact ih hp

/-- Less may be asked of the transactions, and more may hold of the rows. -/
theorem given_weaken {V' : Db → Prop} {C' : List Write → Prop} (hV : ∀ d, V' d → V d)
    (hC : ∀ ws, C ws → C' ws) {p : Prog Db Write Fault Ans Exc α} {Q : α → List Write → Prop} :
    ∀ {ws}, p.Given S V C Q ws → p.Given S V' C' Q ws := by
  induction p with
  | ret a => intro ws hp; exact hp
  | raise e => intro ws _; trivial
  | ask q k ih => intro ws hp a; exact ih a (hp a)
  | query k ih => intro ws hp d hd; exact ih _ (hp d (hV d hd))
  | exec w k ih => intro ws hp; exact ⟨ih none hp.1, fun f => ih (some f) (hp.2 f)⟩
  | commit k ih => intro ws hp; exact ⟨hC _ hp.1, ih hp.2⟩
  | rollback k ih => intro ws hp; exact ih hp

/-- Programs are judged piece by piece. -/
theorem given_bind {p : Prog Db Write Fault Ans Exc α} {f : α → Prog Db Write Fault Ans Exc β}
    {Q : β → List Write → Prop} :
    ∀ {ws}, p.Given S V C (fun a ws => (f a).Given S V C Q ws) ws →
      (p >>= f).Given S V C Q ws := by
  simp only [bind_eq]
  induction p with
  | ret a => intro ws hp; exact hp
  | raise e => intro ws _; trivial
  | ask q k ih => intro ws hp a; exact ih a (hp a)
  | query k ih => intro ws hp d hd; exact ih _ (hp d hd)
  | exec w k ih => intro ws hp; exact ⟨ih none hp.1, fun f => ih (some f) (hp.2 f)⟩
  | commit k ih => intro ws hp; exact ⟨hp.1, ih hp.2⟩
  | rollback k ih => intro ws hp; exact ih hp

/-- A program that stays inside its transaction adds to it what it may write. -/
theorem given_inside {asks : Ask → Prop} {raises : Exc → Prop} {writes : Write → Prop}
    {p : Prog Db Write Fault Ans Exc α} (hp : p.Inside asks raises writes)
    {Q : α → List Write → Prop} :
    ∀ {ws : List Write}, (∀ a vs, (∀ w ∈ vs, writes w) → Q a (ws ++ vs)) → p.Given S V C Q ws := by
  induction p with
  | ret a =>
      intro ws hQ
      have hend := hQ a [] (by simp)
      rw [List.append_nil] at hend
      exact hend
  | raise e => intro ws _; trivial
  | ask q k ih => intro ws hQ a; exact ih a (hp.2 a) hQ
  | query k ih => intro ws hQ d _; exact ih _ (hp _) hQ
  | exec w k ih =>
      intro ws hQ
      refine ⟨ih none (hp.2 none) fun a vs hvs => ?_, fun f => ih (some f) (hp.2 _) hQ⟩
      rw [List.append_assoc]
      refine hQ a ([w] ++ vs) fun v hv => ?_
      rcases List.mem_append.1 hv with hv | hv
      · exact List.mem_singleton.1 hv ▸ hp.1
      · exact hvs v hv
  | commit k => exact hp.elim
  | rollback k => exact hp.elim

/-- What takes over from an exception starts a transaction of its own. -/
theorem given_tryCatch {p : Prog Db Write Fault Ans Exc α}
    {h : Exc → Option (Prog Db Write Fault Ans Exc α)} {Q : α → List Write → Prop}
    (hrecover : ∀ e p', h e = some p' → p'.Given S V C Q []) :
    ∀ {ws}, p.Given S V C Q ws → (p.tryCatch h).Given S V C Q ws := by
  induction p with
  | ret a => intro ws hp; exact hp
  | raise e =>
      intro ws _
      rw [tryCatch]
      split
      next p' hp' => exact hrecover e p' hp'
      next => trivial
  | ask q k ih => intro ws hp a; exact ih a (hp a)
  | query k ih => intro ws hp d hd; exact ih _ (hp d hd)
  | exec w k ih => intro ws hp; exact ⟨ih none hp.1, fun f => ih (some f) (hp.2 f)⟩
  | commit k ih => intro ws hp; exact ⟨hp.1, ih hp.2⟩
  | rollback k ih => intro ws hp; exact ih hp

/-- Nothing is said of a program if nothing is asked of its transactions and its result. -/
theorem given_of_forall (hC : ∀ ws, C ws) {Q : α → List Write → Prop} (hQ : ∀ a ws, Q a ws)
    (p : Prog Db Write Fault Ans Exc α) : ∀ ws, p.Given S V C Q ws := by
  induction p with
  | ret a => exact hQ a
  | raise e => exact fun _ => trivial
  | ask q k ih => exact fun ws a => ih a ws
  | query k ih => exact fun ws d _ => ih _ ws
  | exec w k ih => exact fun ws => ⟨ih none _, fun f => ih (some f) ws⟩
  | commit k ih => exact fun ws => ⟨hC ws, ih []⟩
  | rollback k ih => exact fun _ => ih []

end Rules

end Prog

/-! ### Runs -/

variable {P : Programs Db Write Fault Ans Exc} {S : Schema Db Write Fault Key}
variable {H : Host P} {V : Db → Prop} {C : P.Kind → List Write → Prop}
variable {Q : (κ : P.Kind) → P.Result κ → Prop}

/-- What is left of a task, after it has moved on. -/
theorem Task.given_goto {t : Task P} {ws : List Write}
    {p : Prog Db Write Fault Ans Exc (P.Result t.kind)}
    (h : p.Given S V (C t.kind) (fun a _ => Q t.kind a) ws) :
    (t.goto ws p).prog.Given S V (C t.kind) (fun a _ => Q t.kind a) (t.goto ws p).writes := by
  cases p with
  | ret a => exact h
  | raise e => trivial
  | _ => exact h

variable [DecidableEq Key]

/-- **The transactions in the log, and the results**, in a run in which `V` holds of the committed rows
before each step. -/
theorem Reaches.given
    (hprog : ∀ κ, (P.prog κ).Given S V (C κ) (fun a _ => Q κ a) [])
    {w₀ w : World H} (hlog : w₀.log = []) (htasks : w₀.tasks = [])
    (h : Reaches S (fun w _ => V w.db) w₀ w) :
    (∀ e ∈ w.log, C e.kind e.writes) ∧
    ∀ t ∈ w.tasks, t.prog.Given S V (C t.kind) (fun a _ => Q t.kind a) t.writes := by
  induction h with
  | refl =>
      rw [hlog, htasks]
      exact ⟨nofun, nofun⟩
  | @tail w w' a h hV hs ih =>
      obtain ⟨ihlog, ihtasks⟩ := ih
      -- one task goes on, and the others are where they were
      have hset : ∀ {i : ℕ} {t : Task P} {ws : List Write}
          {p : Prog Db Write Fault Ans Exc (P.Result t.kind)},
          p.Given S V (C t.kind) (fun a _ => Q t.kind a) ws →
          ∀ u ∈ w.tasks.set i (t.goto ws p),
            u.prog.Given S V (C u.kind) (fun a _ => Q u.kind a) u.writes := by
        intro i t ws p hp u hu
        rcases List.mem_or_eq_of_mem_set hu with hu | rfl
        · exact ihtasks u hu
        · exact Task.given_goto hp
      cases World.step_cases hs with
      | spawn κ hκ =>
          refine ⟨ihlog, fun t ht => ?_⟩
          rcases List.mem_append.1 ht with ht | ht
          · exact ihtasks t ht
          · rw [List.mem_singleton.1 ht]
            exact hprog κ
      | advance i answers t w' ht hadv =>
          have hnow := ihtasks t (List.mem_of_getElem? ht)
          cases hadv with
          | ask q k a e hp he =>
              rw [hp] at hnow
              exact ⟨ihlog, hset (hnow a)⟩
          | query k hp =>
              rw [hp] at hnow
              exact ⟨ihlog, hset (hnow w.db hV)⟩
          | refused x k f hp hf =>
              rw [hp] at hnow
              exact ⟨ihlog, hset (hnow.2 f)⟩
          | exec x k hp hf hfree =>
              rw [hp] at hnow
              exact ⟨ihlog, hset hnow.1⟩
          | commit k hp =>
              rw [hp] at hnow
              refine ⟨fun e he => ?_, hset hnow.2⟩
              rcases List.mem_append.1 he with he | he
              · exact ihlog e he
              · rw [List.mem_singleton.1 he]
                exact hnow.1
          | rollback k hp =>
              rw [hp] at hnow
              exact ⟨ihlog, hset hnow⟩
      | kill i t ht =>
          refine ⟨ihlog, fun u hu => ?_⟩
          rcases List.mem_or_eq_of_mem_set hu with hu | rfl
          · exact ihtasks u hu
          · trivial
      | tick τ e he => exact ⟨ihlog, ihtasks⟩

attribute [irreducible] Prog.Given

/-- **Every world of a run is reached from its first, and goes on to its last.** -/
theorem Reaches.toward {ok : World H → Action H → Prop} {w₀ w w' : World H}
    (h : Reaches S ok w₀ w) (hlater : Reaches S ok w w') :
    Reaches S (fun w a => ok w a ∧ Reaches S ok w₀ w ∧ Reaches S ok w w') w₀ w := by
  induction h with
  | refl => exact .refl
  | tail h hok hs ih =>
      have hnow : Reaches S ok _ w' := (Reaches.refl.tail hok hs).trans hlater
      exact (ih hnow).tail ⟨hok, h, hnow⟩ hs

end ReadCommitted
