/-
**A program that runs with nothing else running.**

`FinAssist/ReadCommitted.lean` lets other tasks run between two statements of a program.  Often the
question is what one program does by itself: what it returns, what it leaves in the database, what
it has asked for.  This module runs a program to its end, with an environment that answers its
questions, and says what such a run has to do with the rest.

Main definitions:

* `ReadCommitted.Prog.alone` — the run of a program by itself;
* `ReadCommitted.Prog.cut` — the program as far as it comes when its process is killed;
* `ReadCommitted.Prog.Respects` — a program that looks at the rows only up to a relation;
* `ReadCommitted.steady` — the discipline under which nothing happens between two statements.

Main results:

* `ReadCommitted.Prog.alone_bind` — a run in sequence is a run after a run;
* `ReadCommitted.Prog.Respects.alone` — **from related rows it runs to the same outcome**;
* `ReadCommitted.Discipline.alone_of_wp` — **what was shown of a program holds of its run**;
* `ReadCommitted.Discipline.cut_of_wp` — wherever it is killed, the invariant holds;
* `ReadCommitted.goesOn_alone` — a task goes through the beginning of its program by itself;
* `ReadCommitted.reachable_alone` — **a world in which no transaction is open reaches what the run
  of a program by itself leads to**.
-/

import FinAssist.RelyGuarantee

set_option relaxedAutoImplicit false
set_option autoImplicit false

namespace ReadCommitted

variable {Db Write Fault Key Ask : Type} {Ans : Ask → Type} {Exc σ : Type} {α β : Type}

/-- What there is when a program has ended: the committed rows, what its open transaction has
written, the environment, and the result or the exception. -/
structure Outcome (Db Write σ Exc α : Type) where
  db : Db
  writes : List Write
  env : σ
  result : Except Exc α

/-- What surrounds a program that runs by itself: it answers each question, and moves on. -/
abbrev Environment {Ask : Type} (Ans : Ask → Type) (σ : Type) := σ → (q : Ask) → Ans q × σ

namespace Prog

/-- **The run of a program by itself**, from the rows `d` and a transaction that has written
`ws`. -/
def alone (S : Schema Db Write Fault Key) (E : Environment Ans σ) :
    Prog Db Write Fault Ans Exc α → σ → Db → List Write → Outcome Db Write σ Exc α
  | ret a, s, d, ws => ⟨d, ws, s, .ok a⟩
  | raise e, s, d, ws => ⟨d, ws, s, .error e⟩
  | ask q k, s, d, ws => (k (E s q).1).alone S E (E s q).2 d ws
  | query k, s, d, ws => (k (S.view d ws)).alone S E s d ws
  | exec w k, s, d, ws =>
      match S.fault (S.view d ws) w with
      | some f => (k (some f)).alone S E s d ws
      | none => (k none).alone S E s d (ws ++ [w])
  | commit k, s, d, ws => k.alone S E s (S.view d ws) []
  | rollback k, s, d, _ => k.alone S E s d []

variable {S : Schema Db Write Fault Key} {E : Environment Ans σ}

/-- **A run in sequence is a run after a run.** -/
theorem alone_bind (p : Prog Db Write Fault Ans Exc α) (f : α → Prog Db Write Fault Ans Exc β) :
    ∀ (s : σ) (d : Db) (ws : List Write),
      (p >>= f).alone S E s d ws =
        match p.alone S E s d ws with
        | ⟨d', ws', s', .ok a⟩ => (f a).alone S E s' d' ws'
        | ⟨d', ws', s', .error e⟩ => ⟨d', ws', s', .error e⟩ := by
  rw [bind_eq]
  induction p with
  | ret a => intro s d ws; rfl
  | raise e => intro s d ws; rfl
  | ask q k ih => intro s d ws; exact ih _ _ d ws
  | query k ih => intro s d ws; exact ih _ s d ws
  | exec w k ih =>
      intro s d ws
      simp only [bind, alone]
      cases S.fault (S.view d ws) w with
      | some f => exact ih _ s d ws
      | none => exact ih _ s d _
  | commit k ih => intro s d ws; exact ih s _ []
  | rollback k ih => intro s d ws; exact ih s d []

/-- **A program runs alike under two schemas** that treat its statements alike. -/
theorem alone_congr {S' : Schema Db Write Fault Key} {asks : Ask → Prop} {raises : Exc → Prop} {writes : Write → Prop}
    (hview : ∀ d ws, S'.view d ws = S.view d ws) (hfault : ∀ d w, writes w → S'.fault d w = S.fault d w)
    {p : Prog Db Write Fault Ans Exc α} (hp : p.Inside asks raises writes) :
    ∀ (s : σ) (d : Db) (ws : List Write), p.alone S' E s d ws = p.alone S E s d ws := by
  induction p with
  | ret a => exact fun _ _ _ => rfl
  | raise e => exact fun _ _ _ => rfl
  | ask q k ih => exact fun s d ws => ih _ (hp.2 _) _ d ws
  | query k ih =>
      intro s d ws
      rw [alone, alone, hview]
      exact ih _ (hp _) s d ws
  | exec w k ih =>
      intro s d ws
      rw [alone, alone, hview, hfault _ w hp.1]
      cases S.fault (S.view d ws) w with
      | none => exact ih none (hp.2 none) s d _
      | some f => exact ih (some f) (hp.2 (some f)) s d ws
  | commit k => exact hp.elim
  | rollback k => exact hp.elim

/-- Programs of which each piece runs the same. -/
theorem alone_bind_congr {S' : Schema Db Write Fault Key} {p : Prog Db Write Fault Ans Exc α}
    {f : α → Prog Db Write Fault Ans Exc β} {s : σ} {d : Db} {ws : List Write}
    (hp : p.alone S' E s d ws = p.alone S E s d ws)
    (hf : ∀ a s d ws, (f a).alone S' E s d ws = (f a).alone S E s d ws) :
    (p >>= f).alone S' E s d ws = (p >>= f).alone S E s d ws := by
  rw [alone_bind, alone_bind, hp]
  generalize p.alone S E s d ws = outcome
  obtain ⟨d', ws', s', result⟩ := outcome
  cases result with
  | error e => rfl
  | ok a => exact hf a s' d' ws'

/-- After a result the rest runs, from what is there then. -/
theorem alone_bind_ok {p : Prog Db Write Fault Ans Exc α} {f : α → Prog Db Write Fault Ans Exc β}
    {s s' : σ} {d d' : Db} {ws ws' : List Write} {a : α}
    (h : p.alone S E s d ws = ⟨d', ws', s', .ok a⟩) :
    (p >>= f).alone S E s d ws = (f a).alone S E s' d' ws' := by
  rw [alone_bind, h]

/-- After an exception nothing runs. -/
theorem alone_bind_error {p : Prog Db Write Fault Ans Exc α}
    {f : α → Prog Db Write Fault Ans Exc β} {s s' : σ} {d d' : Db} {ws ws' : List Write} {e : Exc}
    (h : p.alone S E s d ws = ⟨d', ws', s', .error e⟩) :
    (p >>= f).alone S E s d ws = ⟨d', ws', s', .error e⟩ := by
  rw [alone_bind, h]

/-- What has a result has one at each step. -/
theorem alone_bind_eq_ok {p : Prog Db Write Fault Ans Exc α}
    {f : α → Prog Db Write Fault Ans Exc β} {s s' : σ} {d d' : Db} {ws ws' : List Write} {b : β}
    (h : (p >>= f).alone S E s d ws = ⟨d', ws', s', .ok b⟩) :
    ∃ d₁ ws₁ s₁ a, p.alone S E s d ws = ⟨d₁, ws₁, s₁, .ok a⟩ ∧
      (f a).alone S E s₁ d₁ ws₁ = ⟨d', ws', s', .ok b⟩ := by
  rw [alone_bind] at h
  generalize p.alone S E s d ws = outcome at h
  obtain ⟨d₁, ws₁, s₁, result⟩ := outcome
  cases result with
  | error e => cases h
  | ok a => exact ⟨d₁, ws₁, s₁, a, rfl, h⟩

/-- **A run whose exception was caught** goes on with the handler. -/
theorem alone_tryCatch (p : Prog Db Write Fault Ans Exc α)
    (h : Exc → Option (Prog Db Write Fault Ans Exc α)) :
    ∀ (s : σ) (d : Db) (ws : List Write),
      (p.tryCatch h).alone S E s d ws =
        match p.alone S E s d ws with
        | ⟨d', ws', s', .ok a⟩ => ⟨d', ws', s', .ok a⟩
        | ⟨d', ws', s', .error e⟩ =>
            match h e with
            | some q => q.alone S E s' d' []
            | none => ⟨d', ws', s', .error e⟩ := by
  induction p with
  | ret a => intro s d ws; rfl
  | raise e =>
      intro s d ws
      simp only [tryCatch, alone]
      cases h e <;> rfl
  | ask q k ih => intro s d ws; exact ih _ _ d ws
  | query k ih => intro s d ws; exact ih _ s d ws
  | exec w k ih =>
      intro s d ws
      simp only [tryCatch, alone]
      cases S.fault (S.view d ws) w with
      | some f => exact ih _ s d ws
      | none => exact ih _ s d _
  | commit k ih => intro s d ws; exact ih s _ []
  | rollback k ih => intro s d ws; exact ih s d []

/-- The questions that a program may ask. -/
def Asks (asks : Ask → Prop) : Prog Db Write Fault Ans Exc α → Prop
  | ret _ => True
  | raise _ => True
  | ask q k => asks q ∧ ∀ a, (k a).Asks asks
  | query k => ∀ d, (k d).Asks asks
  | exec _ k => ∀ o, (k o).Asks asks
  | commit k => k.Asks asks
  | rollback k => k.Asks asks

theorem Asks.bind {asks : Ask → Prop} {p : Prog Db Write Fault Ans Exc α}
    {f : α → Prog Db Write Fault Ans Exc β} (hp : p.Asks asks) (hf : ∀ a, (f a).Asks asks) :
    (p >>= f).Asks asks := by
  rw [bind_eq]
  induction p with
  | ret a => exact hf a
  | raise e => trivial
  | ask q k ih => exact ⟨hp.1, fun a => ih a (hp.2 a)⟩
  | query k ih => exact fun d => ih d (hp d)
  | exec w k ih => exact fun o => ih o (hp o)
  | commit k ih => exact ih hp
  | rollback k ih => exact ih hp

/-- **What the answers keep, a run keeps.** -/
theorem Asks.alone_env {asks : Ask → Prop} {p : Prog Db Write Fault Ans Exc α} {I : σ → Prop}
    (hI : ∀ s q, asks q → I s → I (E s q).2) (hp : p.Asks asks) :
    ∀ {s : σ} {d : Db} {ws : List Write}, I s → I (p.alone S E s d ws).env := by
  induction p with
  | ret a => exact fun h => h
  | raise e => exact fun h => h
  | ask q k ih => exact fun h => ih _ (hp.2 _) (hI _ q hp.1 h)
  | query k ih => exact fun h => ih _ (hp _) h
  | exec w k ih =>
      intro s d ws h
      simp only [alone]
      cases S.fault (S.view d ws) w with
      | some f => exact ih _ (hp _) h
      | none => exact ih _ (hp _) h
  | commit k ih => exact fun h => ih hp h
  | rollback k ih => exact fun h => ih hp h

/-- The run of a program that was killed after `n` statements and questions. -/
def cut (crash : Exc) : ℕ → Prog Db Write Fault Ans Exc α → Prog Db Write Fault Ans Exc α
  | _, ret a => ret a
  | _, raise e => raise e
  | 0, _ => raise crash
  | n + 1, ask q k => ask q fun a => (k a).cut crash n
  | n + 1, query k => query fun d => (k d).cut crash n
  | n + 1, exec w k => exec w fun o => (k o).cut crash n
  | n + 1, commit k => commit (k.cut crash n)
  | n + 1, rollback k => rollback (k.cut crash n)

/-- A run that is not killed is the run of a program that is killed late enough. -/
theorem exists_cut_eq (crash : Exc) (p : Prog Db Write Fault Ans Exc α) :
    ∀ (s : σ) (d : Db) (ws : List Write),
      ∃ n, (p.cut crash n).alone S E s d ws = p.alone S E s d ws := by
  induction p with
  | ret a => exact fun s d ws => ⟨0, rfl⟩
  | raise e => exact fun s d ws => ⟨0, rfl⟩
  | ask q k ih =>
      intro s d ws
      obtain ⟨n, hn⟩ := ih (E s q).1 (E s q).2 d ws
      exact ⟨n + 1, hn⟩
  | query k ih =>
      intro s d ws
      obtain ⟨n, hn⟩ := ih (S.view d ws) s d ws
      exact ⟨n + 1, hn⟩
  | exec w k ih =>
      intro s d ws
      cases hf : S.fault (S.view d ws) w with
      | some f =>
          obtain ⟨n, hn⟩ := ih (some f) s d ws
          exact ⟨n + 1, by simpa only [cut, alone, hf] using hn⟩
      | none =>
          obtain ⟨n, hn⟩ := ih none s d (ws ++ [w])
          exact ⟨n + 1, by simpa only [cut, alone, hf] using hn⟩
  | commit k ih =>
      intro s d ws
      obtain ⟨n, hn⟩ := ih s (S.view d ws) []
      exact ⟨n + 1, hn⟩
  | rollback k ih =>
      intro s d ws
      obtain ⟨n, hn⟩ := ih s d []
      exact ⟨n + 1, hn⟩

end Prog

/-! ### Two runs of one program -/

/-- Two outcomes that differ in the rows only, and there only up to `R`. -/
structure Outcome.Same (R : Db → Db → Prop) (o o' : Outcome Db Write σ Exc α) : Prop where
  db : R o.db o'.db
  writes : o.writes = o'.writes
  env : o.env = o'.env
  result : o.result = o'.result

/-- What two runs have in common: how their rows are related, what they are answered, and what they
may write. -/
structure Common (Db Write : Type) {Ask : Type} (Ans : Ask → Type) where
  related : Db → Db → Prop
  answers : (q : Ask) → Ans q → Prop
  writes : Write → Prop

/-- **A program that looks at the rows only up to the relation**, and returns what `Q` says. -/
def Prog.Respects (B : Common Db Write Ans) (Q : α → Prop) :
    Prog Db Write Fault Ans Exc α → Prop
  | .ret a => Q a
  | .raise _ => True
  | .ask q k => ∀ a, B.answers q a → (k a).Respects B Q
  | .query k => ∀ d d', B.related d d' → k d = k d' ∧ (k d).Respects B Q
  | .exec w k => B.writes w ∧ ∀ o, (k o).Respects B Q
  | .commit k => k.Respects B Q
  | .rollback k => k.Respects B Q

section Respects

variable {B : Common Db Write Ans}

theorem Prog.Respects.bind {p : Prog Db Write Fault Ans Exc α}
    {f : α → Prog Db Write Fault Ans Exc β} {P : α → Prop} {Q : β → Prop}
    (hp : p.Respects B P) (hf : ∀ a, P a → (f a).Respects B Q) : (p >>= f).Respects B Q := by
  rw [Prog.bind_eq]
  induction p with
  | ret a => exact hf a hp
  | raise e => trivial
  | ask q k ih => exact fun a ha => ih a (hp a ha)
  | query k ih =>
      intro d d' h
      obtain ⟨hsame, hk⟩ := hp d d' h
      exact ⟨congrArg (·.bind f) hsame, ih d hk⟩
  | exec w k ih => exact ⟨hp.1, fun o => ih o (hp.2 o)⟩
  | commit k ih => exact ih hp
  | rollback k ih => exact ih hp

theorem Prog.Respects.mono {p : Prog Db Write Fault Ans Exc α} {P Q : α → Prop}
    (hp : p.Respects B P) (h : ∀ a, P a → Q a) : p.Respects B Q := by
  have hbind := hp.bind (f := Prog.ret) h
  rwa [Prog.bind_eq, Prog.bind_ret] at hbind

/-- What is written keeps the relation. -/
theorem view_related {S : Schema Db Write Fault Key}
    (happly : ∀ d d' w, B.related d d' → B.writes w → B.related (S.apply d w) (S.apply d' w)) :
    ∀ (ws : List Write) {d d' : Db}, (∀ w ∈ ws, B.writes w) → B.related d d' →
      B.related (S.view d ws) (S.view d' ws) := by
  intro ws
  induction ws with
  | nil => exact fun _ h => h
  | cons w ws ih =>
      intro d d' hws h
      exact ih (fun w' hw' => hws w' (List.mem_cons_of_mem w hw'))
        (happly d d' w h (hws w List.mem_cons_self))

/-- **From related rows it runs to the same outcome**, if related rows refuse the same statements
and a statement keeps them related. -/
theorem Prog.Respects.alone {S : Schema Db Write Fault Key} {E : Environment Ans σ}
    (hanswers : ∀ s q, B.answers q (E s q).1)
    (hfault : ∀ d d' w, B.related d d' → B.writes w → S.fault d w = S.fault d' w)
    (happly : ∀ d d' w, B.related d d' → B.writes w → B.related (S.apply d w) (S.apply d' w))
    {p : Prog Db Write Fault Ans Exc α} {Q : α → Prop} :
    p.Respects B Q → ∀ (s : σ) {d d' : Db} {ws : List Write}, B.related d d' →
      (∀ w ∈ ws, B.writes w) →
      (p.alone S E s d ws).Same B.related (p.alone S E s d' ws) ∧
      (∀ w ∈ (p.alone S E s d ws).writes, B.writes w) ∧
      ∀ a, (p.alone S E s d ws).result = .ok a → Q a := by
  induction p with
  | ret a =>
      exact fun hp s d d' ws h hws => ⟨⟨h, rfl, rfl, rfl⟩, hws, fun b hb => Except.ok.inj hb ▸ hp⟩
  | raise e => exact fun _ s d d' ws h hws => ⟨⟨h, rfl, rfl, rfl⟩, hws, fun b hb => by cases hb⟩
  | ask q k ih => exact fun hp s d d' ws h hws => ih _ (hp _ (hanswers s q)) _ h hws
  | query k ih =>
      intro hp s d d' ws h hws
      obtain ⟨hsame, hk⟩ := hp _ _ (view_related happly ws hws h)
      simp only [Prog.alone]
      rw [← hsame]
      exact ih _ hk _ h hws
  | exec w k ih =>
      intro hp s d d' ws h hws
      have hsame := hfault _ _ w (view_related happly ws hws h) hp.1
      simp only [Prog.alone]
      rw [← hsame]
      cases S.fault (S.view d ws) w with
      | some f => exact ih _ (hp.2 _) _ h hws
      | none =>
          refine ih _ (hp.2 _) _ h fun x hx => ?_
          rcases List.mem_append.1 hx with hx | hx
          · exact hws x hx
          · rw [List.mem_singleton.1 hx]
            exact hp.1
  | commit k ih =>
      exact fun hp s d d' ws h hws =>
        ih hp _ (view_related happly ws hws h) fun w hw => absurd hw List.not_mem_nil
  | rollback k ih =>
      exact fun hp s d d' ws h hws => ih hp _ h fun w hw => absurd hw List.not_mem_nil

end Respects

/-! ### What was shown of a program holds of its run -/

/-- **Nothing happens between two statements**, and every commit keeps `I`. -/
def steady (S : Schema Db Write Fault Key) (I : Db → Prop) : Discipline S where
  Inv := I
  Rely := Eq
  rely_refl _ := rfl
  rely_trans _ _ _ h h' := h.trans h'
  fault_stable _ _ _ _ h _ hf := h ▸ hf

/-- So the rows at a statement are the ones that are known. -/
theorem steady_now {S : Schema Db Write Fault Key} {I : Db → Prop} {ws : List Write} {d : Db}
    {P : Db → Prop} (h : P d) : ∀ d', (steady S I).Interf ws d d' → P d' :=
  fun _ hi => hi.rely ▸ h

namespace Discipline

variable {S : Schema Db Write Fault Key} {D : Discipline S} {C : Contract Db Write Ask Exc}
variable {E : Environment Ans σ}

/-- **What was shown of a program holds of its run.** -/
theorem alone_of_wp
    (hcommits : ∀ d ws, D.Inv d → S.Granted d ws → C.commits d ws → D.Inv (S.view d ws))
    {p : Prog Db Write Fault Ans Exc α} {Q : α → List Write → Db → Prop} :
    ∀ {s : σ} {d : Db} {ws : List Write}, D.Inv d → S.Granted d ws → D.wp C p Q ws d →
      (∀ a, (p.alone S E s d ws).result = .ok a →
        Q a (p.alone S E s d ws).writes (p.alone S E s d ws).db ∧
        D.Inv (p.alone S E s d ws).db ∧
        S.Granted (p.alone S E s d ws).db (p.alone S E s d ws).writes) ∧
      ∀ e, (p.alone S E s d ws).result = .error e → C.raises e (p.alone S E s d ws).db := by
  induction p with
  | ret a =>
      intro s d ws hi hg h
      refine ⟨fun b hb => ?_, fun e he => by cases he⟩
      cases hb
      exact ⟨h, hi, hg⟩
  | raise e =>
      intro s d ws hi hg h
      refine ⟨fun b hb => (by cases hb), fun e' he => ?_⟩
      cases he
      exact h
  | ask q k ih =>
      intro s d ws hi hg h
      exact ih _ hi hg ((h d ⟨hi, D.rely_refl d, hg⟩).2 _)
  | query k ih =>
      intro s d ws hi hg h
      exact ih _ hi hg (h d ⟨hi, D.rely_refl d, hg⟩)
  | exec w k ih =>
      intro s d ws hi hg h
      obtain ⟨hnone, hsome⟩ := h d ⟨hi, D.rely_refl d, hg⟩
      simp only [Prog.alone]
      cases hf : S.fault (S.view d ws) w with
      | some f => exact ih _ hi hg (hsome f hf)
      | none => exact ih _ hi ((S.granted_snoc ws w d).2 ⟨hg, hf⟩) (hnone hf)
  | commit k ih =>
      intro s d ws hi hg h
      obtain ⟨hc, hk⟩ := h d ⟨hi, D.rely_refl d, hg⟩
      exact ih (hcommits d ws hi hg hc) (S.granted_nil _) hk
  | rollback k ih =>
      intro s d ws hi hg h
      exact ih hi (S.granted_nil _) (h d ⟨hi, D.rely_refl d, hg⟩)

/-- **Wherever a program is killed, the invariant holds** of what it has committed. -/
theorem cut_of_wp
    (hcommits : ∀ d ws, D.Inv d → S.Granted d ws → C.commits d ws → D.Inv (S.view d ws))
    {crash : Exc} {p : Prog Db Write Fault Ans Exc α} {Q : α → List Write → Db → Prop} :
    ∀ (n : ℕ) {s : σ} {d : Db} {ws : List Write}, D.Inv d → S.Granted d ws → D.wp C p Q ws d →
      D.Inv ((p.cut crash n).alone S E s d ws).db := by
  induction p with
  | ret a => exact fun n s d ws hi _ _ => by cases n <;> exact hi
  | raise e => exact fun n s d ws hi _ _ => by cases n <;> exact hi
  | ask q k ih =>
      intro n s d ws hi hg h
      cases n with
      | zero => exact hi
      | succ n => exact ih _ n hi hg ((h d ⟨hi, D.rely_refl d, hg⟩).2 _)
  | query k ih =>
      intro n s d ws hi hg h
      cases n with
      | zero => exact hi
      | succ n => exact ih _ n hi hg (h d ⟨hi, D.rely_refl d, hg⟩)
  | exec w k ih =>
      intro n s d ws hi hg h
      cases n with
      | zero => exact hi
      | succ n =>
          obtain ⟨hnone, hsome⟩ := h d ⟨hi, D.rely_refl d, hg⟩
          simp only [Prog.cut, Prog.alone]
          cases hf : S.fault (S.view d ws) w with
          | some f => exact ih _ n hi hg (hsome f hf)
          | none => exact ih _ n hi ((S.granted_snoc ws w d).2 ⟨hg, hf⟩) (hnone hf)
  | commit k ih =>
      intro n s d ws hi hg h
      cases n with
      | zero => exact hi
      | succ n =>
          obtain ⟨hc, hk⟩ := h d ⟨hi, D.rely_refl d, hg⟩
          exact ih n (hcommits d ws hi hg hc) (S.granted_nil _) hk
  | rollback k ih =>
      intro n s d ws hi hg h
      cases n with
      | zero => exact hi
      | succ n => exact ih n hi (S.granted_nil _) (h d ⟨hi, D.rely_refl d, hg⟩)

end Discipline

/-! ### A run by itself is a run among others -/

section Worlds

variable {P : Programs Db Write Fault Ans Exc} {H : Host P} {S : Schema Db Write Fault Key}
variable [DecidableEq Key] {E : Environment Ans σ}

/-- What is left of a program that has ended so. -/
def Prog.ofResult : Except Exc α → Prog Db Write Fault Ans Exc α
  | .ok a => ret a
  | .error e => raise e

/-- No task but `i` has an open transaction. -/
def World.Quiet (w : World H) (i : ℕ) : Prop :=
  ∀ j t, j ≠ i → w.tasks[j]? = some t → t.writes = []

/-- Task `i` can go on until it has ended as `r` says, with no other task moving. -/
def LeadsTo (S : Schema Db Write Fault Key) (R : H.Ext → σ → Prop) (i : ℕ) (κ : P.Kind)
    (w : World H) (r : Outcome Db Write σ Exc (P.Result κ)) : Prop :=
  ∃ w', Reachable S w w' ∧ w'.db = r.db ∧ R w'.ext r.env ∧
    (∀ j, j ≠ i → w'.tasks[j]? = w.tasks[j]?) ∧ w'.tasks[i]? = some ⟨κ, [], .ofResult r.result⟩

theorem World.Quiet.free {w : World H} {i : ℕ} {x : Write} (h : w.Quiet i) :
    w.free S i x = true := by
  refine List.all_eq_true.2 fun tj htj => ?_
  obtain ⟨t, j⟩ := tj
  rcases eq_or_ne j i with rfl | hj
  · simp
  · simp [h j t hj (List.mem_zipIdx_iff_getElem?.1 htj)]

section Steps

variable {R : H.Ext → σ → Prop} {i : ℕ} {κ : P.Kind} {w : World H}
variable {r : Outcome Db Write σ Exc (P.Result κ)}

/-- A step of a task is a step of the world, and the other tasks stay where they are. -/
theorem step_of_advance {p : Prog Db Write Fault Ans Exc (P.Result κ)} {ws : List Write}
    (answers : (q : Ask) → Ans q) {db : Db} {log : List (Entry P)} {ext : H.Ext} {ws' : List Write}
    {p' : Prog Db Write Fault Ans Exc (P.Result κ)} (hlive : p.done = false)
    (htask : w.tasks[i]? = some ⟨κ, if p.done then [] else ws, p⟩)
    (hadvance : w.advance S i answers ⟨κ, ws, p⟩ p =
      some ⟨db, log, ext, w.tasks.set i (Task.goto ⟨κ, ws, p⟩ ws' p')⟩) :
    w.step S (.advance i answers) =
      some ⟨db, log, ext, w.tasks.set i (Task.goto ⟨κ, ws, p⟩ ws' p')⟩ ∧
    (∀ j, j ≠ i → (w.tasks.set i (Task.goto ⟨κ, ws, p⟩ ws' p'))[j]? = w.tasks[j]?) ∧
    (w.tasks.set i (Task.goto ⟨κ, ws, p⟩ ws' p'))[i]? =
      some ⟨κ, if p'.done then [] else ws', p'⟩ := by
  rw [hlive] at htask
  refine ⟨?_, fun j hj => List.getElem?_set_ne hj.symm,
    List.getElem?_set_self (List.getElem?_eq_some_iff.1 htask).1⟩
  rw [World.step, htask]
  exact hadvance

/-- One step of the task, and then the rest. -/
theorem leadsTo_of_advance {p : Prog Db Write Fault Ans Exc (P.Result κ)} {ws : List Write}
    (answers : (q : Ask) → Ans q) (db : Db) (log : List (Entry P)) (ext : H.Ext) (ws' : List Write)
    (p' : Prog Db Write Fault Ans Exc (P.Result κ)) (hquiet : w.Quiet i) (hlive : p.done = false)
    (htask : w.tasks[i]? = some ⟨κ, if p.done then [] else ws, p⟩)
    (hadvance : w.advance S i answers ⟨κ, ws, p⟩ p =
      some ⟨db, log, ext, w.tasks.set i (Task.goto ⟨κ, ws, p⟩ ws' p')⟩)
    (hrest : ∀ v : World H, v.db = db → v.ext = ext → v.Quiet i →
      v.tasks[i]? = some ⟨κ, if p'.done then [] else ws', p'⟩ → LeadsTo S R i κ v r) :
    LeadsTo S R i κ w r := by
  obtain ⟨hstep, hother, hself⟩ := step_of_advance answers hlive htask hadvance
  obtain ⟨w', hreach, hdb, hext, hkeep, hend⟩ := hrest
    ⟨db, log, ext, w.tasks.set i (Task.goto ⟨κ, ws, p⟩ ws' p')⟩ rfl rfl
    (fun j t hj ht => hquiet j t hj (hother j hj ▸ ht)) hself
  exact ⟨w', ((Reaches.refl).tail trivial hstep).trans hreach, hdb, hext,
    fun j hj => (hkeep j hj).trans (hother j hj), hend⟩

/-- **A task on its way can go on by itself to the end**, if no other transaction is open and the
external system gives the environment's answers. -/
theorem leadsTo_alone
    (hanswer : ∀ e s d q, R e s → ∃ e', H.answer e d κ q (E s q).1 = some e' ∧ R e' (E s q).2)
    (p : Prog Db Write Fault Ans Exc (P.Result κ)) :
    ∀ {s : σ} {ws : List Write} {w : World H}, R w.ext s → w.Quiet i →
      w.tasks[i]? = some ⟨κ, if p.done then [] else ws, p⟩ →
      LeadsTo S R i κ w (p.alone S E s w.db ws) := by
  induction p with
  | ret a => exact fun hR _ htask => ⟨_, Reaches.refl, rfl, hR, fun _ _ => rfl, htask⟩
  | raise e => exact fun hR _ htask => ⟨_, Reaches.refl, rfl, hR, fun _ _ => rfl, htask⟩
  | ask q k ih =>
      intro s ws w hR hquiet htask
      obtain ⟨e', he, hR'⟩ := hanswer w.ext s w.db q hR
      refine leadsTo_of_advance (fun q => (E s q).1) w.db w.log e' ws (k (E s q).1) hquiet rfl
        htask (by simp only [World.advance, he, Option.map_some]) ?_
      rintro v hdb rfl hquiet' htask'
      exact hdb ▸ ih _ hR' hquiet' htask'
  | query k ih =>
      intro s ws w hR hquiet htask
      refine leadsTo_of_advance (fun q => (E s q).1) w.db w.log w.ext ws (k (S.view w.db ws))
        hquiet rfl htask rfl ?_
      rintro v hdb hext hquiet' htask'
      have hrest := ih (S.view w.db ws) (hext ▸ hR) hquiet' htask'
      rw [hdb] at hrest
      exact hrest
  | exec x k ih =>
      intro s ws w hR hquiet htask
      cases hf : S.fault (S.view w.db ws) x with
      | some f =>
          refine leadsTo_of_advance (fun q => (E s q).1) w.db w.log w.ext ws (k (some f)) hquiet
            rfl htask (by simp only [World.advance, hf]) ?_
          rintro v hdb hext hquiet' htask'
          simp only [Prog.alone, hf]
          exact hdb ▸ ih _ (hext ▸ hR) hquiet' htask'
      | none =>
          refine leadsTo_of_advance (fun q => (E s q).1) w.db w.log w.ext (ws ++ [x]) (k none)
            hquiet rfl htask (by simp only [World.advance, hf, hquiet.free, if_true]) ?_
          rintro v hdb hext hquiet' htask'
          simp only [Prog.alone, hf]
          exact hdb ▸ ih _ (hext ▸ hR) hquiet' htask'
  | commit k ih =>
      intro s ws w hR hquiet htask
      refine leadsTo_of_advance (fun q => (E s q).1) (S.view w.db ws) _ w.ext [] k hquiet rfl
        htask rfl ?_
      rintro v hdb hext hquiet' htask'
      have hrest := ih (hext ▸ hR) hquiet' htask'
      rw [hdb] at hrest
      exact hrest
  | rollback k ih =>
      intro s ws w hR hquiet htask
      refine leadsTo_of_advance (fun q => (E s q).1) w.db w.log w.ext [] k hquiet rfl htask rfl
        ?_
      rintro v hdb hext hquiet' htask'
      exact hdb ▸ ih (hext ▸ hR) hquiet' htask'

/-- Task `i` can go on until `p` is left of it, with no other task moving and nothing committed. -/
def GoesOn (S : Schema Db Write Fault Key) (i : ℕ) (κ : P.Kind) (w : World H) (ws : List Write)
    (p : Prog Db Write Fault Ans Exc (P.Result κ)) : Prop :=
  ∃ w', Reachable S w w' ∧ w'.db = w.db ∧ w'.log = w.log ∧
    (∀ j, j ≠ i → w'.tasks[j]? = w.tasks[j]?) ∧
    w'.tasks[i]? = some ⟨κ, if p.done then [] else ws, p⟩

/-- No other transaction has locked what statements of this kind lock. -/
def World.Clear (S : Schema Db Write Fault Key) (w : World H) (i : ℕ) (writes : Write → Prop) :
    Prop :=
  ∀ j t, j ≠ i → w.tasks[j]? = some t → ∀ y ∈ t.writes, ∀ x, writes x → ∀ k ∈ S.locks y,
    k ∉ S.locks x

theorem World.Clear.free {writes : Write → Prop} (h : w.Clear S i writes) {x : Write}
    (hx : writes x) : w.free S i x = true := by
  refine List.all_eq_true.2 fun tj htj => ?_
  obtain ⟨t, j⟩ := tj
  rcases eq_or_ne j i with rfl | hj
  · simp
  · have hclear := h j t hj (List.mem_zipIdx_iff_getElem?.1 htj)
    simp only [Bool.or_eq_true, List.all_eq_true]
    refine Or.inr fun y hy k hk => ?_
    simpa using hclear y hy x hx k hk

/-- One step of the task, and then the rest. -/
theorem goesOn_of_advance {p : Prog Db Write Fault Ans Exc (P.Result κ)} {ws : List Write}
    {writes : Write → Prop} (answers : (q : Ask) → Ans q) (ext : H.Ext) (ws' : List Write)
    (p' : Prog Db Write Fault Ans Exc (P.Result κ)) {ws'' : List Write}
    {q : Prog Db Write Fault Ans Exc (P.Result κ)} (hclear : w.Clear S i writes)
    (hlive : p.done = false) (htask : w.tasks[i]? = some ⟨κ, if p.done then [] else ws, p⟩)
    (hadvance : w.advance S i answers ⟨κ, ws, p⟩ p =
      some ⟨w.db, w.log, ext, w.tasks.set i (Task.goto ⟨κ, ws, p⟩ ws' p')⟩)
    (hrest : ∀ v : World H, v.db = w.db → v.log = w.log → v.ext = ext → v.Clear S i writes →
      v.tasks[i]? = some ⟨κ, if p'.done then [] else ws', p'⟩ → GoesOn S i κ v ws'' q) :
    GoesOn S i κ w ws'' q := by
  obtain ⟨hstep, hother, hself⟩ := step_of_advance answers hlive htask hadvance
  obtain ⟨w', hreach, hdb, hlog, hkeep, hend⟩ := hrest
    ⟨w.db, w.log, ext, w.tasks.set i (Task.goto ⟨κ, ws, p⟩ ws' p')⟩ rfl rfl rfl
    (fun j t hj ht => hclear j t hj (hother j hj ▸ ht)) hself
  exact ⟨w', ((Reaches.refl).tail trivial hstep).trans hreach, hdb, hlog,
    fun j hj => (hkeep j hj).trans (hother j hj), hend⟩

/-- **A task goes through the beginning of its program by itself**, if no other transaction has
locked what it writes and the external system gives the environment's answers. -/
theorem goesOn_alone {writes : Write → Prop}
    (hanswer : ∀ e s d q, R e s → ∃ e', H.answer e d κ q (E s q).1 = some e' ∧ R e' (E s q).2)
    (p : Prog Db Write Fault Ans Exc α) (f : α → Prog Db Write Fault Ans Exc (P.Result κ))
    (hp : p.Inside (fun _ => True) (fun _ => True) writes) :
    ∀ {s s' : σ} {ws ws' : List Write} {d' : Db} {a : α} {w : World H}, R w.ext s →
      w.Clear S i writes → w.tasks[i]? = some ⟨κ, if (p >>= f).done then [] else ws, p >>= f⟩ →
      p.alone S E s w.db ws = ⟨d', ws', s', .ok a⟩ → GoesOn S i κ w ws' (f a) := by
  rw [Prog.bind_eq]
  induction p with
  | ret a =>
      intro s s' ws ws' d' b w _ _ htask hrun
      obtain ⟨-, rfl, -, hb⟩ := Outcome.mk.inj hrun
      obtain rfl := Except.ok.inj hb
      exact ⟨w, Reaches.refl, rfl, rfl, fun _ _ => rfl, htask⟩
  | raise e =>
      intro s s' ws ws' d' b w _ _ _ hrun
      cases (Outcome.mk.inj hrun).2.2.2
  | ask q k ih =>
      intro s s' ws ws' d' b w hR hclear htask hrun
      obtain ⟨e', he, hR'⟩ := hanswer w.ext s w.db q hR
      refine goesOn_of_advance (fun q => (E s q).1) e' ws ((k (E s q).1).bind f) hclear rfl htask
        (by simp only [Prog.bind, World.advance, he, Option.map_some]) ?_
      rintro v hdb - rfl hclear' htask'
      exact ih _ (hp.2 _) hR' hclear' htask' (hdb ▸ hrun)
  | query k ih =>
      intro s s' ws ws' d' b w hR hclear htask hrun
      refine goesOn_of_advance (fun q => (E s q).1) w.ext ws ((k (S.view w.db ws)).bind f) hclear
        rfl htask rfl ?_
      rintro v hdb - hext hclear' htask'
      exact ih _ (hp _) (hext ▸ hR) hclear' htask' (by rw [hdb]; exact hrun)
  | exec x k ih =>
      intro s s' ws ws' d' b w hR hclear htask hrun
      rw [Prog.alone] at hrun
      cases hf : S.fault (S.view w.db ws) x with
      | some g =>
          rw [hf] at hrun
          refine goesOn_of_advance (fun q => (E s q).1) w.ext ws ((k (some g)).bind f) hclear rfl
            htask (by simp only [Prog.bind, World.advance, hf]) ?_
          rintro v hdb - hext hclear' htask'
          exact ih _ (hp.2 _) (hext ▸ hR) hclear' htask' (hdb ▸ hrun)
      | none =>
          rw [hf] at hrun
          refine goesOn_of_advance (fun q => (E s q).1) w.ext (ws ++ [x]) ((k none).bind f) hclear
            rfl htask (by simp only [Prog.bind, World.advance, hf, hclear.free hp.1, if_true]) ?_
          rintro v hdb - hext hclear' htask'
          exact ih _ (hp.2 _) (hext ▸ hR) hclear' htask' (hdb ▸ hrun)
  | commit k ih => exact hp.elim
  | rollback k ih => exact hp.elim

end Steps

/-- **A world in which no transaction is open reaches what the run of a program by itself leads
to**, if the program may start. -/
theorem reachable_alone (R : H.Ext → σ → Prop) (κ : P.Kind)
    (hanswer : ∀ e s d q, R e s → ∃ e', H.answer e d κ q (E s q).1 = some e' ∧ R e' (E s q).2)
    {w : World H} {s : σ} (hR : R w.ext s) (hspawn : H.spawn w.db w.ext κ = true)
    (hquiet : ∀ t ∈ w.tasks, t.writes = []) :
    ∃ w', Reachable S w w' ∧ w'.db = ((P.prog κ).alone S E s w.db []).db ∧
      R w'.ext ((P.prog κ).alone S E s w.db []).env ∧ ∀ t ∈ w'.tasks, t.writes = [] := by
  have hstep : w.step S (.spawn κ) =
      some { w with tasks := w.tasks ++ [⟨κ, [], P.prog κ⟩] } := by
    rw [World.step, if_pos hspawn]
  have hself : (w.tasks ++ [⟨κ, [], P.prog κ⟩])[w.tasks.length]? =
      some ⟨κ, if (P.prog κ).done then [] else [], P.prog κ⟩ := by
    rw [List.getElem?_append_right (Nat.le_refl _), Nat.sub_self, ite_self]
    rfl
  have hold : ∀ t ∈ w.tasks ++ [⟨κ, [], P.prog κ⟩], t.writes = [] := by
    intro t ht
    rcases List.mem_append.1 ht with ht | ht
    · exact hquiet t ht
    · rw [List.mem_singleton.1 ht]
  obtain ⟨w', hreach, hdb, hext, hkeep, hend⟩ := leadsTo_alone (S := S) hanswer (P.prog κ)
    (w := { w with tasks := w.tasks ++ [⟨κ, [], P.prog κ⟩] }) hR
    (fun j t _ ht => hold t (List.mem_of_getElem? ht)) hself
  refine ⟨w', ((Reaches.refl).tail trivial hstep).trans hreach, hdb, hext, fun t ht => ?_⟩
  obtain ⟨j, hj⟩ := List.getElem?_of_mem ht
  rcases eq_or_ne j w.tasks.length with rfl | hne
  · rw [hend] at hj
    rw [← Option.some.inj hj]
  · rw [hkeep j hne] at hj
    exact hold t (List.mem_of_getElem? hj)

end Worlds

end ReadCommitted
