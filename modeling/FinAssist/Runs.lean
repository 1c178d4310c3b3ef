/-
**Runs of a system that takes one step after another.**

A system is a function that says what becomes of a state when an action is chosen, if the action is
possible in it.  This module names no particular system; it has what every induction over runs
needs.

Main definitions:

* `Runs.Reaches` — the states reached by runs whose steps all meet a condition;
* `Runs.follow` — where a schedule leads.

Main results:

* `Runs.Reaches.invariant` — **what every step keeps holds of every state that is reached**;
* `Runs.reaches_follow` — a schedule that can be executed is a run.
-/

import Mathlib.Data.List.Basic

set_option relaxedAutoImplicit false
set_option autoImplicit false

namespace Runs

variable {S A : Type} (step : S → A → Option S)

/-- **The states reached from `s₀`** by runs each of whose steps meets the condition `ok`, a
condition on the state before the step and on the action. -/
inductive Reaches (ok : S → A → Prop) (s₀ : S) : S → Prop
  | refl : Reaches ok s₀ s₀
  | tail {s s' : S} {a : A} (h : Reaches ok s₀ s) (hok : ok s a) (hs : step s a = some s') :
      Reaches ok s₀ s'

/-- The states reached by any run. -/
abbrev Reachable (s₀ : S) : S → Prop := Reaches step (fun _ _ => True) s₀

variable {step}

/-- **What every step keeps holds of every state that is reached.** -/
theorem Reaches.invariant {ok : S → A → Prop} {s₀ s : S} (Inv : S → Prop) (h₀ : Inv s₀)
    (hstep : ∀ s a s', Inv s → ok s a → step s a = some s' → Inv s')
    (h : Reaches step ok s₀ s) : Inv s := by
  induction h with
  | refl => exact h₀
  | tail _ hok hs ih => exact hstep _ _ _ ih hok hs

theorem Reaches.mono {ok ok' : S → A → Prop} {s₀ s : S} (himp : ∀ s a, ok s a → ok' s a)
    (h : Reaches step ok s₀ s) : Reaches step ok' s₀ s := by
  induction h with
  | refl => exact Reaches.refl
  | tail _ hok hs ih => exact ih.tail (himp _ _ hok) hs

theorem Reaches.trans {ok : S → A → Prop} {s₀ s s' : S} (h : Reaches step ok s₀ s)
    (h' : Reaches step ok s s') : Reaches step ok s₀ s' := by
  induction h' with
  | refl => exact h
  | tail _ hok hs ih => exact ih.tail hok hs

/-! ### Schedules -/

/-- A schedule, executed. -/
def run (step : S → A → Option S) (s : S) : List A → Option S
  | [] => some s
  | a :: as => (step s a).bind fun s' => run step s' as

/-- Where a schedule leads; where it cannot be executed, nowhere. -/
def follow (step : S → A → Option S) (s : S) (as : List A) : S := (run step s as).getD s

/-- A schedule whose steps all meet the condition. -/
def RunOk (step : S → A → Option S) (ok : S → A → Prop) (s : S) : List A → Prop
  | [] => True
  | a :: as => ok s a ∧ ∀ s', step s a = some s' → RunOk step ok s' as

instance decidableRunOk {ok : S → A → Prop} [∀ s a, Decidable (ok s a)] :
    ∀ (as : List A) (s : S), Decidable (RunOk step ok s as)
  | [], _ => isTrue trivial
  | a :: as, s =>
      have : Decidable (∀ s', step s a = some s' → RunOk step ok s' as) :=
        match h : step s a with
        | none => isTrue fun s' hs => by cases hs
        | some s' => match decidableRunOk as s' with
          | isTrue hok => isTrue fun s'' hs => Option.some.inj hs ▸ hok
          | isFalse hno => isFalse fun hall => hno (hall s' rfl)
      inferInstanceAs (Decidable (ok s a ∧ ∀ s', step s a = some s' → RunOk step ok s' as))

theorem reaches_of_run {ok : S → A → Prop} {s₀ : S} : ∀ (as : List A) {s s' : S},
    Reaches step ok s₀ s → RunOk step ok s as → run step s as = some s' →
    Reaches step ok s₀ s' := by
  intro as
  induction as with
  | nil =>
      intro s s' h _ hr
      simp only [run, Option.some.injEq] at hr
      exact hr ▸ h
  | cons a as ih =>
      intro s s' h hok hr
      simp only [run, Option.bind_eq_some_iff] at hr
      obtain ⟨v, hv, hr⟩ := hr
      exact ih (h.tail hok.1 hv) (hok.2 v hv) hr

/-- A schedule that can be executed is a run. -/
theorem reaches_follow {ok : S → A → Prop} {s : S} {as : List A} (hok : RunOk step ok s as) :
    Reaches step ok s (follow step s as) := by
  cases h : run step s as with
  | none => rw [follow, h]; exact Reaches.refl
  | some s' => rw [follow, h]; exact reaches_of_run as Reaches.refl hok h

theorem runOk_true : ∀ (as : List A) (s : S), RunOk step (fun _ _ => True) s as := by
  intro as
  induction as with
  | nil => exact fun _ => trivial
  | cons a as ih => exact fun s => ⟨trivial, fun s' _ => ih s'⟩

theorem reachable_follow (s : S) (as : List A) : Reachable step s (follow step s as) :=
  reaches_follow (runOk_true as s)

end Runs
