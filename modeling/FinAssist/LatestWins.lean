/-
**Registers that keep the latest of what they are given.**

A register is told of events one at a time, in any order and any number of times, and keeps the one
with the highest version.  This module names no particular kind of event; it says that such a
register never goes back, and that what it holds in the end depends on which events it was told of
and on nothing else.

Main definitions:

* `LatestWins.absorb` — a register is told of an event;
* `LatestWins.latest` — what it holds after a list of them.

Main results:

* `LatestWins.latest_le_append` — **a register never goes back**;
* `LatestWins.absorb_latest_of_mem` — telling it again changes nothing;
* `LatestWins.latest_eq_of_max` — **it holds the highest of what it was told**.
-/

import Mathlib.Data.List.Induction
import Mathlib.Data.Set.Function
import Mathlib.Order.Defs.LinearOrder

set_option relaxedAutoImplicit false
set_option autoImplicit false

namespace LatestWins

variable {E V : Type} [LinearOrder V] (version : E → V)

/-- A register is told of an event: it keeps it, unless what it has is later. -/
def absorb (held : Option E) (e : E) : Option E :=
  match held with
  | none => some e
  | some x => if version x ≤ version e then some e else some x

/-- **What a register holds** after it was told of some events. -/
def latest (es : List E) : Option E := es.foldl (absorb version) none

@[simp] theorem latest_nil : latest version ([] : List E) = none := rfl

theorem latest_concat (es : List E) (e : E) :
    latest version (es ++ [e]) = absorb version (latest version es) e := by
  rw [latest, List.foldl_append]
  rfl

theorem absorb_isSome (held : Option E) (e : E) : ∃ x, absorb version held e = some x := by
  unfold absorb
  split
  · exact ⟨e, rfl⟩
  · split <;> exact ⟨_, rfl⟩

/-- What it held is not later than what it holds then. -/
theorem le_absorb {held : Option E} {e x y : E} (hx : held = some x)
    (hy : absorb version held e = some y) : version x ≤ version y := by
  subst hx
  simp only [absorb] at hy
  split at hy
  next h => cases hy; exact h
  next => cases hy; exact le_refl _

/-- Neither is the event it was told of. -/
theorem event_le_absorb {held : Option E} {e y : E} (hy : absorb version held e = some y) :
    version e ≤ version y := by
  unfold absorb at hy
  split at hy
  · cases hy; exact le_refl _
  · split at hy
    next => cases hy; exact le_refl _
    next h => cases hy; exact le_of_not_ge h

theorem latest_mem {es : List E} {x : E} (h : latest version es = some x) : x ∈ es := by
  induction es using List.reverseRecOn with
  | nil => cases h
  | append_singleton es e ih =>
      rw [latest_concat] at h
      cases hl : latest version es with
      | none =>
          rw [hl] at h
          cases h
          exact List.mem_append_right _ (List.mem_singleton.2 rfl)
      | some y =>
          rw [hl, absorb] at h
          split at h
          · cases h
            exact List.mem_append_right _ (List.mem_singleton.2 rfl)
          · cases h
            exact List.mem_append_left _ (ih hl)

/-- Nothing it was told of is later than what it holds. -/
theorem exists_latest {es : List E} {e : E} (he : e ∈ es) :
    ∃ x, latest version es = some x ∧ version e ≤ version x := by
  induction es using List.reverseRecOn with
  | nil => cases he
  | append_singleton es e' ih =>
      rw [latest_concat]
      obtain ⟨y, hy⟩ := absorb_isSome version (latest version es) e'
      refine ⟨y, hy, ?_⟩
      rcases List.mem_append.1 he with he | he
      · obtain ⟨x, hx, hle⟩ := ih he
        exact hle.trans (le_absorb version hx hy)
      · obtain rfl := List.mem_singleton.1 he
        exact event_le_absorb version hy

/-- **A register never goes back.** -/
theorem latest_le_append {es : List E} {x : E} (hx : latest version es = some x) (fs : List E) :
    ∃ y, latest version (es ++ fs) = some y ∧ version x ≤ version y :=
  exists_latest version (List.mem_append_left fs (latest_mem version hx))

/-- **It holds the highest of what it was told**, where versions tell events apart. -/
theorem latest_eq_of_max {es : List E} (hinj : Set.InjOn version {e | e ∈ es}) {e : E}
    (he : e ∈ es) (hmax : ∀ e' ∈ es, version e' ≤ version e) : latest version es = some e := by
  obtain ⟨x, hx, hle⟩ := exists_latest version he
  have hmem := latest_mem version hx
  rw [hx, hinj hmem he (le_antisymm (hmax x hmem) hle)]

/-- Told again of an event, it holds what it held. -/
theorem absorb_latest_of_mem {es : List E} (hinj : Set.InjOn version {e | e ∈ es}) {e : E}
    (he : e ∈ es) : absorb version (latest version es) e = latest version es := by
  obtain ⟨x, hx, hle⟩ := exists_latest version he
  rw [hx, absorb]
  split
  next h => rw [hinj he (latest_mem version hx) (le_antisymm hle h)]
  next => rfl

end LatestWins
