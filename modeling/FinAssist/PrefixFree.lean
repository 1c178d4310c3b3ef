/-
**Encodings that say themselves where they end.**

An encoding is prefix free when what was encoded can be told, and split off, from any text that
starts with it.  Such encodings can be written one after the other without anything in between; so
a text made of several of them determines all of them.

Main definitions:

* `PrefixFree` — the encoding of a value is split off any text in one way only.

Main results:

* `PrefixFree.append` — one after the other;
* `PrefixFree.of_stop` — ended by a mark that does not occur inside;
* `PrefixFree.flatMap` — **a list of them, ended by a mark that starts none of them**.
-/

import Mathlib.Data.List.Basic

set_option relaxedAutoImplicit false
set_option autoImplicit false

variable {α β γ : Type}

/-- **The encoding of a value is split off any text in one way only.** -/
def PrefixFree (f : α → List γ) : Prop :=
  ∀ (x y : α) (r s : List γ), f x ++ r = f y ++ s → x = y ∧ r = s

namespace PrefixFree

theorem injective {f : α → List γ} (h : PrefixFree f) : Function.Injective f := by
  intro x y hxy
  exact (h x y [] [] (by rw [hxy])).1

/-- A value that determines the encoded one may be encoded so. -/
theorem comp {f : α → List γ} (h : PrefixFree f) {g : β → α} (hg : Function.Injective g) :
    PrefixFree fun x => f (g x) := by
  intro x y r s hxy
  obtain ⟨hg', hrs⟩ := h _ _ r s hxy
  exact ⟨hg hg', hrs⟩

/-- A text in front changes nothing. -/
theorem after {f : α → List γ} (h : PrefixFree f) (u : List γ) : PrefixFree fun x => u ++ f x := by
  intro x y r s hxy
  have hcancel : u ++ (f x ++ r) = u ++ (f y ++ s) := by simpa only [List.append_assoc] using hxy
  exact h x y r s (List.append_cancel_left hcancel)

/-- A text behind changes nothing. -/
theorem before {f : α → List γ} (h : PrefixFree f) (u : List γ) : PrefixFree fun x => f x ++ u := by
  intro x y r s hxy
  simp only [List.append_assoc] at hxy
  obtain ⟨rfl, hrs⟩ := h x y _ _ hxy
  exact ⟨rfl, List.append_cancel_left hrs⟩

/-- **One after the other.** -/
theorem append {f : α → List γ} {g : β → List γ} (hf : PrefixFree f) (hg : PrefixFree g) :
    PrefixFree fun p : α × β => f p.1 ++ g p.2 := by
  rintro ⟨x, y⟩ ⟨x', y'⟩ r s h
  simp only [List.append_assoc] at h
  obtain ⟨rfl, htail⟩ := hf x x' _ _ h
  obtain ⟨rfl, hrs⟩ := hg y y' r s htail
  exact ⟨rfl, hrs⟩

/-- **Ended by a mark** that does not occur inside. -/
theorem of_stop {f : α → List γ} (stop : γ) (hstop : ∀ x, stop ∉ f x)
    (hf : Function.Injective f) : PrefixFree fun x => f x ++ [stop] := by
  have hsplit : ∀ u v r s : List γ, stop ∉ u → stop ∉ v →
      u ++ stop :: r = v ++ stop :: s → u = v ∧ r = s := by
    intro u
    induction u with
    | nil =>
        intro v r s _ hv h
        cases v with
        | nil => exact ⟨rfl, by simpa using h⟩
        | cons c v =>
            simp only [List.nil_append, List.cons_append, List.cons.injEq] at h
            exact absurd (h.1 ▸ List.mem_cons_self) hv
    | cons c u ih =>
        intro v r s hu hv h
        cases v with
        | nil =>
            simp only [List.nil_append, List.cons_append, List.cons.injEq] at h
            exact absurd (h.1 ▸ List.mem_cons_self) hu
        | cons d v =>
            simp only [List.cons_append, List.cons.injEq] at h
            obtain ⟨rfl, hrs⟩ := ih v r s (fun hm => hu (List.mem_cons_of_mem _ hm))
              (fun hm => hv (List.mem_cons_of_mem _ hm)) h.2
            exact ⟨by rw [h.1], hrs⟩
  intro x y r s h
  simp only [List.append_assoc, List.cons_append, List.nil_append] at h
  obtain ⟨hxy, hrs⟩ := hsplit _ _ r s (hstop x) (hstop y) h
  exact ⟨hf hxy, hrs⟩

/-- **A list of encodings, ended by a mark** that starts none of them. -/
theorem flatMap {f : α → List γ} (hf : PrefixFree f) (stop : γ)
    (hstop : ∀ x r s, f x ++ r ≠ stop :: s) :
    PrefixFree fun xs : List α => xs.flatMap f ++ [stop] := by
  intro xs
  induction xs with
  | nil =>
      intro ys r s h
      cases ys with
      | nil => exact ⟨rfl, List.append_cancel_left h⟩
      | cons y ys =>
          simp only [List.flatMap_cons, List.append_assoc] at h
          exact absurd h.symm (hstop y _ _)
  | cons x xs ih =>
      intro ys r s h
      cases ys with
      | nil =>
          simp only [List.flatMap_cons, List.append_assoc] at h
          exact absurd h (hstop x _ _)
      | cons y ys =>
          simp only [List.flatMap_cons, List.append_assoc] at h
          obtain ⟨rfl, htail⟩ := hf x y _ _ h
          obtain ⟨rfl, hrs⟩ := ih ys r s (by simpa only [List.append_assoc] using htail)
          exact ⟨rfl, hrs⟩

end PrefixFree
