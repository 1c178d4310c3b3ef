/-
**Patterns that are matched by backtracking.**

A pattern reads symbols from the left: one symbol of a class, as many of a class as there are, one
pattern after the other, and a group that remembers what it has read.  A repetition is greedy, but
it gives back what it has read, symbol by symbol, where the rest of the pattern does not match; so
a pattern can read the beginning of a list in several ways, and there is an order in which they
are tried.  The first way is the match.  A search looks for the first position with a match.

Main definitions:

* `Backtracking.Pattern` — the patterns;
* `Backtracking.Pattern.ends` — **the ways to read the beginning of a list**, in the order in which
  they are tried, and `Pattern.matchAt`, the first of them;
* `Backtracking.Pattern.search` — the groups of the first match at the first position with one;
* `Backtracking.Pattern.Reads` — what a pattern can read, with no order.

Main results:

* `Backtracking.Pattern.mem_ends_iff` — the ways that are tried are those there are;
* `Backtracking.Pattern.reads_of_search` — **a search finds what the pattern can read**;
* `Backtracking.Pattern.matchAt_many`, `matchAt_kept` — a repetition step by step;
* `Backtracking.Pattern.search_marker` — **a search for what follows a marker** looks at the places
  where the marker's last symbol is, and nowhere else;
* `Backtracking.Pattern.search_word_seq_iff` — and ends at the first place where the rest of the
  pattern goes on;
* `Backtracking.Pattern.groupsAt_many_seq_longest`, `groupsAt_plus_seq_longest` — **a repetition has
  read the most that will do**.
-/

import Mathlib.Data.List.Infix

set_option relaxedAutoImplicit false
set_option autoImplicit false

namespace Backtracking

/-- **A pattern**: `many p` reads as many symbols of the class `p` as it can. -/
inductive Pattern (α : Type)
  | empty
  | one (p : α → Bool)
  | many (p : α → Bool)
  | seq (r s : Pattern α)
  | group (r : Pattern α)

/-- What a pattern has read, what its groups have, and what is left. -/
@[ext] structure Match (α : Type) where
  read : List α
  groups : List (List α)
  rest : List α
  deriving DecidableEq

variable {α : Type}

/-- A match, and one of what it has left. -/
def Match.andThen (m m' : Match α) : Match α := ⟨m.read ++ m'.read, m.groups ++ m'.groups, m'.rest⟩

/-- Some symbols were read before. -/
def Match.prepend (xs : List α) (m : Match α) : Match α := ⟨xs ++ m.read, m.groups, m.rest⟩

@[simp] theorem Match.prepend_nil (m : Match α) : m.prepend [] = m := rfl

namespace Pattern

/-- The ways to read symbols of a class, the longest first. -/
def repeats (p : α → Bool) : List α → List (Match α)
  | [] => [⟨[], [], []⟩]
  | x :: xs =>
      if p x then (repeats p xs).map (Match.prepend [x]) ++ [⟨[], [], x :: xs⟩]
      else [⟨[], [], x :: xs⟩]

/-- **The ways to read the beginning of a list**, in the order in which they are tried. -/
def ends : Pattern α → List α → List (Match α)
  | empty, xs => [⟨[], [], xs⟩]
  | one _, [] => []
  | one p, x :: xs => if p x then [⟨[x], [], xs⟩] else []
  | many p, xs => repeats p xs
  | seq r s, xs => (r.ends xs).flatMap fun m => (s.ends m.rest).map m.andThen
  | group r, xs => (r.ends xs).map fun m => ⟨m.read, m.read :: m.groups, m.rest⟩

/-- The first of them. -/
def matchAt (r : Pattern α) (xs : List α) : Option (Match α) := (r.ends xs).head?

/-- **The groups of the first match** at the first position that has one. -/
def search (r : Pattern α) : List α → Option (List (List α))
  | [] => (r.matchAt []).map Match.groups
  | x :: xs => ((r.matchAt (x :: xs)).map Match.groups).or (search r xs)

/-- Exactly these symbols. -/
def word [DecidableEq α] : List α → Pattern α
  | [] => empty
  | c :: cs => seq (one fun x => x = c) (word cs)

/-- At least one symbol of a class. -/
def plus (p : α → Bool) : Pattern α := seq (one p) (many p)

/-- So many symbols of a class. -/
def times (p : α → Bool) : ℕ → Pattern α
  | 0 => empty
  | n + 1 => seq (one p) (times p n)

/-! ### What a pattern can read -/

/-- **What a pattern reads**, and its groups. -/
inductive Reads : Pattern α → List α → List (List α) → Prop
  | empty : Reads empty [] []
  | one {p : α → Bool} {x : α} (h : p x = true) : Reads (one p) [x] []
  | many {p : α → Bool} {xs : List α} (h : ∀ x ∈ xs, p x = true) : Reads (many p) xs []
  | seq {r s : Pattern α} {xs ys : List α} {gs hs : List (List α)} (h : Reads r xs gs)
      (h' : Reads s ys hs) : Reads (seq r s) (xs ++ ys) (gs ++ hs)
  | group {r : Pattern α} {xs : List α} {gs : List (List α)} (h : Reads r xs gs) :
      Reads (group r) xs (xs :: gs)

theorem reads_one_iff {p : α → Bool} {xs : List α} {gs : List (List α)} :
    Reads (one p) xs gs ↔ (∃ x, p x = true ∧ xs = [x]) ∧ gs = [] := by
  constructor
  · rintro (_ | h)
    exact ⟨⟨_, h, rfl⟩, rfl⟩
  · rintro ⟨⟨x, h, rfl⟩, rfl⟩
    exact .one h

theorem reads_many_iff {p : α → Bool} {xs : List α} {gs : List (List α)} :
    Reads (many p) xs gs ↔ (∀ x ∈ xs, p x = true) ∧ gs = [] := by
  constructor
  · intro h
    cases h with
    | many h => exact ⟨h, rfl⟩
  · rintro ⟨h, rfl⟩
    exact .many h

theorem reads_seq_iff {r s : Pattern α} {zs : List α} {gs : List (List α)} :
    Reads (seq r s) zs gs ↔ ∃ xs ys hs hs', zs = xs ++ ys ∧ gs = hs ++ hs' ∧
      Reads r xs hs ∧ Reads s ys hs' := by
  constructor
  · intro h
    cases h with
    | seq hr hs => exact ⟨_, _, _, _, rfl, rfl, hr, hs⟩
  · rintro ⟨xs, ys, hs, hs', rfl, rfl, hr, hs⟩
    exact .seq hr hs

theorem reads_group_iff {r : Pattern α} {xs : List α} {gs : List (List α)} :
    Reads (group r) xs gs ↔ ∃ hs, gs = xs :: hs ∧ Reads r xs hs := by
  constructor
  · intro h
    cases h with
    | group h => exact ⟨_, rfl, h⟩
  · rintro ⟨hs, rfl, h⟩
    exact .group h

theorem reads_word [DecidableEq α] : ∀ {w xs : List α} {gs : List (List α)},
    Reads (word w) xs gs → xs = w ∧ gs = [] := by
  intro w
  induction w with
  | nil =>
      intro xs gs h
      cases h
      exact ⟨rfl, rfl⟩
  | cons c cs ih =>
      intro xs gs h
      obtain ⟨_, ys, _, _, rfl, rfl, hc, hcs⟩ := reads_seq_iff.1 h
      obtain ⟨⟨x, hx, rfl⟩, rfl⟩ := reads_one_iff.1 hc
      obtain ⟨rfl, rfl⟩ := ih hcs
      exact ⟨by simpa using hx, rfl⟩

theorem reads_plus_iff {p : α → Bool} {xs : List α} {gs : List (List α)} :
    Reads (plus p) xs gs ↔ xs ≠ [] ∧ (∀ x ∈ xs, p x = true) ∧ gs = [] := by
  rw [plus, reads_seq_iff]
  constructor
  · rintro ⟨_, ys, _, _, rfl, rfl, hone, hxs⟩
    obtain ⟨⟨x, hx, rfl⟩, rfl⟩ := reads_one_iff.1 hone
    obtain ⟨hall, rfl⟩ := reads_many_iff.1 hxs
    exact ⟨by simp, by simpa [hx] using hall, rfl⟩
  · rintro ⟨hne, hxs, rfl⟩
    obtain ⟨x, ys, rfl⟩ := List.exists_cons_of_ne_nil hne
    exact ⟨[x], ys, [], [], rfl, rfl, .one (hxs x (by simp)),
      .many fun y hy => hxs y (List.mem_cons_of_mem _ hy)⟩

theorem reads_times {p : α → Bool} : ∀ {n : ℕ} {xs : List α} {gs : List (List α)},
    Reads (times p n) xs gs → xs.length = n ∧ (∀ x ∈ xs, p x = true) ∧ gs = [] := by
  intro n
  induction n with
  | zero =>
      intro xs gs h
      cases h
      exact ⟨rfl, by simp, rfl⟩
  | succ n ih =>
      intro xs gs h
      obtain ⟨_, ys, _, _, rfl, rfl, hone, hxs⟩ := reads_seq_iff.1 h
      obtain ⟨⟨x, hx, rfl⟩, rfl⟩ := reads_one_iff.1 hone
      obtain ⟨hlength, hall, rfl⟩ := ih hxs
      exact ⟨by simp [hlength], by simpa [hx] using hall, rfl⟩

theorem mem_repeats_iff {p : α → Bool} : ∀ {xs : List α} {m : Match α},
    m ∈ repeats p xs ↔ xs = m.read ++ m.rest ∧ m.groups = [] ∧ ∀ x ∈ m.read, p x = true := by
  intro xs
  induction xs with
  | nil =>
      rintro ⟨read, groups, rest⟩
      simp only [repeats, List.mem_singleton, Match.mk.injEq]
      constructor
      · rintro ⟨rfl, rfl, rfl⟩
        simp
      · rintro ⟨h, rfl, -⟩
        obtain ⟨rfl, rfl⟩ := List.append_eq_nil_iff.1 h.symm
        simp
  | cons x xs ih =>
      rintro ⟨read, groups, rest⟩
      rw [repeats]
      have hstop : (⟨read, groups, rest⟩ : Match α) = ⟨[], [], x :: xs⟩ →
          x :: xs = read ++ rest ∧ groups = [] ∧ ∀ y ∈ read, p y = true := by
        rintro h
        cases h
        simp
      split
      next hp =>
        simp only [List.mem_append, List.mem_map, List.mem_singleton]
        constructor
        · rintro (⟨m, hm, hcons⟩ | h)
          · cases hcons
            obtain ⟨hxs, hgroups, hread⟩ := ih.1 hm
            refine ⟨by simp [← hxs], hgroups, ?_⟩
            rintro y hy
            rcases List.mem_cons.1 hy with rfl | hy
            · exact hp
            · exact hread y hy
          · exact hstop h
        · rintro ⟨hxs, rfl, hread⟩
          cases read with
          | nil => exact Or.inr (by simpa using hxs.symm)
          | cons y read =>
              obtain ⟨rfl, hrest⟩ := List.cons.inj hxs
              exact Or.inl ⟨⟨read, [], rest⟩,
                ih.2 ⟨hrest, rfl, fun z hz => hread z (List.mem_cons_of_mem _ hz)⟩, rfl⟩
      next hp =>
        rw [List.mem_singleton]
        refine ⟨hstop, ?_⟩
        rintro ⟨hxs, rfl, hread⟩
        cases read with
        | nil => simpa using hxs.symm
        | cons y read =>
            obtain ⟨rfl, -⟩ := List.cons.inj hxs
            exact absurd (hread x List.mem_cons_self) hp

/-- **The ways that are tried are those there are.** -/
theorem mem_ends_iff {r : Pattern α} : ∀ {xs : List α} {m : Match α},
    m ∈ r.ends xs ↔ xs = m.read ++ m.rest ∧ r.Reads m.read m.groups := by
  induction r with
  | empty =>
      rintro xs ⟨read, groups, rest⟩
      simp only [ends, List.mem_singleton, Match.mk.injEq]
      constructor
      · rintro ⟨rfl, rfl, rfl⟩
        exact ⟨rfl, .empty⟩
      · rintro ⟨h, hr⟩
        cases hr
        exact ⟨rfl, rfl, h.symm⟩
  | one p =>
      rintro xs ⟨read, groups, rest⟩
      cases xs with
      | nil =>
          simp only [ends, List.not_mem_nil, false_iff]
          rintro ⟨h, hr⟩
          cases hr
          cases h
      | cons x xs =>
          simp only [ends]
          split
          next hp =>
            rw [List.mem_singleton]
            constructor
            · rintro h
              cases h
              exact ⟨rfl, .one hp⟩
            · rintro ⟨h, hr⟩
              cases hr
              obtain ⟨rfl, rfl⟩ := List.cons.inj h
              rfl
          next hp =>
            simp only [List.not_mem_nil, false_iff]
            rintro ⟨h, hr⟩
            cases hr with
            | one hx =>
                obtain ⟨rfl, -⟩ := List.cons.inj h
                exact hp hx
  | many p =>
      rintro xs ⟨read, groups, rest⟩
      rw [ends, mem_repeats_iff]
      refine and_congr_right fun _ => ?_
      constructor
      · rintro ⟨rfl, h⟩
        exact .many h
      · rintro h
        cases h with
        | many h => exact ⟨rfl, h⟩
  | seq r s ihr ihs =>
      rintro xs ⟨read, groups, rest⟩
      simp only [ends, List.mem_flatMap, List.mem_map]
      constructor
      · rintro ⟨m, hm, m', hm', heq⟩
        cases heq
        obtain ⟨hxs, hr⟩ := ihr.1 hm
        obtain ⟨hrest, hs⟩ := ihs.1 hm'
        exact ⟨by rw [hxs, hrest, List.append_assoc], hr.seq hs⟩
      · rintro ⟨h, hrs⟩
        cases hrs with
        | @seq _ _ ys zs gs hs hr hs' =>
            refine ⟨⟨ys, gs, zs ++ rest⟩, ihr.2 ⟨by rw [h, List.append_assoc], hr⟩,
              ⟨zs, hs, rest⟩, ihs.2 ⟨rfl, hs'⟩, rfl⟩
  | group r ih =>
      rintro xs ⟨read, groups, rest⟩
      simp only [ends, List.mem_map]
      constructor
      · rintro ⟨m, hm, heq⟩
        cases heq
        obtain ⟨hxs, hr⟩ := ih.1 hm
        exact ⟨hxs, hr.group⟩
      · rintro ⟨h, hr⟩
        cases hr with
        | @group _ _ gs hr => exact ⟨⟨read, gs, rest⟩, ih.2 ⟨h, hr⟩, rfl⟩

/-- A match is one of the readings. -/
theorem reads_of_matchAt {r : Pattern α} {xs : List α} {m : Match α}
    (h : r.matchAt xs = some m) : xs = m.read ++ m.rest ∧ r.Reads m.read m.groups :=
  mem_ends_iff.1 (List.mem_of_mem_head? h)

/-- **What a search finds**, the pattern reads somewhere in the list. -/
theorem reads_of_search {r : Pattern α} : ∀ {xs : List α} {gs : List (List α)},
    r.search xs = some gs → ∃ before read after, xs = before ++ read ++ after ∧ r.Reads read gs := by
  intro xs
  have hhere : ∀ {xs : List α} {gs : List (List α)},
      (r.matchAt xs).map Match.groups = some gs →
        ∃ before read after, xs = before ++ read ++ after ∧ r.Reads read gs := by
    intro xs gs h
    obtain ⟨m, hm, rfl⟩ := Option.map_eq_some_iff.1 h
    obtain ⟨hxs, hr⟩ := reads_of_matchAt hm
    exact ⟨[], m.read, m.rest, hxs, hr⟩
  induction xs with
  | nil =>
      intro gs h
      exact hhere h
  | cons x xs ih =>
      intro gs h
      rw [search, Option.or_eq_some_iff] at h
      rcases h with h | ⟨-, h⟩
      · exact hhere h
      · obtain ⟨before, read, after, hxs, hr⟩ := ih h
        exact ⟨x :: before, read, after, by simp [hxs], hr⟩

/-- What a group has read is part of what the pattern has read. -/
theorem Reads.groupsWithin {r : Pattern α} {read : List α} {gs : List (List α)} (h : r.Reads read gs) :
    ∀ g ∈ gs, g <:+: read := by
  induction h with
  | empty => simp
  | one _ => simp
  | many _ => simp
  | seq _ _ ihr ihs =>
      intro g hg
      rcases List.mem_append.1 hg with hg | hg
      · exact (ihr g hg).trans (List.prefix_append _ _).isInfix
      · exact (ihs g hg).trans (List.suffix_append _ _).isInfix
  | group _ ih =>
      intro g hg
      rcases List.mem_cons.1 hg with rfl | hg
      · exact List.infix_refl _
      · exact ih g hg

/-- And so part of the list that was searched. -/
theorem infix_of_search {r : Pattern α} {xs : List α} {gs : List (List α)}
    (h : r.search xs = some gs) : ∀ g ∈ gs, g <:+: xs := by
  obtain ⟨before, read, after, rfl, hr⟩ := reads_of_search h
  exact fun g hg => (hr.groupsWithin g hg).trans (List.infix_append _ _ _)

/-! ### The groups of a match, step by step -/

/-- The groups of the match at the beginning. -/
def groupsAt (r : Pattern α) (xs : List α) : Option (List (List α)) :=
  (r.matchAt xs).map Match.groups

/-- A match at the beginning is the first one. -/
theorem search_of_groupsAt {r : Pattern α} {xs : List α} {gs : List (List α)}
    (h : r.groupsAt xs = some gs) : r.search xs = some gs := by
  rw [groupsAt] at h
  cases xs <;> simp [search, h]

theorem groupsAt_eq (r : Pattern α) (xs : List α) :
    r.groupsAt xs = (r.ends xs).head?.map Match.groups := rfl

/-- There is a match at the beginning exactly if the pattern can read something there. -/
theorem groupsAt_isSome_iff {r : Pattern α} {xs : List α} :
    (r.groupsAt xs).isSome ↔ ∃ read gs rest, xs = read ++ rest ∧ r.Reads read gs := by
  rw [groupsAt_eq, Option.isSome_map]
  constructor
  · intro h
    obtain ⟨m, hm⟩ := Option.isSome_iff_exists.1 h
    obtain ⟨hxs, hr⟩ := mem_ends_iff.1 (List.mem_of_mem_head? hm)
    exact ⟨_, _, _, hxs, hr⟩
  · rintro ⟨read, gs, rest, hxs, hr⟩
    have hmem : ⟨read, gs, rest⟩ ∈ r.ends xs := mem_ends_iff.2 ⟨hxs, hr⟩
    rw [List.isSome_head?]
    exact List.ne_nil_of_mem hmem

/-- The first reading of the first pattern that the second one can go on from. -/
theorem groupsAt_seq (r s : Pattern α) (xs : List α) :
    (seq r s).groupsAt xs =
      (r.ends xs).findSome? fun m => (s.groupsAt m.rest).map (m.groups ++ ·) := by
  rw [groupsAt_eq, ends, List.head?_flatMap, List.map_findSome?]
  congr 1
  funext m
  rw [Function.comp_apply, List.head?_map, Option.map_map, groupsAt_eq, Option.map_map]
  rfl

theorem matchAt_seq (r s : Pattern α) (xs : List α) :
    (seq r s).matchAt xs = (r.ends xs).findSome? fun m => (s.matchAt m.rest).map m.andThen := by
  rw [matchAt, ends, List.head?_flatMap]
  congr 1
  funext m
  rw [List.head?_map]
  rfl

theorem groupsAt_one_seq (p : α → Bool) (s : Pattern α) (x : α) (xs : List α) :
    (seq (one p) s).groupsAt (x :: xs) = if p x then s.groupsAt xs else none := by
  rw [groupsAt_seq, ends]
  split
  next h => cases hs : s.groupsAt xs <;> simp [List.findSome?, hs]
  next h => rfl

section Words

variable [DecidableEq α]

theorem ends_word (w xs : List α) : (word w).ends (w ++ xs) = [⟨w, [], xs⟩] := by
  induction w with
  | nil => rfl
  | cons c w ih => simp [word, ends, ih, Match.andThen]

theorem groupsAt_word (w xs : List α) : (word w).groupsAt (w ++ xs) = some [] := by
  rw [groupsAt_eq, ends_word]
  rfl

/-- A word is read from where it stands. -/
theorem groupsAt_word_seq (w xs : List α) (s : Pattern α) :
    (seq (word w) s).groupsAt (w ++ xs) = s.groupsAt xs := by
  rw [groupsAt_seq, ends_word]
  cases hs : s.groupsAt xs <;> simp [List.findSome?, hs]

/-- And from nowhere else. -/
theorem groupsAt_word_seq_none {w xs : List α} (s : Pattern α) (h : ¬ w <+: xs) :
    (seq (word w) s).groupsAt xs = none := by
  have hends : (word w).ends xs = [] := by
    induction w generalizing xs with
    | nil => exact absurd List.nil_prefix h
    | cons c w ih =>
        cases xs with
        | nil => rfl
        | cons x xs =>
            by_cases hx : x = c
            · have hrest : ¬ w <+: xs := fun hw => h (hx ▸ (List.cons_prefix_cons.2 ⟨rfl, hw⟩))
              simp [word, ends, hx, ih hrest]
            · simp [word, ends, hx]
  rw [groupsAt_seq, hends]
  rfl

end Words

/-- Where the class ends, nothing is read. -/
theorem repeats_stop {p : α → Bool} {xs : List α} (h : ∀ x ∈ xs.head?, p x = false) :
    repeats p xs = [⟨[], [], xs⟩] := by
  cases xs with
  | nil => rfl
  | cons x xs => rw [repeats, if_neg (by simp [h x rfl])]

/-- Longer readings are tried first. -/
theorem repeats_append {p : α → Bool} {xs : List α} (h : ∀ x ∈ xs, p x = true) (ys : List α) :
    ∃ shorter, repeats p (xs ++ ys) = (repeats p ys).map (Match.prepend xs) ++ shorter := by
  induction xs with
  | nil => exact ⟨[], by simp [funext Match.prepend_nil]⟩
  | cons x xs ih =>
      obtain ⟨shorter, hshorter⟩ := ih fun y hy => h y (List.mem_cons_of_mem _ hy)
      refine ⟨shorter.map (Match.prepend [x]) ++ [⟨[], [], x :: (xs ++ ys)⟩], ?_⟩
      rw [List.cons_append, repeats, if_pos (h x List.mem_cons_self), hshorter, List.map_append,
        List.map_map, List.append_assoc]
      rfl

/-- The longest reading is the one, if it will do. -/
theorem findSome?_repeats {β : Type} {p : α → Bool} {xs ys : List α} {f : Match α → Option β} {b : β}
    (hxs : ∀ x ∈ xs, p x = true) (hys : ∀ y ∈ ys.head?, p y = false)
    (hf : f ⟨xs, [], ys⟩ = some b) : (repeats p (xs ++ ys)).findSome? f = some b := by
  obtain ⟨shorter, h⟩ := repeats_append hxs ys
  rw [h, repeats_stop hys]
  simp [Match.prepend, hf]

/-- Of the readings that go on to a symbol of the class, the one up to it is the one if it will do
and no longer one will. -/
theorem findSome?_repeats_back {β : Type} {p : α → Bool} {xs ys : List α} {c : α}
    {f : Match α → Option β} {b : β} (hxs : ∀ x ∈ xs, p x = true)
    (hlonger : ∀ m ∈ repeats p ys, f (m.prepend (xs ++ [c])) = none)
    (hf : f ⟨xs, [], c :: ys⟩ = some b) : (repeats p (xs ++ c :: ys)).findSome? f = some b := by
  obtain ⟨shorter, h⟩ := repeats_append hxs (c :: ys)
  rw [h, List.findSome?_append, Option.or_eq_some_iff]
  left
  rw [List.findSome?_map, repeats]
  split
  next hc =>
    rw [List.findSome?_append, Option.or_eq_some_iff]
    right
    constructor
    · rw [List.findSome?_map, List.findSome?_eq_none_iff]
      intro m hm
      have hnone := hlonger m hm
      simpa [Match.prepend] using hnone
    · simp [Match.prepend, hf]
  next hc => simp [Match.prepend, hf]

theorem groupsAt_many_seq {p : α → Bool} {s : Pattern α} {xs ys : List α} {gs : List (List α)}
    (hxs : ∀ x ∈ xs, p x = true) (hys : ∀ y ∈ ys.head?, p y = false)
    (h : s.groupsAt ys = some gs) : (seq (many p) s).groupsAt (xs ++ ys) = some gs := by
  rw [groupsAt_seq, ends]
  exact findSome?_repeats hxs hys (by simp [h])

/-- **A repetition has read the most that will do.** -/
theorem longest_of_findSome? {β : Type} {p : α → Bool} : ∀ {xs : List α} {f : Match α → Option β}
    {b : β}, (repeats p xs).findSome? f = some b →
      ∃ read rest, xs = read ++ rest ∧ (∀ x ∈ read, p x = true) ∧ f ⟨read, [], rest⟩ = some b ∧
        ∀ read' rest', xs = read' ++ rest' → (∀ x ∈ read', p x = true) →
          read.length < read'.length → f ⟨read', [], rest'⟩ = none := by
  intro xs
  induction xs with
  | nil =>
      intro f b h
      refine ⟨[], [], rfl, by simp, by simpa [repeats] using h, ?_⟩
      intro read' rest' hsplit _ hlt
      rw [(List.append_eq_nil_iff.1 hsplit.symm).1] at hlt
      cases hlt
  | cons x xs ih =>
      intro f b h
      rw [repeats] at h
      split at h
      next hp =>
        rw [List.findSome?_append, Option.or_eq_some_iff] at h
        rcases h with h | ⟨hnone, h⟩
        · rw [List.findSome?_map] at h
          obtain ⟨read, rest, rfl, hread, hf, hlonger⟩ := ih h
          refine ⟨x :: read, rest, rfl, by simpa [hp] using hread, hf, ?_⟩
          intro read' rest' hsplit hread' hlt
          cases read' with
          | nil => cases hlt
          | cons y read' =>
              obtain ⟨rfl, hrest⟩ := List.cons.inj hsplit
              exact hlonger read' rest' hrest (fun z hz => hread' z (List.mem_cons_of_mem _ hz))
                (by simpa using hlt)
        · refine ⟨[], x :: xs, rfl, by simp, by simpa using h, ?_⟩
          intro read' rest' hsplit hread' hlt
          cases read' with
          | nil => cases hlt
          | cons y read' =>
              obtain ⟨rfl, hrest⟩ := List.cons.inj hsplit
              rw [List.findSome?_map, List.findSome?_eq_none_iff] at hnone
              exact hnone ⟨read', [], rest'⟩ (mem_repeats_iff.2 ⟨hrest, rfl, fun z hz =>
                hread' z (List.mem_cons_of_mem _ hz)⟩)
      next hp =>
        refine ⟨[], x :: xs, rfl, by simp, by simpa using h, ?_⟩
        intro read' rest' hsplit hread' hlt
        cases read' with
        | nil => cases hlt
        | cons y read' =>
            obtain ⟨rfl, -⟩ := List.cons.inj hsplit
            exact absurd (hread' x List.mem_cons_self) hp

/-- What follows a repetition goes on from the last place it can. -/
theorem groupsAt_many_seq_longest {p : α → Bool} {s : Pattern α} {xs : List α}
    {gs : List (List α)} (h : (seq (many p) s).groupsAt xs = some gs) :
    ∃ read rest, xs = read ++ rest ∧ (∀ x ∈ read, p x = true) ∧ s.groupsAt rest = some gs ∧
      ∀ read' rest', xs = read' ++ rest' → (∀ x ∈ read', p x = true) →
        read.length < read'.length → s.groupsAt rest' = none := by
  rw [groupsAt_seq, ends] at h
  obtain ⟨read, rest, hxs, hread, hf, hlonger⟩ := longest_of_findSome? h
  refine ⟨read, rest, hxs, hread, by simpa using hf, fun read' rest' hxs' hread' hlt => ?_⟩
  exact Option.map_eq_none_iff.1 (hlonger read' rest' hxs' hread' hlt)

/-! ### Groups -/

theorem ends_plus (p : α → Bool) (x : α) (xs : List α) :
    (plus p).ends (x :: xs) = if p x then (repeats p xs).map (Match.prepend [x]) else [] := by
  rw [plus, ends, ends]
  split
  next h =>
    rw [List.flatMap_singleton, ends]
    refine List.map_congr_left fun m hm => ?_
    simp [Match.andThen, Match.prepend]
  next h => rfl

theorem groupsAt_group (r : Pattern α) (xs : List α) :
    (group r).groupsAt xs = (r.matchAt xs).map fun m => m.read :: m.groups := by
  rw [groupsAt_eq, ends, List.head?_map, Option.map_map]
  rfl

/-- A group of symbols of a class, and what goes on from there. -/
theorem groupsAt_plus_seq (p : α → Bool) (s : Pattern α) (x : α) (xs : List α) :
    (seq (group (plus p)) s).groupsAt (x :: xs) =
      if p x then (repeats p xs).findSome? fun m => (s.groupsAt m.rest).map ((x :: m.read) :: ·)
      else none := by
  rw [groupsAt_seq, ends, ends_plus]
  split
  next h =>
    rw [List.findSome?_map, List.findSome?_map, ← List.head?_filterMap, ← List.head?_filterMap]
    refine congrArg List.head? (List.filterMap_congr fun m hm => ?_)
    simp [Match.prepend, (mem_repeats_iff.1 hm).2.1]
  next h => rfl

variable {p : α → Bool} {s : Pattern α} {xs ys : List α} {gs : List (List α)}

/-- The group has all there is, if the rest of the pattern goes on from there. -/
theorem groupsAt_plus_longest (hne : xs ≠ []) (hxs : ∀ x ∈ xs, p x = true)
    (hys : ∀ y ∈ ys.head?, p y = false) (h : s.groupsAt ys = some gs) :
    (seq (group (plus p)) s).groupsAt (xs ++ ys) = some (xs :: gs) := by
  cases xs with
  | nil => exact absurd rfl hne
  | cons x xs =>
      rw [List.cons_append, groupsAt_plus_seq, if_pos (hxs x List.mem_cons_self)]
      exact findSome?_repeats (fun y hy => hxs y (List.mem_cons_of_mem _ hy)) hys (by simp [h])

/-- The group gives back what the rest of the pattern needs. -/
theorem groupsAt_plus_back {c : α} (hne : xs ≠ []) (hxs : ∀ x ∈ xs, p x = true)
    (hlonger : ∀ m ∈ repeats p ys, s.groupsAt m.rest = none) (h : s.groupsAt (c :: ys) = some gs) :
    (seq (group (plus p)) s).groupsAt (xs ++ c :: ys) = some (xs :: gs) := by
  cases xs with
  | nil => exact absurd rfl hne
  | cons x xs =>
      rw [List.cons_append, groupsAt_plus_seq, if_pos (hxs x List.mem_cons_self)]
      refine findSome?_repeats_back (fun y hy => hxs y (List.mem_cons_of_mem _ hy))
        (fun m hm => ?_) (by simp [h])
      rw [Match.prepend, hlonger m hm]
      rfl

/-- A group has read the most that the rest of the pattern can go on from. -/
theorem groupsAt_plus_seq_longest (h : (seq (group (plus p)) s).groupsAt xs = some gs) :
    ∃ read rest hs, xs = read ++ rest ∧ read ≠ [] ∧ (∀ x ∈ read, p x = true) ∧
      s.groupsAt rest = some hs ∧ gs = read :: hs ∧
      ∀ read' rest', xs = read' ++ rest' → (∀ x ∈ read', p x = true) →
        read.length < read'.length → s.groupsAt rest' = none := by
  cases xs with
  | nil => simp [groupsAt_seq, ends, plus] at h
  | cons x xs =>
      rw [groupsAt_plus_seq] at h
      split at h
      next hx =>
        obtain ⟨read, rest, rfl, hread, hf, hlonger⟩ := longest_of_findSome? h
        obtain ⟨hs, hhs, rfl⟩ := Option.map_eq_some_iff.1 hf
        refine ⟨x :: read, rest, hs, rfl, by simp, by simpa [hx] using hread, hhs, rfl, ?_⟩
        intro read' rest' hsplit hread' hlt
        cases read' with
        | nil => cases hlt
        | cons y read' =>
            obtain ⟨rfl, hrest⟩ := List.cons.inj hsplit
            exact Option.map_eq_none_iff.1 (hlonger read' rest' hrest
              (fun z hz => hread' z (List.mem_cons_of_mem _ hz)) (by simpa using hlt))
      next => cases h

/-- A group at the end of the pattern has all there is. -/
theorem groupsAt_plus (hne : xs ≠ []) (hxs : ∀ x ∈ xs, p x = true)
    (hys : ∀ y ∈ ys.head?, p y = false) : (group (plus p)).groupsAt (xs ++ ys) = some [xs] := by
  cases xs with
  | nil => exact absurd rfl hne
  | cons x xs =>
      obtain ⟨shorter, h⟩ := repeats_append (fun y hy => hxs y (List.mem_cons_of_mem _ hy)) ys
      rw [groupsAt_group, matchAt, List.cons_append, ends_plus, if_pos (hxs x List.mem_cons_self), h,
        repeats_stop hys]
      simp [Match.prepend]

/-- A repetition does not go beyond the end of the class. -/
theorem rest_of_mem_repeats {m : Match α} (hys : ∀ y ∈ ys.head?, p y = false)
    (hm : m ∈ repeats p (xs ++ ys)) : ∃ zs, m.rest = zs ++ ys ∧ zs <:+ xs := by
  obtain ⟨hsplit, -, hread⟩ := mem_repeats_iff.1 hm
  rcases List.append_eq_append_iff.1 hsplit with ⟨a, hread', hrest⟩ | ⟨a, hxs, hrest⟩
  · cases a with
    | nil => exact ⟨[], by simpa using hrest.symm, List.nil_suffix⟩
    | cons y a =>
        have hno := hys y (by simp [hrest])
        rw [hread y (by simp [hread'])] at hno
        cases hno
  · exact ⟨a, hrest, hxs ▸ List.suffix_append _ _⟩

/-- Symbols of a class outside a group. -/
theorem matchAt_plus_longest {m : Match α} (hne : xs ≠ []) (hxs : ∀ x ∈ xs, p x = true)
    (hys : ∀ y ∈ ys.head?, p y = false) (h : s.matchAt ys = some m) :
    (seq (plus p) s).matchAt (xs ++ ys) = some ⟨xs ++ m.read, m.groups, m.rest⟩ := by
  cases xs with
  | nil => exact absurd rfl hne
  | cons x xs =>
      rw [matchAt_seq, List.cons_append, ends_plus, if_pos (hxs x List.mem_cons_self),
        List.findSome?_map]
      exact findSome?_repeats (fun y hy => hxs y (List.mem_cons_of_mem _ hy)) hys
        (by simp [Match.prepend, Match.andThen, h])

theorem groupsAt_seq_plus (hne : xs ≠ []) (hxs : ∀ x ∈ xs, p x = true)
    (hys : ∀ y ∈ ys.head?, p y = false) (h : s.groupsAt ys = some gs) :
    (seq (plus p) s).groupsAt (xs ++ ys) = some gs := by
  obtain ⟨m, hm, rfl⟩ := Option.map_eq_some_iff.1 h
  rw [groupsAt, matchAt_plus_longest hne hxs hys hm]
  rfl

theorem ends_times (hxs : ∀ x ∈ xs, p x = true) :
    (times p xs.length).ends (xs ++ ys) = [⟨xs, [], ys⟩] := by
  induction xs with
  | nil => rfl
  | cons x xs ih =>
      have hrest := ih fun y hy => hxs y (List.mem_cons_of_mem _ hy)
      simp [times, ends, hxs x List.mem_cons_self, hrest, Match.andThen]

/-! ### Searching for a marker -/

section Markers

variable [DecidableEq α]

theorem groupsAt_marker (w : List α) (s : Pattern α) (xs : List α) :
    (seq (word w) s).groupsAt xs = if w <+: xs then s.groupsAt (xs.drop w.length) else none := by
  split
  next h =>
    obtain ⟨rest, rfl⟩ := h
    rw [groupsAt_word_seq, List.drop_left]
  next h => exact groupsAt_word_seq_none s h

/-- **The marker is where its last symbol is.** -/
theorem search_marker {w : List α} {c : α} (hw : c ∉ w) (s : Pattern α) (rest : List α) :
    ∀ {before : List α}, c ∉ before →
      (seq (word (w ++ [c])) s).search (before ++ c :: rest) =
        if w <:+ before then (s.groupsAt rest).or ((seq (word (w ++ [c])) s).search rest)
        else (seq (word (w ++ [c])) s).search rest := by
  intro before
  -- at the beginning there is a marker exactly if there is nothing else before its last symbol
  have hhere : ∀ {before : List α}, c ∉ before →
      ((w ++ [c] <+: before ++ c :: rest) ↔ w = before) := by
    intro before hbefore
    constructor
    · rintro ⟨t, ht⟩
      rw [List.append_assoc, List.singleton_append] at ht
      have hfirst := congrArg (List.takeWhile (· ≠ c)) ht
      rw [List.takeWhile_append_of_pos (by simpa using fun a ha => ne_of_mem_of_not_mem ha hw),
        List.takeWhile_append_of_pos (by simpa using fun a ha => ne_of_mem_of_not_mem ha hbefore)]
        at hfirst
      simpa using hfirst
    · rintro rfl
      exact ⟨rest, by simp⟩
  induction before with
  | nil =>
      intro _
      have h := groupsAt_marker (w ++ [c]) s (c :: rest)
      rw [groupsAt] at h
      rw [List.nil_append, search, h]
      have hnil : w ++ [c] <+: [] ++ c :: rest ↔ w = [] := hhere List.not_mem_nil
      rw [List.nil_append] at hnil
      by_cases hempty : w = []
      · subst hempty
        simp
      · rw [if_neg (mt hnil.1 hempty), if_neg (by simpa using hempty), Option.none_or]
  | cons x before ih =>
      intro hbefore
      have h := groupsAt_marker (w ++ [c]) s (x :: before ++ c :: rest)
      rw [groupsAt] at h
      rw [List.cons_append, search, ← List.cons_append, h,
        ih fun hc => hbefore (List.mem_cons_of_mem _ hc)]
      by_cases heq : w = x :: before
      · subst heq
        have hno : ¬ x :: before <:+ before := fun hsuffix => by
          have hle := hsuffix.length_le
          rw [List.length_cons] at hle
          omega
        simp [hno]
      · rw [if_neg (mt (hhere hbefore).1 heq), Option.none_or]
        refine if_congr ?_ rfl rfl
        rw [List.suffix_cons_iff]
        simp [heq]

/-- **The first marker counts**, if what follows it can be read. -/
theorem search_first_marker {w : List α} {c : α} (hw : c ∉ w) {s : Pattern α} {rest : List α}
    {gs : List (List α)} (hrest : s.groupsAt rest = some gs) :
    ∀ {before : List α}, ¬ w ++ [c] <:+: before →
      (seq (word (w ++ [c])) s).search (before ++ (w ++ c :: rest)) = some gs := by
  intro before hbefore
  have hword : w ++ c :: rest = w ++ [c] ++ rest := by simp
  have hhere : (seq (word (w ++ [c])) s).groupsAt (w ++ c :: rest) = some gs := by
    rw [hword, groupsAt_word_seq, hrest]
  induction before with
  | nil =>
      rw [groupsAt] at hhere
      cases hxs : [] ++ (w ++ c :: rest) with
      | nil => simp at hxs
      | cons x xs => rw [search, ← hxs, List.nil_append, hhere, Option.some_or]
  | cons x before ih =>
      -- a marker that begins before this one would have its last symbol in it
      have hno : ¬ w ++ [c] <+: x :: before ++ (w ++ c :: rest) := by
        rintro ⟨t, ht⟩
        by_cases hlength : (x :: before).length ≤ w.length
        · have hlast : ((w ++ [c]) ++ t)[w.length]? = some c := by simp
          rw [ht, List.getElem?_append_right hlength, List.getElem?_append_left (by
            rw [List.length_cons] at hlength ⊢
            omega)] at hlast
          exact hw (List.mem_of_getElem? hlast)
        · refine hbefore (List.prefix_of_prefix_length_le ⟨t, ht⟩ (List.prefix_append _ _) ?_).isInfix
          simp only [List.length_append, List.length_singleton]
          omega
      have hnone := groupsAt_word_seq_none s hno
      rw [groupsAt] at hnone
      rw [List.cons_append, search, ← List.cons_append, hnone, Option.none_or]
      exact ih fun h => hbefore (h.trans (List.suffix_cons _ _).isInfix)

/-- **A search for what follows a marker** ends at the first place where the rest of the pattern
goes on. -/
theorem search_word_seq_iff {w : List α} {s : Pattern α} {gs : List (List α)} : ∀ {xs : List α},
    (seq (word w) s).search xs = some gs ↔
      ∃ before rest, xs = before ++ (w ++ rest) ∧ s.groupsAt rest = some gs ∧
        ∀ before' rest', xs = before' ++ (w ++ rest') → before'.length < before.length →
          s.groupsAt rest' = none := by
  have hhere : ∀ {xs : List α}, (seq (word w) s).groupsAt xs = some gs →
      ∃ rest, xs = w ++ rest ∧ s.groupsAt rest = some gs := by
    intro xs h
    rw [groupsAt_marker] at h
    split at h
    next hprefix =>
      obtain ⟨rest, rfl⟩ := hprefix
      exact ⟨rest, rfl, by simpa using h⟩
    next => cases h
  intro xs
  constructor
  · intro h
    induction xs with
    | nil =>
        obtain ⟨rest, hxs, hs⟩ := hhere h
        exact ⟨[], rest, hxs, hs, fun _ _ _ hlt => by cases hlt⟩
    | cons x xs ih =>
        rw [search, Option.or_eq_some_iff] at h
        rcases h with h | ⟨hnone, h⟩
        · obtain ⟨rest, hxs, hs⟩ := hhere h
          exact ⟨[], rest, hxs, hs, fun _ _ _ hlt => by cases hlt⟩
        · obtain ⟨before, rest, rfl, hs, hfirst⟩ := ih h
          refine ⟨x :: before, rest, rfl, hs, ?_⟩
          intro before' rest' hsplit hlt
          cases before' with
          | nil =>
              have hat := groupsAt_word_seq w rest' s
              rw [List.nil_append] at hsplit
              rw [← hat, ← hsplit]
              exact hnone
          | cons y before' =>
              obtain ⟨-, hrest⟩ := List.cons.inj hsplit
              exact hfirst before' rest' hrest (by simpa using hlt)
  · rintro ⟨before, rest, rfl, hs, hfirst⟩
    induction before with
    | nil => exact search_of_groupsAt (by rw [List.nil_append, groupsAt_word_seq, hs])
    | cons x before ih =>
        have hnone : (seq (word w) s).groupsAt (x :: before ++ (w ++ rest)) = none := by
          rw [groupsAt_marker]
          split
          next hprefix =>
            obtain ⟨rest', hrest'⟩ := hprefix
            rw [← hrest', List.drop_left]
            exact hfirst [] rest' hrest'.symm (by simp)
          next => rfl
        rw [groupsAt] at hnone
        rw [List.cons_append, search, ← List.cons_append, hnone, Option.none_or]
        refine ih fun before' rest' hsplit hlt => ?_
        exact hfirst (x :: before') rest' (by rw [List.cons_append, List.cons_append, hsplit])
          (by simpa using hlt)

/-- And finds nothing where there is no such place. -/
theorem search_word_seq_none {w : List α} {s : Pattern α} {xs : List α} :
    (seq (word w) s).search xs = none ↔
      ∀ before rest, xs = before ++ (w ++ rest) → s.groupsAt rest = none := by
  constructor
  · rintro h before rest rfl
    induction before with
    | nil =>
        rw [List.nil_append] at h
        rw [← groupsAt_word_seq w rest s, Option.eq_none_iff_forall_ne_some]
        intro gs hgs
        rw [search_of_groupsAt hgs] at h
        cases h
    | cons x before ih =>
        rw [List.cons_append, search, Option.or_eq_none_iff] at h
        exact ih h.2
  · intro h
    rw [Option.eq_none_iff_forall_ne_some]
    intro gs hgs
    obtain ⟨before, rest, hxs, hs, -⟩ := search_word_seq_iff.1 hgs
    rw [h before rest hxs] at hs
    cases hs

end Markers

end Pattern

/-! ### Separators -/

/-- A word without the separator is on one side of it. -/
theorem infix_append_cons_iff {w xs ys : List α} {c : α} (hc : c ∉ w) :
    w <:+: xs ++ c :: ys ↔ w <:+: xs ∨ w <:+: ys := by
  constructor
  · rintro ⟨s, t, h⟩
    rcases List.append_eq_append_iff.1 h with ⟨a, hxs, -⟩ | ⟨a, hsw, hrest⟩
    · exact Or.inl ⟨s, a, hxs.symm⟩
    · cases a with
      | nil => exact Or.inl ⟨s, [], by simpa using hsw⟩
      | cons b a =>
          obtain ⟨rfl, rfl⟩ := List.cons.inj hrest
          rcases List.append_eq_append_iff.1 hsw with ⟨b, -, rfl⟩ | ⟨b, -, hw⟩
          · simp at hc
          · cases b with
            | nil => exact absurd (by simp [← show _ = w from hw]) hc
            | cons d b =>
                obtain ⟨rfl, rfl⟩ := List.cons.inj hw
                exact Or.inr ⟨b, t, by simp⟩
  · rintro (h | h)
    · exact h.trans (List.prefix_append _ _).isInfix
    · exact h.trans ((List.suffix_cons _ _).trans (List.suffix_append _ _)).isInfix

/-- Of texts with a separator between them, it is in one. -/
theorem infix_intercalate_iff {w : List α} {c : α} (hc : c ∉ w) (hw : w ≠ []) :
    ∀ xss : List (List α), w <:+: [c].intercalate xss ↔ ∃ xs ∈ xss, w <:+: xs := by
  intro xss
  induction xss with
  | nil => simp [List.intercalate, hw]
  | cons xs xss ih =>
      cases xss with
      | nil => simp [List.intercalate]
      | cons ys xss =>
          have hcons : [c].intercalate (xs :: ys :: xss) =
              xs ++ c :: [c].intercalate (ys :: xss) := by
            simp [List.intercalate, List.intersperse]
          rw [hcons, infix_append_cons_iff hc, ih]
          simp only [List.exists_mem_cons_iff]

end Backtracking
