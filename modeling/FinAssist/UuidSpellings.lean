/-
**What the spellings of a UUID have in common.**

`uuid.UUID` takes out every `urn:` and `uuid:`, the braces around and the hyphens, and reads what is
left as a number.  So an accepted string may contain colons, but only where one of the two prefixes
ends; it has no slash; and **it is never the beginning of another accepted string that goes on with a
colon**: the colon would have to end a prefix whose other letters stand at the end of the first
string, and there nothing would have taken them out.  Strings joined by colons can therefore be taken
apart from the left.

Main results:

* `FinAssist.Uuid.remove_append_colon`, `FinAssist.Uuid.suffix_remove` — what is taken out before a
  colon, and what stays at the end of a string;
* `FinAssist.Uuid.accepts_colon_append` — **an accepted string does not go on with a colon**;
* `FinAssist.Uuid.colon_inj` — the two parts of an accepted string, a colon and anything;
* `FinAssist.Uuid.not_mem_of_accepts` — characters that no accepted string has;
* `FinAssist.Uuid.accepts_of_isCanonical` — a generated identifier is accepted.
-/

import Mathlib.Data.List.Infix
import Mathlib.Data.List.TakeWhile
import FinAssist.Identifiers

set_option relaxedAutoImplicit false
set_option autoImplicit false

namespace FinAssist.Uuid

/-! ### What a number is written with -/

/-- A character that `int` takes. -/
def isIntChar (c : Char) : Bool :=
  isBlank c || isHexDigit c || ['_', '+', '-', 'x', 'X'].contains c

theorem isIntChar_of_isHexDigit {c : Char} (h : isHexDigit c = true) : isIntChar c = true := by
  simp [isIntChar, h]

theorem isIntChar_of_isBlank {c : Char} (h : isBlank c = true) : isIntChar c = true := by
  simp [isIntChar, h]

theorem isDigitGroup_chars {s : List Char} (h : isDigitGroup s = true) :
    ∀ c ∈ s, isIntChar c = true := by
  fun_induction isDigitGroup s with
  | case1 => cases h
  | case2 c =>
      intro a ha
      exact List.mem_singleton.1 ha ▸ isIntChar_of_isHexDigit h
  | case3 c s ih =>
      simp only [Bool.and_eq_true] at h
      intro a ha
      rcases List.mem_cons.1 ha with rfl | ha
      · exact isIntChar_of_isHexDigit h.1
      · rcases List.mem_cons.1 ha with rfl | ha
        · rfl
        · exact ih h.2 a ha
  | case4 c s hs hno ih =>
      simp only [Bool.and_eq_true] at h
      intro a ha
      rcases List.mem_cons.1 ha with rfl | ha
      · exact isIntChar_of_isHexDigit h.1
      · exact ih h.2 a ha

theorem mem_dropWhile {p : Char → Bool} {s : List Char} {c : Char} (h : c ∈ s) (hp : p c = false) :
    c ∈ s.dropWhile p := by
  rw [← List.takeWhile_append_dropWhile (p := p) (l := s)] at h
  rcases List.mem_append.1 h with h | h
  · rw [List.mem_takeWhile_imp h] at hp
    cases hp
  · exact h

/-- So it is behind the prefix of a hexadecimal number. -/
theorem isPrefixedGroup_chars {t : List Char} (h : (match t with
      | '0' :: 'x' :: '_' :: s => isDigitGroup s
      | '0' :: 'X' :: '_' :: s => isDigitGroup s
      | '0' :: 'x' :: s => isDigitGroup s
      | '0' :: 'X' :: s => isDigitGroup s
      | s => isDigitGroup s) = true) : ∀ a ∈ t, isIntChar a = true := by
  split at h
  · exact List.forall_mem_cons.2 ⟨rfl, List.forall_mem_cons.2 ⟨rfl,
      List.forall_mem_cons.2 ⟨rfl, isDigitGroup_chars h⟩⟩⟩
  · exact List.forall_mem_cons.2 ⟨rfl, List.forall_mem_cons.2 ⟨rfl,
      List.forall_mem_cons.2 ⟨rfl, isDigitGroup_chars h⟩⟩⟩
  · exact List.forall_mem_cons.2 ⟨rfl, List.forall_mem_cons.2 ⟨rfl, isDigitGroup_chars h⟩⟩
  · exact List.forall_mem_cons.2 ⟨rfl, List.forall_mem_cons.2 ⟨rfl, isDigitGroup_chars h⟩⟩
  · exact isDigitGroup_chars h

/-- **Every character of a number is one that `int` takes.** -/
theorem isHexInt_chars {s : List Char} (h : isHexInt s = true) :
    ∀ c ∈ s, isIntChar (toAscii c) = true := by
  intro c hc
  by_cases hblank : isBlank (toAscii c) = true
  · exact isIntChar_of_isBlank hblank
  rw [Bool.not_eq_true] at hblank
  have hmem : toAscii c ∈ ((((s.map toAscii).dropWhile isBlank).reverse.dropWhile isBlank).reverse) :=
    List.mem_reverse.2 (mem_dropWhile
      (List.mem_reverse.2 (mem_dropWhile (List.mem_map_of_mem hc) hblank)) hblank)
  simp only [isHexInt] at h
  generalize ((((s.map toAscii).dropWhile isBlank).reverse.dropWhile isBlank).reverse) = t at h hmem
  have hunsigned := isPrefixedGroup_chars h
  cases t with
  | nil => cases hmem
  | cons sign t =>
      split at hunsigned
      next heq =>
        cases heq
        rcases List.mem_cons.1 hmem with hsign | hmem
        · rw [hsign]
          rfl
        · exact hunsigned _ hmem
      next heq =>
        cases heq
        rcases List.mem_cons.1 hmem with hsign | hmem
        · rw [hsign]
          rfl
        · exact hunsigned _ hmem
      next => exact hunsigned _ hmem

/-! ### What is taken out -/

theorem mem_strip {chars s : List Char} {c : Char} (h : c ∈ s) (hc : c ∉ chars) :
    c ∈ strip chars s := by
  have hc' : chars.contains c = false := by simpa using hc
  exact List.mem_reverse.2 (mem_dropWhile (List.mem_reverse.2 (mem_dropWhile h hc')) hc')

section Remove

variable {pattern : List Char}

@[simp] theorem remove_nil (skip : ℕ) : remove pattern skip [] = [] := by
  cases skip <;> rfl

theorem remove_cons (c : Char) (s : List Char) : remove pattern 0 (c :: s) =
    if pattern.isPrefixOf (c :: s) then remove pattern (pattern.length - 1) s
    else c :: remove pattern 0 s := rfl

/-- The pattern stands at the beginning. -/
theorem take_of_isPrefixOf {c : Char} {s : List Char}
    (h : pattern.isPrefixOf (c :: s) = true) : ∀ a ∈ s.take (pattern.length - 1), a ∈ pattern := by
  obtain ⟨t, ht⟩ := List.isPrefixOf_iff_prefix.1 h
  cases pattern with
  | nil => simp
  | cons a p =>
      simp only [List.cons_append, List.cons.injEq] at ht
      intro b hb
      rw [← ht.2, List.length_cons, Nat.add_sub_cancel, List.take_left] at hb
      exact List.mem_cons_of_mem _ hb

/-- A character that the pattern does not have stays. -/
theorem mem_remove_skip {c : Char} (hpattern : pattern ≠ []) (hc : c ∉ pattern) :
    ∀ {s : List Char} {skip : ℕ}, (∀ a ∈ s.take skip, a ∈ pattern) → c ∈ s →
      c ∈ remove pattern skip s := by
  intro s
  induction s with
  | nil =>
      intro skip _ h
      cases h
  | cons b s ih =>
      intro skip hskip h
      cases skip with
      | succ skip =>
          rw [List.take_succ_cons, List.forall_mem_cons] at hskip
          rcases List.mem_cons.1 h with rfl | h
          · exact absurd hskip.1 hc
          · exact ih hskip.2 h
      | zero =>
          rw [remove_cons]
          split
          next hprefix =>
            rcases List.mem_cons.1 h with rfl | h
            · obtain ⟨t, ht⟩ := List.isPrefixOf_iff_prefix.1 hprefix
              cases pattern with
              | nil => exact absurd rfl hpattern
              | cons a p => exact absurd ((List.cons.inj ht).1 ▸ List.mem_cons_self) hc
            · exact ih (take_of_isPrefixOf hprefix) h
          next =>
            rcases List.mem_cons.1 h with rfl | h
            · exact List.mem_cons_self
            · exact List.mem_cons_of_mem _ (ih (by simp) h)

/-- **A character that the pattern does not have stays.** -/
theorem mem_remove {c : Char} {s : List Char} (hpattern : pattern ≠ []) (hc : c ∉ pattern)
    (h : c ∈ s) : c ∈ remove pattern 0 s :=
  mem_remove_skip hpattern hc (fun a ha => absurd ha (by simp)) h

end Remove

/-! ### Words that end with a colon -/

section Words

variable {w : List Char}

/-- Where such a word stands, its colon does. -/
theorem prefix_colon_iff (hw : ':' ∉ w) {s x : List Char} :
    w ++ [':'] <+: s ++ ':' :: x ↔ w ++ [':'] <+: s ∨ w = s := by
  constructor
  · rintro ⟨t, ht⟩
    rw [List.append_assoc, List.singleton_append] at ht
    rcases List.append_eq_append_iff.1 ht with ⟨a, hs, ha⟩ | ⟨a, hwa, ha⟩
    · cases a with
      | nil => exact Or.inr (by simpa using hs.symm)
      | cons b a =>
          obtain ⟨rfl, ha⟩ := List.cons.inj ha
          exact Or.inl ⟨a, by rw [hs, List.append_assoc, List.singleton_append]⟩
    · cases a with
      | nil => exact Or.inr (by simpa using hwa)
      | cons b a =>
          obtain ⟨rfl, ha⟩ := List.cons.inj ha
          exact absurd (hwa ▸ by simp) hw
  · rintro (⟨t, ht⟩ | rfl)
    · exact ⟨t ++ ':' :: x, by rw [← ht, List.append_assoc _ t]⟩
    · exact ⟨x, by simp⟩

/-- **What is taken out before a colon**: nothing that reaches over it, unless the word ends there. -/
theorem remove_append_colon (hw : ':' ∉ w) (hne : w ≠ []) (x : List Char) :
    ∀ {s : List Char} {skip : ℕ}, skip ≤ s.length → ¬ w <:+ s →
      remove (w ++ [':']) skip (s ++ ':' :: x) =
        remove (w ++ [':']) skip s ++ ':' :: remove (w ++ [':']) 0 x := by
  intro s
  induction s with
  | nil =>
      intro skip hskip hs
      obtain rfl : skip = 0 := by simpa using hskip
      rw [List.nil_append, remove_cons, if_neg, remove_nil, List.nil_append]
      intro hprefix
      rcases (prefix_colon_iff hw (s := [])).1 (List.isPrefixOf_iff_prefix.1 hprefix) with h | h
      · simp at h
      · exact hne h
  | cons c s ih =>
      intro skip hskip hs
      have hs' : ¬ w <:+ s := fun h => hs (h.trans (List.suffix_cons c s))
      cases skip with
      | succ skip => exact ih (by simpa using hskip) hs'
      | zero =>
          rw [List.cons_append, remove_cons, remove_cons]
          have hiff : (w ++ [':']).isPrefixOf (c :: (s ++ ':' :: x)) =
              (w ++ [':']).isPrefixOf (c :: s) := by
            rw [Bool.eq_iff_iff, List.isPrefixOf_iff_prefix, List.isPrefixOf_iff_prefix,
              ← List.cons_append, prefix_colon_iff hw]
            exact or_iff_left fun h => hs (h ▸ List.suffix_refl _)
          rw [hiff]
          split
          next hprefix =>
            have hlength := (List.isPrefixOf_iff_prefix.1 hprefix).length_le
            rw [ih (by simp at hlength ⊢; omega) hs']
          next => rw [ih (Nat.zero_le _) hs', List.cons_append]

/-- What is shorter than the pattern stays. -/
theorem remove_of_length_lt {pattern : List Char} : ∀ {s : List Char},
    s.length < pattern.length → remove pattern 0 s = s := by
  intro s
  induction s with
  | nil => simp
  | cons c s ih =>
      intro h
      rw [remove_cons, if_neg, ih (by simp at h; omega)]
      intro hprefix
      have hlength := (List.isPrefixOf_iff_prefix.1 hprefix).length_le
      omega

/-- **The word at the end stays**, because its colon is missing. -/
theorem suffix_remove (hw : ':' ∉ w) {s : List Char} (h : w <:+ s) :
    w <:+ remove (w ++ [':']) 0 s := by
  obtain ⟨s, rfl⟩ := h
  have hall : ∀ {s : List Char} {skip : ℕ}, skip ≤ s.length →
      w <:+ remove (w ++ [':']) skip (s ++ w) := by
    intro s
    induction s with
    | nil =>
        intro skip hskip
        obtain rfl : skip = 0 := by simpa using hskip
        rw [List.nil_append, remove_of_length_lt (by simp)]
    | cons c s ih =>
        intro skip hskip
        cases skip with
        | succ skip => exact ih (by simpa using hskip)
        | zero =>
            rw [List.cons_append, remove_cons]
            split
            next hprefix =>
              refine ih ?_
              obtain ⟨t, ht⟩ := List.isPrefixOf_iff_prefix.1 hprefix
              rcases List.append_eq_append_iff.1 (ht.trans (List.cons_append).symm) with
                ⟨a, hs, -⟩ | ⟨a, hs, ha⟩
              · have hlength := congrArg List.length hs
                simp at hlength ⊢
                omega
              · rcases List.eq_nil_or_concat a with rfl | ⟨a, b, rfl⟩
                · have hlength := congrArg List.length hs
                  simp at hlength ⊢
                  omega
                · rw [List.concat_eq_append] at hs ha
                  rw [← List.append_assoc] at hs
                  obtain rfl := List.singleton_inj.1 (List.append_inj' hs rfl).2
                  exact absurd (ha ▸ by simp) hw
            next => exact (ih (Nat.zero_le _)).trans (List.suffix_cons _ _)
  exact hall (Nat.zero_le _)

end Words

/-! ### Accepted strings -/

/-- What `uuid.UUID` makes of a string before it takes the braces and the hyphens out. -/
def withoutPrefixes (s : List Char) : List Char :=
  remove ("uuid".toList ++ [':']) 0 (remove ("urn".toList ++ [':']) 0 s)

/-- A character that stays, and that is no part of a number. -/
abbrev Refused (c : Char) : Prop := c ∉ ['{', '}'] ∧ c ∉ ['-'] ∧ isIntChar (toAscii c) = false

theorem not_mem_withoutPrefixes {s : String} (h : accepts s = true) {c : Char} (hc : Refused c) :
    c ∉ withoutPrefixes s.toList := by
  intro hmem
  simp only [accepts, Bool.and_eq_true] at h
  have hstays := mem_remove (List.cons_ne_nil _ _) hc.2.1 (mem_strip hmem hc.1)
  have hint := isHexInt_chars h.2 c hstays
  rw [hc.2.2] at hint
  cases hint

/-- **Characters that no accepted string has.** -/
theorem not_mem_of_accepts {s : String} (h : accepts s = true) {c : Char} (hc : Refused c)
    (hurn : c ∉ "urn:".toList) (huuid : c ∉ "uuid:".toList) : c ∉ s.toList := fun hmem =>
  not_mem_withoutPrefixes h hc
    (mem_remove (List.cons_ne_nil _ _) huuid (mem_remove (List.cons_ne_nil _ _) hurn hmem))

/-- **An accepted string does not go on with a colon.** -/
theorem accepts_colon_append {s x : String} (h : accepts s = true) :
    accepts (s ++ ":" ++ x) = false := by
  have hurn : ¬ "urn".toList <:+ s.toList := fun hsuffix =>
    not_mem_withoutPrefixes (c := 'n') h (by decide) (mem_remove (by decide) (by decide)
      ((suffix_remove (by decide) hsuffix).subset (by decide)))
  have huuid : ¬ "uuid".toList <:+ remove ("urn".toList ++ [':']) 0 s.toList := fun hsuffix =>
    not_mem_withoutPrefixes (c := 'u') h (by decide)
      ((suffix_remove (by decide) hsuffix).subset (by decide))
  by_contra hno
  refine not_mem_withoutPrefixes (c := ':') (Bool.of_not_eq_false hno) (by decide) ?_
  have hsplit : (s ++ ":" ++ x).toList = s.toList ++ ':' :: x.toList := by simp
  rw [withoutPrefixes, hsplit, remove_append_colon (by decide) (by decide) _ (Nat.zero_le _) hurn,
    remove_append_colon (by decide) (by decide) _ (Nat.zero_le _) huuid]
  simp

/-- Of two accepted strings none goes on with what stands behind a colon. -/
theorem eq_nil_of_append {s t : String} {a u v : List Char} (hs : accepts s = true)
    (ht : accepts t = true) (h : t.toList = s.toList ++ a) (huv : ':' :: u = a ++ v) : a = [] := by
  cases a with
  | nil => rfl
  | cons b a =>
      obtain ⟨rfl, -⟩ := List.cons.inj huv
      have heq : t = s ++ ":" ++ String.ofList a := by
        rw [← String.toList_inj, h]
        simp
      rw [heq, accepts_colon_append hs] at ht
      cases ht

/-- **An accepted string, a colon and anything** determine both. -/
theorem colon_inj {s t x y : String} (hs : accepts s = true) (ht : accepts t = true)
    (h : s ++ (":" ++ x) = t ++ (":" ++ y)) : s = t ∧ x = y := by
  have hlist : s.toList ++ ':' :: x.toList = t.toList ++ ':' :: y.toList := by
    simpa using congrArg String.toList h
  have hboth : s.toList = t.toList ∧ x.toList = y.toList := by
    rcases List.append_eq_append_iff.1 hlist with ⟨a, hta, ha⟩ | ⟨a, hsa, ha⟩
    · obtain rfl := eq_nil_of_append hs ht hta ha
      exact ⟨by simpa using hta.symm, by simpa using ha⟩
    · obtain rfl := eq_nil_of_append ht hs hsa ha
      exact ⟨by simpa using hsa, by simpa using ha.symm⟩
  exact ⟨String.toList_inj.1 hboth.1, String.toList_inj.1 hboth.2⟩

/-! ### Generated identifiers -/

/-- A pattern whose first character does not occur is not taken out. -/
theorem remove_of_not_mem {c : Char} {p : List Char} : ∀ {s : List Char}, c ∉ s →
    remove (c :: p) 0 s = s := by
  intro s
  induction s with
  | nil => exact fun _ => remove_nil _
  | cons b s ih =>
      intro h
      rw [List.mem_cons, not_or] at h
      have hprefix : ¬ (c :: p).isPrefixOf (b :: s) = true := by
        rw [List.isPrefixOf_iff_prefix, List.cons_prefix_cons]
        exact fun hcons => h.1 hcons.1
      rw [remove_cons, if_neg hprefix, ih h.2]

/-- A single character is taken out wherever it is. -/
theorem remove_singleton (c : Char) : ∀ s : List Char, remove [c] 0 s = s.filter (· ≠ c) := by
  intro s
  induction s with
  | nil => rfl
  | cons b s ih =>
      rw [remove_cons]
      by_cases hb : c = b
      · subst hb
        rw [if_pos (by simp [List.isPrefixOf]), List.filter_cons_of_neg (by simp), ← ih]
        rfl
      · rw [if_neg (by simpa [List.isPrefixOf] using hb), ih,
          List.filter_cons_of_pos (by simpa using Ne.symm hb)]

theorem strip_of_not_mem {chars s : List Char} (h : ∀ c ∈ s, c ∉ chars) : strip chars s = s := by
  have hstays : ∀ {s : List Char}, (∀ c ∈ s, c ∉ chars) → s.dropWhile chars.contains = s := by
    intro s hs
    cases s with
    | nil => rfl
    | cons c s => exact List.dropWhile_cons_of_neg (by simpa using hs c List.mem_cons_self)
  rw [strip, hstays h, hstays fun c hc => h c (List.mem_reverse.1 hc), List.reverse_reverse]

theorem isDigitGroup_of_digits {s : List Char} (hne : s ≠ []) (h : ∀ c ∈ s, isHexDigit c = true) :
    isDigitGroup s = true := by
  fun_induction isDigitGroup s with
  | case1 => exact absurd rfl hne
  | case2 c => exact h c List.mem_cons_self
  | case3 c s ih => exact absurd (h '_' (by simp)) (by decide)
  | case4 c s hs hno ih =>
      rw [Bool.and_eq_true]
      refine ⟨h c List.mem_cons_self, ih ?_ fun a ha => h a (List.mem_cons_of_mem _ ha)⟩
      rintro rfl
      exact hs rfl

/-- A lower-case digit is read as it is, and begins nothing else. -/
theorem toNat_of_digit {c : Char} (h : c.isDigit = true ∨ ('a' ≤ c ∧ c ≤ 'f')) :
    48 ≤ c.toNat ∧ c.toNat ≤ 57 ∨ 97 ≤ c.toNat ∧ c.toNat ≤ 102 := by
  rcases h with h | ⟨hlow, hhigh⟩
  · simp only [Char.isDigit, Bool.and_eq_true, decide_eq_true_eq, ge_iff_le,
      UInt32.le_iff_toNat_le] at h
    exact Or.inl h
  · exact Or.inr ⟨hlow, hhigh⟩

theorem toAscii_of_digit {c : Char} (h : c.isDigit = true ∨ ('a' ≤ c ∧ c ≤ 'f')) :
    toAscii c = c ∧ isBlank c = false ∧ isHexDigit c = true := by
  have hnat := toNat_of_digit h
  refine ⟨if_pos (by omega), ?_, ?_⟩
  · rw [isBlank, Bool.or_eq_false_iff, decide_eq_false_iff_not]
    refine ⟨?_, by simp; omega⟩
    rintro rfl
    revert hnat
    decide
  · rcases h with h | h <;> simp [isHexDigit, h]

/-- Digits have no sign. -/
theorem unsigned_of_digits {s : List Char} : (∀ c ∈ s, isHexDigit c = true) → (match s with
      | '+' :: s => s
      | '-' :: s => s
      | s => s) = s := by
  intro h
  split
  next => exact absurd (h '+' List.mem_cons_self) (by decide)
  next => exact absurd (h '-' List.mem_cons_self) (by decide)
  next => rfl

/-- Digits have no prefix of a hexadecimal number. -/
theorem isPrefixedGroup_of_digits {s t : List Char} :
    t = s → s ≠ [] → (∀ c ∈ s, isHexDigit c = true) → (match t with
      | '0' :: 'x' :: '_' :: s => isDigitGroup s
      | '0' :: 'X' :: '_' :: s => isDigitGroup s
      | '0' :: 'x' :: s => isDigitGroup s
      | '0' :: 'X' :: s => isDigitGroup s
      | s => isDigitGroup s) = true := by
  rintro rfl hne h
  split
  next => exact absurd (h 'x' (by simp)) (by decide)
  next => exact absurd (h 'X' (by simp)) (by decide)
  next => exact absurd (h 'x' (by simp)) (by decide)
  next => exact absurd (h 'X' (by simp)) (by decide)
  next => exact isDigitGroup_of_digits hne h

theorem isHexInt_of_digits {s : List Char} (hne : s ≠ [])
    (h : ∀ c ∈ s, c.isDigit = true ∨ ('a' ≤ c ∧ c ≤ 'f')) : isHexInt s = true := by
  have hdigits : ∀ c ∈ s, isHexDigit c = true := fun c hc => (toAscii_of_digit (h c hc)).2.2
  have hascii : s.map toAscii = s :=
    (List.map_congr_left fun c hc => (toAscii_of_digit (h c hc)).1).trans (List.map_id s)
  have hstays : ∀ {t : List Char}, (∀ c ∈ t, c ∈ s) → t.dropWhile isBlank = t := by
    intro t ht
    cases t with
    | nil => rfl
    | cons c t =>
        have hblank := (toAscii_of_digit (h c (ht c List.mem_cons_self))).2.1
        exact List.dropWhile_cons_of_neg (by simp [hblank])
  rw [isHexInt]
  simp only [hascii, hstays fun c hc => hc, hstays fun c hc => List.mem_reverse.1 hc,
    List.reverse_reverse]
  exact isPrefixedGroup_of_digits (unsigned_of_digits hdigits) hne hdigits

/-- The hyphens of a generated identifier are four. -/
theorem length_filter_hyphen (u : Uuid4) : (u.value.toList.filter (· ≠ '-')).length = 32 := by
  have hcanonical := u.isCanonical
  simp only [isCanonical, Bool.and_eq_true, beq_iff_eq] at hcanonical
  obtain ⟨hlength, hall⟩ := hcanonical
  generalize u.value.toList = s at hlength hall
  have hindex : ∀ ci ∈ s.zipIdx, decide (ci.1 ≠ '-') = !(ci.2 == 8 || ci.2 == 13 || ci.2 == 18 || ci.2 == 23) := by
    intro ci hci
    have h := List.all_eq_true.1 hall ci hci
    split at h
    next hat => simp [hat, beq_iff_eq.1 h]
    next hnot =>
      rw [Bool.not_eq_true] at hnot
      rw [hnot, Bool.not_false, decide_eq_true_iff]
      intro heq
      rw [heq] at h
      revert h
      decide
  calc (s.filter (· ≠ '-')).length = s.countP (· ≠ '-') := List.countP_eq_length_filter.symm
    _ = s.zipIdx.countP fun ci => ci.1 ≠ '-' := by
        conv_lhs => rw [← List.zipIdx_map_fst 0 s]
        rw [List.countP_map]
        rfl
    _ = s.zipIdx.countP fun ci => !(ci.2 == 8 || ci.2 == 13 || ci.2 == 18 || ci.2 == 23) :=
        List.countP_congr fun ci hci => by rw [hindex ci hci]
    _ = (List.range' 0 36).countP fun i => !(i == 8 || i == 13 || i == 18 || i == 23) := by
        rw [← hlength, ← List.zipIdx_map_snd 0 s, List.countP_map]
        rfl
    _ = 32 := by decide

/-- **A generated identifier is accepted.** -/
theorem accepts_of_isCanonical (u : Uuid4) : accepts u.value = true := by
  have hno : ∀ c, c ≠ '-' → c.isDigit = false → ¬ ('a' ≤ c ∧ c ≤ 'f') → c ∉ u.value.toList := by
    intro c h₁ h₂ h₃ hc
    rcases u.chars hc with h | h | h
    · exact h₁ h
    · rw [h₂] at h
      cases h
    · exact h₃ h
  have hurn : remove "urn:".toList 0 u.value.toList = u.value.toList :=
    remove_of_not_mem (hno 'u' (by decide) (by decide) (by decide))
  have huuid : remove "uuid:".toList 0 u.value.toList = u.value.toList :=
    remove_of_not_mem (hno 'u' (by decide) (by decide) (by decide))
  have hstrip : strip ['{', '}'] u.value.toList = u.value.toList := by
    refine strip_of_not_mem fun c hc hbrace => ?_
    simp only [List.mem_cons, List.not_mem_nil, or_false] at hbrace
    rcases hbrace with rfl | rfl
    · exact hno _ (by decide) (by decide) (by decide) hc
    · exact hno _ (by decide) (by decide) (by decide) hc
  rw [accepts]
  simp only [hurn, huuid, hstrip, remove_singleton, length_filter_hyphen, beq_self_eq_true,
    Bool.true_and]
  refine isHexInt_of_digits ?_ ?_
  · intro hnil
    have hlength := length_filter_hyphen u
    rw [hnil] at hlength
    cases hlength
  · intro c hc
    obtain ⟨hmem, hhyphen⟩ := List.mem_filter.1 hc
    exact (u.chars hmem).resolve_left (of_decide_eq_true hhyphen)

end FinAssist.Uuid
