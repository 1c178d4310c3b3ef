/-
**What the summary of a list of checks tells.**

`build_verification_summary` counts the checks by verdict and gives the reasons of those that
contradict.  Two lists of checks of which one is the other and some more have the same number of
contradictions and the same summary only if nothing was added and the reasons come in one order.

Main definitions:

* `FinAssist.verdictCount` — how many checks have a verdict;
* `FinAssist.contradictionReasons` — the reasons, as the summary joins them.

Main results:

* `FinAssist.summary_toList` — the summary, part by part;
* `FinAssist.same_answer_iff` — **when more checks give the same answer**.
-/

import FinAssist.CanonicalJson
import FinAssist.Evidence

set_option relaxedAutoImplicit false
set_option autoImplicit false

/-- The length of a text joined from others. -/
theorem List.length_intercalate_add {α : Type} (sep : List α) (ls : List (List α)) :
    (sep.intercalate ls).length = (ls.map fun l => l.length + sep.length).sum - sep.length := by
  induction ls with
  | nil => simp
  | cons l ls ih =>
      cases ls with
      | nil => simp
      | cons l' ls =>
          have hsum : sep.length ≤
              ((l' :: ls).map fun l => l.length + sep.length).sum := by simp; omega
          simp only [List.intercalate_cons_cons, List.length_append, ih, List.map_cons,
            List.sum_cons] at hsum ⊢
          omega

namespace FinAssist

/-! ### The parts of a summary -/

/-- How many checks have the verdict. -/
def verdictCount (v : VerificationVerdict) (checks : List VerificationCheck) : ℕ :=
  (checks.filter fun c => c.verdict = v).length

/-- The checks that contradict. -/
def contradicting (checks : List VerificationCheck) : List VerificationCheck :=
  checks.filter fun c => c.verdict = .contradicted

/-- The reason a check gives. -/
def reasonOf (c : VerificationCheck) : String := c.sourceSystem.value ++ ": " ++ c.detail

/-- The reasons, as the summary joins them. -/
def contradictionReasons (checks : List VerificationCheck) : String :=
  ", ".intercalate ((contradicting checks).map reasonOf)

/-- What the summary says of the contradictions. -/
def contradictionPart (checks : List VerificationCheck) : List Char :=
  if contradicting checks = [] then []
  else "; ".toList ++ (toString (contradicting checks).length).toList ++ " contradicted (".toList ++
    (contradictionReasons checks).toList ++ ")".toList

/-- What it says of the checks without evidence. -/
def insufficientPart (n : ℕ) : List Char :=
  if n = 0 then [] else "; ".toList ++ (toString n).toList ++ " insufficient evidence".toList

/-- **The summary, part by part.** -/
theorem summary_toList {checks : List VerificationCheck} (h : checks ≠ []) :
    (buildVerificationSummary checks).toList =
      "verification complete: ".toList ++ ((toString (verdictCount .matched checks)).toList ++ [' ']) ++
        ("matched".toList ++ (contradictionPart checks ++
          insufficientPart (verdictCount .insufficientEvidence checks))) := by
  have hempty : checks.isEmpty = false := by simpa using h
  have hreason : reasonOf = fun c => c.sourceSystem.value ++ ": " ++ c.detail := rfl
  simp only [buildVerificationSummary, hempty, contradictionPart, insufficientPart, verdictCount,
    contradicting, contradictionReasons, hreason]
  by_cases hc : (checks.filter fun c => c.verdict = .contradicted) = [] <;>
  by_cases hi : (checks.filter fun c => c.verdict = .insufficientEvidence).length = 0 <;>
    simp [hc, hi, String.intercalate_cons_cons, String.intercalate_singleton]

theorem contradictionCount_eq (checks : List VerificationCheck) :
    contradictionCount checks = verdictCount .contradicted checks := rfl

theorem verdictCount_append (v : VerificationVerdict) (checks extra : List VerificationCheck) :
    verdictCount v (checks ++ extra) = verdictCount v checks + verdictCount v extra := by
  simp [verdictCount]

theorem verdictCount_perm (v : VerificationVerdict) {checks checks' : List VerificationCheck}
    (h : checks.Perm checks') : verdictCount v checks = verdictCount v checks' :=
  (h.filter _).length_eq

/-- Checks of no verdict at all are none. -/
theorem eq_nil_of_verdictCount {checks : List VerificationCheck}
    (h : ∀ v, verdictCount v checks = 0) : checks = [] := by
  cases checks with
  | nil => rfl
  | cons c checks => simpa [verdictCount] using h c.verdict

theorem contradictionPart_length {checks checks' : List VerificationCheck}
    (h : (contradicting checks).Perm (contradicting checks')) :
    (contradictionPart checks).length = (contradictionPart checks').length := by
  have hreasons : (contradictionReasons checks).toList.length =
      (contradictionReasons checks').toList.length := by
    simp only [contradictionReasons, String.toList_intercalate, List.length_intercalate_add,
      List.map_map]
    rw [(h.map _).sum_eq]
  by_cases hnil : contradicting checks = []
  · have hnil' : contradicting checks' = [] := (hnil ▸ h).nil_eq.symm
    simp [contradictionPart, hnil, hnil']
  · have hnil' : contradicting checks' ≠ [] := fun hno => hnil (hno ▸ h).eq_nil
    simp only [contradictionPart, hnil, hnil', if_false, List.length_append, hreasons, h.length_eq]

theorem insufficientPart_inj : Function.Injective insufficientPart := by
  intro m n h
  simp only [insufficientPart] at h
  split at h <;> split at h
  · omega
  · simp at h
  · simp at h
  · have hdigits := List.append_cancel_left (List.append_cancel_right h)
    exact (prefixFree_number ' ' rfl).injective (congrArg (· ++ [' ']) hdigits)

/-- A number, and two texts of which the first has a known length, can be told apart. -/
theorem number_texts_inj {u v a b a' b' : List Char} {m n : ℕ}
    (h : u ++ ((toString m).toList ++ [' ']) ++ (v ++ (a ++ b)) =
      u ++ ((toString n).toList ++ [' ']) ++ (v ++ (a' ++ b'))) (ha : a.length = a'.length) :
    m = n ∧ a = a' ∧ b = b' := by
  rw [List.append_assoc u, List.append_assoc u] at h
  obtain ⟨hmn, hrest⟩ := prefixFree_number ' ' rfl m n _ _ (List.append_cancel_left h)
  exact ⟨hmn, List.append_inj (List.append_cancel_left hrest) ha⟩

/-! ### When more checks give the same answer -/

theorem same_reasons {checks extra checks' : List VerificationCheck} (hne : checks ≠ [])
    (hperm : checks'.Perm (checks ++ extra))
    (hcount : contradictionCount checks' = contradictionCount checks)
    (hsummary : buildVerificationSummary checks' = buildVerificationSummary checks) :
    extra = [] ∧ contradictionReasons checks' = contradictionReasons checks := by
  have hne' : checks' ≠ [] := by
    rintro rfl
    exact hne (List.append_eq_nil_iff.1 hperm.nil_eq.symm).1
  have hcounts : ∀ v, verdictCount v checks' = verdictCount v checks + verdictCount v extra :=
    fun v => (verdictCount_perm v hperm).trans (verdictCount_append v checks extra)
  have hnone : contradicting extra = [] := by
    have hzero := hcounts .contradicted
    rw [← contradictionCount_eq, ← contradictionCount_eq, hcount] at hzero
    exact List.eq_nil_of_length_eq_zero (by simpa [verdictCount, contradicting] using hzero)
  have hsame : (contradicting checks').Perm (contradicting checks) := by
    have hfilter := hperm.filter fun c => c.verdict = .contradicted
    rw [List.filter_append] at hfilter
    simpa [contradicting, show extra.filter (fun c => c.verdict = .contradicted) = [] from hnone]
      using hfilter
  -- the number of matched checks, and then the rest of the text
  have htext := congrArg String.toList hsummary
  rw [summary_toList hne', summary_toList hne] at htext
  obtain ⟨hmatched, hpart, hinsufficient⟩ :=
    number_texts_inj htext (contradictionPart_length hsame)
  have hinsufficient := insufficientPart_inj hinsufficient
  refine ⟨eq_nil_of_verdictCount fun v => ?_, ?_⟩
  · have hv := hcounts v
    cases v with
    | matched => omega
    | contradicted => rw [← contradictionCount_eq, ← contradictionCount_eq, hcount] at hv; omega
    | insufficientEvidence => omega
  · by_cases hnil : contradicting checks = []
    · have hnil' : contradicting checks' = [] := (hnil ▸ hsame).eq_nil
      simp [contradictionReasons, hnil, hnil']
    · have hnil' : contradicting checks' ≠ [] := fun hno => hnil (hno ▸ hsame).nil_eq.symm
      simp only [contradictionPart, hnil, hnil', if_false, hsame.length_eq] at hpart
      exact String.ext (List.append_cancel_left (List.append_cancel_right hpart))

/-- Two checks in some order. -/
theorem perm_pair {α : Type} {xs : List α} {a b : α} (h : xs.Perm [a, b]) :
    xs = [a, b] ∨ xs = [b, a] := by
  obtain ⟨x, y, rfl⟩ := List.length_eq_two.1 h.length_eq
  have hx : x ∈ [a, b] := h.mem_iff.1 List.mem_cons_self
  simp only [List.mem_cons, List.not_mem_nil, or_false] at hx
  rcases hx with rfl | rfl
  · have hy := List.perm_singleton.1 (List.Perm.cons_inv h)
    exact Or.inl (by rw [hy])
  · have hy := List.perm_singleton.1 (List.Perm.cons_inv (h.trans (List.Perm.swap _ _ _)))
    exact Or.inr (by rw [hy])

/-- **When more checks give the same answer** as those of one run, an identity check and an
employment check: nothing was added, and the checks come in their order, or not both of them give a
reason. -/
theorem same_answer_iff {identity employment : VerificationCheck}
    {extra checks : List VerificationCheck} (hidentity : identity.sourceSystem = .mockKyc)
    (hemployment : employment.sourceSystem = .mockEmployer)
    (hperm : checks.Perm ([identity, employment] ++ extra)) :
    (contradictionCount checks = contradictionCount [identity, employment] ∧
      buildVerificationSummary checks = buildVerificationSummary [identity, employment]) ↔
    extra = [] ∧ (checks = [identity, employment] ∨
      contradictionCount [identity, employment] ≤ 1) := by
  constructor
  · rintro ⟨hcount, hsummary⟩
    obtain ⟨rfl, hreasons⟩ := same_reasons (List.cons_ne_nil _ _) hperm hcount hsummary
    refine ⟨rfl, ?_⟩
    rcases perm_pair hperm with rfl | rfl
    · exact Or.inl rfl
    · refine Or.inr (not_lt.1 fun hboth => ?_)
      by_cases hi : identity.verdict = .contradicted <;>
      by_cases he : employment.verdict = .contradicted <;>
        simp [contradictionCount, hi, he] at hboth
      have htext := congrArg String.toList hreasons
      simp [contradictionReasons, contradicting, hi, he, reasonOf, hidentity, hemployment,
        SourceSystem.value, String.intercalate_cons_cons, String.intercalate_singleton] at htext
  · rintro ⟨rfl, horder⟩
    rcases perm_pair hperm with rfl | rfl
    · exact ⟨rfl, rfl⟩
    · have hsame : contradicting [employment, identity] = contradicting [identity, employment] := by
        rcases horder with horder | hone
        · rw [horder]
        · by_cases hi : identity.verdict = .contradicted <;>
          by_cases he : employment.verdict = .contradicted <;>
            simp_all [contradicting, contradictionCount]
      refine ⟨congrArg List.length hsame, String.ext ?_⟩
      rw [summary_toList (List.cons_ne_nil _ _), summary_toList (List.cons_ne_nil _ _)]
      simp only [contradictionPart, contradictionReasons, hsame,
        verdictCount_perm _ (List.Perm.swap identity employment [])]

end FinAssist
