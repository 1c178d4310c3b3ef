/-
**The synthetic documents, and what is read back from them.**

`generate_pay_stub_pdf` and `generate_identity_document_pdf` put lines of text on a page.  The
extractor's expressions are tuned to these lines.  This module renders the lines, and shows that
what was put on a page is what is extracted from it: each expression finds its own line, and splits
it where the fields meet.

Main definitions:

* `FinAssist.Binary64.fixed2Grouped` — an amount with thousands separators and two decimals;
* `FinAssist.payStubLines`, `FinAssist.identityDocumentLines` — **the lines of the documents**.

Main results:

* `FinAssist.payStub_findings`, `FinAssist.identityDocument_findings` — what the searches find;
* `FinAssist.extraction_undoes_rendering` — **extraction undoes rendering**.
-/

import FinAssist.DocumentExtractor
import FinAssist.Doubles

set_option relaxedAutoImplicit false
set_option autoImplicit false

namespace FinAssist

open Backtracking

/-! ### Amounts -/

namespace Binary64

/-- Digits, the last one first, with a comma after every three of them. -/
def commas : List Char → List Char
  | a :: b :: c :: d :: s => a :: b :: c :: ',' :: commas (d :: s)
  | s => s

/-- A number with thousands separators. -/
def grouped (n : ℕ) : List Char := (commas (Nat.toDigits 10 n).reverse).reverse

/-- `f"{q:,.2f}"`. -/
def fixed2Grouped (q : ℚ) : String :=
  let hundredths := roundHalfEven (q * 100)
  (if q < 0 then "-" else "") ++ String.ofList (grouped (hundredths.natAbs / 100)) ++ "." ++
    zeroPad 2 (hundredths.natAbs % 100)

end Binary64

/-! ### The lines -/

/-- `SyntheticApplicant`, as far as it is on a document. -/
structure SyntheticApplicant where
  syntheticId : String
  givenName : String
  familyName : String
  dateOfBirth : Date
  streetAddress : String
  city : String

/-- `SyntheticEmploymentRecord`, as far as it is on a document. -/
structure SyntheticEmploymentRecord where
  employerName : String
  verifiedAnnualIncome : ℤ
  tenureMonths : ℤ

def disclaimer : String := "This is a synthetic document generated for demo/testing purposes only."

/-- The lines of a pay stub over a gross pay. -/
def payStubLinesOver (monthlyGross : ℚ) (applicant : SyntheticApplicant)
    (employment : SyntheticEmploymentRecord) : List String :=
  ["SYNTHETIC PAY STUB -- " ++ employment.employerName,
    "Employee: " ++ applicant.givenName ++ " " ++ applicant.familyName,
    "Pay period: Monthly    Gross pay: $" ++ Binary64.fixed2Grouped monthlyGross,
    "Tenure: " ++ toString employment.tenureMonths ++ " months",
    disclaimer]

/-- **The lines of `generate_pay_stub_pdf`**; the division raises where its result is no double. -/
def payStubLines (applicant : SyntheticApplicant) (employment : SyntheticEmploymentRecord) :
    Except Error (List String) :=
  match Binary64.round (employment.verifiedAnnualIncome / 12) with
  | some monthlyGross => .ok (payStubLinesOver monthlyGross applicant employment)
  | none => .error (.overflowError "integer division result too large for a float")

/-- **The lines of `generate_identity_document_pdf`.** -/
def identityDocumentLines (applicant : SyntheticApplicant) : List String :=
  ["SYNTHETIC GOVERNMENT-ISSUED ID (DEMO ONLY)",
    "Name: " ++ applicant.givenName ++ " " ++ applicant.familyName,
    "Date of birth: " ++ applicant.dateOfBirth.isoformat,
    "Address: " ++ applicant.streetAddress ++ ", " ++ applicant.city,
    "Synthetic ID: " ++ applicant.syntheticId,
    disclaimer]

/-- Lines, as the text of one page. -/
def onePage (lines : List String) : List PageText := [⟨1, "\n".intercalate lines⟩]

/-! ### Amounts on a page -/

namespace Binary64

theorem commas_isAmount : ∀ {s : List Char}, (∀ c ∈ s, isAmount c = true) →
    ∀ c ∈ commas s, isAmount c = true := by
  intro s
  induction s using commas.induct with
  | case1 a b c d s ih =>
      intro h x hx
      simp only [commas, List.mem_cons] at hx
      rcases hx with rfl | rfl | rfl | rfl | hx
      · exact h _ (by simp)
      · exact h _ (by simp)
      · exact h _ (by simp)
      · rfl
      · exact ih (fun y hy => h y (by simp [List.mem_cons.1 hy])) x hx
  | case2 s hs =>
      intro h
      rw [commas]
      · exact h
      · exact hs

/-- **Stripping the commas undoes grouping.** -/
theorem filter_commas : ∀ {s : List Char}, (',' ∉ s) → (commas s).filter (· ≠ ',') = s := by
  intro s
  induction s using commas.induct with
  | case1 a b c d s ih =>
      intro h
      have hrest : ',' ∉ d :: s := fun hmem => h (by simp [List.mem_cons.1 hmem])
      have ha : a ≠ ',' := fun heq => h (by simp [heq])
      have hb : b ≠ ',' := fun heq => h (by simp [heq])
      have hc : c ≠ ',' := fun heq => h (by simp [heq])
      have hfilter := ih hrest
      simp only [ne_eq, decide_not] at hfilter
      simp [commas, ha, hb, hc, hfilter]
  | case2 s hs =>
      intro h
      rw [commas]
      · rw [List.filter_eq_self]
        intro c hc
        simpa using fun heq : c = ',' => h (heq ▸ hc)
      · exact hs

end Binary64

theorem isDecimal_of_isDigit {c : Char} (h : c.isDigit = true) : isDecimal c = true := by
  simp [isDecimal, h]

theorem isSpace_of_isDigit {c : Char} (h : c.isDigit = true) : isSpace c = false := by
  have hrange := toNat_of_isAlphanum (c := c) (by simp [Char.isAlphanum, h])
  exact isSpace_of_printable (by omega)

theorem isDigit_of_mem_zeroPad {width n : ℕ} {c : Char} (h : c ∈ (zeroPad width n).toList) :
    c.isDigit = true := by
  rw [zeroPad_toList] at h
  rcases List.mem_append.1 h with h | h
  · rw [(List.mem_replicate.1 h).2]
    rfl
  · exact Nat.isDigit_of_mem_toDigits (by omega) (by omega) h

namespace Binary64

theorem mem_grouped {n : ℕ} : ∀ c ∈ grouped n, isAmount c = true := by
  intro c hc
  refine commas_isAmount (fun d hd => ?_) c (List.mem_reverse.1 hc)
  have hdigit := Nat.isDigit_of_mem_toDigits (by omega) (by omega) (List.mem_reverse.1 hd)
  simp [isAmount, isDecimal_of_isDigit hdigit]

theorem comma_not_mem_toDigits (n : ℕ) : ',' ∉ Nat.toDigits 10 n := by
  intro h
  have hdigit := Nat.isDigit_of_mem_toDigits (by omega) (by omega) h
  exact absurd hdigit (by decide)

theorem filter_grouped (n : ℕ) : (grouped n).filter (· ≠ ',') = Nat.toDigits 10 n := by
  rw [grouped, List.filter_reverse, filter_commas (by simpa using comma_not_mem_toDigits n),
    List.reverse_reverse]

theorem grouped_ne_nil (n : ℕ) : grouped n ≠ [] := by
  intro h
  have hfilter := filter_grouped n
  rw [h] at hfilter
  exact Nat.toDigits_ne_nil hfilter.symm

/-- What is on the page of an amount that is not negative. -/
theorem fixed2Grouped_toList {q : ℚ} (hq : 0 ≤ q) : (fixed2Grouped q).toList =
    grouped ((roundHalfEven (q * 100)).natAbs / 100) ++
      '.' :: (zeroPad 2 ((roundHalfEven (q * 100)).natAbs % 100)).toList := by
  have hdot : ".".toList = ['.'] := rfl
  simp [fixed2Grouped, not_lt.2 hq, hdot]

/-- **Without the commas it is the amount with two decimals.** -/
theorem filter_fixed2Grouped {q : ℚ} (hq : 0 ≤ q) :
    String.ofList ((fixed2Grouped q).toList.filter (· ≠ ',')) = fixed2 q := by
  have hdot : ".".toList = ['.'] := rfl
  have hcents : ∀ n : ℕ, (zeroPad 2 n).toList.filter (· ≠ ',') = (zeroPad 2 n).toList := by
    intro n
    rw [List.filter_eq_self]
    intro c hc
    have hdigit := isDigit_of_mem_zeroPad hc
    simpa using fun heq : c = ',' => by
      rw [heq] at hdigit
      exact absurd hdigit (by decide)
  apply String.toList_inj.1
  rw [String.toList_ofList, fixed2Grouped_toList hq, List.filter_append, filter_grouped,
    List.filter_cons_of_pos (by decide), hcents, fixed2]
  simp [not_lt.2 hq, hdot]

end Binary64

/-- The expression for an amount reads all of it. -/
theorem amount_matchAt {q : ℚ} (hq : 0 ≤ q) (rest : List Char) :
    amount.matchAt ((Binary64.fixed2Grouped q).toList ++ rest) =
      some ⟨(Binary64.fixed2Grouped q).toList, [], rest⟩ := by
  rw [Binary64.fixed2Grouped_toList hq]
  generalize hcents : (zeroPad 2 ((Binary64.roundHalfEven (q * 100)).natAbs % 100)).toList = cents
  have hlength : cents.length = 2 := by
    rw [← hcents]
    exact zeroPad_length (by omega) (Nat.mod_lt _ (by omega))
  have hdigits : ∀ c ∈ cents, isDecimal c = true := fun c hc =>
    isDecimal_of_isDigit (isDigit_of_mem_zeroPad (hcents ▸ hc))
  have htimes : (Pattern.times isDecimal 2).ends (cents ++ rest) = [⟨cents, [], rest⟩] :=
    hlength ▸ Pattern.ends_times hdigits
  have hdecimals : (Pattern.seq (.one (· = '.')) (.times isDecimal 2)).matchAt
      ('.' :: cents ++ rest) = some ⟨'.' :: cents, [], rest⟩ := by
    simp [Pattern.matchAt, Pattern.ends, htimes, Match.andThen]
  rw [List.append_assoc]
  exact Pattern.matchAt_plus_longest (Binary64.grouped_ne_nil _) Binary64.mem_grouped
    (by simp [isAmount, isDecimal]; decide) hdecimals

/-! ### Fields -/

/-- A text without surrounding blanks. -/
def Trimmed (s : String) : Prop :=
  (∀ c ∈ s.toList.head?, isSpace c = false) ∧ ∀ c ∈ s.toList.getLast?, isSpace c = false

/-- A field without a colon and without the marker of a pay stub. -/
def Unmarked (s : String) : Prop := ':' ∉ s.toList ∧ ¬ payStubMarker.toList <:+: s.toList

/-- What holds of each character is decided along the text, not over all characters there are. -/
instance (priority := high) decidableForallChars {p : Char → Prop} [DecidablePred p]
    (s : List Char) : Decidable (∀ c ∈ s, p c) := List.decidableBAll p s

instance (priority := high) decidableForallChar? {p : Char → Prop} [DecidablePred p]
    (c? : Option Char) : Decidable (∀ c ∈ c?, p c) := Option.decidableForallMem c?

instance (s : String) : Decidable (Trimmed s) := inferInstanceAs (Decidable (_ ∧ _))

instance (s : String) : Decidable (Unmarked s) := inferInstanceAs (Decidable (_ ∧ _))

theorem dropWhile_eq_self {p : Char → Bool} {s : List Char} (h : ∀ c ∈ s.head?, p c = false) :
    s.dropWhile p = s := by
  cases s with
  | nil => rfl
  | cons c s => rw [List.dropWhile_cons_of_neg (by simp [h c rfl])]

theorem Trimmed.strip {s : String} (h : Trimmed s) : strip s.toList = s.toList := by
  rw [FinAssist.strip, dropWhile_eq_self h.1, dropWhile_eq_self, List.reverse_reverse]
  rw [List.head?_reverse]
  exact h.2

theorem toList_ne_nil {s : String} (h : s ≠ "") : s.toList ≠ [] := fun hs =>
  h (String.toList_inj.1 (by simpa using hs))

theorem isDot_of_oneLine {s : String} (h : '\n' ∉ s.toList) : ∀ c ∈ s.toList, isDot c = true := by
  intro c hc
  simpa [isDot] using fun heq : c = '\n' => h (heq ▸ hc)

/-- A marker does not end where another word does. -/
theorem not_suffix {w s : List Char} (h : ¬ w <:+ s) (h' : ¬ s <:+ w) (before : List Char) :
    ¬ w <:+ before ++ s := by
  intro hw
  rcases List.suffix_or_suffix_of_suffix hw (List.suffix_append before s) with hsuffix | hsuffix
  · exact h hsuffix
  · exact h' hsuffix

/-- One blank, and what comes after it. -/
theorem groupsAt_blank {s : Pattern Char} {rest : List Char} {groups : List (List Char)}
    (hrest : ∀ c ∈ rest.head?, isSpace c = false) (h : s.groupsAt rest = some groups) :
    (Pattern.seq spaces s).groupsAt (' ' :: rest) = some groups :=
  Pattern.groupsAt_many_seq (show ∀ c ∈ [' '], isSpace c = true by decide) hrest h

theorem head?_append {s : List Char} {p : Char → Bool} (hne : s ≠ [])
    (h : ∀ c ∈ s.head?, p c = false) (rest : List Char) : ∀ c ∈ (s ++ rest).head?, p c = false := by
  rw [List.head?_append_of_ne_nil _ hne]
  exact h

/-- What is found on the one page there is. -/
theorem extractFacts_onePage (U : Unicode) (lines : List String)
    (classification : DocumentClassification) (sourceChecksum : String)
    {groups : List (List (List Char))}
    (h : List.Forall₂
      (fun (s : Search) gs => s.pattern.search ("\n".intercalate lines).toList = some gs)
      (searches U classification) groups) :
    ∃ facts, extractFacts U (onePage lines) classification sourceChecksum = .ok facts ∧
      facts.map ExtractedFact.finding =
        (List.zipWith Search.findings (searches U classification) groups).flatten := by
  have hpages : ∀ page ∈ onePage lines, 1 ≤ page.page := by simp [onePage]
  obtain ⟨facts, hfacts, hfound⟩ := extractFacts_ok U hpages classification sourceChecksum
  refine ⟨facts.flatten, hfacts, ?_⟩
  clear hfacts
  generalize searches U classification = ss at h hfound
  induction hfound generalizing groups with
  | nil =>
      cases h
      rfl
  | @cons s fs ss rest hs _ ih =>
      cases h with
      | @cons _ gs _ groups hgs hrest =>
          rw [List.flatten_cons, List.map_append, List.zipWith_cons_cons, List.flatten_cons,
            ih hrest]
          congr 1
          rcases hs with ⟨hnone, -⟩ | ⟨page, gs', hfirst, hfindings, -⟩
          · rw [hnone ⟨1, "\n".intercalate lines⟩ (List.mem_singleton.2 rfl)] at hgs
            cases hgs
          · obtain rfl := List.mem_singleton.1 hfirst.mem
            rw [hfirst.groups] at hgs
            obtain rfl := Option.some.inj hgs
            exact hfindings

/-! ### Reading a pay stub -/

section PayStub

variable {monthlyGross : ℚ} {applicant : SyntheticApplicant} {employment : SyntheticEmploymentRecord}

/-- The text of a pay stub, cut at its colons. -/
theorem payStub_text : ("\n".intercalate (payStubLinesOver monthlyGross applicant employment)).toList =
    ("SYNTHETIC PAY STUB -- ".toList ++ employment.employerName.toList ++ "\nEmployee".toList) ++
      ':' :: ((" ".toList ++ applicant.givenName.toList ++ " ".toList ++
        applicant.familyName.toList ++ "\nPay period".toList) ++
      ':' :: (" Monthly    Gross pay".toList ++
      ':' :: ((" $".toList ++ (Binary64.fixed2Grouped monthlyGross).toList ++ "\nTenure".toList) ++
      ':' :: (" ".toList ++ (toString employment.tenureMonths).toList ++
        (" months\n".toList ++ disclaimer.toList))))) := by
  simp only [payStubLinesOver, String.toList_intercalate, List.map_cons, List.map_nil,
    String.toList_append, List.intercalate_cons_cons]
  simp

/-- The employer stands at the beginning. -/
theorem search_employerName (hne : employment.employerName ≠ "")
    (htrimmed : Trimmed employment.employerName) (hline : '\n' ∉ employment.employerName.toList) :
    employerNameRe.search
      ("\n".intercalate (payStubLinesOver monthlyGross applicant employment)).toList =
        some [employment.employerName.toList] := by
  have hname : ∀ rest, (Pattern.group (.plus isDot)).groupsAt
      (employment.employerName.toList ++ '\n' :: rest) = some [employment.employerName.toList] :=
    fun rest => Pattern.groupsAt_plus (toList_ne_nil hne) (isDot_of_oneLine hline)
      (by simp [isDot])
  have hread : ∀ rest, afterPayStub.groupsAt (' ' :: ("--".toList ++
      (' ' :: (employment.employerName.toList ++ '\n' :: rest)))) =
        some [employment.employerName.toList] := by
    intro rest
    refine groupsAt_blank (head?_append (by decide) (by decide) _) ?_
    rw [Pattern.groupsAt_word_seq]
    exact groupsAt_blank (head?_append (toList_ne_nil hne) htrimmed.1 _) (hname rest)
  have hcut : ∀ rest, "SYNTHETIC PAY STUB -- ".toList ++ employment.employerName.toList ++
      "\nEmployee".toList ++ rest = payStubMarker.toList ++ (' ' :: ("--".toList ++
        (' ' :: (employment.employerName.toList ++ '\n' :: ("Employee".toList ++ rest))))) := by
    intro rest
    simp [payStubMarker]
  rw [payStub_text, hcut]
  refine Pattern.search_of_groupsAt ?_
  rw [employerNameRe, Pattern.groupsAt_word_seq]
  exact hread _

/-- The fields before the gross pay. -/
theorem colon_not_mem_employee (h : ':' ∉ employment.employerName.toList) :
    ':' ∉ "SYNTHETIC PAY STUB -- ".toList ++ employment.employerName.toList ++
      "\nEmployee".toList := by
  simp [h]

theorem colon_not_mem_period (hgiven : ':' ∉ applicant.givenName.toList)
    (hfamily : ':' ∉ applicant.familyName.toList) :
    ':' ∉ " ".toList ++ applicant.givenName.toList ++ " ".toList ++ applicant.familyName.toList ++
      "\nPay period".toList := by
  simp [hgiven, hfamily]

/-- After the marker the amount is read, whatever stands after it. -/
theorem groupsAt_afterGrossPay (hq : 0 ≤ monthlyGross) (rest : List Char) :
    afterGrossPay.groupsAt (" $".toList ++ (Binary64.fixed2Grouped monthlyGross).toList ++ rest) =
      some [(Binary64.fixed2Grouped monthlyGross).toList] := by
  have hamount : (Pattern.seq (.one (· = '$')) (.group amount)).groupsAt
      ('$' :: ((Binary64.fixed2Grouped monthlyGross).toList ++ rest)) =
        some [(Binary64.fixed2Grouped monthlyGross).toList] := by
    rw [Pattern.groupsAt_one_seq, if_pos (by decide), Pattern.groupsAt_group, amount_matchAt hq]
    rfl
  rw [List.append_assoc]
  exact groupsAt_blank (by simp [isSpace]; decide) hamount

theorem search_grossPay (hq : 0 ≤ monthlyGross) (hemployer : ':' ∉ employment.employerName.toList)
    (hgiven : ':' ∉ applicant.givenName.toList) (hfamily : ':' ∉ applicant.familyName.toList) :
    grossPayRe.search
      ("\n".intercalate (payStubLinesOver monthlyGross applicant employment)).toList =
        some [(Binary64.fixed2Grouped monthlyGross).toList] := by
  have hread : ∀ rest, afterGrossPay.groupsAt (" $".toList ++
      (Binary64.fixed2Grouped monthlyGross).toList ++ "\nTenure".toList ++ rest) =
        some [(Binary64.fixed2Grouped monthlyGross).toList] := by
    intro rest
    rw [List.append_assoc]
    exact groupsAt_afterGrossPay hq _
  rw [payStub_text, grossPayRe,
    Pattern.search_marker (by decide) _ _ (colon_not_mem_employee hemployer),
    if_neg (not_suffix (by decide) (by decide) _),
    Pattern.search_marker (by decide) _ _ (colon_not_mem_period hgiven hfamily),
    if_neg (not_suffix (by decide) (by decide) _),
    Pattern.search_marker (by decide) _ _ (by decide), if_pos (by decide), hread]
  rfl

theorem isDigit_of_mem_toString {n : ℤ} (hn : 0 ≤ n) {c : Char} (h : c ∈ (toString n).toList) :
    c.isDigit = true := by
  rw [Int.toString_eq_repr, Int.repr_eq_if, if_pos hn, Nat.toList_repr] at h
  exact Nat.isDigit_of_mem_toDigits (by omega) (by omega) h

theorem toString_ne_nil {n : ℤ} (hn : 0 ≤ n) : (toString n).toList ≠ [] := by
  rw [Int.toString_eq_repr, Int.repr_eq_if, if_pos hn, Nat.toList_repr]
  exact Nat.toDigits_ne_nil

theorem fixed2Grouped_colon (hq : 0 ≤ monthlyGross) :
    ':' ∉ (Binary64.fixed2Grouped monthlyGross).toList := by
  rw [Binary64.fixed2Grouped_toList hq]
  intro h
  rcases List.mem_append.1 h with h | h
  · exact absurd (Binary64.mem_grouped _ h) (by decide)
  · rcases List.mem_cons.1 h with h | h
    · cases h
    · exact absurd (isDigit_of_mem_zeroPad h) (by decide)

theorem search_tenure (hq : 0 ≤ monthlyGross) (htenure : 0 ≤ employment.tenureMonths)
    (hemployer : ':' ∉ employment.employerName.toList)
    (hgiven : ':' ∉ applicant.givenName.toList) (hfamily : ':' ∉ applicant.familyName.toList) :
    tenureRe.search
      ("\n".intercalate (payStubLinesOver monthlyGross applicant employment)).toList =
        some [(toString employment.tenureMonths).toList] := by
  have hdecimal : ∀ c ∈ (toString employment.tenureMonths).toList, isDecimal c = true :=
    fun c hc => isDecimal_of_isDigit (isDigit_of_mem_toString htenure hc)
  have hread : ∀ rest, afterTenure.groupsAt (" ".toList ++
      (toString employment.tenureMonths).toList ++ (" months\n".toList ++ rest)) =
        some [(toString employment.tenureMonths).toList] := by
    intro rest
    have hmonths : (Pattern.seq spaces (.word "months".toList)).groupsAt
        (' ' :: ("months".toList ++ '\n' :: rest)) = some [] :=
      groupsAt_blank (head?_append (by decide) (by decide) _) (Pattern.groupsAt_word _ _)
    have hnumber := Pattern.groupsAt_plus_longest (toString_ne_nil htenure) hdecimal
      (by simp [isDecimal]; decide) hmonths
    refine groupsAt_blank (head?_append (toString_ne_nil htenure) (fun c hc => ?_) _) hnumber
    exact isSpace_of_isDigit (isDigit_of_mem_toString htenure (List.mem_of_mem_head? hc))
  have hamount : ':' ∉ " $".toList ++ (Binary64.fixed2Grouped monthlyGross).toList ++
      "\nTenure".toList := by
    simp [fixed2Grouped_colon hq]
  rw [payStub_text, tenureRe,
    Pattern.search_marker (by decide) _ _ (colon_not_mem_employee hemployer),
    if_neg (not_suffix (by decide) (by decide) _),
    Pattern.search_marker (by decide) _ _ (colon_not_mem_period hgiven hfamily),
    if_neg (not_suffix (by decide) (by decide) _),
    Pattern.search_marker (by decide) _ _ (by decide), if_neg (by decide),
    Pattern.search_marker (by decide) _ _ hamount,
    if_pos ((show "Tenure".toList <:+ "\nTenure".toList by decide).trans (List.suffix_append _ _)),
    hread]
  rfl

end PayStub

/-! ### Reading an identity document -/

/-- The expression for a date reads all of it. -/
theorem isoDate_matchAt (date : Date) (rest : List Char) :
    isoDate.matchAt (date.isoformat.toList ++ rest) = some ⟨date.isoformat.toList, [], rest⟩ := by
  have hdash : "-".toList = ['-'] := rfl
  have htimes : ∀ (width n : ℕ) (rest : List Char), 0 < width → n < 10 ^ width →
      (Pattern.times isDecimal width).ends ((zeroPad width n).toList ++ rest) =
        [⟨(zeroPad width n).toList, [], rest⟩] := by
    intro width n rest hwidth hn
    have hends : (Pattern.times isDecimal (zeroPad width n).toList.length).ends
        ((zeroPad width n).toList ++ rest) = [⟨(zeroPad width n).toList, [], rest⟩] :=
      Pattern.ends_times fun c hc => isDecimal_of_isDigit (isDigit_of_mem_zeroPad hc)
    rwa [zeroPad_length hwidth hn] at hends
  obtain ⟨-, hyear, -, hmonth, -, hday⟩ := date.valid
  have hdays : date.day < 10 ^ 2 := by
    have hle : daysInMonth date.year date.month ≤ 31 := by
      unfold daysInMonth
      split
      · split <;> omega
      · split <;> omega
    omega
  simp [Pattern.matchAt, isoDate, Pattern.ends, Date.isoformat, hdash, List.append_assoc,
    htimes 4 date.year _ (by omega) (by omega), htimes 2 date.month _ (by omega) (by omega),
    htimes 2 date.day _ (by omega) hdays, Match.andThen]

theorem mem_isoformat {date : Date} {c : Char} (h : c ∈ date.isoformat.toList) :
    c.isDigit = true ∨ c = '-' := by
  have hdash : "-".toList = ['-'] := rfl
  simp only [Date.isoformat, String.toList_append, List.mem_append, hdash, List.mem_singleton] at h
  rcases h with (((h | h) | h) | h) | h
  · exact Or.inl (isDigit_of_mem_zeroPad h)
  · exact Or.inr h
  · exact Or.inl (isDigit_of_mem_zeroPad h)
  · exact Or.inr h
  · exact Or.inl (isDigit_of_mem_zeroPad h)

/-- **A date is read back from its text.** -/
theorem Date.fromisoformat?_isoformat (date : Date) :
    Date.fromisoformat? date.isoformat.toList = some date := by
  obtain ⟨hyear, hyear', hmonth, hmonth', hday, hday'⟩ := date.valid
  have hdays : date.day < 10 ^ 2 := by
    have hle : daysInMonth date.year date.month ≤ 31 := by
      unfold daysInMonth
      split
      · split <;> omega
      · split <;> omega
    omega
  have hdash : "-".toList = ['-'] := rfl
  have htext : date.isoformat.toList = (zeroPad 4 date.year).toList ++ '-' ::
      ((zeroPad 2 date.month).toList ++ '-' :: ((zeroPad 2 date.day).toList ++ [])) := by
    simp [Date.isoformat, hdash]
  rw [Date.fromisoformat?, htext]
  simp only [takeNumber_zeroPad 4 (by omega) (show date.year < 10 ^ 4 by omega),
    takeNumber_zeroPad 2 (by omega) (show date.month < 10 ^ 2 by omega),
    takeNumber_zeroPad 2 (by omega) hdays, takeChar_cons, Option.bind_eq_bind, Option.bind_some]
  rw [dif_pos ⟨trivial, date.valid⟩]

section IdentityDocument

variable {applicant : SyntheticApplicant}

/-- The text of an identity document, cut at its colons. -/
theorem identityDocument_text : ("\n".intercalate (identityDocumentLines applicant)).toList =
    "SYNTHETIC GOVERNMENT-ISSUED ID (DEMO ONLY)\nName".toList ++
      ':' :: ((" ".toList ++ applicant.givenName.toList ++ " ".toList ++
        applicant.familyName.toList ++ "\nDate of birth".toList) ++
      ':' :: ((" ".toList ++ applicant.dateOfBirth.isoformat.toList ++ "\nAddress".toList) ++
      ':' :: ((" ".toList ++ applicant.streetAddress.toList ++ ", ".toList ++
        applicant.city.toList ++ "\nSynthetic ID".toList) ++
      ':' :: (" ".toList ++ applicant.syntheticId.toList ++ ("\n".toList ++ disclaimer.toList))))) := by
  simp only [identityDocumentLines, String.toList_intercalate, List.map_cons, List.map_nil,
    String.toList_append, List.intercalate_cons_cons]
  simp

/-- The fields before a marker of the identity document. -/
theorem colon_not_mem_names (hgiven : ':' ∉ applicant.givenName.toList)
    (hfamily : ':' ∉ applicant.familyName.toList) :
    ':' ∉ " ".toList ++ applicant.givenName.toList ++ " ".toList ++ applicant.familyName.toList ++
      "\nDate of birth".toList := by
  simp [hgiven, hfamily]

theorem colon_not_mem_dateOfBirth :
    ':' ∉ " ".toList ++ applicant.dateOfBirth.isoformat.toList ++ "\nAddress".toList := by
  have hdate : ':' ∉ applicant.dateOfBirth.isoformat.toList := by
    intro h
    rcases mem_isoformat h with h | h
    · exact absurd h (by decide)
    · cases h
  simp [hdate]

theorem colon_not_mem_address (hstreet : ':' ∉ applicant.streetAddress.toList)
    (hcity : ':' ∉ applicant.city.toList) :
    ':' ∉ " ".toList ++ applicant.streetAddress.toList ++ ", ".toList ++ applicant.city.toList ++
      "\nSynthetic ID".toList := by
  simp [hstreet, hcity]

/-- A text without blanks. -/
def NoSpace (s : String) : Prop := ∀ c ∈ s.toList, isSpace c = false

instance (s : String) : Decidable (NoSpace s) :=
  inferInstanceAs (Decidable (∀ c ∈ s.toList, isSpace c = false))

theorem search_identityName (hgiven : applicant.givenName ≠ "")
    (hgiven' : NoSpace applicant.givenName) (hfamily : applicant.familyName ≠ "")
    (hfamily' : NoSpace applicant.familyName) :
    identityNameRe.search ("\n".intercalate (identityDocumentLines applicant)).toList =
      some [applicant.givenName.toList, applicant.familyName.toList] := by
  have hvisible : ∀ {s : String}, NoSpace s → ∀ c ∈ s.toList, isVisible c = true :=
    fun h c hc => by simp [isVisible, h c hc]
  have hhead : ∀ {s : String}, NoSpace s → ∀ c ∈ s.toList.head?, isSpace c = false :=
    fun h c hc => h c (List.mem_of_mem_head? hc)
  have hread : ∀ rest, afterName.groupsAt (" ".toList ++ applicant.givenName.toList ++
      " ".toList ++ applicant.familyName.toList ++ "\nDate of birth".toList ++ rest) =
        some [applicant.givenName.toList, applicant.familyName.toList] := by
    intro rest
    have hnewline : ∀ c ∈ ("\nDate of birth".toList ++ rest).head?, isVisible c = false :=
      head?_append (by decide) (by decide) _
    have hlast := Pattern.groupsAt_plus (toList_ne_nil hfamily) (hvisible hfamily') hnewline
    have hblank : (Pattern.seq (.plus isSpace) (.group (.plus isVisible))).groupsAt
        ([' '] ++ (applicant.familyName.toList ++ ("\nDate of birth".toList ++ rest))) =
          some [applicant.familyName.toList] :=
      Pattern.groupsAt_seq_plus (by decide) (by decide)
        (head?_append (toList_ne_nil hfamily) (hhead hfamily') _) hlast
    have hfirst := Pattern.groupsAt_plus_longest (toList_ne_nil hgiven) (hvisible hgiven')
      (head?_append (by decide) (by decide) _) hblank
    simp only [List.append_assoc]
    exact groupsAt_blank (head?_append (toList_ne_nil hgiven) (hhead hgiven') _) hfirst
  rw [identityDocument_text, identityNameRe, Pattern.search_marker (by decide) _ _ (by decide),
    if_pos (by decide), hread]
  rfl

theorem search_dateOfBirth (hgiven : ':' ∉ applicant.givenName.toList)
    (hfamily : ':' ∉ applicant.familyName.toList) :
    dateOfBirthRe.search ("\n".intercalate (identityDocumentLines applicant)).toList =
      some [applicant.dateOfBirth.isoformat.toList] := by
  have hne : applicant.dateOfBirth.isoformat.toList ≠ [] := by
    have hdash : "-".toList = ['-'] := rfl
    simp [Date.isoformat, hdash]
  have hread : ∀ rest, afterDateOfBirth.groupsAt (" ".toList ++
      applicant.dateOfBirth.isoformat.toList ++ "\nAddress".toList ++ rest) =
        some [applicant.dateOfBirth.isoformat.toList] := by
    intro rest
    have hvisible : ∀ c ∈ applicant.dateOfBirth.isoformat.toList.head?, isSpace c = false := by
      intro c hc
      rcases mem_isoformat (List.mem_of_mem_head? hc) with h | h
      · exact isSpace_of_isDigit h
      · rw [h]
        decide
    have hmatch := isoDate_matchAt applicant.dateOfBirth ("\nAddress".toList ++ rest)
    generalize applicant.dateOfBirth.isoformat.toList = date at hne hvisible hmatch
    have hgroup : (Pattern.group isoDate).groupsAt (date ++ ("\nAddress".toList ++ rest)) =
        some [date] := by
      rw [Pattern.groupsAt_group, hmatch]
      rfl
    simp only [List.append_assoc]
    exact groupsAt_blank (head?_append hne hvisible _) hgroup
  rw [identityDocument_text, dateOfBirthRe, Pattern.search_marker (by decide) _ _ (by decide),
    if_neg (by decide), Pattern.search_marker (by decide) _ _ (colon_not_mem_names hgiven hfamily),
    if_pos ((show "Date of birth".toList <:+ "\nDate of birth".toList by decide).trans
      (List.suffix_append _ _)), hread]
  rfl

/-- A pattern that begins with a symbol does not match where there is another. -/
theorem groupsAt_one_seq_none {p : Char → Bool} {s : Pattern Char} {rest : List Char}
    (h : ∀ c ∈ rest.head?, p c = false) : (Pattern.seq (.one p) s).groupsAt rest = none := by
  cases rest with
  | nil => rfl
  | cons c rest => rw [Pattern.groupsAt_one_seq, if_neg (by simp [h c rfl])]

/-- The street is what is before the last comma. -/
theorem search_address (hgiven : ':' ∉ applicant.givenName.toList)
    (hfamily : ':' ∉ applicant.familyName.toList) (hstreet : applicant.streetAddress ≠ "")
    (hstreet' : Trimmed applicant.streetAddress) (hstreet'' : '\n' ∉ applicant.streetAddress.toList)
    (hcity : applicant.city ≠ "") (hcity' : Trimmed applicant.city)
    (hcity'' : '\n' ∉ applicant.city.toList) (hcomma : ',' ∉ applicant.city.toList) :
    addressRe.search ("\n".intercalate (identityDocumentLines applicant)).toList =
      some [applicant.streetAddress.toList, applicant.city.toList] := by
  have hread : ∀ rest, afterAddress.groupsAt (" ".toList ++ applicant.streetAddress.toList ++
      ", ".toList ++ applicant.city.toList ++ "\nSynthetic ID".toList ++ rest) =
        some [applicant.streetAddress.toList, applicant.city.toList] := by
    intro rest
    have hnewline : ∀ c ∈ ("\nSynthetic ID".toList ++ rest).head?, isDot c = false :=
      head?_append (by decide) (by decide) _
    have hlast : afterComma.groupsAt
        (' ' :: (applicant.city.toList ++ ("\nSynthetic ID".toList ++ rest))) =
          some [applicant.city.toList] :=
      groupsAt_blank (head?_append (toList_ne_nil hcity) hcity'.1 _)
        (Pattern.groupsAt_plus (toList_ne_nil hcity) (isDot_of_oneLine hcity'') hnewline)
    -- there is no comma after this one on the line
    have hlonger : ∀ m ∈ Pattern.repeats isDot
        (' ' :: applicant.city.toList ++ ("\nSynthetic ID".toList ++ rest)),
        (Pattern.seq (.one (· = ',')) afterComma).groupsAt m.rest = none := by
      intro m hm
      obtain ⟨zs, hrest, hsuffix⟩ := Pattern.rest_of_mem_repeats hnewline hm
      refine groupsAt_one_seq_none fun c hc => ?_
      rw [hrest] at hc
      cases zs with
      | nil => exact head?_append (p := (· = ',')) (by decide) (by decide) rest c hc
      | cons z zs =>
          obtain rfl := Option.some.inj hc
          have hmem : z ∈ ' ' :: applicant.city.toList := hsuffix.subset List.mem_cons_self
          simp only [decide_eq_false_iff_not]
          rintro rfl
          simp [hcomma] at hmem
    have hsplit : (Pattern.seq (.one (· = ',')) afterComma).groupsAt
        (',' :: (' ' :: applicant.city.toList ++ ("\nSynthetic ID".toList ++ rest))) =
          some [applicant.city.toList] := by
      rw [Pattern.groupsAt_one_seq, if_pos (by decide)]
      exact hlast
    have hboth := Pattern.groupsAt_plus_back (toList_ne_nil hstreet) (isDot_of_oneLine hstreet'')
      hlonger hsplit
    simp only [List.append_assoc]
    exact groupsAt_blank (head?_append (toList_ne_nil hstreet) hstreet'.1 _) hboth
  rw [identityDocument_text, addressRe, Pattern.search_marker (by decide) _ _ (by decide),
    if_neg (by decide), Pattern.search_marker (by decide) _ _ (colon_not_mem_names hgiven hfamily),
    if_neg (not_suffix (by decide) (by decide) _),
    Pattern.search_marker (by decide) _ _ colon_not_mem_dateOfBirth,
    if_pos ((show "Address".toList <:+ "\nAddress".toList by decide).trans
      (List.suffix_append _ _)), hread]
  rfl

/-- The characters of a synthetic id. -/
def IsSyntheticId (s : String) : Prop :=
  ∀ c ∈ s.toList, c.isAlphanum = true ∨ c = '_' ∨ c = '-'

instance (s : String) : Decidable (IsSyntheticId s) :=
  inferInstanceAs (Decidable (∀ c ∈ s.toList, c.isAlphanum = true ∨ c = '_' ∨ c = '-'))

theorem search_syntheticId (U : Unicode) (hgiven : ':' ∉ applicant.givenName.toList)
    (hfamily : ':' ∉ applicant.familyName.toList) (hstreet : ':' ∉ applicant.streetAddress.toList)
    (hcity : ':' ∉ applicant.city.toList) (hid : applicant.syntheticId ≠ "")
    (hid' : IsSyntheticId applicant.syntheticId) :
    (syntheticIdRe U).search ("\n".intercalate (identityDocumentLines applicant)).toList =
      some [applicant.syntheticId.toList] := by
  have hword : ∀ c ∈ applicant.syntheticId.toList, U.isWordOrDash c = true := by
    intro c hc
    rcases hid' c hc with h | rfl | rfl
    · have hrange := toNat_of_isAlphanum h
      simp [Unicode.isWordOrDash, U.isAlnum_ascii c (by omega), h]
    · simp [Unicode.isWordOrDash]
    · simp [Unicode.isWordOrDash]
  have hvisible : ∀ c ∈ applicant.syntheticId.toList.head?, isSpace c = false := by
    intro c hc
    rcases hid' c (List.mem_of_mem_head? hc) with h | rfl | rfl
    · have hrange := toNat_of_isAlphanum h
      exact isSpace_of_printable (by omega)
    · decide
    · decide
  have hread : ∀ rest, (afterSyntheticId U).groupsAt
      (" ".toList ++ applicant.syntheticId.toList ++ ("\n".toList ++ rest)) =
        some [applicant.syntheticId.toList] := by
    intro rest
    have hnewline : ∀ c ∈ ['\n'].head?, U.isWordOrDash c = false := by
      have halnum : U.isAlnum '\n' = false := by
        rw [U.isAlnum_ascii '\n' (by decide)]
        decide
      simp [Unicode.isWordOrDash, halnum]
    simp only [List.append_assoc]
    exact groupsAt_blank (head?_append (toList_ne_nil hid) hvisible _)
      (Pattern.groupsAt_plus (toList_ne_nil hid) hword (head?_append (by decide) hnewline _))
  rw [identityDocument_text, syntheticIdRe, Pattern.search_marker (by decide) _ _ (by decide),
    if_neg (by decide), Pattern.search_marker (by decide) _ _ (colon_not_mem_names hgiven hfamily),
    if_neg (not_suffix (by decide) (by decide) _),
    Pattern.search_marker (by decide) _ _ colon_not_mem_dateOfBirth,
    if_neg (not_suffix (by decide) (by decide) _),
    Pattern.search_marker (by decide) _ _ (colon_not_mem_address hstreet hcity),
    if_pos ((show "Synthetic ID".toList <:+ "\nSynthetic ID".toList by decide).trans
      (List.suffix_append _ _)), hread]
  rfl

/-- The marker of a pay stub does not begin with a blank. -/
theorem infix_blank_iff {s : List Char} :
    payStubMarker.toList <:+: ' ' :: s ↔ payStubMarker.toList <:+: s := by
  rw [List.infix_cons_iff]
  refine or_iff_right fun h => ?_
  have hhead : payStubMarker.toList.head? = some 'S' := by decide
  obtain ⟨rest, hrest⟩ := h
  have hfirst := congrArg List.head? hrest
  rw [List.head?_append_of_ne_nil _ (by decide), hhead] at hfirst
  cases hfirst

/-- **An identity document is not taken for a pay stub.** -/
theorem not_payStub (hgiven : NoSpace applicant.givenName) (hfamily : NoSpace applicant.familyName)
    (hstreet : ¬ payStubMarker.toList <:+: applicant.streetAddress.toList)
    (hcity : ¬ payStubMarker.toList <:+: applicant.city.toList)
    (hid : IsSyntheticId applicant.syntheticId) :
    ¬ payStubMarker.toList <:+: ("\n".intercalate (identityDocumentLines applicant)).toList := by
  have hcolon : ':' ∉ payStubMarker.toList := by decide
  have hline : '\n' ∉ payStubMarker.toList := by decide
  have hcomma : ',' ∉ payStubMarker.toList := by decide
  have hnames : ¬ payStubMarker.toList <:+: " ".toList ++ applicant.givenName.toList ++
      " ".toList ++ applicant.familyName.toList ++ "\nDate of birth".toList := by
    have hcut : " ".toList ++ applicant.givenName.toList ++ " ".toList ++
        applicant.familyName.toList ++ "\nDate of birth".toList =
          (' ' :: (applicant.givenName.toList ++ ' ' :: applicant.familyName.toList)) ++
            '\n' :: "Date of birth".toList := by
      simp
    rw [hcut, infix_append_cons_iff hline, infix_blank_iff]
    rintro (h | h)
    · -- two blanks do not fit between two names
      have hcount := h.sublist.count_le ' '
      have hno : ∀ {s : String}, NoSpace s → s.toList.count ' ' = 0 := fun h =>
        List.count_eq_zero.2 fun hmem => absurd (h _ hmem) (by decide)
      rw [List.count_append, List.count_cons_self, hno hgiven, hno hfamily] at hcount
      exact absurd hcount (by decide)
    · exact absurd h (by decide)
  have hdate : ¬ payStubMarker.toList <:+: " ".toList ++
      applicant.dateOfBirth.isoformat.toList ++ "\nAddress".toList := by
    have hcut : " ".toList ++ applicant.dateOfBirth.isoformat.toList ++ "\nAddress".toList =
        (' ' :: applicant.dateOfBirth.isoformat.toList) ++ '\n' :: "Address".toList := by
      simp
    rw [hcut, infix_append_cons_iff hline, infix_blank_iff]
    rintro (h | h)
    · rcases mem_isoformat (h.subset (show 'S' ∈ payStubMarker.toList by decide)) with h | h
      · exact absurd h (by decide)
      · cases h
    · exact absurd h (by decide)
  have haddress : ¬ payStubMarker.toList <:+: " ".toList ++ applicant.streetAddress.toList ++
      ", ".toList ++ applicant.city.toList ++ "\nSynthetic ID".toList := by
    have hcut : " ".toList ++ applicant.streetAddress.toList ++ ", ".toList ++
        applicant.city.toList ++ "\nSynthetic ID".toList =
          (' ' :: applicant.streetAddress.toList) ++ ',' :: ((' ' :: applicant.city.toList) ++
            '\n' :: "Synthetic ID".toList) := by
      simp
    rw [hcut, infix_append_cons_iff hcomma, infix_append_cons_iff hline, infix_blank_iff,
      infix_blank_iff]
    rintro (h | h | h)
    · exact hstreet h
    · exact hcity h
    · exact absurd h (by decide)
  have hlast : ¬ payStubMarker.toList <:+: " ".toList ++ applicant.syntheticId.toList ++
      ("\n".toList ++ disclaimer.toList) := by
    have hcut : " ".toList ++ applicant.syntheticId.toList ++ ("\n".toList ++ disclaimer.toList) =
        (' ' :: applicant.syntheticId.toList) ++ '\n' :: disclaimer.toList := by
      simp
    rw [hcut, infix_append_cons_iff hline, infix_blank_iff]
    rintro (h | h)
    · exact absurd (hid ' ' (h.subset (by decide))) (by decide)
    · exact absurd h (by decide +kernel)
  rw [identityDocument_text, infix_append_cons_iff hcolon, infix_append_cons_iff hcolon,
    infix_append_cons_iff hcolon, infix_append_cons_iff hcolon]
  rintro (h | h | h | h | h)
  · exact absurd h (by decide +kernel)
  · exact hnames h
  · exact hdate h
  · exact haddress h
  · exact hlast h

end IdentityDocument

/-! ### Extraction undoes rendering -/

/-- A text that can be read back from between others. -/
structure LineFits (s : String) : Prop where
  nonempty : s ≠ ""
  trimmed : Trimmed s
  oneLine : '\n' ∉ s.toList

/-- A name that can be read back. -/
structure NameFits (s : String) : Prop where
  nonempty : s ≠ ""
  noSpace : NoSpace s

/-- An applicant that can be read back from the identity document. -/
structure ApplicantFits (applicant : SyntheticApplicant) : Prop where
  givenName : NameFits applicant.givenName
  familyName : NameFits applicant.familyName
  streetAddress : LineFits applicant.streetAddress
  city : LineFits applicant.city
  comma : ',' ∉ applicant.city.toList
  syntheticId : applicant.syntheticId ≠ "" ∧ IsSyntheticId applicant.syntheticId
  unmarked : Unmarked applicant.givenName ∧ Unmarked applicant.familyName ∧
    Unmarked applicant.streetAddress ∧ Unmarked applicant.city

/-- An employment that can be read back from the pay stub. -/
structure EmploymentFits (applicant : SyntheticApplicant) (employment : SyntheticEmploymentRecord) :
    Prop where
  verifiedAnnualIncome : 0 ≤ employment.verifiedAnnualIncome
  tenureMonths : 0 ≤ employment.tenureMonths
  employerName : LineFits employment.employerName
  unmarked : Unmarked employment.employerName ∧ Unmarked applicant.givenName ∧
    Unmarked applicant.familyName

theorem infix_onePage {lines : List String} {marker : String} :
    (∃ page ∈ onePage lines, marker.toList <:+: page.text.toList) ↔
      marker.toList <:+: ("\n".intercalate lines).toList := by
  simp [onePage]

/-- **What is read from a pay stub**, whatever the gross pay on it. -/
theorem payStub_findings (U : Unicode) {monthlyGross : ℚ} (hq : 0 ≤ monthlyGross)
    {applicant : SyntheticApplicant} {employment : SyntheticEmploymentRecord}
    (h : EmploymentFits applicant employment) (sourceChecksum : String) :
    classify (onePage (payStubLinesOver monthlyGross applicant employment)) = .incomeProof ∧
    ∃ facts, extractFacts U (onePage (payStubLinesOver monthlyGross applicant employment))
        .incomeProof sourceChecksum = .ok facts ∧
      facts.map ExtractedFact.finding =
        [⟨.employerName, employment.employerName, employment.employerName⟩,
          ⟨.grossMonthlyIncome, Binary64.fixed2Grouped monthlyGross, Binary64.fixed2 monthlyGross⟩,
          ⟨.tenureMonths, toString employment.tenureMonths, toString employment.tenureMonths⟩] := by
  obtain ⟨⟨hemployer, -⟩, ⟨hgiven, -⟩, ⟨hfamily, -⟩⟩ := h.unmarked
  refine ⟨classify_eq_incomeProof_iff.2 (infix_onePage.2 ?_), ?_⟩
  · have hcut : "SYNTHETIC PAY STUB -- ".toList = payStubMarker.toList ++ " -- ".toList := by decide
    rw [payStub_text, hcut, List.append_assoc, List.append_assoc, List.append_assoc]
    exact (List.prefix_append _ _).isInfix
  · obtain ⟨facts, hfacts, hfindings⟩ := extractFacts_onePage U
      (payStubLinesOver monthlyGross applicant employment) .incomeProof sourceChecksum
      (.cons (search_employerName h.employerName.nonempty h.employerName.trimmed
          h.employerName.oneLine)
        (.cons (search_grossPay hq hemployer hgiven hfamily)
          (.cons (search_tenure hq h.tenureMonths hemployer hgiven hfamily) .nil)))
    refine ⟨facts, hfacts, hfindings.trans ?_⟩
    have hstrip : String.ofList (strip employment.employerName.toList) = employment.employerName := by
      rw [h.employerName.trimmed.strip, String.ofList_toList]
    have hamount := Binary64.filter_fixed2Grouped hq
    simp only [ne_eq, decide_not] at hamount
    simp [searches, employerSearch, employerFindings, grossPaySearch, grossPayFindings,
      tenureSearch, tenureFindings, group, hstrip, hamount]

/-- **What is read from an identity document.** -/
theorem identityDocument_findings (U : Unicode) {applicant : SyntheticApplicant}
    (h : ApplicantFits applicant) (sourceChecksum : String) :
    classify (onePage (identityDocumentLines applicant)) = .identityDocument ∧
    ∃ facts, extractFacts U (onePage (identityDocumentLines applicant)) .identityDocument
        sourceChecksum = .ok facts ∧
      facts.map ExtractedFact.finding =
        [⟨.applicantGivenName, applicant.givenName, U.lower applicant.givenName⟩,
          ⟨.applicantFamilyName, applicant.familyName, U.lower applicant.familyName⟩,
          ⟨.dateOfBirth, applicant.dateOfBirth.isoformat, applicant.dateOfBirth.isoformat⟩,
          ⟨.streetAddress, applicant.streetAddress, applicant.streetAddress⟩,
          ⟨.city, applicant.city, applicant.city⟩,
          ⟨.syntheticId, applicant.syntheticId, applicant.syntheticId⟩] := by
  obtain ⟨⟨hgiven, -⟩, ⟨hfamily, -⟩, ⟨hstreet, hstreet'⟩, ⟨hcity, hcity'⟩⟩ := h.unmarked
  constructor
  · rw [classify_eq_identityDocument_iff]
    constructor
    · intro page hpage
      obtain rfl := List.mem_singleton.1 hpage
      exact not_payStub h.givenName.noSpace h.familyName.noSpace hstreet' hcity' h.syntheticId.2
    · rw [infix_onePage, identityDocument_text]
      exact (show identityDocumentMarker.toList <:+:
        "SYNTHETIC GOVERNMENT-ISSUED ID (DEMO ONLY)\nName".toList by decide +kernel).trans
          (List.prefix_append _ _).isInfix
  · obtain ⟨facts, hfacts, hfindings⟩ := extractFacts_onePage U (identityDocumentLines applicant)
      .identityDocument sourceChecksum
      (.cons (search_identityName h.givenName.nonempty h.givenName.noSpace h.familyName.nonempty
          h.familyName.noSpace)
        (.cons (search_dateOfBirth hgiven hfamily)
          (.cons (search_address hgiven hfamily h.streetAddress.nonempty h.streetAddress.trimmed
              h.streetAddress.oneLine h.city.nonempty h.city.trimmed h.city.oneLine h.comma)
            (.cons (search_syntheticId U hgiven hfamily hstreet hcity h.syntheticId.1
              h.syntheticId.2) .nil))))
    refine ⟨facts, hfacts, hfindings.trans ?_⟩
    have hstreetStrip : String.ofList (strip applicant.streetAddress.toList) =
        applicant.streetAddress := by
      rw [h.streetAddress.trimmed.strip, String.ofList_toList]
    have hcityStrip : String.ofList (strip applicant.city.toList) = applicant.city := by
      rw [h.city.trimmed.strip, String.ofList_toList]
    have hdate := Date.fromisoformat?_isoformat applicant.dateOfBirth
    simp [searches, nameSearch, nameFindings, dateOfBirthSearch, dateOfBirthFindings, addressSearch,
      addressFindings, syntheticIdSearch, syntheticIdFindings, group, hstreetStrip, hcityStrip, hdate]

/-- **Extraction undoes rendering**: the text of a pay stub is classified as one, and what is read
from it is the employer, the twelfth of the income with two decimals, and the tenure; and what is
read from an identity document are the fields of the applicant. -/
theorem extraction_undoes_rendering (U : Unicode) (sourceChecksum : String) :
    (∀ applicant employment lines, EmploymentFits applicant employment →
      payStubLines applicant employment = .ok lines →
      classify (onePage lines) = .incomeProof ∧
      ∃ monthlyGross facts, Binary64.round (employment.verifiedAnnualIncome / 12) =
          some monthlyGross ∧
        extractFacts U (onePage lines) .incomeProof sourceChecksum = .ok facts ∧
        facts.map ExtractedFact.finding =
          [⟨.employerName, employment.employerName, employment.employerName⟩,
            ⟨.grossMonthlyIncome, Binary64.fixed2Grouped monthlyGross,
              Binary64.fixed2 monthlyGross⟩,
            ⟨.tenureMonths, toString employment.tenureMonths, toString employment.tenureMonths⟩]) ∧
    (∀ applicant, ApplicantFits applicant →
      classify (onePage (identityDocumentLines applicant)) = .identityDocument ∧
      ∃ facts, extractFacts U (onePage (identityDocumentLines applicant)) .identityDocument
          sourceChecksum = .ok facts ∧
        facts.map ExtractedFact.finding =
          [⟨.applicantGivenName, applicant.givenName, U.lower applicant.givenName⟩,
            ⟨.applicantFamilyName, applicant.familyName, U.lower applicant.familyName⟩,
            ⟨.dateOfBirth, applicant.dateOfBirth.isoformat, applicant.dateOfBirth.isoformat⟩,
            ⟨.streetAddress, applicant.streetAddress, applicant.streetAddress⟩,
            ⟨.city, applicant.city, applicant.city⟩,
            ⟨.syntheticId, applicant.syntheticId, applicant.syntheticId⟩]) := by
  refine ⟨?_, fun applicant h => identityDocument_findings U h sourceChecksum⟩
  intro applicant employment lines h hlines
  cases hround : Binary64.round (employment.verifiedAnnualIncome / 12) with
  | none =>
      rw [payStubLines, hround] at hlines
      cases hlines
  | some monthlyGross =>
      rw [payStubLines, hround] at hlines
      obtain rfl := Except.ok.inj hlines
      have hincome : (0 : ℚ) ≤ employment.verifiedAnnualIncome := by
        exact_mod_cast h.verifiedAnnualIncome
      have hq : 0 ≤ monthlyGross := Binary64.round_nonneg (by positivity) hround
      obtain ⟨hclass, facts, hfacts, hfindings⟩ := payStub_findings U hq h sourceChecksum
      exact ⟨hclass, monthlyGross, facts, rfl, hfacts, hfindings⟩

namespace Sample

def applicant : SyntheticApplicant where
  syntheticId := "APP-001"
  givenName := "Ana"
  familyName := "Silva"
  dateOfBirth := ⟨1990, 5, 17, by decide, by decide, by decide⟩
  streetAddress := "1 High Street, Flat 2"
  city := "Porto"

def employment : SyntheticEmploymentRecord where
  employerName := "Initech -- Software"
  verifiedAnnualIncome := 150000
  tenureMonths := 14

theorem applicant_fits : ApplicantFits applicant where
  givenName := ⟨by decide, by decide +kernel⟩
  familyName := ⟨by decide, by decide +kernel⟩
  streetAddress := ⟨by decide, by decide +kernel, by decide +kernel⟩
  city := ⟨by decide, by decide +kernel, by decide +kernel⟩
  comma := by decide +kernel
  syntheticId := ⟨by decide, by decide +kernel⟩
  unmarked := by decide +kernel

theorem employment_fits : EmploymentFits applicant employment where
  verifiedAnnualIncome := by decide
  tenureMonths := by decide
  employerName := ⟨by decide, by decide +kernel, by decide +kernel⟩
  unmarked := by decide +kernel

end Sample

/-- For an applicant with a comma in the street, and an employer with dashes in the name. -/
theorem extraction_undoes_rendering_sample :
    (∃ lines, payStubLines Sample.applicant Sample.employment = .ok lines ∧
      classify (onePage lines) = .incomeProof) ∧
    classify (onePage (identityDocumentLines Sample.applicant)) = .identityDocument := by
  obtain ⟨hpayStub, hidentity⟩ := extraction_undoes_rendering .ascii ""
  cases hlines : payStubLines Sample.applicant Sample.employment with
  | error e =>
      have hround : (Binary64.round (Sample.employment.verifiedAnnualIncome / 12)).isSome := by
        decide +kernel
      rw [payStubLines] at hlines
      split at hlines
      · cases hlines
      · simp_all
  | ok lines =>
      exact ⟨⟨lines, rfl, (hpayStub _ _ lines Sample.employment_fits hlines).1⟩,
        (hidentity Sample.applicant Sample.applicant_fits).1⟩

end FinAssist
