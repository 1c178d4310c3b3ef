/-
**The income a pay stub declares.**

The amount on a pay stub is a twelfth of the annual income, with thousands separators and two
decimals.  `VerifyApplicationFactsHandler` reads the amount back without the separators, takes it
twelve times, and rounds.  Over exact arithmetic this is the annual income again, whatever its
size: two decimals are off by half a hundredth at most, and twelve of that are less than a half.
Over doubles it is an integer unless the amount is so large that twelve of it are no double: then
the handler raises.

Main definitions:

* `FinAssist.annualIncomeOver`, `FinAssist.checkEmploymentOver` — the handler over an arithmetic;
* `FinAssist.hundredths` — the number that the digits of an amount spell.

Main results:

* `FinAssist.parseOver_amount` — **what is read of an amount**;
* `FinAssist.declared_income_exact` — over exact arithmetic the income is read back, and what the
  check makes of it;
* `FinAssist.declared_income_safe_iff` — **the amounts the handler can read**.
-/

import FinAssist.Commands
import FinAssist.SyntheticDocuments

set_option relaxedAutoImplicit false
set_option autoImplicit false

namespace FinAssist

open Backtracking ReadCommitted

/-! ### The handler over an arithmetic -/

/-- An arithmetic: the result of an operation, from the exact one; nothing for an infinite one. -/
abbrev Arithmetic := ℚ → Option ℚ

namespace Arithmetic

def double : Arithmetic := Binary64.round

def exact : Arithmetic := some

end Arithmetic

section Arithmetic

variable (A : Arithmetic)

/-- `float(text)`, over an arithmetic. -/
def parseOver (text : String) : Option Binary64.Value :=
  let s := (text.toList.map Uuid.toAscii).dropWhile Uuid.isBlank
  let s := (s.reverse.dropWhile Uuid.isBlank).reverse
  let (negative, s) := Binary64.signed s
  let word := String.ofList (s.map Char.toLower)
  if word = "inf" ∨ word = "infinity" then some .infinite
  else if word = "nan" then some .nan
  else (Binary64.parseNumber s).map fun q =>
    match A (if negative then -q else q) with
    | some q => .finite q
    | none => .infinite

/-- `annualIncome` over an arithmetic. -/
def annualIncomeOver (text : String) : Except Error ℤ :=
  match parseOver A text with
  | none => .error (.valueError ("could not convert string to float: " ++ pyRepr text))
  | some .nan => .error (.valueError "cannot convert float NaN to integer")
  | some .infinite => .error (.overflowError "cannot convert float infinity to integer")
  | some (.finite q) =>
      match A (q * 12) with
      | none => .error (.overflowError "cannot convert float infinity to integer")
      | some q => .ok (Binary64.roundHalfEven q)

/-- `declaredIncome` over an arithmetic. -/
def declaredIncomeOver (facts : List ExtractedFact) : Handler (Option ℤ) := do
  match factOfType facts .grossMonthlyIncome with
  | none => pure none
  | some fact =>
      let income ← Handler.ofExcept (annualIncomeOver A fact.normalizedValue)
      pure (if income = 0 then none else some income)

/-- `checkEmployment` over an arithmetic. -/
def checkEmploymentOver (applicant : Applicant) (facts : List ExtractedFact) (income : Option ℤ) :
    Handler Checked := do
  match factOfType facts .syntheticId, factOfType facts .employerName, income with
  | some syntheticId, some employerName, some income =>
      let answered ← Handler.ask (.verifyEmployment applicant.givenName applicant.familyName
        syntheticId.normalizedValue employerName.normalizedValue income)
      let result ← Handler.ofPort answered
      let deviation ← Handler.ofExcept
        (match A (|(result.verifiedAnnualIncome : ℚ) - income| / income) with
        | some q => .ok q
        | none => .error (.overflowError "integer division result too large for a float"))
      let matched := result.isEmploymentConfirmed ∧ deviation ≤ (A (2 / 10)).getD 0
      let check ← Handler.ofExcept (VerificationCheck.of .mockEmployer FactType.employerName.value
        (some (employerName.value ++ ", $" ++ toString income ++ "/yr"))
        (some ("confirmed=" ++ pyBool result.isEmploymentConfirmed ++ " verified_income=$" ++
          toString result.verifiedAnnualIncome))
        (if matched then .matched else .contradicted)
        (max 0 ((A (1 - min deviation 1)).getD 0))
        ("tenure " ++ toString result.tenureMonths ++ " months"))
      pure (check, [⟨.mockEmployer,
        [("is_employment_confirmed", .flag result.isEmploymentConfirmed),
         ("verified_annual_income", .integer result.verifiedAnnualIncome),
         ("tenure_months", .integer result.tenureMonths)]⟩])
  | _, _, _ =>
      let check ← Handler.ofExcept (VerificationCheck.of .mockEmployer FactType.employerName.value
        none none .insufficientEvidence 0
        "pay-stub facts (employer / income) were not extracted")
      pure (check, [])

end Arithmetic

/-! **Over doubles it is the handler.** -/

theorem annualIncomeOver_double : annualIncomeOver .double = annualIncome := rfl

theorem declaredIncomeOver_double : declaredIncomeOver .double = declaredIncome := rfl

theorem checkEmploymentOver_double : checkEmploymentOver .double = checkEmployment := rfl

/-! ### Reading an amount -/

namespace Binary64

/-- Digits are read to their end. -/
theorem digits_append : ∀ {s : List Char}, (∀ c ∈ s, c.isDigit = true) → ∀ (rest : List Char)
    (acc : List ℕ), (∀ c ∈ rest.head?, c = '.') →
      digits (s ++ rest) acc = ((s.map digitValue).reverse ++ acc, rest) := by
  intro s
  have hstop : ∀ (rest : List Char) (acc : List ℕ), (∀ c ∈ rest.head?, c = '.') →
      digits rest acc = (acc, rest) := by
    intro rest acc hrest
    match rest, hrest with
    | [], _ => rfl
    | [c], hrest =>
        obtain rfl := hrest c rfl
        rfl
    | c :: d :: s, hrest =>
        obtain rfl := hrest c rfl
        rfl
  induction s with
  | nil =>
      intro _ rest acc hrest
      exact hstop rest acc hrest
  | cons c s ih =>
      intro h rest acc hrest
      have hc : c.isDigit = true := h c List.mem_cons_self
      have ih' := ih (fun d hd => h d (List.mem_cons_of_mem _ hd)) rest (digitValue c :: acc) hrest
      rw [List.map_cons, List.reverse_cons, List.append_assoc, List.singleton_append, ← ih']
      cases hs : s ++ rest with
      | nil => simp [hs, digits, hc]
      | cons d t => simp [hs, digits, hc]

theorem parseNumber_amount {w ds : List Char} (hw : ∀ c ∈ w, c.isDigit = true)
    (hds : ∀ c ∈ ds, c.isDigit = true) (hne : ds ≠ []) :
    parseNumber (w ++ '.' :: ds) =
      some ((ofDigits ((w ++ ds).map digitValue).reverse : ℚ) * pow10 (-ds.length)) := by
  have hfraction := digits_append hds [] [] (by simp)
  rw [List.append_nil] at hfraction
  rw [parseNumber, digits_append hw _ _ (by simp)]
  simp only [hfraction, List.append_nil]
  have hempty : ((ds.map digitValue).reverse).isEmpty = false := by
    simpa using hne
  simp [hempty, parseExponent]

end Binary64

/-- A decimal digit is read as one of ASCII. -/
theorem isDigit_toAscii {c : Char} (h : isDecimal c = true) : (Uuid.toAscii c).isDigit = true := by
  have hascii : ∀ c : Char, c.isDigit = true → c.toNat < 128 := by
    intro c hc
    have hrange := toNat_of_isAlphanum (c := c) (by simp [Char.isAlphanum, hc])
    omega
  by_cases hdigit : c.isDigit = true
  · rw [Uuid.toAscii, if_pos (hascii c hdigit)]
    exact hdigit
  · obtain ⟨z, hz, hrange⟩ : ∃ z ∈ Uuid.decimalZeros, z ≤ c.toNat ∧ c.toNat < z + 10 := by
      simpa [isDecimal, hdigit] using h
    have hlarge : ∀ z ∈ Uuid.decimalZeros, 128 ≤ z := by decide
    have hnotascii : ¬ c.toNat < 128 := by
      have hz' := hlarge z hz
      omega
    rw [Uuid.toAscii, if_neg hnotascii, not_wideSpace_of_decimal hz hrange, if_neg (by simp)]
    cases hfind : Uuid.decimalZeros.find? fun z => z ≤ c.toNat && c.toNat < z + 10 with
    | none =>
        have hno := List.find?_eq_none.1 hfind z hz
        simp [hrange] at hno
    | some z' =>
        have hz' := List.find?_some hfind
        simp only [Bool.and_eq_true, decide_eq_true_eq] at hz'
        have hall : ∀ n < 10, (Char.ofNat (48 + n)).isDigit = true := by decide
        exact hall _ (by omega)

/-- **A text of an amount**: digits and commas, a point, two digits. -/
structure IsAmountText (raw : List Char) : Prop where
  split : ∃ w cents, raw = w ++ '.' :: cents ∧ (∀ c ∈ w, isAmount c = true) ∧
    cents.length = 2 ∧ ∀ c ∈ cents, isDecimal c = true

/-- The digits of a text, as `float` reads them. -/
def decimals (raw : List Char) : List ℕ :=
  (raw.filter isDecimal).map fun c => Binary64.digitValue (Uuid.toAscii c)

/-- The number that the digits of an amount spell: the hundredths of its value. -/
def hundredths (raw : List Char) : ℕ := Binary64.ofDigits (decimals raw).reverse

theorem isBlank_of_isDigit {c : Char} (h : c.isDigit = true) : Uuid.isBlank c = false := by
  have hspace := isSpace_of_isDigit h
  simp only [isSpace, Bool.or_eq_false_iff] at hspace
  obtain ⟨⟨⟨h32, htab⟩, -⟩, -⟩ := hspace
  simp only [decide_eq_false_iff_not] at h32
  have hne : c ≠ ' ' := by
    rintro rfl
    exact h32 rfl
  simp [Uuid.isBlank, hne, htab]

theorem not_blank_of_digits {a b : List Char} (ha : ∀ c ∈ a, c.isDigit = true) :
    ∀ c ∈ (a ++ '.' :: b).head?, Uuid.isBlank c = false := by
  intro c hc
  cases a with
  | nil =>
      obtain rfl : '.' = c := by simpa using hc
      rfl
  | cons d a =>
      obtain rfl : d = c := by simpa using hc
      exact isBlank_of_isDigit (ha _ List.mem_cons_self)

/-- A point between digits is read as a number, over any arithmetic. -/
theorem parseOver_digits (A : Arithmetic) {text : String} {a b : List Char}
    (htext : text.toList.map Uuid.toAscii = a ++ '.' :: b) (ha : ∀ c ∈ a, c.isDigit = true)
    (hb : ∀ c ∈ b, c.isDigit = true) (hne : b ≠ []) :
    parseOver A text =
      some (match A ((Binary64.ofDigits ((a ++ b).map Binary64.digitValue).reverse : ℚ) *
          Binary64.pow10 (-b.length)) with
        | some q => .finite q
        | none => .infinite) := by
  have hfirst : (a ++ '.' :: b).dropWhile Uuid.isBlank = a ++ '.' :: b :=
    dropWhile_eq_self (not_blank_of_digits ha)
  have hlast : (a ++ '.' :: b).reverse.dropWhile Uuid.isBlank = (a ++ '.' :: b).reverse := by
    rw [List.reverse_append, List.reverse_cons, List.append_assoc, List.singleton_append]
    exact dropWhile_eq_self (not_blank_of_digits fun c hc => hb c (List.mem_reverse.1 hc))
  have hsigned : Binary64.signed (a ++ '.' :: b) = (false, a ++ '.' :: b) := by
    cases a with
    | nil => rfl
    | cons d a =>
        have hd := ha d List.mem_cons_self
        simp only [List.cons_append, Binary64.signed]
        split
        next heq =>
          obtain ⟨rfl, -⟩ := List.cons.inj heq
          exact absurd hd (by decide)
        next heq =>
          obtain ⟨rfl, -⟩ := List.cons.inj heq
          exact absurd hd (by decide)
        next => rfl
  -- the words that `float` knows have no point
  have hword : ∀ known : String, '.' ∉ known.toList →
      String.ofList ((a ++ '.' :: b).map Char.toLower) ≠ known := by
    rintro known hknown rfl
    refine hknown ?_
    rw [String.toList_ofList]
    exact List.mem_map.2 ⟨'.', by simp, rfl⟩
  rw [parseOver, htext]
  simp only [hfirst, hlast, List.reverse_reverse, hsigned]
  rw [if_neg (not_or.2 ⟨hword "inf" (by decide), hword "infinity" (by decide)⟩),
    if_neg (hword "nan" (by decide)), Binary64.parseNumber_amount ha hb hne]
  simp

/-- **What is read of an amount**, once its commas are stripped: its value, rounded. -/
theorem parseOver_amount (A : Arithmetic) {raw : List Char} (h : IsAmountText raw) :
    parseOver A (String.ofList (raw.filter (· ≠ ','))) =
      some (match A ((hundredths raw : ℚ) / 100) with
        | some q => .finite q
        | none => .infinite) := by
  obtain ⟨w, cents, rfl, hw, hlength, hcents⟩ := h.split
  have hcomma : isDecimal ',' = false := by decide
  have hpoint : isDecimal '.' = false := by decide
  have hw' : w.filter (· ≠ ',') = w.filter isDecimal := by
    refine List.filter_congr fun c hc => ?_
    have hamount := hw c hc
    by_cases heq : c = ','
    · subst heq
      simp [hcomma]
    · simpa [isAmount, heq] using hamount
  have hcents' : cents.filter (· ≠ ',') = cents := by
    refine List.filter_eq_self.2 fun c hc => ?_
    have hdecimal := hcents c hc
    by_cases heq : c = ','
    · rw [heq, hcomma] at hdecimal
      cases hdecimal
    · simpa using heq
  have htext : (String.ofList ((w ++ '.' :: cents).filter (· ≠ ','))).toList.map Uuid.toAscii =
      (w.filter isDecimal).map Uuid.toAscii ++ '.' :: cents.map Uuid.toAscii := by
    rw [String.toList_ofList, List.filter_append, List.filter_cons_of_pos (by decide), hw', hcents',
      List.map_append, List.map_cons]
    rfl
  have hvalue : (((w.filter isDecimal).map Uuid.toAscii ++ cents.map Uuid.toAscii).map
      Binary64.digitValue) = decimals (w ++ '.' :: cents) := by
    rw [decimals, List.filter_append, List.filter_cons_of_neg (by simp [hpoint]),
      List.filter_eq_self.2 hcents, List.map_append, List.map_append, List.map_map, List.map_map]
    rfl
  rw [parseOver_digits A htext ?_ ?_ ?_, hvalue, List.length_map, hlength]
  · rw [show Binary64.pow10 (-((2 : ℕ) : ℤ)) = 1 / 100 by decide +kernel, hundredths,
      mul_one_div]
  · intro c hc
    obtain ⟨d, hd, rfl⟩ := List.mem_map.1 hc
    exact isDigit_toAscii (List.mem_filter.1 hd).2
  · intro c hc
    obtain ⟨d, hd, rfl⟩ := List.mem_map.1 hc
    exact isDigit_toAscii (hcents d hd)
  · rintro hnil
    simp [List.map_eq_nil_iff.1 hnil] at hlength

theorem grossPayFindings_singleton (raw : List Char) : grossPayFindings [raw] =
    [⟨.grossMonthlyIncome, String.ofList raw, String.ofList (raw.filter (· ≠ ','))⟩] := rfl

/-! ### The income is read back -/

namespace Binary64

theorem ofDigits_reverse : ∀ (s : List Char) (acc : List ℕ),
    ofDigits ((s.map digitValue).reverse ++ acc) = Nat.ofDigitChars 10 s (ofDigits acc) := by
  intro s
  induction s with
  | nil => exact fun _ => rfl
  | cons c s ih =>
      intro acc
      rw [List.map_cons, List.reverse_cons, List.append_assoc, List.singleton_append, ih,
        Nat.ofDigitChars_cons, ofDigits, digitValue, Nat.mul_comm]

end Binary64

/-- **The digits of a rendered amount spell its hundredths.** -/
theorem hundredths_fixed2Grouped {q : ℚ} (hq : 0 ≤ q) :
    hundredths (Binary64.fixed2Grouped q).toList = (Binary64.roundHalfEven (q * 100)).natAbs := by
  obtain ⟨n, hn⟩ : ∃ n, (Binary64.roundHalfEven (q * 100)).natAbs = n := ⟨_, rfl⟩
  have hcents : (zeroPad 2 (n % 100)).toList.length = 2 :=
    zeroPad_length (by omega) (Nat.mod_lt _ (by omega))
  have hdigits : ∀ s : List Char, (∀ c ∈ s, c.isDigit = true) →
      decimals s = s.map Binary64.digitValue := by
    intro s hs
    rw [decimals, List.filter_eq_self.2 fun c hc => isDecimal_of_isDigit (hs c hc)]
    refine List.map_congr_left fun c hc => ?_
    have hrange := toNat_of_isAlphanum (c := c) (by simp [Char.isAlphanum, hs c hc])
    rw [Uuid.toAscii, if_pos (by omega)]
  have hgrouped : (Binary64.grouped (n / 100)).filter isDecimal = Nat.toDigits 10 (n / 100) := by
    rw [← Binary64.filter_grouped]
    refine List.filter_congr fun c hc => ?_
    have hamount := Binary64.mem_grouped c hc
    by_cases heq : c = ','
    · subst heq
      decide
    · simpa [isAmount, heq] using hamount
  have hsplit : decimals (Binary64.fixed2Grouped q).toList =
      decimals (Nat.toDigits 10 (n / 100) ++ (zeroPad 2 (n % 100)).toList) := by
    have hself : (Nat.toDigits 10 (n / 100)).filter isDecimal = Nat.toDigits 10 (n / 100) :=
      List.filter_eq_self.2 fun c hc => isDecimal_of_isDigit
        (Nat.isDigit_of_mem_toDigits (by omega) (by omega) hc)
    rw [Binary64.fixed2Grouped_toList hq, hn, decimals, decimals, List.filter_append,
      List.filter_append, hgrouped, hself, List.filter_cons_of_neg (by decide)]
  rw [hundredths, hsplit, hdigits, ← List.append_nil (List.reverse _), Binary64.ofDigits_reverse,
    Nat.ofDigitChars_append, hn, Binary64.ofDigits, Nat.ofDigitChars_ten_toDigits,
    Nat.ofDigitChars_eq_ofDigitChars_zero, hcents, zeroPad_toList, Nat.ofDigitChars_append,
    Nat.ofDigitChars_replicate_zero, Nat.mul_zero, Nat.ofDigitChars_ten_toDigits]
  · omega
  · intro c hc
    rcases List.mem_append.1 hc with hc | hc
    · exact Nat.isDigit_of_mem_toDigits (by omega) (by omega) hc
    · exact isDigit_of_mem_zeroPad hc

theorem isAmountText_fixed2Grouped {q : ℚ} (hq : 0 ≤ q) :
    IsAmountText (Binary64.fixed2Grouped q).toList where
  split := ⟨_, _, Binary64.fixed2Grouped_toList hq, Binary64.mem_grouped,
    zeroPad_length (by omega) (Nat.mod_lt _ (by omega)),
    fun _ hc => isDecimal_of_isDigit (isDigit_of_mem_zeroPad hc)⟩

/-- **The income of a year is read back from the amount of a month**, over exact arithmetic. -/
theorem annualIncomeOver_exact {x : ℤ} (hx : 0 ≤ x) :
    annualIncomeOver .exact (String.ofList
      ((Binary64.fixed2Grouped ((x : ℚ) / 12)).toList.filter (· ≠ ','))) = .ok x := by
  have hq : (0 : ℚ) ≤ x / 12 := by
    have hx' : (0 : ℚ) ≤ x := by exact_mod_cast hx
    positivity
  have hcents := Binary64.roundHalfEven_nonneg (mul_nonneg hq (by norm_num : (0 : ℚ) ≤ 100))
  have hvalue : ((hundredths (Binary64.fixed2Grouped ((x : ℚ) / 12)).toList : ℕ) : ℚ) =
      Binary64.roundHalfEven ((x : ℚ) / 12 * 100) := by
    rw [hundredths_fixed2Grouped hq, Nat.cast_natAbs, abs_of_nonneg hcents]
  rw [annualIncomeOver, parseOver_amount _ (isAmountText_fixed2Grouped hq), hvalue]
  simp only [Arithmetic.exact]
  congr 1
  -- twelve times half a hundredth is less than a half
  have herror := abs_le.1 (Binary64.abs_roundHalfEven_sub_le ((x : ℚ) / 12 * 100))
  refine Binary64.roundHalfEven_eq (abs_lt.2 ⟨?_, ?_⟩) <;> linarith [herror.1, herror.2]

/-- What stands on a pay stub before its gross pay. -/
def payStubHead (applicant : SyntheticApplicant) (employment : SyntheticEmploymentRecord) :
    List Char :=
  "SYNTHETIC PAY STUB -- ".toList ++ employment.employerName.toList ++ "\nEmployee: ".toList ++
    applicant.givenName.toList ++ " ".toList ++ applicant.familyName.toList ++
      "\nPay period: Monthly    ".toList

/-- The gross pay of a pay stub is found, unless one of its other fields looks like one. -/
theorem search_grossPay_first {monthlyGross : ℚ} {applicant : SyntheticApplicant}
    {employment : SyntheticEmploymentRecord} (hq : 0 ≤ monthlyGross)
    (h : ¬ "Gross pay:".toList <:+: payStubHead applicant employment) :
    grossPayRe.search
      ("\n".intercalate (payStubLinesOver monthlyGross applicant employment)).toList =
        some [(Binary64.fixed2Grouped monthlyGross).toList] := by
  have hsplit : ("\n".intercalate (payStubLinesOver monthlyGross applicant employment)).toList =
      payStubHead applicant employment ++ ("Gross pay".toList ++ ':' ::
        (" $".toList ++ (Binary64.fixed2Grouped monthlyGross).toList ++
          ("\nTenure: ".toList ++ (toString employment.tenureMonths).toList ++
            (" months\n".toList ++ disclaimer.toList)))) := by
    have hemployee : "\nEmployee: ".toList = "\nEmployee".toList ++ ':' :: " ".toList := by decide
    have hperiod : "\nPay period: Monthly    ".toList ++ "Gross pay".toList =
        "\nPay period".toList ++ ':' :: " Monthly    Gross pay".toList := by decide
    have htenure : "\nTenure: ".toList = "\nTenure".toList ++ ':' :: " ".toList := by decide
    refine payStub_text.trans ?_
    delta payStubHead
    rw [hemployee, htenure]
    simp only [List.append_assoc, List.cons_append]
    rw [← List.append_assoc "\nPay period: Monthly    ".toList, hperiod]
    simp only [List.append_assoc, List.cons_append]
  rw [hsplit]
  exact Pattern.search_first_marker (by decide) (groupsAt_afterGrossPay hq _) h

/-- The deviation of an income is a fifth at most. -/
theorem deviation_le_iff {x v : ℤ} (hx : 0 < x) :
    |(v : ℚ) - x| / x ≤ 2 / 10 ↔ 5 * |v - x| ≤ x := by
  have hx' : (0 : ℚ) < x := by exact_mod_cast hx
  rw [div_le_iff₀ hx']
  have hcast : |(v : ℚ) - x| = ((|v - x| : ℤ) : ℚ) := by
    rw [Int.cast_abs, Int.cast_sub]
  rw [hcast]
  constructor
  · intro h
    have h' : ((5 * |v - x| : ℤ) : ℚ) ≤ x := by
      push_cast at h ⊢
      linarith
    exact_mod_cast h'
  · intro h
    have h' : ((5 * |v - x| : ℤ) : ℚ) ≤ x := by exact_mod_cast h
    push_cast at h' ⊢
    linarith

/-- **The check of a known income**, over exact arithmetic: it asks with that income, and its
verdict is the comparison of the incomes. -/
theorem checkEmploymentOver_exact (applicant : Applicant) {facts : List ExtractedFact} {x : ℤ}
    {syntheticId employerName : ExtractedFact} (hx : 0 < x)
    (hid : factOfType facts .syntheticId = some syntheticId)
    (hemployer : factOfType facts .employerName = some employerName) :
    ∃ checked : EmploymentVerificationResult → Checked,
      checkEmploymentOver .exact applicant facts (some x) = (do
        let answered ← Handler.ask (.verifyEmployment applicant.givenName applicant.familyName
          syntheticId.normalizedValue employerName.normalizedValue x)
        let result ← Handler.ofPort answered
        pure (checked result)) ∧
      ∀ result, ((checked result).1.verdict = .matched ↔
          result.isEmploymentConfirmed = true ∧ 5 * |result.verifiedAnnualIncome - x| ≤ x) ∧
        (checked result).1.confidence =
          max 0 (1 - min (|(result.verifiedAnnualIncome : ℚ) - x| / x) 1) := by
  have hconfidence : ∀ v : ℤ, 0 ≤ max 0 (1 - min (|(v : ℚ) - x| / x) 1) ∧
      max 0 (1 - min (|(v : ℚ) - x| / x) 1) ≤ 1 := by
    intro v
    have hx' : (0 : ℚ) < x := by exact_mod_cast hx
    have hdeviation : 0 ≤ |(v : ℚ) - x| / x := by positivity
    refine ⟨le_max_left _ _, max_le zero_le_one ?_⟩
    have hmin : 0 ≤ min (|(v : ℚ) - x| / x) 1 := le_min hdeviation zero_le_one
    linarith
  refine ⟨fun result => (⟨.mockEmployer, FactType.employerName.value,
    some (employerName.value ++ ", $" ++ toString x ++ "/yr"),
    some ("confirmed=" ++ pyBool result.isEmploymentConfirmed ++ " verified_income=$" ++
      toString result.verifiedAnnualIncome),
    if result.isEmploymentConfirmed ∧ |(result.verifiedAnnualIncome : ℚ) - x| / x ≤ 2 / 10 then
      .matched else .contradicted,
    max 0 (1 - min (|(result.verifiedAnnualIncome : ℚ) - x| / x) 1),
    "tenure " ++ toString result.tenureMonths ++ " months",
    hconfidence result.verifiedAnnualIncome⟩, [⟨.mockEmployer,
      [("is_employment_confirmed", .flag result.isEmploymentConfirmed),
        ("verified_annual_income", .integer result.verifiedAnnualIncome),
        ("tenure_months", .integer result.tenureMonths)]⟩]), ?_, ?_⟩
  · simp only [checkEmploymentOver, hid, hemployer]
    refine congrArg _ (funext fun answered => congrArg _ (funext fun result => ?_))
    simp only [Arithmetic.exact, Handler.ofExcept, Option.getD_some]
    rw [← Prog.pure_eq, pure_bind, VerificationCheck.of,
      dif_pos (hconfidence result.verifiedAnnualIncome)]
    rfl
  · intro result
    refine ⟨?_, rfl⟩
    rw [← deviation_le_iff hx]
    simp only
    split
    next h => simpa using h
    next h => simpa using h

/-- **Over exact arithmetic the income of a pay stub is read back**, and the employment check is made
with it: the check is matched exactly if the employment is confirmed and the verified income is
within a fifth of the declared one. -/
theorem declared_income_exact {x : ℤ} (hx : 0 ≤ x) :
    (∀ (applicant : SyntheticApplicant) (employment : SyntheticEmploymentRecord),
      employment.verifiedAnnualIncome = x →
      ¬ "Gross pay:".toList <:+: payStubHead applicant employment →
      ∃ raw, grossPayRe.search ("\n".intercalate
          (payStubLinesOver (employment.verifiedAnnualIncome / 12) applicant employment)).toList =
            some [raw] ∧
        grossPayFindings [raw] = [⟨.grossMonthlyIncome, Binary64.fixed2Grouped (x / 12),
          Binary64.fixed2 (x / 12)⟩]) ∧
    annualIncomeOver .exact (Binary64.fixed2 (x / 12)) = .ok x ∧
    (0 < x → ∀ (applicant : Applicant) (facts : List ExtractedFact)
      (syntheticId employerName grossPay : ExtractedFact),
      factOfType facts .syntheticId = some syntheticId →
      factOfType facts .employerName = some employerName →
      factOfType facts .grossMonthlyIncome = some grossPay →
      grossPay.normalizedValue = Binary64.fixed2 (x / 12) →
      ∃ checked : EmploymentVerificationResult → Checked,
        (do
          let income ← declaredIncomeOver .exact facts
          checkEmploymentOver .exact applicant facts income) = (do
            let answered ← Handler.ask (.verifyEmployment applicant.givenName applicant.familyName
              syntheticId.normalizedValue employerName.normalizedValue x)
            let result ← Handler.ofPort answered
            pure (checked result)) ∧
        ∀ result, ((checked result).1.verdict = .matched ↔
            result.isEmploymentConfirmed = true ∧ 5 * |result.verifiedAnnualIncome - x| ≤ x) ∧
          0 ≤ (checked result).1.confidence ∧ (checked result).1.confidence ≤ 1) := by
  have hx' : (0 : ℚ) ≤ x := by exact_mod_cast hx
  have hq : (0 : ℚ) ≤ x / 12 := by positivity
  have hread : annualIncomeOver .exact (Binary64.fixed2 ((x : ℚ) / 12)) = .ok x := by
    rw [← Binary64.filter_fixed2Grouped hq]
    exact annualIncomeOver_exact hx
  refine ⟨?_, hread, ?_⟩
  · intro applicant employment hincome hhead
    refine ⟨(Binary64.fixed2Grouped ((x : ℚ) / 12)).toList, ?_, ?_⟩
    · rw [hincome]
      exact search_grossPay_first hq hhead
    · have hnormalized := Binary64.filter_fixed2Grouped hq
      rw [grossPayFindings_singleton, String.ofList_toList, hnormalized]
  · intro hpos applicant facts syntheticId employerName grossPay hid hemployer hgross hvalue
    obtain ⟨checked, hchecked, hresult⟩ :=
      checkEmploymentOver_exact applicant hpos hid hemployer
    refine ⟨checked, ?_, fun result => ⟨(hresult result).1, (checked result).1.confidence_mem⟩⟩
    rw [← hchecked]
    simp only [declaredIncomeOver, hgross, hvalue, hread, Handler.ofExcept]
    rw [← Prog.pure_eq, pure_bind, if_neg hpos.ne', pure_bind]

/-- For an income that twelve does not divide. -/
theorem declared_income_exact_sample :
    annualIncomeOver .exact (Binary64.fixed2 ((100000 : ℤ) / 12)) = .ok 100000 :=
  (declared_income_exact (show (0 : ℤ) ≤ 100000 by decide)).2.1

/-! ### Where the handler raises -/

/-- The last amount of a month whose twelvefold is a double. -/
def lastMonthlyIncome : ℚ := 12009599006321321 * Binary64.pow2 967

namespace Binary64

/-- Where the twelvefold ends, in the spacing of the doubles there. -/
theorem lastMonthlyIncome_eq : lastMonthlyIncome = (6004799503160660 + 1 / 2) * pow2 968 := by
  have hdouble : pow2 968 = 2 ^ 1 * pow2 967 := pow2_natCast_add 1 967
  rw [lastMonthlyIncome, hdouble]
  ring

theorem round_twelvefold {q : ℚ} (hq : 0 < q) (h : q ≤ lastMonthlyIncome) :
    ∃ r, round q = some r ∧ 0 ≤ r ∧ ∃ twelvefold, round (r * 12) = some twelvefold := by
  have hunit := pow2_pos 968
  have hbinade : pow2 1020 = 2 ^ 52 * pow2 968 := pow2_natCast_add 52 968
  have hnext : pow2 1021 = 2 ^ 53 * pow2 968 := pow2_natCast_add 53 968
  have hlast : pow2 970 = 2 ^ 2 * pow2 968 := pow2_natCast_add 2 968
  have hend : pow2 1024 = 2 ^ 56 * pow2 968 := pow2_natCast_add 56 968
  rw [lastMonthlyIncome_eq] at h
  have hexp : exponent q < 1021 := exponent_lt hq (by rw [hnext]; linarith)
  have hle : rounded q ≤ (6004799503160660 : ℤ) * pow2 968 := by
    by_cases hspacing : spacing q = 968
    · rw [← hspacing] at h ⊢
      exact rounded_le_even (by norm_num) (by push_cast; exact h)
    · have hsmall : exponent q + 1 ≤ 1020 := by
        simp only [spacing] at hspacing
        omega
      refine rounded_le (by simp only [spacing]; omega) ?_
      have hlt := (exponent_spec hq).2.trans_le (pow2_le_pow2 hsmall)
      rw [hbinade] at hlt
      push_cast
      linarith
  push_cast at hle
  have hnonneg := rounded_nonneg hq
  refine ⟨rounded q, by rw [round_of_pos hq, if_pos (by rw [hend]; linarith)], hnonneg, ?_⟩
  rcases hnonneg.eq_or_lt with hzero | hpos
  · exact ⟨0, by rw [← hzero, zero_mul, round, if_pos rfl]⟩
  · refine Option.ne_none_iff_exists'.1 (mt (round_eq_none_iff (by positivity)).1 ?_)
    rw [hlast]
    push Not
    linarith

theorem round_twelvefold_overflow {q : ℚ} (h : lastMonthlyIncome < q) :
    ∀ r, round q = some r → round (r * 12) = none := by
  have hunit := pow2_pos 968
  have hbinade : pow2 1020 = 2 ^ 52 * pow2 968 := pow2_natCast_add 52 968
  have hnext : pow2 1021 = 2 ^ 53 * pow2 968 := pow2_natCast_add 53 968
  have hlast : pow2 970 = 2 ^ 2 * pow2 968 := pow2_natCast_add 2 968
  rw [lastMonthlyIncome_eq] at h
  have hq : 0 < q := by linarith
  have hexp : 1020 ≤ exponent q := le_exponent hq (by rw [hbinade]; linarith)
  have hle : (6004799503160661 : ℤ) * pow2 968 ≤ rounded q := by
    by_cases hspacing : spacing q = 968
    · rw [← hspacing] at h ⊢
      refine le_rounded_of_lt ?_
      push_cast
      linarith
    · have hlarge : 1021 ≤ exponent q := by
        simp only [spacing] at hspacing
        omega
      have hle := pow2_le_rounded (q := q) (e := 1021) (by norm_num)
        ((pow2_le_pow2 hlarge).trans (exponent_spec hq).1)
      rw [hnext] at hle
      push_cast
      linarith
  intro r hr
  rw [round_of_pos hq] at hr
  split at hr
  · obtain rfl := Option.some.inj hr
    push_cast at hle
    rw [round_eq_none_iff (by linarith), hlast]
    linarith
  · cases hr

end Binary64

/-- **The gross pay that is found is a text of an amount.** -/
theorem isAmountText_of_search {text : List Char} {groups : List (List Char)}
    (h : grossPayRe.search text = some groups) : ∃ raw, groups = [raw] ∧ IsAmountText raw := by
  obtain ⟨-, read, -, -, hread⟩ := Pattern.reads_of_search h
  obtain ⟨_, _, _, _, -, rfl, hmarker, hafter⟩ := Pattern.reads_seq_iff.1 hread
  obtain ⟨-, rfl⟩ := Pattern.reads_word hmarker
  obtain ⟨_, _, _, _, -, rfl, hspaces, hpay⟩ := Pattern.reads_seq_iff.1 hafter
  obtain ⟨-, rfl⟩ := Pattern.reads_many_iff.1 hspaces
  obtain ⟨_, _, _, _, -, rfl, hdollar, hgroup⟩ := Pattern.reads_seq_iff.1 hpay
  obtain ⟨-, rfl⟩ := Pattern.reads_one_iff.1 hdollar
  obtain ⟨_, rfl, hamount⟩ := Pattern.reads_group_iff.1 hgroup
  obtain ⟨w, _, _, _, rfl, rfl, hplus, hrest⟩ := Pattern.reads_seq_iff.1 hamount
  obtain ⟨-, hw, rfl⟩ := Pattern.reads_plus_iff.1 hplus
  obtain ⟨_, cents, _, _, rfl, rfl, hpoint, htimes⟩ := Pattern.reads_seq_iff.1 hrest
  obtain ⟨⟨c, hc, rfl⟩, rfl⟩ := Pattern.reads_one_iff.1 hpoint
  obtain ⟨hlength, hcents, rfl⟩ := Pattern.reads_times htimes
  obtain rfl : c = '.' := by simpa using hc
  exact ⟨w ++ '.' :: cents, rfl, ⟨w, cents, rfl, hw, hlength, hcents⟩⟩

/-- What is read of an amount of a month: an integer, or an error where the twelvefold is no
double. -/
theorem annualIncome_amount {raw : List Char} (h : IsAmountText raw) :
    ((hundredths raw : ℚ) / 100 ≤ lastMonthlyIncome ∧
      ∃ n, 0 ≤ n ∧ annualIncome (String.ofList (raw.filter (· ≠ ','))) = .ok n) ∨
    (lastMonthlyIncome < (hundredths raw : ℚ) / 100 ∧
      ∃ message, annualIncome (String.ofList (raw.filter (· ≠ ','))) =
        .error (.overflowError message)) := by
  have hlast : 0 < lastMonthlyIncome := by
    have hunit := Binary64.pow2_pos 967
    rw [lastMonthlyIncome]
    positivity
  rw [← annualIncomeOver_double, annualIncomeOver, parseOver_amount _ h]
  simp only [Arithmetic.double]
  generalize hq : (hundredths raw : ℚ) / 100 = q
  have hnonneg : 0 ≤ q := by
    rw [← hq]
    positivity
  rcases le_or_gt q lastMonthlyIncome with hle | hlt
  · left
    refine ⟨hle, ?_⟩
    rcases hnonneg.eq_or_lt with rfl | hpos
    · have hzero : Binary64.round 0 = some 0 := by rw [Binary64.round, if_pos rfl]
      simp only [hzero, zero_mul]
      exact ⟨_, Binary64.roundHalfEven_nonneg (le_refl 0), rfl⟩
    · obtain ⟨r, hr, hr', twelvefold, htwelvefold⟩ := Binary64.round_twelvefold hpos hle
      rw [hr]
      simp only [htwelvefold]
      exact ⟨_, Binary64.roundHalfEven_nonneg
        (Binary64.round_nonneg (by positivity) htwelvefold), rfl⟩
  · right
    refine ⟨hlt, ?_⟩
    cases hr : Binary64.round q with
    | none => exact ⟨_, rfl⟩
    | some r =>
        simp only [Binary64.round_twelvefold_overflow hlt r hr]
        exact ⟨_, rfl⟩

/-- **The amounts that are read without a failure** are those up to the last amount of a month: of
these the declared income is known, and none to divide by is zero. -/
theorem declared_income_safe_iff (U : Unicode) {pages : List PageText}
    {classification : DocumentClassification} {sourceChecksum : String} {facts : List ExtractedFact}
    (hpages : ∀ page ∈ pages, 1 ≤ page.page)
    (hfacts : extractFacts U pages classification sourceChecksum = .ok facts) {fact : ExtractedFact}
    (hfact : fact ∈ facts) (htype : fact.factType = .grossMonthlyIncome) :
    (∀ stored, factOfType stored .grossMonthlyIncome = some fact →
      ∃ income, declaredIncome stored = pure income ∧ ∀ n, income = some n → 0 < n) ↔
    (hundredths fact.value.toList : ℚ) / 100 ≤ lastMonthlyIncome := by
  obtain ⟨facts', hfacts', hfound⟩ := extractFacts_ok U hpages classification sourceChecksum
  rw [hfacts] at hfacts'
  obtain rfl := Except.ok.inj hfacts'
  obtain ⟨s, hs, page, groups, hfirst, hfinding, -⟩ := exists_search hfound hfact
  -- only the search for the gross pay finds one
  have hgross : s = grossPaySearch := by
    have hmem : FactType.grossMonthlyIncome ∈ s.types := by
      rw [← s.types_eq groups, ← htype]
      exact List.mem_map_of_mem (f := Finding.factType) hfinding
    cases classification <;> simp only [searches, List.mem_cons, List.not_mem_nil, or_false] at hs
    · rcases hs with rfl | rfl | rfl | rfl <;>
        simp [nameSearch, dateOfBirthSearch, addressSearch, syntheticIdSearch] at hmem
    · rcases hs with rfl | rfl | rfl
      · simp [employerSearch] at hmem
      · rfl
      · simp [tenureSearch] at hmem
  subst hgross
  obtain ⟨raw, rfl, hraw⟩ := isAmountText_of_search hfirst.groups
  have hvalue : fact.finding = ⟨.grossMonthlyIncome, String.ofList raw,
      String.ofList (raw.filter (· ≠ ','))⟩ := List.mem_singleton.1 hfinding
  obtain ⟨-, hvalue, hnormalized⟩ := Finding.mk.inj hvalue
  rw [hvalue, String.toList_ofList]
  have hread : ∀ stored, factOfType stored .grossMonthlyIncome = some fact →
      declaredIncome stored = (do
        let income ← Handler.ofExcept (annualIncome (String.ofList (raw.filter (· ≠ ','))))
        pure (if income = 0 then none else some income)) := by
    intro stored hstored
    rw [declaredIncome, hstored, ← hnormalized]
  constructor
  · intro h
    by_contra hlt
    obtain ⟨hle, -⟩ | ⟨-, message, herror⟩ := annualIncome_amount hraw
    · exact hlt hle
    · have hsingle : factOfType [fact] .grossMonthlyIncome = some fact := by
        simp [factOfType, htype]
      obtain ⟨income, hincome, -⟩ := h [fact] hsingle
      rw [hread [fact] hsingle, herror] at hincome
      cases hincome
  · intro hle stored hstored
    obtain ⟨-, n, hn, hok⟩ | ⟨hlt, -⟩ := annualIncome_amount hraw
    · refine ⟨if n = 0 then none else some n, ?_, ?_⟩
      · rw [hread stored hstored, hok, Handler.ofExcept, ← Prog.pure_eq, pure_bind]
      · intro m hm
        split at hm
        · cases hm
        · obtain rfl := Option.some.inj hm
          omega
    · exact absurd hle (not_le.2 hlt)

/-- The pay stub of an ordinary employment is read. -/
theorem declared_income_safe_sample :
    ∃ facts fact, fact ∈ facts ∧ fact.normalizedValue = Binary64.fixed2 12500 ∧
      extractFacts .ascii (onePage (payStubLinesOver 12500 Sample.applicant Sample.employment))
        .incomeProof "" = .ok facts ∧
      ∀ stored, factOfType stored .grossMonthlyIncome = some fact →
        ∃ income, declaredIncome stored = pure income ∧ ∀ n, income = some n → 0 < n := by
  obtain ⟨-, facts, hfacts, hfindings⟩ := payStub_findings .ascii
    (show (0 : ℚ) ≤ 12500 by norm_num) Sample.employment_fits ""
  obtain ⟨fact, hfact, hfinding⟩ := List.mem_map.1
    (hfindings ▸ List.mem_cons_of_mem _ List.mem_cons_self :
      (⟨.grossMonthlyIncome, Binary64.fixed2Grouped 12500, Binary64.fixed2 12500⟩ : Finding) ∈
        facts.map ExtractedFact.finding)
  obtain ⟨htype, hvalue, hnormalized⟩ := Finding.mk.inj hfinding
  refine ⟨facts, fact, hfact, hnormalized, hfacts,
    (declared_income_safe_iff .ascii (by simp [onePage]) hfacts hfact htype).2 ?_⟩
  rw [hvalue]
  decide +kernel

theorem hundredths_pow (k : ℕ) :
    hundredths (Binary64.fixed2Grouped ((10 : ℚ) ^ k)).toList = 10 ^ (k + 2) := by
  have hpow : (10 : ℚ) ^ k * 100 = ((10 ^ (k + 2) : ℤ) : ℚ) := by
    push_cast
    ring
  have hround : Binary64.roundHalfEven ((10 : ℚ) ^ k * 100) = 10 ^ (k + 2) :=
    Binary64.roundHalfEven_eq (by rw [hpow, sub_self, abs_zero]; norm_num)
  rw [hundredths_fixed2Grouped (by positivity), hround, Int.natAbs_pow]
  rfl

/-- **A document whose amount cannot be read**: on its gross pay of a one and four hundred zeros the
handler raises. -/
theorem declared_income_overflows :
    ∃ facts message, extractFacts .ascii
        (onePage (payStubLinesOver (10 ^ 400) Sample.applicant Sample.employment)) .incomeProof "" =
          .ok facts ∧
      declaredIncome facts = Handler.raise (.overflowError message) := by
  have hq : (0 : ℚ) ≤ 10 ^ 400 := by positivity
  obtain ⟨-, facts, hfacts, hfindings⟩ := payStub_findings .ascii hq Sample.employment_fits ""
  obtain ⟨employer, rest, rfl, hemployer, hrest⟩ := List.map_eq_cons_iff.1 hfindings
  obtain ⟨grossPay, rest, rfl, hgross, hrest⟩ := List.map_eq_cons_iff.1 hrest
  obtain ⟨tenure, rfl, htenure⟩ := List.map_eq_singleton_iff.1 hrest
  obtain ⟨-, -, hnormalized⟩ := Finding.mk.inj hgross
  have hfound : factOfType [employer, grossPay, tenure] .grossMonthlyIncome = some grossPay := by
    have htypes : employer.factType = .employerName ∧ grossPay.factType = .grossMonthlyIncome ∧
        tenure.factType = .tenureMonths :=
      ⟨(Finding.mk.inj hemployer).1, (Finding.mk.inj hgross).1, (Finding.mk.inj htenure).1⟩
    simp [factOfType, htypes]
  obtain ⟨hle, -⟩ | ⟨-, message, herror⟩ := annualIncome_amount (isAmountText_fixed2Grouped hq)
  · rw [hundredths_pow] at hle
    exact absurd hle (by decide +kernel)
  · rw [Binary64.filter_fixed2Grouped hq] at herror
    refine ⟨[employer, grossPay, tenure], message, hfacts, ?_⟩
    rw [declaredIncome, hfound]
    simp only [hnormalized, herror]
    rfl

end FinAssist
