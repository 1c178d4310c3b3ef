/-
**Facts from the text of a document.**

`RegexDocumentExtractor` looks for the text of the two synthetic documents, a pay stub and an
identity document.  It classifies a document by a marker in its text, and for each kind of fact it
searches the pages for the first one on which a regular expression matches.

Main definitions:

* `FinAssist.Unicode` — what Python knows of characters outside ASCII;
* `FinAssist.employerNameRe` and the other regular expressions;
* `FinAssist.classify`, `FinAssist.extractFacts` — **the extractor**.

Main results:

* `FinAssist.findFacts_ok` — what a search finds, and where;
* `FinAssist.extraction_provenance` — **every fact is in the text of the page it cites**, the first
  page its expression matches on.
-/

import FinAssist.Backtracking
import FinAssist.Evidence
import FinAssist.Timestamps
import Mathlib.Data.List.Nodup

set_option relaxedAutoImplicit false
set_option autoImplicit false

namespace FinAssist

open Backtracking

/-! ### Characters -/

/-- `str.isspace` of a character, the class `\s`. -/
def isSpace (c : Char) : Bool :=
  c.toNat = 32 || (9 ≤ c.toNat && c.toNat ≤ 13) || (28 ≤ c.toNat && c.toNat ≤ 31) ||
    Uuid.wideSpaces.contains c.toNat

theorem isBlankText_eq (s : String) : isBlankText s = s.toList.all isSpace := rfl

/-- `str.isdecimal` of a character, the class `\d`. -/
def isDecimal (c : Char) : Bool :=
  c.isDigit || Uuid.decimalZeros.any fun z => z ≤ c.toNat && c.toNat < z + 10

/-- The class `.`. -/
def isDot (c : Char) : Bool := c ≠ '\n'

/-- **What Python knows of characters**: `str.isalnum` and `str.lower`.  Of the characters outside
ASCII no more is assumed than that blanks are none of the one, and are not made by the other. -/
structure Unicode where
  isAlnum : Char → Bool
  lower : String → String
  isAlnum_ascii : ∀ c : Char, c.toNat < 128 → isAlnum c = c.isAlphanum
  isAlnum_isSpace : ∀ c : Char, isAlnum c = true → isSpace c = false
  lower_isBlank : ∀ s : String, isBlankText (lower s) = true → isBlankText s = true

/-- The class `[\w-]`. -/
def Unicode.isWordOrDash (U : Unicode) (c : Char) : Bool := U.isAlnum c || c = '_' || c = '-'

/-- `s.strip()`. -/
def strip (s : List Char) : List Char :=
  ((s.dropWhile isSpace).reverse.dropWhile isSpace).reverse

/-! ### The regular expressions -/

def payStubMarker : String := "SYNTHETIC PAY STUB"

def identityDocumentMarker : String := "GOVERNMENT-ISSUED ID"

/-- The pattern `\s*`. -/
def spaces : Pattern Char := .many isSpace

/-- What follows the marker in `_EMPLOYER_NAME_RE`. -/
def afterPayStub : Pattern Char :=
  .seq spaces (.seq (.word "--".toList) (.seq spaces (.group (.plus isDot))))

/-- `SYNTHETIC PAY STUB\s*--\s*(.+)` -/
def employerNameRe : Pattern Char := .seq (.word payStubMarker.toList) afterPayStub

/-- The class `[\d,]`. -/
def isAmount (c : Char) : Bool := isDecimal c || c = ','

/-- The pattern `[\d,]+\.\d{2}`. -/
def amount : Pattern Char :=
  .seq (.plus isAmount) (.seq (.one (· = '.')) (.times isDecimal 2))

/-- What follows the marker in `_GROSS_PAY_RE`. -/
def afterGrossPay : Pattern Char := .seq spaces (.seq (.one (· = '$')) (.group amount))

/-- `Gross pay:\s*\$([\d,]+\.\d{2})` -/
def grossPayRe : Pattern Char := .seq (.word ("Gross pay".toList ++ [':'])) afterGrossPay

/-- What follows the marker in `_TENURE_RE`. -/
def afterTenure : Pattern Char :=
  .seq spaces (.seq (.group (.plus isDecimal)) (.seq spaces (.word "months".toList)))

/-- `Tenure:\s*(\d+)\s*months` -/
def tenureRe : Pattern Char := .seq (.word ("Tenure".toList ++ [':'])) afterTenure

/-- The class `\S`. -/
def isVisible (c : Char) : Bool := !isSpace c

/-- What follows the marker in `_IDENTITY_NAME_RE`. -/
def afterName : Pattern Char :=
  .seq spaces (.seq (.group (.plus isVisible))
    (.seq (.plus isSpace) (.group (.plus isVisible))))

/-- `Name:\s*(\S+)\s+(\S+)` -/
def identityNameRe : Pattern Char := .seq (.word ("Name".toList ++ [':'])) afterName

/-- The pattern `\d{4}-\d{2}-\d{2}`. -/
def isoDate : Pattern Char :=
  .seq (.times isDecimal 4) (.seq (.one (· = '-')) (.seq (.times isDecimal 2)
    (.seq (.one (· = '-')) (.times isDecimal 2))))

/-- What follows the marker in `_DATE_OF_BIRTH_RE`. -/
def afterDateOfBirth : Pattern Char := .seq spaces (.group isoDate)

/-- `Date of birth:\s*(\d{4}-\d{2}-\d{2})` -/
def dateOfBirthRe : Pattern Char := .seq (.word ("Date of birth".toList ++ [':'])) afterDateOfBirth

/-- What follows the comma in `_ADDRESS_RE`. -/
def afterComma : Pattern Char := .seq spaces (.group (.plus isDot))

/-- What follows the marker in `_ADDRESS_RE`. -/
def afterAddress : Pattern Char :=
  .seq spaces (.seq (.group (.plus isDot)) (.seq (.one (· = ',')) afterComma))

/-- `Address:\s*(.+),\s*(.+)` -/
def addressRe : Pattern Char := .seq (.word ("Address".toList ++ [':'])) afterAddress

/-- What follows the marker in `_SYNTHETIC_ID_RE`. -/
def afterSyntheticId (U : Unicode) : Pattern Char := .seq spaces (.group (.plus U.isWordOrDash))

/-- `Synthetic ID:\s*([\w-]+)` -/
def syntheticIdRe (U : Unicode) : Pattern Char :=
  .seq (.word ("Synthetic ID".toList ++ [':'])) (afterSyntheticId U)

/-! ### The extractor -/

/-- The first page with a match, and the groups. -/
def findPage (pages : List PageText) (pattern : Pattern Char) : Option (ℕ × List (List Char)) :=
  pages.findSome? fun page =>
    (pattern.search page.text.toList).map fun groups => (page.page, groups)

/-- `match.group(n)`. -/
def group (groups : List (List Char)) (n : ℕ) : List Char := groups.getD (n - 1) []

/-- What is found of a fact on its page. -/
@[ext] structure Finding where
  factType : FactType
  value : String
  normalizedValue : String
  deriving DecidableEq

def ExtractedFact.finding (f : ExtractedFact) : Finding := ⟨f.factType, f.value, f.normalizedValue⟩

def extractorVersion : String := "regex-v1"

/-- `_fact`; the dataclass raises where the page has no number. -/
def fact (finding : Finding) (page : ℕ) (sourceChecksum : String) : Except Error ExtractedFact :=
  if h : 1 ≤ page then
    .ok ⟨finding.factType, finding.value, finding.normalizedValue, 1, page, "regex_pattern_match",
      extractorVersion, sourceChecksum, by norm_num, h⟩
  else .error (.valueError "page must be at least 1")

/-- The facts that one expression is for. -/
def findFacts (pages : List PageText) (pattern : Pattern Char)
    (findings : List (List Char) → List Finding) (sourceChecksum : String) :
    Except Error (List ExtractedFact) :=
  match findPage pages pattern with
  | none => .ok []
  | some (page, groups) => (findings groups).mapM fun finding => fact finding page sourceChecksum

def employerFindings (groups : List (List Char)) : List Finding :=
  let employerName := String.ofList (strip (group groups 1))
  [⟨.employerName, employerName, employerName⟩]

def grossPayFindings (groups : List (List Char)) : List Finding :=
  let raw := group groups 1
  [⟨.grossMonthlyIncome, String.ofList raw, String.ofList (raw.filter (· ≠ ','))⟩]

def tenureFindings (groups : List (List Char)) : List Finding :=
  let months := String.ofList (group groups 1)
  [⟨.tenureMonths, months, months⟩]

/-- **`_extract_income_proof_facts`.** -/
def extractIncomeProofFacts (pages : List PageText) (sourceChecksum : String) :
    Except Error (List ExtractedFact) := do
  let employer ← findFacts pages employerNameRe employerFindings sourceChecksum
  let grossPay ← findFacts pages grossPayRe grossPayFindings sourceChecksum
  let tenure ← findFacts pages tenureRe tenureFindings sourceChecksum
  pure (employer ++ grossPay ++ tenure)

def nameFindings (U : Unicode) (groups : List (List Char)) : List Finding :=
  let givenName := String.ofList (group groups 1)
  let familyName := String.ofList (group groups 2)
  [⟨.applicantGivenName, givenName, U.lower givenName⟩,
    ⟨.applicantFamilyName, familyName, U.lower familyName⟩]

/-- `date.fromisoformat`, on texts of the form of `isoDate`; nothing where it raises. -/
def Date.fromisoformat? (s : List Char) : Option Date := do
  let (year, s) ← takeNumber 4 s
  let s ← takeChar '-' s
  let (month, s) ← takeNumber 2 s
  let s ← takeChar '-' s
  let (day, s) ← takeNumber 2 s
  if h : s = [] ∧ 1 ≤ year ∧ year ≤ 9999 ∧ 1 ≤ month ∧ month ≤ 12 ∧ 1 ≤ day ∧
      day ≤ daysInMonth year month then some ⟨year, month, day, h.2⟩
  else none

def dateOfBirthFindings (groups : List (List Char)) : List Finding :=
  let raw := group groups 1
  let normalized := match Date.fromisoformat? raw with
    | some date => date.isoformat
    | none => String.ofList raw
  [⟨.dateOfBirth, String.ofList raw, normalized⟩]

def addressFindings (groups : List (List Char)) : List Finding :=
  let street := String.ofList (strip (group groups 1))
  let city := String.ofList (strip (group groups 2))
  [⟨.streetAddress, street, street⟩, ⟨.city, city, city⟩]

def syntheticIdFindings (groups : List (List Char)) : List Finding :=
  let syntheticId := String.ofList (group groups 1)
  [⟨.syntheticId, syntheticId, syntheticId⟩]

/-- **`_extract_identity_document_facts`.** -/
def extractIdentityDocumentFacts (U : Unicode) (pages : List PageText) (sourceChecksum : String) :
    Except Error (List ExtractedFact) := do
  let names ← findFacts pages identityNameRe (nameFindings U) sourceChecksum
  let dateOfBirth ← findFacts pages dateOfBirthRe dateOfBirthFindings sourceChecksum
  let address ← findFacts pages addressRe addressFindings sourceChecksum
  let syntheticId ← findFacts pages (syntheticIdRe U) syntheticIdFindings sourceChecksum
  pure (names ++ dateOfBirth ++ address ++ syntheticId)

/-- The text of all pages. -/
def joined (pages : List PageText) : List Char :=
  ['\n'].intercalate (pages.map fun page => page.text.toList)

/-- **`RegexDocumentExtractor.classify`.** -/
def classify (pages : List PageText) : DocumentClassification :=
  if payStubMarker.toList <:+: joined pages then .incomeProof
  else if identityDocumentMarker.toList <:+: joined pages then .identityDocument
  else .unknown

/-- **`RegexDocumentExtractor.extract_facts`.** -/
def extractFacts (U : Unicode) (pages : List PageText) (classification : DocumentClassification)
    (sourceChecksum : String) : Except Error (List ExtractedFact) :=
  match classification with
  | .incomeProof => extractIncomeProofFacts pages sourceChecksum
  | .identityDocument => extractIdentityDocumentFacts U pages sourceChecksum
  | .unknown => .ok []

/-! ### What is found, and where -/

section Provenance

variable {pages : List PageText} {pattern : Pattern Char}

/-- The first page with a match. -/
structure FirstMatch (pages : List PageText) (pattern : Pattern Char) (page : PageText)
    (groups : List (List Char)) : Prop where
  first : ∃ before after, pages = before ++ page :: after ∧
    ∀ q ∈ before, pattern.search q.text.toList = none
  groups : pattern.search page.text.toList = some groups

theorem findPage_eq_some {number : ℕ} {groups : List (List Char)}
    (h : findPage pages pattern = some (number, groups)) :
    ∃ page, page.page = number ∧ FirstMatch pages pattern page groups := by
  obtain ⟨before, page, after, hpages, hmatch, hnone⟩ := List.findSome?_eq_some_iff.1 h
  obtain ⟨groups', hgroups, heq⟩ := Option.map_eq_some_iff.1 hmatch
  cases heq
  refine ⟨page, rfl, ⟨before, after, hpages, fun q hq => ?_⟩, hgroups⟩
  exact Option.map_eq_none_iff.1 (hnone q hq)

theorem findPage_eq_none :
    findPage pages pattern = none ↔ ∀ q ∈ pages, pattern.search q.text.toList = none := by
  rw [findPage, List.findSome?_eq_none_iff]
  exact forall₂_congr fun q _ => Option.map_eq_none_iff

theorem FirstMatch.mem {page : PageText} {groups : List (List Char)}
    (h : FirstMatch pages pattern page groups) : page ∈ pages := by
  obtain ⟨before, after, rfl, -⟩ := h.first
  simp

theorem FirstMatch.findPage {page : PageText} {groups : List (List Char)}
    (h : FirstMatch pages pattern page groups) :
    findPage pages pattern = some (page.page, groups) := by
  obtain ⟨before, after, rfl, hnone⟩ := h.first
  rw [FinAssist.findPage, List.findSome?_append, List.findSome?_eq_none_iff.2, Option.none_or,
    List.findSome?_cons, h.groups]
  · rfl
  · intro q hq
    rw [hnone q hq]
    rfl

theorem fact_ok {finding : Finding} {page : ℕ} (h : 1 ≤ page) (sourceChecksum : String) :
    ∃ f, fact finding page sourceChecksum = .ok f ∧ f.finding = finding ∧ f.page = page := by
  rw [fact, dif_pos h]
  exact ⟨_, rfl, rfl, rfl⟩

theorem facts_ok {page : ℕ} (h : 1 ≤ page) (sourceChecksum : String) : ∀ findings : List Finding,
    ∃ facts, (findings.mapM fun finding => fact finding page sourceChecksum) =
        (.ok facts : Except Error _) ∧
      facts.map ExtractedFact.finding = findings ∧ ∀ f ∈ facts, f.page = page := by
  intro findings
  induction findings with
  | nil => exact ⟨[], rfl, rfl, by simp⟩
  | cons finding findings ih =>
      obtain ⟨f, hf, hfinding, hpage⟩ : ∃ f, fact finding page sourceChecksum = .ok f ∧
          f.finding = finding ∧ f.page = page := fact_ok h sourceChecksum
      obtain ⟨facts, hfacts, hfindings, hpages⟩ := ih
      refine ⟨f :: facts, ?_, by simp [hfinding, hfindings], ?_⟩
      · rw [List.mapM_cons, hf, hfacts]
        rfl
      · intro f' hf'
        rcases List.mem_cons.1 hf' with rfl | hf'
        · exact hpage
        · exact hpages f' hf'

/-- **What one expression finds**: nothing, or what is on the first page with a match. -/
theorem findFacts_ok (hpages : ∀ page ∈ pages, 1 ≤ page.page)
    (findings : List (List Char) → List Finding) (sourceChecksum : String) :
    ∃ facts, findFacts pages pattern findings sourceChecksum = .ok facts ∧
      ((∀ page ∈ pages, pattern.search page.text.toList = none) ∧ facts = [] ∨
        ∃ page groups, FirstMatch pages pattern page groups ∧
          facts.map ExtractedFact.finding = findings groups ∧ ∀ f ∈ facts, f.page = page.page) := by
  rw [findFacts]
  cases hfind : findPage pages pattern with
  | none => exact ⟨[], rfl, Or.inl ⟨findPage_eq_none.1 hfind, rfl⟩⟩
  | some found =>
      obtain ⟨number, groups⟩ := found
      obtain ⟨page, rfl, hfirst⟩ := findPage_eq_some hfind
      obtain ⟨facts, hfacts, hfindings, hpage⟩ :=
        facts_ok (hpages page hfirst.mem) sourceChecksum (findings groups)
      exact ⟨facts, hfacts, Or.inr ⟨page, groups, hfirst, hfindings, hpage⟩⟩

end Provenance

/-! ### The searches of a classification -/

theorem infix_strip (s : List Char) : strip s <:+: s := by
  have htail : ∀ s : List Char, (s.reverse.dropWhile isSpace).reverse <+: s := by
    intro s
    have hsuffix := List.dropWhile_suffix isSpace (l := s.reverse)
    simpa using List.reverse_prefix.2 hsuffix
  exact (htail _).isInfix.trans (List.dropWhile_suffix isSpace).isInfix

/-- **One of the searches of the extractor**: each of its facts is of one of these types, and its
value is in what a group of the expression has read. -/
structure Search where
  pattern : Pattern Char
  findings : List (List Char) → List Finding
  types : List FactType
  types_eq : ∀ groups, (findings groups).map Finding.factType = types
  value_within : ∀ groups, ∀ f ∈ findings groups, ∃ n, f.value.toList <:+: group groups n

def employerSearch : Search where
  pattern := employerNameRe
  findings := employerFindings
  types := [.employerName]
  types_eq _ := rfl
  value_within groups := by
    simp only [employerFindings, List.mem_singleton, forall_eq, String.toList_ofList]
    exact ⟨1, infix_strip _⟩

def grossPaySearch : Search where
  pattern := grossPayRe
  findings := grossPayFindings
  types := [.grossMonthlyIncome]
  types_eq _ := rfl
  value_within groups := by
    simp only [grossPayFindings, List.mem_singleton, forall_eq, String.toList_ofList]
    exact ⟨1, List.infix_refl _⟩

def tenureSearch : Search where
  pattern := tenureRe
  findings := tenureFindings
  types := [.tenureMonths]
  types_eq _ := rfl
  value_within groups := by
    simp only [tenureFindings, List.mem_singleton, forall_eq, String.toList_ofList]
    exact ⟨1, List.infix_refl _⟩

def nameSearch (U : Unicode) : Search where
  pattern := identityNameRe
  findings := nameFindings U
  types := [.applicantGivenName, .applicantFamilyName]
  types_eq _ := rfl
  value_within groups := by
    simp only [nameFindings, List.forall_mem_cons, String.toList_ofList]
    exact ⟨⟨1, List.infix_refl _⟩, ⟨2, List.infix_refl _⟩, by simp⟩

def dateOfBirthSearch : Search where
  pattern := dateOfBirthRe
  findings := dateOfBirthFindings
  types := [.dateOfBirth]
  types_eq _ := rfl
  value_within groups := by
    simp only [dateOfBirthFindings, List.mem_singleton, forall_eq, String.toList_ofList]
    exact ⟨1, List.infix_refl _⟩

def addressSearch : Search where
  pattern := addressRe
  findings := addressFindings
  types := [.streetAddress, .city]
  types_eq _ := rfl
  value_within groups := by
    simp only [addressFindings, List.forall_mem_cons, String.toList_ofList]
    exact ⟨⟨1, infix_strip _⟩, ⟨2, infix_strip _⟩, by simp⟩

def syntheticIdSearch (U : Unicode) : Search where
  pattern := syntheticIdRe U
  findings := syntheticIdFindings
  types := [.syntheticId]
  types_eq _ := rfl
  value_within groups := by
    simp only [syntheticIdFindings, List.mem_singleton, forall_eq, String.toList_ofList]
    exact ⟨1, List.infix_refl _⟩

/-- The searches that are made in a document of a class. -/
def searches (U : Unicode) : DocumentClassification → List Search
  | .incomeProof => [employerSearch, grossPaySearch, tenureSearch]
  | .identityDocument => [nameSearch U, dateOfBirthSearch, addressSearch, syntheticIdSearch U]
  | .unknown => []

/-- The expression a kind of fact is found with. -/
def patternOf (U : Unicode) : FactType → Pattern Char
  | .applicantGivenName => identityNameRe
  | .applicantFamilyName => identityNameRe
  | .dateOfBirth => dateOfBirthRe
  | .streetAddress => addressRe
  | .city => addressRe
  | .syntheticId => syntheticIdRe U
  | .employerName => employerNameRe
  | .grossMonthlyIncome => grossPayRe
  | .tenureMonths => tenureRe

theorem patternOf_eq {U : Unicode} {classification : DocumentClassification} {s : Search}
    (hs : s ∈ searches U classification) : ∀ t ∈ s.types, patternOf U t = s.pattern := by
  cases classification <;> simp only [searches, List.mem_cons, List.not_mem_nil, or_false] at hs
  · rcases hs with rfl | rfl | rfl | rfl <;> simp [nameSearch, dateOfBirthSearch, addressSearch,
      syntheticIdSearch, patternOf]
  · rcases hs with rfl | rfl | rfl <;> simp [employerSearch, grossPaySearch, tenureSearch, patternOf]

theorem types_nodup (U : Unicode) (classification : DocumentClassification) :
    ((searches U classification).flatMap Search.types).Nodup := by
  cases classification <;> simp [searches, nameSearch, dateOfBirthSearch, addressSearch,
    syntheticIdSearch, employerSearch, grossPaySearch, tenureSearch]

theorem extractFacts_eq (U : Unicode) (pages : List PageText)
    (classification : DocumentClassification) (sourceChecksum : String) :
    extractFacts U pages classification sourceChecksum =
      ((searches U classification).mapM fun s =>
        findFacts pages s.pattern s.findings sourceChecksum).map List.flatten := by
  cases classification with
  | incomeProof =>
      simp only [extractFacts, extractIncomeProofFacts, searches, List.mapM_cons, List.mapM_nil,
        employerSearch, grossPaySearch, tenureSearch]
      cases findFacts pages employerNameRe employerFindings sourceChecksum <;> try rfl
      cases findFacts pages grossPayRe grossPayFindings sourceChecksum <;> try rfl
      cases findFacts pages tenureRe tenureFindings sourceChecksum <;> try rfl
      simp [Except.map, bind, Except.bind, pure, Except.pure]
  | identityDocument =>
      simp only [extractFacts, extractIdentityDocumentFacts, searches, List.mapM_cons,
        List.mapM_nil, nameSearch, dateOfBirthSearch, addressSearch, syntheticIdSearch]
      cases findFacts pages identityNameRe (nameFindings U) sourceChecksum <;> try rfl
      cases findFacts pages dateOfBirthRe dateOfBirthFindings sourceChecksum <;> try rfl
      cases findFacts pages addressRe addressFindings sourceChecksum <;> try rfl
      cases findFacts pages (syntheticIdRe U) syntheticIdFindings sourceChecksum <;> try rfl
      simp [Except.map, bind, Except.bind, pure, Except.pure]
  | unknown => rfl

/-- The facts of one search: none, or those of the first page with a match. -/
def FoundBy (pages : List PageText) (s : Search) (facts : List ExtractedFact) : Prop :=
  (∀ page ∈ pages, s.pattern.search page.text.toList = none) ∧ facts = [] ∨
    ∃ page groups, FirstMatch pages s.pattern page groups ∧
      facts.map ExtractedFact.finding = s.findings groups ∧ ∀ f ∈ facts, f.page = page.page

/-- **The facts of a document** are those of its searches, one after the other. -/
theorem extractFacts_ok (U : Unicode) {pages : List PageText}
    (hpages : ∀ page ∈ pages, 1 ≤ page.page) (classification : DocumentClassification)
    (sourceChecksum : String) :
    ∃ facts, extractFacts U pages classification sourceChecksum = .ok facts.flatten ∧
      List.Forall₂ (FoundBy pages) (searches U classification) facts := by
  have hall : ∀ ss : List Search, ∃ facts,
      (ss.mapM fun s => findFacts pages s.pattern s.findings sourceChecksum) =
        (.ok facts : Except Error _) ∧ List.Forall₂ (FoundBy pages) ss facts := by
    intro ss
    induction ss with
    | nil => exact ⟨[], rfl, .nil⟩
    | cons s ss ih =>
        obtain ⟨facts, hfacts, hfound⟩ : ∃ facts,
            findFacts pages s.pattern s.findings sourceChecksum = .ok facts ∧
              FoundBy pages s facts :=
          findFacts_ok hpages s.findings sourceChecksum
        obtain ⟨rest, hrest, hrests⟩ := ih
        refine ⟨facts :: rest, ?_, .cons hfound hrests⟩
        rw [List.mapM_cons, hfacts, hrest]
        rfl
  obtain ⟨facts, hfacts, hfound⟩ := hall (searches U classification)
  refine ⟨facts, ?_, hfound⟩
  rw [extractFacts_eq, hfacts]
  rfl

/-- Of each type there is at most one. -/
theorem types_sublist {pages : List PageText} {ss : List Search} {facts : List (List ExtractedFact)}
    (h : List.Forall₂ (FoundBy pages) ss facts) :
    (facts.flatten.map ExtractedFact.factType).Sublist (ss.flatMap Search.types) := by
  induction h with
  | nil => exact List.Sublist.slnil
  | @cons s facts ss rest hfound _ ih =>
      rw [List.flatten_cons, List.map_append, List.flatMap_cons]
      refine List.Sublist.append ?_ ih
      rcases hfound with ⟨-, rfl⟩ | ⟨page, groups, -, hfindings, -⟩
      · exact List.nil_sublist _
      · have htypes := congrArg (List.map Finding.factType) hfindings
        rw [s.types_eq, List.map_map] at htypes
        exact htypes ▸ List.Sublist.refl _

/-- A fact is found by one of the searches. -/
theorem exists_search {pages : List PageText} {ss : List Search} {facts : List (List ExtractedFact)}
    (h : List.Forall₂ (FoundBy pages) ss facts) {f : ExtractedFact} (hf : f ∈ facts.flatten) :
    ∃ s ∈ ss, ∃ page groups, FirstMatch pages s.pattern page groups ∧
      f.finding ∈ s.findings groups ∧ f.page = page.page := by
  induction h with
  | nil => simp at hf
  | @cons s facts ss rest hfound _ ih =>
      rw [List.flatten_cons] at hf
      rcases List.mem_append.1 hf with hf | hf
      · rcases hfound with ⟨-, rfl⟩ | ⟨page, groups, hfirst, hfindings, hpage⟩
        · simp at hf
        · exact ⟨s, List.mem_cons_self, page, groups, hfirst,
            hfindings ▸ List.mem_map_of_mem hf, hpage f hf⟩
      · obtain ⟨s', hs', hrest⟩ := ih hf
        exact ⟨s', List.mem_cons_of_mem _ hs', hrest⟩

/-! ### Provenance -/

/-- A marker is in the text of all pages if it is in that of one. -/
theorem infix_joined_iff {marker : String} (hline : '\n' ∉ marker.toList) (hne : marker.toList ≠ [])
    (pages : List PageText) :
    marker.toList <:+: joined pages ↔ ∃ page ∈ pages, marker.toList <:+: page.text.toList := by
  rw [joined, infix_intercalate_iff hline hne]
  simp

theorem classify_eq_incomeProof_iff {pages : List PageText} :
    classify pages = .incomeProof ↔
      ∃ page ∈ pages, payStubMarker.toList <:+: page.text.toList := by
  rw [← infix_joined_iff (by decide) (by decide), classify]
  split_ifs <;> simp_all

theorem classify_eq_identityDocument_iff {pages : List PageText} :
    classify pages = .identityDocument ↔
      (∀ page ∈ pages, ¬ payStubMarker.toList <:+: page.text.toList) ∧
        ∃ page ∈ pages, identityDocumentMarker.toList <:+: page.text.toList := by
  have hno : (∀ page ∈ pages, ¬ payStubMarker.toList <:+: page.text.toList) ↔
      ¬ payStubMarker.toList <:+: joined pages := by
    rw [infix_joined_iff (by decide) (by decide)]
    simp
  rw [hno, ← infix_joined_iff (by decide) (by decide), classify]
  split_ifs <;> simp_all

/-- What is read of a match is on its page. -/
theorem FirstMatch.groupWithin {pages : List PageText} {pattern : Pattern Char} {page : PageText}
    {groups : List (List Char)} (h : FirstMatch pages pattern page groups) (n : ℕ) :
    group groups n <:+: page.text.toList := by
  rw [group, List.getD_eq_getElem?_getD]
  cases hn : groups[n - 1]? with
  | none => exact List.nil_infix
  | some g => exact Pattern.infix_of_search h.groups g (List.mem_of_getElem? hn)

/-- **Every fact is in the text of the page it cites**, which is the first one its expression
matches on; there is one fact of a type at most, and none of a document of no known class.  The
class is that of the marker that is on some page. -/
theorem extraction_provenance (U : Unicode) {pages : List PageText}
    (hpages : ∀ page ∈ pages, 1 ≤ page.page) (hdistinct : (pages.map PageText.page).Nodup)
    (classification : DocumentClassification) (sourceChecksum : String) :
    (∃ facts, extractFacts U pages classification sourceChecksum = .ok facts ∧
      (facts.map ExtractedFact.factType).Nodup ∧
      (∀ f ∈ facts, ∃ before page after, pages = before ++ page :: after ∧
        (∀ q ∈ pages, q.page = f.page ↔ q = page) ∧
        f.value.toList <:+: page.text.toList ∧
        (patternOf U f.factType).search page.text.toList ≠ none ∧
        ∀ q ∈ before, (patternOf U f.factType).search q.text.toList = none) ∧
      (classification = .unknown → facts = [])) ∧
    (classify pages = .incomeProof ↔
      ∃ page ∈ pages, payStubMarker.toList <:+: page.text.toList) ∧
    (classify pages = .identityDocument ↔
      (∀ page ∈ pages, ¬ payStubMarker.toList <:+: page.text.toList) ∧
        ∃ page ∈ pages, identityDocumentMarker.toList <:+: page.text.toList) := by
  refine ⟨?_, classify_eq_incomeProof_iff, classify_eq_identityDocument_iff⟩
  obtain ⟨facts, hfacts, hfound⟩ := extractFacts_ok U hpages classification sourceChecksum
  refine ⟨facts.flatten, hfacts, ?_, ?_, ?_⟩
  · exact (types_nodup U classification).sublist (types_sublist hfound)
  · intro f hf
    obtain ⟨s, hs, page, groups, hfirst, hfinding, hnumber⟩ := exists_search hfound hf
    have hpattern : patternOf U f.factType = s.pattern := by
      refine patternOf_eq hs _ ?_
      rw [← s.types_eq groups]
      exact List.mem_map_of_mem (f := Finding.factType) hfinding
    obtain ⟨n, hvalue⟩ := s.value_within groups _ hfinding
    obtain ⟨before, after, hsplit, hbefore⟩ := hfirst.first
    refine ⟨before, page, after, hsplit, ?_, hvalue.trans (hfirst.groupWithin n), ?_, ?_⟩
    · intro q hq
      rw [hnumber]
      exact ⟨fun heq => List.inj_on_of_nodup_map hdistinct hq hfirst.mem heq, fun h => h ▸ rfl⟩
    · rw [hpattern, hfirst.groups]
      simp
    · rw [hpattern]
      exact hbefore
  · rintro rfl
    cases hfound
    rfl

/-! ### ASCII -/

/-- No printable character of ASCII is a blank. -/
theorem isSpace_of_printable {c : Char} (h : 33 ≤ c.toNat ∧ c.toNat < 128) : isSpace c = false := by
  have hwide : Uuid.wideSpaces.contains c.toNat = false := by
    rw [List.contains_eq_mem, decide_eq_false_iff_not]
    intro hmem
    have hlarge : ∀ n ∈ Uuid.wideSpaces, 128 ≤ n := by decide
    have := hlarge _ hmem
    omega
  simp only [isSpace, hwide, Bool.or_false, Bool.or_eq_false_iff, Bool.and_eq_false_iff,
    decide_eq_false_iff_not]
  omega

/-- No decimal digit outside ASCII is a blank. -/
theorem not_wideSpace_of_decimal {z n : ℕ} (hz : z ∈ Uuid.decimalZeros)
    (hn : z ≤ n ∧ n < z + 10) : Uuid.wideSpaces.contains n = false := by
  have hspaces : ∀ z ∈ Uuid.decimalZeros, ∀ n ∈ Uuid.wideSpaces, ¬ (z ≤ n ∧ n < z + 10) := by
    decide
  rw [Bool.eq_false_iff]
  intro hmem
  exact hspaces z hz n (List.contains_iff_mem.1 hmem) hn

theorem toNat_of_isAlphanum {c : Char} (h : c.isAlphanum = true) :
    48 ≤ c.toNat ∧ c.toNat ≤ 122 := by
  change ((decide (c.val ≥ 'A'.val ∧ c.val ≤ 'Z'.val) ||
    decide (c.val ≥ 'a'.val) && decide (c.val ≤ 'z'.val)) ||
    decide (c.val ≥ '0'.val) && decide (c.val ≤ '9'.val)) = true at h
  simp only [Bool.or_eq_true, Bool.and_eq_true, decide_eq_true_eq, UInt32.le_iff_toNat_le,
    ge_iff_le] at h
  have htoNat : c.toNat = c.val.toNat := rfl
  have hA : 'A'.val.toNat = 65 := rfl
  have hZ : 'Z'.val.toNat = 90 := rfl
  have ha : 'a'.val.toNat = 97 := rfl
  have hz : 'z'.val.toNat = 122 := rfl
  have h0 : '0'.val.toNat = 48 := rfl
  have h9 : '9'.val.toNat = 57 := rfl
  omega

theorem isSpace_toLower (c : Char) (h : isSpace c.toLower = true) : isSpace c = true := by
  by_cases hupper : c.val ≥ 'A'.val ∧ c.val ≤ 'Z'.val
  · have hlower : c.toLower.val = c.val + ('a'.val - 'A'.val) := congrArg Char.val (dif_pos hupper)
    have hA := UInt32.le_iff_toNat_le.1 hupper.1
    have hZ := UInt32.le_iff_toNat_le.1 hupper.2
    have hsum : (c.val + ('a'.val - 'A'.val)).toNat = c.val.toNat + 32 := by
      rw [UInt32.toNat_add]
      exact Nat.mod_eq_of_lt (by
        have hZ' : 'Z'.val.toNat = 90 := rfl
        have h32 : ('a'.val - 'A'.val).toNat = 32 := rfl
        omega)
    have hA' : 'A'.val.toNat = 65 := rfl
    have hZ' : 'Z'.val.toNat = 90 := rfl
    rw [isSpace_of_printable] at h
    · cases h
    · simp only [Char.toNat, hlower, hsum]
      omega
  · have hsame : c.toLower = c := dif_neg hupper
    rwa [hsame] at h

/-- What is known of the characters of ASCII. -/
def Unicode.ascii : Unicode where
  isAlnum := Char.isAlphanum
  lower := String.map Char.toLower
  isAlnum_ascii _ _ := rfl
  isAlnum_isSpace _ h := by
    have hrange := toNat_of_isAlphanum h
    exact isSpace_of_printable (by omega)
  lower_isBlank s h := by
    rw [isBlankText_eq, String.toList_map, List.all_map, List.all_eq_true] at h
    rw [isBlankText_eq, List.all_eq_true]
    exact fun c hc => isSpace_toLower c (h c hc)

namespace Sample

/-- A pay stub on the second of two pages. -/
def payStubPages : List PageText :=
  [⟨1, "Cover"⟩, ⟨2, "SYNTHETIC PAY STUB -- Initech Software\nTenure: 14 months"⟩]

end Sample

/-- In a document of two pages. -/
theorem extraction_provenance_payStub :
    classify Sample.payStubPages = .incomeProof ∧
      ∃ facts, extractFacts .ascii Sample.payStubPages .incomeProof "" = .ok facts ∧
        (facts.map ExtractedFact.factType).Nodup := by
  have hsound := extraction_provenance .ascii
    (show ∀ page ∈ Sample.payStubPages, 1 ≤ page.page by decide) (by decide) .incomeProof ""
  obtain ⟨facts, hfacts, hnodup, -⟩ := hsound.1
  exact ⟨hsound.2.1.2 (by decide +kernel), facts, hfacts, hnodup⟩

example : (extractFacts .ascii Sample.payStubPages .incomeProof "").map
    (fun facts => facts.map ExtractedFact.finding) =
      .ok [⟨.employerName, "Initech Software", "Initech Software"⟩, ⟨.tenureMonths, "14", "14"⟩] := by
  decide +kernel

end FinAssist
