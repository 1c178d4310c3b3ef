/-
**Documents, facts and verification checks.**

The value types of `finassist.domain.documents` and `finassist.domain.verification`, the results
of the external systems (`application/ports`), and the summary a reviewer sees.  The scores and
incomes are computed in binary floating point; a double is represented here by the rational
number it is, and every operation rounds as IEEE 754 does.

Main definitions:

* `FinAssist.Binary64.round` — the double nearest to a rational;
* `FinAssist.Binary64.parse`, `FinAssist.Binary64.repr` — `float(text)` and `repr`;
* `FinAssist.UploadedDocument`, `FinAssist.ExtractedFact`, `FinAssist.VerificationCheck`;
* `FinAssist.buildVerificationSummary` — **the summary of a list of checks**.
-/

import FinAssist.Application
import Mathlib.Data.Rat.Floor

set_option relaxedAutoImplicit false
set_option autoImplicit false

namespace FinAssist

/-! ### Binary floating point -/

namespace Binary64

/-- Two to a power, which may be negative. -/
def pow2 (k : ℤ) : ℚ := if 0 ≤ k then (2 : ℚ) ^ k.toNat else 1 / (2 : ℚ) ^ (-k).toNat

/-- The nearest integer, the even one of two: Python's `round`. -/
def roundHalfEven (q : ℚ) : ℤ :=
  let below := q.floor
  let rest := q - below
  if rest < 1 / 2 then below
  else if 1 / 2 < rest then below + 1
  else if below % 2 = 0 then below else below + 1

/-- The exponent `e` with `2 ^ e ≤ q < 2 ^ (e + 1)`, for a positive `q`. -/
def exponent (q : ℚ) : ℤ :=
  let e : ℤ := (Nat.log2 q.num.natAbs : ℤ) - Nat.log2 q.den
  if pow2 e ≤ q then e else e - 1

/-- **The double nearest to `q`**; nothing for an infinite one. -/
def round (q : ℚ) : Option ℚ :=
  if q = 0 then some 0
  else
    let unit := pow2 (max (exponent |q| - 52) (-1074))
    let rounded := roundHalfEven (q / unit) * unit
    if |rounded| < pow2 1024 then some rounded else none

/-- A value `float` returns. -/
inductive Value
  | finite (q : ℚ)
  | infinite
  | nan
  deriving DecidableEq

def ofRat (q : ℚ) : Value :=
  match round q with
  | some q => .finite q
  | none => .infinite

def digitValue (c : Char) : ℕ := c.toNat - '0'.toNat

/-- Digits with single underscores between them; the digits read so far, latest first, and the
rest of the text. -/
def digits : List Char → List ℕ → List ℕ × List Char
  | [], acc => (acc, [])
  | [c], acc => if c.isDigit then (digitValue c :: acc, []) else (acc, [c])
  | c :: d :: s, acc =>
      if c.isDigit then digits (d :: s) (digitValue c :: acc)
      else if c = '_' && !acc.isEmpty && d.isDigit then digits (d :: s) acc
      else (acc, c :: d :: s)

/-- The number with these digits, latest first. -/
def ofDigits : List ℕ → ℕ
  | [] => 0
  | d :: ds => ofDigits ds * 10 + d

def pow10 (k : ℤ) : ℚ := if 0 ≤ k then (10 : ℚ) ^ k.toNat else 1 / (10 : ℚ) ^ (-k).toNat

def signed : List Char → Bool × List Char
  | '-' :: s => (true, s)
  | '+' :: s => (false, s)
  | s => (false, s)

/-- The exponent part, if the text has one and ends with it. -/
def parseExponent : List Char → Option ℤ
  | [] => some 0
  | c :: s =>
      if c = 'e' ∨ c = 'E' then
        let (negative, s) := signed s
        match digits s [] with
        | (d :: ds, []) =>
            let n := ofDigits (d :: ds)
            some (if negative then -n else n)
        | _ => none
      else none

def parseNumber (s : List Char) : Option ℚ :=
  let (whole, s) := digits s []
  let (fraction, s) := match s with
    | '.' :: s => digits s []
    | s => ([], s)
  if whole.isEmpty && fraction.isEmpty then none
  else (parseExponent s).map fun e =>
    (ofDigits (fraction ++ whole) : ℚ) * pow10 (e - fraction.length)

/-- **`float(text)`**, or nothing where it raises. -/
def parse (text : String) : Option Value :=
  let s := (text.toList.map Uuid.toAscii).dropWhile Uuid.isBlank
  let s := (s.reverse.dropWhile Uuid.isBlank).reverse
  let (negative, s) := signed s
  let word := String.ofList (s.map Char.toLower)
  if word = "inf" ∨ word = "infinity" then some .infinite
  else if word = "nan" then some .nan
  else (parseNumber s).map fun q => ofRat (if negative then -q else q)

/-- `f"{q:.2f}"`. -/
def fixed2 (q : ℚ) : String :=
  let hundredths := roundHalfEven (q * 100)
  (if q < 0 then "-" else "") ++ toString (hundredths.natAbs / 100) ++ "." ++
    zeroPad 2 (hundredths.natAbs % 100)

/-- The exponent `k` with `10 ^ k ≤ q < 10 ^ (k + 1)`, for a positive `q`. -/
def exponent10 (q : ℚ) : ℤ :=
  let k : ℤ := ((toString q.num.natAbs).length : ℤ) - (toString q.den).length
  if pow10 k ≤ q then k else k - 1

/-- The shortest decimal that stands for the double `q`, from digit `n` after the first on: its
digits, and the power of ten of the last of them. -/
def shortest (q : ℚ) (k : ℤ) (n : ℕ) : ℕ → ℤ × ℤ
  | 0 => (roundHalfEven (q / pow10 (k - n)), k - n)
  | fuel + 1 =>
      let unit := pow10 (k - n)
      let near := roundHalfEven (q / unit)
      match [near, near - 1, near + 1].find? fun m : ℤ => round (m * unit) = some q with
      | some m => (m, k - n)
      | none => shortest q k (n + 1) fuel

/-- `repr` of a double. -/
def repr (q : ℚ) : String :=
  if q = 0 then "0.0"
  else
    let (m, e) := shortest |q| (exponent10 |q|) 0 16
    let written := (toString m).toList
    let point := (written.length : ℤ) + e
    let digits := (written.reverse.dropWhile (· = '0')).reverse
    let text :=
      if point ≤ -4 ∨ 16 < point then
        String.ofList (digits.take 1) ++ (if digits.length = 1 then "" else ".") ++
          String.ofList (digits.drop 1) ++ (if point ≤ 0 then "e-" else "e+") ++
          zeroPad 2 (point - 1).natAbs
      else if point ≤ 0 then
        "0." ++ String.ofList (List.replicate (-point).toNat '0' ++ digits)
      else if digits.length ≤ point then
        String.ofList (digits ++ List.replicate (point.toNat - digits.length) '0') ++ ".0"
      else String.ofList (digits.take point.toNat) ++ "." ++ String.ofList (digits.drop point.toNat)
    (if q < 0 then "-" else "") ++ text

example : repr (3 / 2) = "1.5" := by decide +kernel

end Binary64

/-! ### Documents -/

/-- What `UploadDocumentHandler` stores of a document. -/
structure UploadedDocument where
  documentId : String
  tenantId : TenantId
  applicationId : ApplicationId
  documentType : String
  objectKey : String
  checksumSha256 : String
  sizeBytes : ℕ
  uploadedAt : DateTime

structure ObjectMetadata where
  key : String
  checksumSha256 : String
  sizeBytes : ℕ
  contentType : String

structure FileSafetyReport where
  detectedContentType : String
  pageCount : ℕ

structure PageText where
  page : ℕ
  text : String

inductive FactType
  | applicantGivenName
  | applicantFamilyName
  | dateOfBirth
  | streetAddress
  | city
  | syntheticId
  | employerName
  | grossMonthlyIncome
  | tenureMonths
  deriving DecidableEq

def FactType.value : FactType → String
  | applicantGivenName => "APPLICANT_GIVEN_NAME"
  | applicantFamilyName => "APPLICANT_FAMILY_NAME"
  | dateOfBirth => "DATE_OF_BIRTH"
  | streetAddress => "STREET_ADDRESS"
  | city => "CITY"
  | syntheticId => "SYNTHETIC_ID"
  | employerName => "EMPLOYER_NAME"
  | grossMonthlyIncome => "GROSS_MONTHLY_INCOME"
  | tenureMonths => "TENURE_MONTHS"

inductive DocumentClassification
  | identityDocument
  | incomeProof
  | unknown
  deriving DecidableEq

structure ExtractedFact where
  factType : FactType
  value : String
  normalizedValue : String
  confidence : ℚ
  page : ℕ
  extractionMethod : String
  extractorVersion : String
  sourceChecksum : String
  confidence_mem : 0 ≤ confidence ∧ confidence ≤ 1
  page_pos : 1 ≤ page

/-! ### External systems -/

structure KycVerificationResult where
  status : String
  nameMatchScore : ℚ
  addressMatchScore : ℚ
  dateOfBirthMatch : Bool
  referenceId : String

structure EmploymentVerificationResult where
  isEmploymentConfirmed : Bool
  verifiedAnnualIncome : ℤ
  tenureMonths : ℤ

/-- `CreditReport`; of its tradelines only their number is used. -/
structure CreditReport where
  creditScore : ℤ
  tradelineCount : ℕ
  hardInquiriesLast12Months : ℤ
  isDuplicateIdentityFlag : Bool

structure TransactionHistory where
  averageDailyBalanceCents : ℤ
  nsfCountLast90Days : ℤ

/-! ### Verification checks -/

inductive VerificationVerdict
  | matched
  | contradicted
  | insufficientEvidence
  deriving DecidableEq

def VerificationVerdict.value : VerificationVerdict → String
  | matched => "MATCHED"
  | contradicted => "CONTRADICTED"
  | insufficientEvidence => "INSUFFICIENT_EVIDENCE"

inductive SourceSystem
  | mockKyc
  | mockEmployer
  | mockBureau
  | mockCoreBanking
  deriving DecidableEq

def SourceSystem.value : SourceSystem → String
  | mockKyc => "MOCK_KYC"
  | mockEmployer => "MOCK_EMPLOYER"
  | mockBureau => "MOCK_BUREAU"
  | mockCoreBanking => "MOCK_CORE_BANKING"

structure VerificationCheck where
  sourceSystem : SourceSystem
  checkedFactType : String
  declaredValue : Option String
  externalValue : Option String
  verdict : VerificationVerdict
  confidence : ℚ
  detail : String
  confidence_mem : 0 ≤ confidence ∧ confidence ≤ 1

/-- `VerificationCheck(…)`. -/
def VerificationCheck.of (sourceSystem : SourceSystem) (checkedFactType : String)
    (declaredValue externalValue : Option String) (verdict : VerificationVerdict)
    (confidence : ℚ) (detail : String) : Except Error VerificationCheck :=
  if h : 0 ≤ confidence ∧ confidence ≤ 1 then
    .ok ⟨sourceSystem, checkedFactType, declaredValue, externalValue, verdict, confidence, detail, h⟩
  else .error (.valueError ("confidence " ++ Binary64.repr confidence ++ " must be in [0.0, 1.0]"))

/-- A value of a captured response. -/
inductive ResponseValue
  | text (s : String)
  | integer (n : ℤ)
  | double (q : ℚ)
  | flag (b : Bool)

structure ExternalResponseSnapshot where
  sourceSystem : SourceSystem
  responsePayload : List (String × ResponseValue)

def contradictionCount (checks : List VerificationCheck) : ℕ :=
  (checks.filter fun c => c.verdict = .contradicted).length

/-- **`build_verification_summary`.** -/
def buildVerificationSummary (checks : List VerificationCheck) : String :=
  if checks.isEmpty then
    "no verification checks could be run: no identity/employment facts were extracted"
  else
    let matched := (checks.filter fun c => c.verdict = .matched).length
    let contradicted := checks.filter fun c => c.verdict = .contradicted
    let insufficient := (checks.filter fun c => c.verdict = .insufficientEvidence).length
    let reasons := ", ".intercalate (contradicted.map fun c => c.sourceSystem.value ++ ": " ++ c.detail)
    let parts := [toString matched ++ " matched"] ++
      (if contradicted.isEmpty then []
        else [toString contradicted.length ++ " contradicted (" ++ reasons ++ ")"]) ++
      (if insufficient = 0 then [] else [toString insufficient ++ " insufficient evidence"])
    "verification complete: " ++ "; ".intercalate parts

end FinAssist
