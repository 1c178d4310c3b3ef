/-
**The command handlers.**

`finassist.application.commands`, one definition for each handler, in the order of the source.
A handler is one transaction: it reserves its idempotency key, reads, decides, writes, records
the events and commits; an exception anywhere before the commit leaves the transaction to be
rolled back.  Only `submit` and `resubmit` do something after the commit, they start a workflow.

Main definitions:

* `FinAssist.createApplication`, `submitApplication`, `resubmitApplication`, `uploadDocument` —
  the handlers behind the API;
* `FinAssist.advanceIntakeValidation`, `advanceDocumentProcessing`, `processDocument`,
  `verifyApplicationFacts`, `enterHumanReviewCommand`, `applyReviewDecision` — those behind the
  workflow's activities;
* `FinAssist.enterHumanReview` — the step into review that three of them share.
-/

import FinAssist.UnitOfWork

set_option relaxedAutoImplicit false
set_option autoImplicit false

namespace FinAssist

open ReadCommitted

/-! ### Shared steps -/

/-- `_enter_human_review.enter_human_review`: the row as the session has it, and the aggregate. -/
def enterHumanReview (t : TenantId) (cached : ApplicationRow) (application : Application)
    (reason : String) : Handler Application := do
  let application ← transition application .awaitingHumanReview reason
  let _ ← saveApplication t cached application
  let enteredQueueAt ← now
  addReviewQueueEntry t
    ⟨application.applicationId, application.tenantId, enteredQueueAt, "pending", none, none, none,
      none⟩
  pure application

/-- `record_domain_events(application.pull_events())`, and the commit. -/
def recordAndCommit (t : TenantId) (application : Application) : Handler Unit := do
  recordDomainEvents t application.pullEvents.1
  Handler.commit

/-- What a handler returns of the aggregate. -/
structure StatusResult where
  applicationId : ApplicationId
  status : ApplicationStatus
  version : ℕ
  deriving DecidableEq

def statusResult (application : Application) : StatusResult :=
  ⟨application.applicationId, application.status, application.version⟩

/-! ### Create -/

structure CreateApplicationCommand where
  tenantId : TenantId
  idempotencyKey : String
  applicantGivenName : String
  applicantFamilyName : String
  applicantDateOfBirth : Date
  applicantEmail : String
  productId : ProductId
  requestedAmount : Money
  requestedTermMonths : ℤ

structure CreateApplicationResult where
  applicationId : ApplicationId
  applicantId : ApplicantId
  status : ApplicationStatus
  version : ℕ

/-- `ApplicantId(self._id_generator.new_id())`. -/
def newApplicantId : Handler ApplicantId := do
  let id ← newId
  match ApplicantId.of? id.value with
  | some a => pure a
  | none => Handler.raise (.valueError
      ("ApplicantId value " ++ pyRepr id.value ++ " is not a valid UUID"))

/-- `ApplicationId(self._id_generator.new_id())`. -/
def newApplicationId : Handler ApplicationId := do
  let id ← newId
  match ApplicationId.of? id.value with
  | some a => pure a
  | none => Handler.raise (.valueError
      ("ApplicationId value " ++ pyRepr id.value ++ " is not a valid UUID"))

def createApplicationOperation : String := "create_application"

/-- **`CreateApplicationHandler.handle`.** -/
def createApplication (command : CreateApplicationCommand) : Handler CreateApplicationResult := do
  requireReservation command.tenantId command.idempotencyKey createApplicationOperation
  let product ← requireProduct command.tenantId command.productId
  if !product.accepts command.requestedAmount command.requestedTermMonths then
    Handler.raise (.productRejectedRequest command.productId command.requestedAmount.amountText
      command.requestedTermMonths)
  else do
    let applicantId ← newApplicantId
    let applicant ← Handler.ofExcept (Applicant.of applicantId command.tenantId
      command.applicantGivenName command.applicantFamilyName command.applicantDateOfBirth
      command.applicantEmail)
    addApplicant command.tenantId applicant
    let applicationId ← newApplicationId
    let at' ← now
    let application ← Handler.ofExcept (Application.create applicationId command.tenantId
      applicant.applicantId product command.requestedAmount command.requestedTermMonths at')
    addApplication command.tenantId application
    recordAndCommit command.tenantId application
    pure ⟨application.applicationId, applicant.applicantId, application.status, application.version⟩

/-! ### Submit and resubmit -/

/-- `SubmitApplicationCommand`, and in the same shape `ResubmitApplicationCommand`. -/
structure ApplicationCommand where
  tenantId : TenantId
  applicationId : ApplicationId
  idempotencyKey : String
  deriving DecidableEq

structure SubmitApplicationResult where
  applicationId : ApplicationId
  status : ApplicationStatus
  version : ℕ
  workflowId : Option String

/-- The workflow is started after the commit; a failure is logged and nothing else. -/
def startWorkflow (command : ApplicationCommand) (application : Application)
    (startingStatus : ApplicationStatus) : Handler SubmitApplicationResult := do
  let workflowId :=
    applicationWorkflowId command.tenantId command.applicationId application.version
  let _ ← Handler.ask (.startApplicationWorkflow workflowId command.tenantId command.applicationId
    application.version startingStatus.value)
  pure ⟨application.applicationId, application.status, application.version, some workflowId⟩

/-- What the two handlers do once they have moved the application: attach the workflow that is
about to be started, save, record and commit. -/
def saveSubmission (command : ApplicationCommand) (row : ApplicationRow)
    (application : Application) : Handler Application := do
  let application := application.attachWorkflow
    (applicationWorkflowId command.tenantId command.applicationId application.version)
  let _ ← saveApplication command.tenantId row application
  recordAndCommit command.tenantId application
  pure application

def submitApplicationOperation : String := "submit_application"

/-- **`SubmitApplicationHandler.handle`.** -/
def submitApplication (command : ApplicationCommand) : Handler SubmitApplicationResult := do
  requireReservation command.tenantId command.idempotencyKey submitApplicationOperation
  let row ← requireApplication command.tenantId command.applicationId
  let at' ← now
  let application ← Handler.ofExcept ((rowToApplication row).submit at')
  let application ← saveSubmission command row application
  startWorkflow command application .submitted

def resubmitApplicationOperation : String := "resubmit_application"

/-- **`ResubmitApplicationHandler.handle`.** -/
def resubmitApplication (command : ApplicationCommand) : Handler SubmitApplicationResult := do
  requireReservation command.tenantId command.idempotencyKey resubmitApplicationOperation
  let row ← requireApplication command.tenantId command.applicationId
  let application ← transition (rowToApplication row) .documentProcessing
    "applicant resubmitted with additional information"
  let application ← saveSubmission command row application
  startWorkflow command application .documentProcessing

/-! ### Upload -/

structure UploadDocumentCommand where
  tenantId : TenantId
  applicationId : ApplicationId
  idempotencyKey : String
  documentType : String
  filename : String
  contentType : String
  data : List UInt8

structure UploadDocumentResult where
  documentId : String
  applicationId : ApplicationId
  objectKey : String
  checksumSha256 : String

def uploadDocumentOperation : String := "upload_document"

def objectKeyOf (a : ApplicationId) (documentId filename : String) : String :=
  "applications/" ++ a.value ++ "/" ++ documentId ++ "/" ++ filename

/-- **`UploadDocumentHandler.handle`.** -/
def uploadDocument (command : UploadDocumentCommand) : Handler UploadDocumentResult := do
  requireReservation command.tenantId command.idempotencyKey uploadDocumentOperation
  let _ ← requireApplication command.tenantId command.applicationId
  let scanned ← Handler.ask (.scan command.data command.filename command.contentType)
  let safetyReport ← Handler.ofPort scanned
  let documentId ← newId
  let objectKey := objectKeyOf command.applicationId documentId.value command.filename
  let stored ← Handler.ask (.putObject command.tenantId objectKey command.data
    safetyReport.detectedContentType)
  let metadata ← Handler.ofPort stored
  let at' ← now
  addDocument command.tenantId
    ⟨documentId.value, command.tenantId, command.applicationId, command.documentType, objectKey,
      metadata.checksumSha256, metadata.sizeBytes, at'⟩
  recordDomainEvents command.tenantId
    [.documentUploaded command.applicationId command.tenantId at' documentId.value
      command.documentType objectKey]
  Handler.commit
  pure ⟨documentId.value, command.applicationId, objectKey, metadata.checksumSha256⟩

/-! ### Intake validation -/

structure AdvanceIntakeValidationResult where
  applicationId : ApplicationId
  status : ApplicationStatus
  version : ℕ
  accepted : Bool

def advanceIntakeValidationOperation : String := "advance_intake_validation"

def intakeFlaggedReason (application : Application) : String :=
  "intake validation flagged: product " ++ application.productId.value ++
    " catalog bounds do not cover amount=" ++ application.requestedAmount.amountText ++
    " term_months=" ++ toString application.requestedTermMonths ++ " -- requires human review"

/-- The second hop of the intake: on to the documents, or to a human. -/
def finishIntake (t : TenantId) (row : ApplicationRow) (application : Application)
    (accepted : Bool) : Handler Application :=
  if accepted then do
    let application ← transition application .documentProcessing
      "intake validation passed: within product catalog bounds"
    let _ ← saveApplication t row application
    pure application
  else enterHumanReview t row application (intakeFlaggedReason application)

/-- **`AdvanceIntakeValidationHandler.handle`.** -/
def advanceIntakeValidation (command : ApplicationCommand) :
    Handler AdvanceIntakeValidationResult := do
  requireReservation command.tenantId command.idempotencyKey advanceIntakeValidationOperation
  let row ← requireApplication command.tenantId command.applicationId
  let product ← requireProduct command.tenantId row.productId
  let application ← transition (rowToApplication row) .intakeValidation
    "entering automated intake validation"
  let row ← saveApplication command.tenantId row application
  let accepted := product.accepts application.requestedAmount application.requestedTermMonths
  let application ← finishIntake command.tenantId row application accepted
  recordAndCommit command.tenantId application
  pure ⟨application.applicationId, application.status, application.version, accepted⟩

/-! ### Document processing -/

structure AdvanceDocumentProcessingResult where
  applicationId : ApplicationId
  status : ApplicationStatus
  version : ℕ
  documentCount : ℕ

def advanceDocumentProcessingOperation : String := "advance_document_processing"

/-- On to verification, or to a human when nothing was uploaded. -/
def finishDocuments (t : TenantId) (row : ApplicationRow) (documentCount : ℕ) :
    Handler Application :=
  if documentCount ≥ 1 then do
    let application ← transition (rowToApplication row) .verification
      (toString documentCount ++ " document(s) present")
    let _ ← saveApplication t row application
    pure application
  else enterHumanReview t row (rowToApplication row)
    "no documents uploaded -- requires human review"

/-- **`AdvanceDocumentProcessingHandler.handle`.** -/
def advanceDocumentProcessing (command : ApplicationCommand) :
    Handler AdvanceDocumentProcessingResult := do
  requireReservation command.tenantId command.idempotencyKey advanceDocumentProcessingOperation
  let row ← requireApplication command.tenantId command.applicationId
  let documentCount ← countDocuments command.tenantId command.applicationId
  let application ← finishDocuments command.tenantId row documentCount
  recordAndCommit command.tenantId application
  pure ⟨application.applicationId, application.status, application.version, documentCount⟩

/-! ### Document extraction -/

structure ProcessDocumentCommand where
  tenantId : TenantId
  applicationId : ApplicationId
  documentId : String
  idempotencyKey : String

structure ProcessDocumentResult where
  documentId : String
  classification : DocumentClassification
  factCount : ℕ
  extractionError : Option String

def processDocumentOperation : String := "process_document"

/-- What is known of a document when the extraction is through. -/
structure Extraction where
  classification : DocumentClassification
  facts : List ExtractedFact
  error : Option String

/-- The `except` clause: two kinds of errors are reported, any other is raised. -/
def extractionFailed (classification : DocumentClassification) : Error → Handler Extraction
  | .unsupportedDocumentType contentType =>
      pure ⟨classification, [],
        some ("no document parser registered for content type " ++ pyRepr contentType)⟩
  | .extractionFailed documentId reason =>
      pure ⟨classification, [],
        some ("extraction failed for document " ++ documentId ++ ": " ++ reason)⟩
  | e => Handler.raise e

/-- The `try` block. -/
def extractDocument (t : TenantId) (document : UploadedDocument) (contentType : String) :
    Handler Extraction := do
  match ← Handler.ask (.getObject t document.objectKey) with
  | .error e => extractionFailed .unknown e.val
  | .ok data =>
    match ← Handler.ask (.extractText data contentType) with
    | .error e => extractionFailed .unknown e.val
    | .ok pages =>
      match ← Handler.ask (.classify pages) with
      | .error e => extractionFailed .unknown e.val
      | .ok classification =>
        match ← Handler.ask (.extractFacts pages classification document.checksumSha256) with
        | .error e => extractionFailed classification e.val
        | .ok facts => pure ⟨classification, facts, none⟩

/-- **`ProcessDocumentHandler.handle`.** -/
def processDocument (command : ProcessDocumentCommand) : Handler ProcessDocumentResult := do
  requireReservation command.tenantId command.idempotencyKey processDocumentOperation
  let documents ← listDocuments command.tenantId command.applicationId
  match documents.find? fun document => document.documentId = command.documentId with
  | none => Handler.raise (.documentNotFound command.documentId)
  | some document => do
      let described ← Handler.ask (.getObjectMetadata command.tenantId document.objectKey)
      let metadata ← Handler.ofPort described
      let extraction ← extractDocument command.tenantId document metadata.contentType
      let facts ← withIds extraction.facts
      let runId ← newId
      let completedAt ← now
      addExtractionRun command.tenantId command.applicationId runId.value command.documentId
        extraction.classification facts completedAt
      Handler.commit
      pure ⟨command.documentId, extraction.classification, extraction.facts.length,
        extraction.error⟩

/-! ### Verification -/

structure VerifyApplicationFactsResult where
  checks : List VerificationCheck
  contradictionCount : ℕ
  summary : String

def verifyApplicationFactsOperation : String := "verify_application_facts"

/-- `_MATCH_SCORE_THRESHOLD` and `_INCOME_DEVIATION_THRESHOLD`, the doubles 0.8 and 0.2. -/
def matchScoreThreshold : ℚ := (Binary64.round (8 / 10)).getD 0
def incomeDeviationThreshold : ℚ := (Binary64.round (2 / 10)).getD 0

/-- The facts the checks are made from: of several of one type the last. -/
def factOfType (facts : List ExtractedFact) (factType : FactType) : Option ExtractedFact :=
  facts.reverse.find? fun f => f.factType = factType

/-- `round(float(text) * 12)`. -/
def annualIncome (text : String) : Except Error ℤ :=
  match Binary64.parse text with
  | none => .error (.valueError ("could not convert string to float: " ++ pyRepr text))
  | some .nan => .error (.valueError "cannot convert float NaN to integer")
  | some .infinite => .error (.overflowError "cannot convert float infinity to integer")
  | some (.finite q) =>
      match Binary64.round (q * 12) with
      | none => .error (.overflowError "cannot convert float infinity to integer")
      | some q => .ok (Binary64.roundHalfEven q)

/-- A check together with the response it was made from. -/
abbrev Checked := VerificationCheck × List ExternalResponseSnapshot

/-- The identity check. -/
def checkIdentity (applicant : Applicant) (facts : List ExtractedFact) : Handler Checked := do
  match factOfType facts .syntheticId, factOfType facts .streetAddress, factOfType facts .city with
  | some syntheticId, some street, some city =>
      let answered ← Handler.ask (.verifyIdentity applicant.givenName applicant.familyName
        applicant.dateOfBirth syntheticId.normalizedValue street.normalizedValue
        city.normalizedValue)
      let result ← Handler.ofPort answered
      let matched := result.status = "PASS" ∧ result.dateOfBirthMatch ∧
        matchScoreThreshold ≤ result.nameMatchScore ∧
        matchScoreThreshold ≤ result.addressMatchScore
      let check ← Handler.ofExcept (VerificationCheck.of .mockKyc FactType.syntheticId.value
        (some (applicant.givenName ++ " " ++ applicant.familyName))
        (some ("status=" ++ result.status ++ " name_score=" ++
          Binary64.fixed2 result.nameMatchScore ++ " address_score=" ++
          Binary64.fixed2 result.addressMatchScore))
        (if matched then .matched else .contradicted)
        (min result.nameMatchScore result.addressMatchScore)
        ("KYC reference " ++ result.referenceId))
      pure (check, [⟨.mockKyc,
        [("status", .text result.status), ("name_match_score", .double result.nameMatchScore),
         ("address_match_score", .double result.addressMatchScore),
         ("date_of_birth_match", .flag result.dateOfBirthMatch),
         ("reference_id", .text result.referenceId)]⟩])
  | _, _, _ =>
      let check ← Handler.ofExcept (VerificationCheck.of .mockKyc FactType.syntheticId.value none
        none .insufficientEvidence 0
        "identity document facts (synthetic ID / address) were not extracted")
      pure (check, [])

def pyBool (b : Bool) : String := if b then "True" else "False"

/-- The employment check; `income` is the declared annual income, if it is known and not zero. -/
def checkEmployment (applicant : Applicant) (facts : List ExtractedFact) (income : Option ℤ) :
    Handler Checked := do
  match factOfType facts .syntheticId, factOfType facts .employerName, income with
  | some syntheticId, some employerName, some income =>
      let answered ← Handler.ask (.verifyEmployment applicant.givenName applicant.familyName
        syntheticId.normalizedValue employerName.normalizedValue income)
      let result ← Handler.ofPort answered
      let deviation ← Handler.ofExcept
        (match Binary64.round (|(result.verifiedAnnualIncome : ℚ) - income| / income) with
        | some q => .ok q
        | none => .error (.overflowError "integer division result too large for a float"))
      let matched := result.isEmploymentConfirmed ∧ deviation ≤ incomeDeviationThreshold
      let check ← Handler.ofExcept (VerificationCheck.of .mockEmployer FactType.employerName.value
        (some (employerName.value ++ ", $" ++ toString income ++ "/yr"))
        (some ("confirmed=" ++ pyBool result.isEmploymentConfirmed ++ " verified_income=$" ++
          toString result.verifiedAnnualIncome))
        (if matched then .matched else .contradicted)
        (max 0 ((Binary64.round (1 - min deviation 1)).getD 0))
        ("tenure " ++ toString result.tenureMonths ++ " months"))
      pure (check, [⟨.mockEmployer,
        [("is_employment_confirmed", .flag result.isEmploymentConfirmed),
         ("verified_annual_income", .integer result.verifiedAnnualIncome),
         ("tenure_months", .integer result.tenureMonths)]⟩])
  | _, _, _ =>
      let check ← Handler.ofExcept (VerificationCheck.of .mockEmployer FactType.employerName.value
        none none .insufficientEvidence 0
        "pay-stub facts (employer / income) were not extracted")
      pure (check, [])

/-- The credit report, if there is an id to ask for it with. -/
def captureCreditReport (applicant : Applicant) (facts : List ExtractedFact) :
    Handler (List ExternalResponseSnapshot) := do
  match factOfType facts .syntheticId with
  | none => pure []
  | some syntheticId =>
      let answered ← Handler.ask (.getCreditReport applicant.givenName applicant.familyName
        applicant.dateOfBirth syntheticId.normalizedValue)
      let report ← Handler.ofPort answered
      pure [⟨.mockBureau,
        [("credit_score", .integer report.creditScore),
         ("hard_inquiries_last_12_months", .integer report.hardInquiriesLast12Months),
         ("is_duplicate_identity_flag", .flag report.isDuplicateIdentityFlag),
         ("tradeline_count", .integer report.tradelineCount)]⟩]

/-- The transaction history, if there is an id and an income to ask for it with. -/
def captureTransactionHistory (applicant : Applicant) (facts : List ExtractedFact)
    (income : Option ℤ) : Handler (List ExternalResponseSnapshot) := do
  match factOfType facts .syntheticId, income with
  | some syntheticId, some income =>
      let answered ← Handler.ask (.getTransactionHistory applicant.givenName applicant.familyName
        syntheticId.normalizedValue income)
      let history ← Handler.ofPort answered
      pure [⟨.mockCoreBanking,
        [("average_daily_balance_cents", .integer history.averageDailyBalanceCents),
         ("nsf_count_last_90_days", .integer history.nsfCountLast90Days)]⟩]
  | _, _ => pure []

/-- The declared annual income; a zero counts as none where it is used. -/
def declaredIncome (facts : List ExtractedFact) : Handler (Option ℤ) := do
  match factOfType facts .grossMonthlyIncome with
  | none => pure none
  | some fact =>
      let income ← Handler.ofExcept (annualIncome fact.normalizedValue)
      pure (if income = 0 then none else some income)

/-- The applicant whose facts are verified; the handler reports a missing one as a missing
application. -/
def requireApplicant (t : TenantId) (a : ApplicationId) (applicantId : ApplicantId) :
    Handler Applicant := do
  match ← getApplicant t applicantId with
  | some applicant => pure applicant
  | none => Handler.raise (.applicationNotFound a)

/-- **`VerifyApplicationFactsHandler.handle`.** -/
def verifyApplicationFacts (command : ApplicationCommand) :
    Handler VerifyApplicationFactsResult := do
  requireReservation command.tenantId command.idempotencyKey verifyApplicationFactsOperation
  let row ← requireApplication command.tenantId command.applicationId
  let applicant ← requireApplicant command.tenantId command.applicationId row.applicantId
  let facts ← getFacts command.tenantId command.applicationId
  let identity ← checkIdentity applicant facts
  let income ← declaredIncome facts
  let employment ← checkEmployment applicant facts income
  let creditReport ← captureCreditReport applicant facts
  let history ← captureTransactionHistory applicant facts income
  let checks := [identity.1, employment.1]
  let snapshots := identity.2 ++ employment.2 ++ creditReport ++ history
  let runId ← newId
  let identified ← withIds checks
  let captured ← withIds snapshots
  let completedAt ← now
  addVerificationRun command.tenantId command.applicationId runId.value identified captured
    completedAt
  Handler.commit
  pure ⟨checks, contradictionCount checks, buildVerificationSummary checks⟩

/-! ### Human review -/

structure EnterHumanReviewCommand where
  tenantId : TenantId
  applicationId : ApplicationId
  idempotencyKey : String
  reason : String

def enterHumanReviewOperation : String := "enter_human_review"

/-- **`EnterHumanReviewHandler.handle`.** -/
def enterHumanReviewCommand (command : EnterHumanReviewCommand) : Handler StatusResult := do
  requireReservation command.tenantId command.idempotencyKey enterHumanReviewOperation
  let row ← requireApplication command.tenantId command.applicationId
  let application ← enterHumanReview command.tenantId row (rowToApplication row) command.reason
  recordAndCommit command.tenantId application
  pure (statusResult application)

structure ApplyReviewDecisionCommand where
  tenantId : TenantId
  applicationId : ApplicationId
  idempotencyKey : String
  decision : ApplicationStatus
  reason : String
  reviewerId : Option String

def applyReviewDecisionOperation : String := "apply_review_decision"

/-- **`ApplyReviewDecisionHandler.handle`.** -/
def applyReviewDecision (command : ApplyReviewDecisionCommand) : Handler StatusResult :=
  if command.decision ∉ reviewOutcomes then
    Handler.raise (.invalidApplicationData
      ("decision " ++ pyRepr command.decision.value ++ " is not a valid human-review outcome"))
  else do
    requireReservation command.tenantId command.idempotencyKey applyReviewDecisionOperation
    let row ← requireApplication command.tenantId command.applicationId
    let application ← transition (rowToApplication row) command.decision command.reason
    let application := application.detachWorkflow
    let decidedAt ← now
    markDecided command.tenantId command.applicationId command.decision.value command.reason
      command.reviewerId decidedAt
    let _ ← saveApplication command.tenantId row application
    recordAndCommit command.tenantId application
    pure (statusResult application)

end FinAssist
