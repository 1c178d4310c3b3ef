/-
**Everything that runs: commands, queries, the review endpoint, the activities.**

`finassist.application.queries`, the review-decision route of `api/routes/applications.py` and
`finassist.infrastructure.temporal.activities`.  An activity wraps one command handler; where the
handler reports that its key is taken, an earlier attempt has committed, and the activity reads
the current state and returns that.

Main definitions:

* `FinAssist.Command` — the ten commands, with the key each of them reserves;
* `FinAssist.submitReviewDecision` — `POST …/review-decisions`;
* `FinAssist.ActivityCall` — an activity and its input, with `ActivityCall.run`;
* `FinAssist.programs` — **the programs of this development**.
-/

import FinAssist.Commands

set_option relaxedAutoImplicit false
set_option autoImplicit false

namespace FinAssist

open ReadCommitted

/-! ### Commands -/

/-- A command of any handler. -/
inductive Command
  | createApplication (c : CreateApplicationCommand)
  | submitApplication (c : ApplicationCommand)
  | resubmitApplication (c : ApplicationCommand)
  | uploadDocument (c : UploadDocumentCommand)
  | advanceIntakeValidation (c : ApplicationCommand)
  | advanceDocumentProcessing (c : ApplicationCommand)
  | processDocument (c : ProcessDocumentCommand)
  | verifyApplicationFacts (c : ApplicationCommand)
  | enterHumanReview (c : EnterHumanReviewCommand)
  | applyReviewDecision (c : ApplyReviewDecisionCommand)

namespace Command

def tenantId : Command → TenantId
  | createApplication c => c.tenantId
  | submitApplication c => c.tenantId
  | resubmitApplication c => c.tenantId
  | uploadDocument c => c.tenantId
  | advanceIntakeValidation c => c.tenantId
  | advanceDocumentProcessing c => c.tenantId
  | processDocument c => c.tenantId
  | verifyApplicationFacts c => c.tenantId
  | enterHumanReview c => c.tenantId
  | applyReviewDecision c => c.tenantId

def idempotencyKey : Command → String
  | createApplication c => c.idempotencyKey
  | submitApplication c => c.idempotencyKey
  | resubmitApplication c => c.idempotencyKey
  | uploadDocument c => c.idempotencyKey
  | advanceIntakeValidation c => c.idempotencyKey
  | advanceDocumentProcessing c => c.idempotencyKey
  | processDocument c => c.idempotencyKey
  | verifyApplicationFacts c => c.idempotencyKey
  | enterHumanReview c => c.idempotencyKey
  | applyReviewDecision c => c.idempotencyKey

/-- `_OPERATION_NAME` of the command's module. -/
def operationName : Command → String
  | createApplication _ => createApplicationOperation
  | submitApplication _ => submitApplicationOperation
  | resubmitApplication _ => resubmitApplicationOperation
  | uploadDocument _ => uploadDocumentOperation
  | advanceIntakeValidation _ => advanceIntakeValidationOperation
  | advanceDocumentProcessing _ => advanceDocumentProcessingOperation
  | processDocument _ => processDocumentOperation
  | verifyApplicationFacts _ => verifyApplicationFactsOperation
  | enterHumanReview _ => enterHumanReviewOperation
  | applyReviewDecision _ => applyReviewDecisionOperation

/-- The key a command reserves, as the database knows it. -/
def key (c : Command) : Key := .idempotencyKey c.tenantId c.operationName c.idempotencyKey

def Result : Command → Type
  | createApplication _ => CreateApplicationResult
  | submitApplication _ => SubmitApplicationResult
  | resubmitApplication _ => SubmitApplicationResult
  | uploadDocument _ => UploadDocumentResult
  | advanceIntakeValidation _ => AdvanceIntakeValidationResult
  | advanceDocumentProcessing _ => AdvanceDocumentProcessingResult
  | processDocument _ => ProcessDocumentResult
  | verifyApplicationFacts _ => VerifyApplicationFactsResult
  | enterHumanReview _ => StatusResult
  | applyReviewDecision _ => StatusResult

/-- `handler.handle(command)`. -/
def handle : (c : Command) → Handler c.Result
  | createApplication c => FinAssist.createApplication c
  | submitApplication c => FinAssist.submitApplication c
  | resubmitApplication c => FinAssist.resubmitApplication c
  | uploadDocument c => FinAssist.uploadDocument c
  | advanceIntakeValidation c => FinAssist.advanceIntakeValidation c
  | advanceDocumentProcessing c => FinAssist.advanceDocumentProcessing c
  | processDocument c => FinAssist.processDocument c
  | verifyApplicationFacts c => FinAssist.verifyApplicationFacts c
  | enterHumanReview c => enterHumanReviewCommand c
  | applyReviewDecision c => FinAssist.applyReviewDecision c

end Command

/-! ### The status query and the review endpoint -/

structure GetApplicationStatusQuery where
  tenantId : TenantId
  applicationId : ApplicationId

structure ApplicationStatusResult where
  applicationId : ApplicationId
  status : ApplicationStatus
  version : ℕ
  activeWorkflowId : Option String

/-- `GetApplicationStatusHandler.handle`; its transaction has only read and ends without a
trace. -/
def getApplicationStatus (query : GetApplicationStatusQuery) : Handler ApplicationStatusResult := do
  let row ← requireApplication query.tenantId query.applicationId
  pure ⟨row.applicationId, row.status, row.version, row.activeWorkflowId⟩

/-- `ReviewDecisionRequest`, for an application of a tenant. -/
structure ReviewDecisionRequest where
  tenantId : TenantId
  applicationId : ApplicationId
  decision : String
  reason : String
  reviewerId : String
  reason_nonempty : reason ≠ ""
  reviewerId_nonempty : reviewerId ≠ ""

structure ReviewDecisionResponse where
  applicationId : ApplicationId
  workflowId : String
  decision : String

/-- `_REVIEW_DECISIONS`. -/
def reviewDecisions : List String := reviewOutcomes.map ApplicationStatus.value

/-- `signal_review_decision`: it raises unless Temporal has acknowledged the signal. -/
def signalReviewDecision (workflowId decision reason reviewerId : String) : Handler Unit := do
  match ← Handler.ask (.signalReviewDecision workflowId decision reason reviewerId) with
  | .acknowledged => pure ()
  | .rejected text => Handler.raise (.external text)
  | .lost _ => Handler.raise (.external "no answer from Temporal")

/-- **`submit_review_decision`.** -/
def submitReviewDecision (request : ReviewDecisionRequest) : Handler ReviewDecisionResponse :=
  if request.decision ∉ reviewDecisions then
    Handler.raise (.invalidApplicationData ("decision " ++ pyRepr request.decision ++
      " must be one of ['APPROVED', 'DECLINED', 'ESCALATED', 'NEEDS_MORE_INFORMATION']"))
  else do
    let current ← getApplicationStatus ⟨request.tenantId, request.applicationId⟩
    match current.activeWorkflowId with
    | none => Handler.raise (.noActiveWorkflow request.applicationId)
    | some workflowId => do
        signalReviewDecision workflowId request.decision request.reason request.reviewerId
        pure ⟨request.applicationId, workflowId, request.decision⟩

/-! ### Activities -/

structure ActivityContext where
  tenantId : TenantId
  applicationId : ApplicationId
  deriving DecidableEq

structure EnterHumanReviewActivityInput where
  tenantId : TenantId
  applicationId : ApplicationId
  reason : String
  deriving DecidableEq

structure ApplyReviewDecisionActivityInput where
  tenantId : TenantId
  applicationId : ApplicationId
  decision : String
  reason : String
  reviewerId : Option String
  deriving DecidableEq

structure ActivityStatusResult where
  status : String
  version : ℕ
  deriving DecidableEq

structure ExtractDocumentFactsActivityResult where
  documentCount : ℕ
  factCount : ℕ

structure VerifyFactsActivityResult where
  contradictionCount : ℕ
  summary : String

/-- `_current_status`. -/
def currentStatus (t : TenantId) (a : ApplicationId) : Handler ActivityStatusResult := do
  let result ← getApplicationStatus ⟨t, a⟩
  pure ⟨result.status.value, result.version⟩

/-- `except DuplicateRequestError`. -/
def orIfDuplicate {α : Type} (body recover : Handler α) : Handler α :=
  body.tryCatch fun
    | .duplicateRequest _ _ => some recover
    | _ => none

def validateIntakeActivity (info : ActivityInfo) (ctx : ActivityContext) :
    Handler ActivityStatusResult :=
  orIfDuplicate
    (do
      let result ← advanceIntakeValidation
        ⟨ctx.tenantId, ctx.applicationId, idempotencyKey info⟩
      pure ⟨result.status.value, result.version⟩)
    (currentStatus ctx.tenantId ctx.applicationId)

def checkRequiredDocumentsActivity (info : ActivityInfo) (ctx : ActivityContext) :
    Handler ActivityStatusResult :=
  orIfDuplicate
    (do
      let result ← advanceDocumentProcessing
        ⟨ctx.tenantId, ctx.applicationId, idempotencyKey info⟩
      pure ⟨result.status.value, result.version⟩)
    (currentStatus ctx.tenantId ctx.applicationId)

/-- The loop over the documents, with the number of facts so far. -/
def extractEach (info : ActivityInfo) (ctx : ActivityContext) :
    List UploadedDocument → ℕ → Handler ℕ
  | [], factCount => pure factCount
  | document :: documents, factCount => do
      let factCount ← orIfDuplicate
        (do
          let result ← processDocument ⟨ctx.tenantId, ctx.applicationId, document.documentId,
            documentKey info document.documentId⟩
          pure (factCount + result.factCount))
        (pure factCount)
      extractEach info ctx documents factCount

def extractDocumentFactsActivity (info : ActivityInfo) (ctx : ActivityContext) :
    Handler ExtractDocumentFactsActivityResult := do
  let documents ← listDocuments ctx.tenantId ctx.applicationId
  let factCount ← extractEach info ctx documents 0
  pure ⟨documents.length, factCount⟩

def verifyFactsActivity (info : ActivityInfo) (ctx : ActivityContext) :
    Handler VerifyFactsActivityResult :=
  orIfDuplicate
    (do
      let result ← verifyApplicationFacts ⟨ctx.tenantId, ctx.applicationId, idempotencyKey info⟩
      pure ⟨result.contradictionCount, result.summary⟩)
    (do
      let checks ← getChecks ctx.tenantId ctx.applicationId
      pure ⟨contradictionCount checks, buildVerificationSummary checks⟩)

def enterHumanReviewActivity (info : ActivityInfo) (input : EnterHumanReviewActivityInput) :
    Handler ActivityStatusResult :=
  orIfDuplicate
    (do
      let result ← enterHumanReviewCommand
        ⟨input.tenantId, input.applicationId, idempotencyKey info, input.reason⟩
      pure ⟨result.status.value, result.version⟩)
    (currentStatus input.tenantId input.applicationId)

def applyReviewDecisionActivity (info : ActivityInfo) (input : ApplyReviewDecisionActivityInput) :
    Handler ActivityStatusResult :=
  orIfDuplicate
    (do
      let decision ← Handler.ofExcept (match ApplicationStatus.ofValue? input.decision with
        | some decision => .ok decision
        | none => .error (.valueError
            (pyRepr input.decision ++ " is not a valid ApplicationStatus")))
      let result ← applyReviewDecision
        ⟨input.tenantId, input.applicationId, idempotencyKey info, decision, input.reason,
          input.reviewerId⟩
      pure ⟨result.status.value, result.version⟩)
    (currentStatus input.tenantId input.applicationId)

/-- **An activity, with its input.** -/
inductive ActivityCall
  | validateIntake (ctx : ActivityContext)
  | checkRequiredDocuments (ctx : ActivityContext)
  | extractDocumentFacts (ctx : ActivityContext)
  | verifyFacts (ctx : ActivityContext)
  | enterHumanReview (input : EnterHumanReviewActivityInput)
  | applyReviewDecision (input : ApplyReviewDecisionActivityInput)
  deriving DecidableEq

namespace ActivityCall

def Result : ActivityCall → Type
  | validateIntake _ => ActivityStatusResult
  | checkRequiredDocuments _ => ActivityStatusResult
  | extractDocumentFacts _ => ExtractDocumentFactsActivityResult
  | verifyFacts _ => VerifyFactsActivityResult
  | enterHumanReview _ => ActivityStatusResult
  | applyReviewDecision _ => ActivityStatusResult

/-- An attempt at the activity. -/
def run (info : ActivityInfo) : (call : ActivityCall) → Handler call.Result
  | validateIntake ctx => validateIntakeActivity info ctx
  | checkRequiredDocuments ctx => checkRequiredDocumentsActivity info ctx
  | extractDocumentFacts ctx => extractDocumentFactsActivity info ctx
  | verifyFacts ctx => verifyFactsActivity info ctx
  | enterHumanReview input => enterHumanReviewActivity info input
  | applyReviewDecision input => applyReviewDecisionActivity info input

end ActivityCall

/-! ### All programs -/

/-- What a task runs: a command by itself, a query, a request to the review endpoint, or an
attempt at an activity. -/
inductive Kind
  | command (c : Command)
  | applicationStatus (query : GetApplicationStatusQuery)
  | reviewDecision (request : ReviewDecisionRequest)
  | activity (info : ActivityInfo) (call : ActivityCall)

def Kind.Result : Kind → Type
  | command c => c.Result
  | applicationStatus _ => ApplicationStatusResult
  | reviewDecision _ => ReviewDecisionResponse
  | activity _ call => call.Result

def Kind.prog : (κ : Kind) → Handler κ.Result
  | .command c => c.handle
  | .applicationStatus query => getApplicationStatus query
  | .reviewDecision request => submitReviewDecision request
  | .activity info call => call.run info

/-- **The programs.** -/
def programs : Programs Database Write Fault Answer Error where
  Kind := Kind
  Result := Kind.Result
  prog := Kind.prog
  crash := .crashed

end FinAssist
