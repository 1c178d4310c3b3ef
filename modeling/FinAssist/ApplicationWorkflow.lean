/-
**`ApplicationWorkflow`, and the server that runs it.**

`finassist.infrastructure.temporal.workflows` and `TemporalWorkflowRunner`.  The workflow is a
durable program over the six activities: it validates the intake, checks the documents, extracts and
verifies their facts, enters the review, waits for a decision, and has it applied.  The server keeps
the executions, one for each workflow id, and the signals; it lets attempts at the activity that is
under way start, and tells the workflow of one that has returned.

The retry policy is kept as far as it does not speak of time: an activity may be given up at any
moment, fewer than five times, and the attempt that was given up goes on.  The timer of the review
may fire at any moment of the wait.

Main definitions:

* `FinAssist.ApplicationWorkflow.run` — **the workflow**;
* `FinAssist.ApplicationWorkflow.Position` — the places it can be at;
* `FinAssist.Temporal` — the executions and the signals;
* `FinAssist.temporal` — **the server, around the programs**.

Main results:

* `FinAssist.ApplicationWorkflow.run_submitted`, `run_resubmitted` — where a workflow begins;
* `FinAssist.ApplicationWorkflow.closed` — it stays among its positions.
-/

import FinAssist.ActivitySpecs
import FinAssist.DurableFlow

set_option relaxedAutoImplicit false
set_option autoImplicit false

namespace FinAssist

open ReadCommitted ApplicationStatus Durable

/-! ### The workflow -/

/-- `ApplicationWorkflowInput`; how long the review may take is left to the timer. -/
structure ApplicationWorkflowInput where
  tenantId : TenantId
  applicationId : ApplicationId
  version : ℕ
  startingStatus : String

structure ApplicationWorkflowResult where
  finalStatus : String
  finalVersion : ℕ

structure ReviewDecisionSignal where
  decision : String
  reason : String
  reviewerId : String
  deriving DecidableEq

/-- What a workflow may do. -/
abbrev Workflow : Type → Type := Flow ActivityCall.Result ReviewDecisionSignal

/-- `workflow.execute_activity`. -/
def executeActivity (call : ActivityCall) : Workflow call.Result := .call call .ret

/-- `workflow.wait_condition` for the decision; nothing, if the timer was first. -/
def waitForDecision : Workflow (Option ReviewDecisionSignal) := .await .ret

def slaTimeoutReason : String :=
  "human review SLA timeout: no decision recorded within the review window"

/-- What is applied if nobody has decided. -/
def slaEscalation : ReviewDecisionSignal := ⟨escalated.value, slaTimeoutReason, ""⟩

namespace ApplicationWorkflow

/-- The intake, on a first submission; whether the review was entered. -/
def validateIntake (input : ApplicationWorkflowInput) : Workflow Bool :=
  if input.startingStatus = submitted.value then do
    let intakeResult ← executeActivity (.validateIntake ⟨input.tenantId, input.applicationId⟩)
    pure (intakeResult.status = awaitingHumanReview.value)
  else if input.startingStatus ≠ documentProcessing.value then
    .stuck ("ApplicationWorkflow does not support starting_status=" ++ pyRepr input.startingStatus)
  else pure false

/-- The check for documents; whether the review was entered. -/
def checkRequiredDocuments (input : ApplicationWorkflowInput) : Workflow Bool := do
  let documentResult ← executeActivity
    (.checkRequiredDocuments ⟨input.tenantId, input.applicationId⟩)
  pure (documentResult.status = awaitingHumanReview.value)

/-- The documents are read and verified, and the review is entered. -/
def verifyAndEscalate (input : ApplicationWorkflowInput) : Workflow Unit := do
  let _ ← executeActivity (.extractDocumentFacts ⟨input.tenantId, input.applicationId⟩)
  let verifyResult ← executeActivity (.verifyFacts ⟨input.tenantId, input.applicationId⟩)
  let _ ← executeActivity
    (.enterHumanReview ⟨input.tenantId, input.applicationId, verifyResult.summary⟩)
  pure ()

/-- What the last activity is given; an empty reviewer is none. -/
def decisionInput (input : ApplicationWorkflowInput) (decision : ReviewDecisionSignal) :
    ApplyReviewDecisionActivityInput where
  tenantId := input.tenantId
  applicationId := input.applicationId
  decision := decision.decision
  reason := decision.reason
  reviewerId := if decision.reviewerId = "" then none else some decision.reviewerId

/-- The decision is waited for, and applied. -/
def awaitDecision (input : ApplicationWorkflowInput) : Workflow ApplicationWorkflowResult := do
  let decision ← match ← waitForDecision with
    | some decision => pure decision
    | none => pure slaEscalation
  let finalResult ← executeActivity (.applyReviewDecision (decisionInput input decision))
  pure ⟨finalResult.status, finalResult.version⟩

/-- **`ApplicationWorkflow.run`.** -/
def run (input : ApplicationWorkflowInput) : Workflow ApplicationWorkflowResult := do
  let reachedHumanReview ← validateIntake input
  let reachedHumanReview ←
    if reachedHumanReview then pure true else checkRequiredDocuments input
  if reachedHumanReview then pure () else verifyAndEscalate input
  awaitDecision input

/-! ### Where it can be -/

variable (input : ApplicationWorkflowInput)

def applying (decision : ReviewDecisionSignal) : Workflow ApplicationWorkflowResult :=
  .call (.applyReviewDecision (decisionInput input decision)) fun r => .ret ⟨r.status, r.version⟩

def waiting : Workflow ApplicationWorkflowResult :=
  .await fun decision => applying input (decision.getD slaEscalation)

def entering (summary : String) : Workflow ApplicationWorkflowResult :=
  .call (.enterHumanReview ⟨input.tenantId, input.applicationId, summary⟩) fun _ => waiting input

def verifying : Workflow ApplicationWorkflowResult :=
  .call (.verifyFacts ⟨input.tenantId, input.applicationId⟩) fun r => entering input r.summary

def extracting : Workflow ApplicationWorkflowResult :=
  .call (.extractDocumentFacts ⟨input.tenantId, input.applicationId⟩) fun _ => verifying input

def checking : Workflow ApplicationWorkflowResult :=
  .call (.checkRequiredDocuments ⟨input.tenantId, input.applicationId⟩) fun r =>
    if r.status = awaitingHumanReview.value then waiting input else extracting input

def validating : Workflow ApplicationWorkflowResult :=
  .call (.validateIntake ⟨input.tenantId, input.applicationId⟩) fun r =>
    if r.status = awaitingHumanReview.value then waiting input else checking input

theorem awaitDecision_eq : awaitDecision input = waiting input := by
  rw [awaitDecision, waitForDecision, Flow.await_bind, waiting]
  congr 1
  funext decision
  cases decision <;> rfl

theorem verifyAndEscalate_eq :
    (verifyAndEscalate input >>= fun _ => waiting input) = extracting input := rfl

theorem checkRequiredDocuments_eq :
    (checkRequiredDocuments input >>= fun reachedHumanReview => do
      if reachedHumanReview then pure () else verifyAndEscalate input
      waiting input) = checking input := by
  rw [checkRequiredDocuments, executeActivity, checking, Flow.call_bind, Flow.call_bind]
  congr 1
  funext r
  by_cases h : r.status = awaitingHumanReview.value
  · rw [if_pos h]
    change (if decide (r.status = awaitingHumanReview.value) = true then waiting input
      else verifyAndEscalate input >>= fun _ => waiting input) = waiting input
    rw [if_pos (decide_eq_true h)]
  · rw [if_neg h]
    change (if decide (r.status = awaitingHumanReview.value) = true then waiting input
      else verifyAndEscalate input >>= fun _ => waiting input) = extracting input
    rw [if_neg (by simpa using h)]
    exact verifyAndEscalate_eq input

/-- What follows on the intake, once it is known whether the review was entered. -/
def afterIntake (reachedHumanReview : Bool) : Workflow ApplicationWorkflowResult := do
  let reachedHumanReview ←
    if reachedHumanReview then pure true else checkRequiredDocuments input
  if reachedHumanReview then pure () else verifyAndEscalate input
  waiting input

theorem run_eq : run input = validateIntake input >>= afterIntake input := by
  simp only [run, awaitDecision_eq]
  rfl

theorem afterIntake_true : afterIntake input true = waiting input := rfl

theorem afterIntake_false : afterIntake input false = checking input :=
  checkRequiredDocuments_eq input

/-- **A first submission begins with the intake.** -/
theorem run_submitted (h : input.startingStatus = submitted.value) :
    run input = validating input := by
  rw [run_eq, validateIntake, if_pos h, executeActivity, validating, Flow.call_bind, Flow.call_bind]
  congr 1
  funext r
  change afterIntake input (decide (r.status = awaitingHumanReview.value)) = _
  by_cases hr : r.status = awaitingHumanReview.value
  · rw [if_pos hr, decide_eq_true hr, afterIntake_true]
  · rw [if_neg hr, decide_eq_false hr, afterIntake_false]

/-- **A resubmission begins with the documents.** -/
theorem run_resubmitted (h : input.startingStatus = documentProcessing.value) :
    run input = checking input := by
  have hne : input.startingStatus ≠ submitted.value := by
    rw [h]
    decide
  rw [run_eq, validateIntake, if_neg hne, if_neg (not_not.2 h)]
  exact afterIntake_false input

/-- **Where a workflow can be.** -/
inductive Position : Workflow ApplicationWorkflowResult → Prop
  | validating : Position (validating input)
  | checking : Position (checking input)
  | extracting : Position (extracting input)
  | verifying : Position (verifying input)
  | entering (summary : String) : Position (entering input summary)
  | waiting : Position (waiting input)
  | applying (decision : ReviewDecisionSignal) : Position (applying input decision)
  | ended (result : ApplicationWorkflowResult) : Position (.ret result)

/-- **A workflow stays among its positions.** -/
theorem closed : Closed (Position input) := by
  constructor
  · intro c k h r
    cases h with
    | validating =>
        dsimp only
        split
        · exact .waiting
        · exact .checking
    | checking =>
        dsimp only
        split
        · exact .waiting
        · exact .extracting
    | extracting => exact .verifying
    | verifying => exact .entering _
    | entering => exact .waiting
    | applying => exact .ended _
  · intro k h o
    cases h with
    | waiting => exact .applying _

end ApplicationWorkflow

/-! ### The server -/

/-- An execution of the workflow. -/
structure WorkflowExecution where
  workflowId : String
  input : ApplicationWorkflowInput
  state : Execution ActivityCall.Result ReviewDecisionSignal ApplicationWorkflowResult

/-- A signal that was taken, with who has sent it. -/
structure SignalRecord where
  sender : Kind
  workflowId : String
  signal : ReviewDecisionSignal

/-- **What the server keeps.** -/
structure Temporal where
  executions : List WorkflowExecution
  signals : List SignalRecord

/-- `_ACTIVITY_RETRY_POLICY.maximum_attempts`. -/
def maximumAttempts : ℕ := 5

/-- `_ACTIVITY_RETRY_POLICY.non_retryable_error_types`. -/
def Error.isNonRetryable : Error → Bool
  | .applicationNotFound _ => true
  | .productNotFound _ => true
  | .invalidApplicationData _ => true
  | .illegalStateTransition _ _ => true
  | _ => false

namespace Temporal

def execution? (T : Temporal) (workflowId : String) : Option WorkflowExecution :=
  T.executions.find? fun e => e.workflowId = workflowId

/-- An event of one execution. -/
def happen (T : Temporal) (workflowId : String)
    (event : Event ActivityCall.Result ReviewDecisionSignal) : Option Temporal :=
  (T.execution? workflowId).bind fun e => (e.state.next maximumAttempts event).map fun state =>
    { T with executions := T.executions.map fun e' =>
        if e'.workflowId = workflowId then { e' with state := state } else e' }

/-- `start_workflow`, with ids that are not used again. -/
def startWorkflow (T : Temporal) (workflowId : String) (input : ApplicationWorkflowInput) :
    Temporal :=
  match T.execution? workflowId with
  | some _ => T
  | none =>
      { T with executions := T.executions ++
          [⟨workflowId, input, .start (ApplicationWorkflow.run input)⟩] }

/-- A signal is taken while the execution is open. -/
def signalWorkflow (T : Temporal) (sender : Kind) (workflowId : String)
    (signal : ReviewDecisionSignal) : Option Temporal :=
  (T.happen workflowId (.signal signal)).map fun T' =>
    { T' with signals := T'.signals ++ [⟨sender, workflowId, signal⟩] }

/-- **What the server answers.**  A request is carried out if it is acknowledged, or if it got there
and the answer was lost; it may be rejected at any time.  Anything else is not its concern. -/
def answer (T : Temporal) (sender : Kind) : (q : Ask) → Answer q → Option Temporal
  | .startApplicationWorkflow workflowId t a version startingStatus, ack =>
      match ack with
      | .acknowledged => some (T.startWorkflow workflowId ⟨t, a, version, startingStatus⟩)
      | .rejected _ => some T
      | .lost delivered =>
          if delivered then some (T.startWorkflow workflowId ⟨t, a, version, startingStatus⟩)
          else some T
  | .signalReviewDecision workflowId decision reason reviewerId, ack =>
      match ack with
      | .acknowledged => T.signalWorkflow sender workflowId ⟨decision, reason, reviewerId⟩
      | .rejected _ => some T
      | .lost delivered =>
          if delivered then T.signalWorkflow sender workflowId ⟨decision, reason, reviewerId⟩
          else some T
  | _, _ => some T

/-- Whether an attempt at an activity may start. -/
def schedules (T : Temporal) (info : ActivityInfo) (call : ActivityCall) : Bool :=
  (T.execution? info.workflowId).any fun e =>
    e.state.scheduled? = some (info.activityId, call)

end Temporal

/-- **What the server does on its own.** -/
inductive TemporalTick
  /-- A signal reaches the workflow. -/
  | deliver (workflowId : String)
  /-- The wait ends with the decision. -/
  | resume (workflowId : String)
  /-- The timer of the review fires. -/
  | timeout (workflowId : String)
  /-- The workflow is told what a task has returned. -/
  | complete (workflowId : String) (task : ℕ)
  /-- An attempt is given up, and the activity will be tried again. -/
  | retry (workflowId : String)
  /-- The last attempt is given up. -/
  | exhaust (workflowId : String)
  /-- A task has raised what is not tried again. -/
  | fail (workflowId : String) (task : ℕ)

/-- The commands behind a route of the API. -/
def Command.isRequest : Command → Bool
  | .createApplication _ => true
  | .submitApplication _ => true
  | .resubmitApplication _ => true
  | .uploadDocument _ => true
  | _ => false

/-- What the workflow is told of a task: the answer of an attempt at an activity of this
execution. -/
def activityAnswer? (e : WorkflowExecution) (t : Task programs) :
    Option (Event ActivityCall.Result ReviewDecisionSignal) :=
  match t with
  | ⟨.activity info call, _, .ret r⟩ =>
      if e.state.scheduled? = some (info.activityId, call) ∧ info.workflowId = e.workflowId then
        some (.answer call r)
      else none
  | _ => none

/-- Whether a task is an attempt at the activity under way that is not tried again. -/
def activityFailed (e : WorkflowExecution) (t : Task programs) : Bool :=
  match t with
  | ⟨.activity info call, _, .raise error⟩ =>
      e.state.scheduled? = some (info.activityId, call) && info.workflowId = e.workflowId &&
        error.isNonRetryable
  | _ => false

/-- **The server, around the programs.**  Requests may come at any time; what the workflows do comes
from the workflows alone. -/
def temporal : Host programs where
  Ext := Temporal
  Tick := TemporalTick
  spawn _ T κ :=
    match κ with
    | .command c => c.isRequest
    | .applicationStatus _ => true
    | .reviewDecision _ => true
    | .activity info call => T.schedules info call
  answer T _ κ q a := T.answer κ q a
  tick T _ tasks τ :=
    match τ with
    | .deliver workflowId => T.happen workflowId .deliver
    | .resume workflowId => T.happen workflowId .resume
    | .timeout workflowId => T.happen workflowId .timeout
    | .complete workflowId task =>
        (T.execution? workflowId).bind fun e => (tasks[task]?).bind fun t =>
          (activityAnswer? e t).bind fun event => T.happen workflowId event
    | .retry workflowId => T.happen workflowId .giveUp
    | .exhaust workflowId =>
        (T.execution? workflowId).bind fun e =>
          if e.state.attempts + 1 = maximumAttempts then T.happen workflowId .fail else none
    | .fail workflowId task =>
        (T.execution? workflowId).bind fun e => (tasks[task]?).bind fun t =>
          if activityFailed e t then T.happen workflowId .fail else none

end FinAssist
