/-
**The statuses of an application, and which may follow which.**

`finassist.domain.applications.status`.  The table of transitions is put together from the
forward pipeline, the stages that may escalate to a human, the outcomes of a review, and the
stages that may still be cancelled; it is built here from the same pieces in the same order, and
the lemmas below it read off from which statuses a given one can be entered.

Main definitions:

* `FinAssist.ApplicationStatus` — the fifteen statuses, with `ApplicationStatus.value`;
* `FinAssist.allowedTransitions` — **the table**;
* `FinAssist.isLegalTransition`.

Main results:

* `FinAssist.ApplicationStatus.value_inj` — a status is determined by its text;
* `FinAssist.legal_awaitingHumanReview_iff` and its siblings — where a status can be entered from;
* `FinAssist.legal_outcome` — **an outcome of a review is entered from review**, or, for the
  final ones, from an escalated case.
-/

import Mathlib.Data.List.Basic

set_option relaxedAutoImplicit false
set_option autoImplicit false

namespace FinAssist

/-- `ApplicationStatus`. -/
inductive ApplicationStatus
  | draft
  | submitted
  | intakeValidation
  | documentProcessing
  | verification
  | policyEvaluation
  | affordabilityEvaluation
  | fraudAnalysis
  | riskSynthesis
  | awaitingHumanReview
  | approved
  | declined
  | needsMoreInformation
  | escalated
  | cancelled
  deriving DecidableEq

namespace ApplicationStatus

/-- `status.value`. -/
def value : ApplicationStatus → String
  | draft => "DRAFT"
  | submitted => "SUBMITTED"
  | intakeValidation => "INTAKE_VALIDATION"
  | documentProcessing => "DOCUMENT_PROCESSING"
  | verification => "VERIFICATION"
  | policyEvaluation => "POLICY_EVALUATION"
  | affordabilityEvaluation => "AFFORDABILITY_EVALUATION"
  | fraudAnalysis => "FRAUD_ANALYSIS"
  | riskSynthesis => "RISK_SYNTHESIS"
  | awaitingHumanReview => "AWAITING_HUMAN_REVIEW"
  | approved => "APPROVED"
  | declined => "DECLINED"
  | needsMoreInformation => "NEEDS_MORE_INFORMATION"
  | escalated => "ESCALATED"
  | cancelled => "CANCELLED"

def all : List ApplicationStatus :=
  [draft, submitted, intakeValidation, documentProcessing, verification, policyEvaluation,
   affordabilityEvaluation, fraudAnalysis, riskSynthesis, awaitingHumanReview, approved, declined,
   needsMoreInformation, escalated, cancelled]

/-- `ApplicationStatus(text)`, or nothing where it raises. -/
def ofValue? (text : String) : Option ApplicationStatus := all.find? fun s => s.value == text

theorem mem_all (s : ApplicationStatus) : s ∈ all := by cases s <;> decide

theorem value_inj {s s' : ApplicationStatus} (h : s.value = s'.value) : s = s' := by
  have hall : ∀ s ∈ all, ∀ s' ∈ all, s.value = s'.value → s = s' := by decide
  exact hall s (mem_all s) s' (mem_all s') h

@[simp] theorem ofValue?_value (s : ApplicationStatus) : ofValue? s.value = some s := by
  cases s <;> decide

theorem ofValue?_eq_some {text : String} {s : ApplicationStatus} (h : ofValue? text = some s) :
    s.value = text := by
  have := List.find?_some h
  simpa using this

end ApplicationStatus

open ApplicationStatus

/-! ### The table of transitions -/

/-- `_CANCELLABLE_FROM`. -/
def cancellableFrom : List ApplicationStatus :=
  [draft, submitted, intakeValidation, documentProcessing, verification, policyEvaluation,
   affordabilityEvaluation, fraudAnalysis, riskSynthesis, awaitingHumanReview,
   needsMoreInformation, escalated]

/-- `_FORWARD_PIPELINE`. -/
def forwardPipeline : List (ApplicationStatus × ApplicationStatus) :=
  [(draft, submitted),
   (submitted, intakeValidation),
   (intakeValidation, documentProcessing),
   (documentProcessing, verification),
   (verification, policyEvaluation),
   (policyEvaluation, affordabilityEvaluation),
   (affordabilityEvaluation, fraudAnalysis),
   (fraudAnalysis, riskSynthesis),
   (riskSynthesis, awaitingHumanReview)]

/-- `_CAN_ESCALATE_TO_HUMAN_REVIEW`. -/
def canEscalateToHumanReview : List ApplicationStatus :=
  [intakeValidation, documentProcessing, verification, policyEvaluation,
   affordabilityEvaluation, fraudAnalysis, riskSynthesis]

/-- **`ALLOWED_TRANSITIONS[source]`**, as `_build_allowed_transitions` collects it. -/
def allowedTransitions (source : ApplicationStatus) : List ApplicationStatus :=
  (forwardPipeline.filter fun p => p.1 = source).map Prod.snd ++
  (if source ∈ canEscalateToHumanReview then [awaitingHumanReview] else []) ++
  (if source = awaitingHumanReview then [approved, declined, needsMoreInformation, escalated]
    else []) ++
  (if source = escalated then [approved, declined, awaitingHumanReview] else []) ++
  (if source = needsMoreInformation then [documentProcessing] else []) ++
  (if source ∈ cancellableFrom then [cancelled] else [])

/-- `is_legal_transition`. -/
def isLegalTransition (source target : ApplicationStatus) : Bool :=
  (allowedTransitions source).contains target

/-! ### Where a status can be entered from -/

@[simp] theorem legal_draft (s : ApplicationStatus) : isLegalTransition s draft = false := by
  cases s <;> decide

theorem legal_submitted_iff {s : ApplicationStatus} :
    isLegalTransition s submitted = true ↔ s = draft := by
  cases s <;> decide

theorem legal_intakeValidation_iff {s : ApplicationStatus} :
    isLegalTransition s intakeValidation = true ↔ s = submitted := by
  cases s <;> decide

theorem legal_documentProcessing_iff {s : ApplicationStatus} :
    isLegalTransition s documentProcessing = true ↔
      s = intakeValidation ∨ s = needsMoreInformation := by
  cases s <;> decide

theorem legal_verification_iff {s : ApplicationStatus} :
    isLegalTransition s verification = true ↔ s = documentProcessing := by
  cases s <;> decide

theorem legal_awaitingHumanReview_iff {s : ApplicationStatus} :
    isLegalTransition s awaitingHumanReview = true ↔
      s ∈ canEscalateToHumanReview ∨ s = escalated := by
  cases s <;> decide

/-- The outcomes a review can have: what `_ALLOWED_DECISIONS` and `_REVIEW_DECISIONS` list. -/
def reviewOutcomes : List ApplicationStatus := [approved, declined, needsMoreInformation, escalated]

/-- **An outcome is entered from review**, or, if it is final, from an escalated case. -/
theorem legal_outcome {s d : ApplicationStatus} (hd : d ∈ reviewOutcomes)
    (h : isLegalTransition s d = true) :
    s = awaitingHumanReview ∨ (s = escalated ∧ (d = approved ∨ d = declined)) := by
  cases s <;> cases d <;> revert hd h <;> decide

theorem legal_awaitingHumanReview_outcome {d : ApplicationStatus} (hd : d ∈ reviewOutcomes) :
    isLegalTransition awaitingHumanReview d = true := by
  cases d <;> revert hd <;> decide

end FinAssist
