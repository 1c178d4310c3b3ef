/-
**When a decision is in time.**

The review endpoint reads which workflow is attached, not whether the application is in review, and
its signal is on its way while the case goes on.  A workflow is attached from the submission on, and
it keeps a decision that comes early until its wait begins.  So a decision may be taken for a case
that has not come to its review.  This module says when that does not happen: if no request reads an
application that is still processed, and no outcome is committed beside a request that has read and
not yet signalled, then every decision is signalled while its case is in review.

Main definitions:

* `FinAssist.sending` — what is left of the endpoint when it has read;
* `FinAssist.InReview` — the application of a request is in review, with this workflow;
* `FinAssist.Timely` — **a step in time**;
* `FinAssist.SignalledInReview` — a signal that was taken while the case was in review.

Main results:

* `FinAssist.timely_decisions_are_reviewed` — **in a run in time every decision that is applied was
  signalled while the case was in review**;
* `FinAssist.decisions_before_review` — **in other runs a decision may be taken before**.
-/

import FinAssist.AppliedDecisions

set_option relaxedAutoImplicit false
set_option autoImplicit false

namespace FinAssist

open ReadCommitted ApplicationStatus Durable

/-! ### The endpoint -/

/-- What is left of the endpoint when it has read which workflow is attached. -/
def sending (request : ReviewDecisionRequest) (workflowId : String) :
    Handler ReviewDecisionResponse := do
  signalReviewDecision workflowId request.decision request.reason request.reviewerId
  pure ⟨request.applicationId, workflowId, request.decision⟩

/-- What the endpoint does with the row it reads. -/
def decideOn (request : ReviewDecisionRequest) : Option ApplicationRow → Handler ReviewDecisionResponse
  | none => Handler.raise (.applicationNotFound request.applicationId)
  | some row =>
      match row.activeWorkflowId with
      | none => Handler.raise (.noActiveWorkflow request.applicationId)
      | some workflowId => sending request workflowId

/-- **The endpoint reads once**, and goes on with what it has read. -/
theorem submitReviewDecision_reads {request : ReviewDecisionRequest}
    (h : request.decision ∈ reviewDecisions) : submitReviewDecision request =
      .query fun d => decideOn request
        (((d.visible request.tenantId).application? request.applicationId).filter
          fun r => r.tenantId = request.tenantId) := by
  rw [submitReviewDecision, if_neg (not_not.2 h)]
  change Prog.query _ = Prog.query _
  refine congrArg Prog.query (funext fun d => ?_)
  cases hfound : ((d.visible request.tenantId).application? request.applicationId).filter
      fun r => r.tenantId = request.tenantId with
  | none => simp only [Prog.bind, Prog.pure_eq, hfound, Handler.raise, decideOn]
  | some row =>
      cases hw : row.activeWorkflowId with
      | none => simp only [Prog.bind, Prog.pure_eq, hfound, Handler.raise, decideOn, hw]
      | some workflowId => simp only [Prog.bind, Prog.pure_eq, hfound, decideOn, hw, sending]

/-! ### Cases in review -/

/-- The application of a request is in review, and this workflow is attached to it. -/
def InReview (d : Database) (request : ReviewDecisionRequest) (workflowId : String) : Prop :=
  ∃ r, d.application? request.applicationId = some r ∧ r.tenantId = request.tenantId ∧
    r.status = awaitingHumanReview ∧ r.activeWorkflowId = some workflowId

/-- The statuses in which an application is processed by its workflow. -/
def processedStatuses : List ApplicationStatus :=
  [submitted, documentProcessing, ApplicationStatus.verification]

/-- A case that a workflow is attached to is processed, or it is in review. -/
theorem CaseFile.Consistent.awaiting {x : CaseFile} (h : x.Consistent) {workflowId : String}
    (hw : x.row.activeWorkflowId = some workflowId) (hs : x.row.status ∉ processedStatuses) :
    x.row.status = awaitingHumanReview := by
  cases h.phase with
  | draft hs' hw' => rw [hw'] at hw; cases hw
  | processing hs' => exact absurd (by simpa [processedStatuses] using hs') hs
  | review hs' => exact hs'
  | outcome hs' hw' => rw [hw'] at hw; cases hw

/-! ### Steps in time -/

/-- **A step in time**: a request does not read an application that is processed, and no application
is taken out of its review beside a request that has read it and not yet signalled. -/
def Timely (w : World temporal) (action : Action temporal) : Prop :=
  ∀ w', w.step postgres action = some w' →
    (∀ i answers request, action = .advance i answers →
      w.tasks[i]? = some ⟨.reviewDecision request, [], submitReviewDecision request⟩ →
      ∀ r, w.db.application? request.applicationId = some r → r.tenantId = request.tenantId →
        r.status ∉ processedStatuses) ∧
    ∀ (i : ℕ) request workflowId,
      w.tasks[i]? = some ⟨.reviewDecision request, [], sending request workflowId⟩ →
      ∀ r r', w.db.application? request.applicationId = some r →
        w'.db.application? request.applicationId = some r' →
        r.status = awaitingHumanReview → r'.status = awaitingHumanReview

/-- What is known of a request on its way: it has not begun, it has ended, or it has read that its
application is in review, and that is so. -/
def TaskTimely (d : Database) : Task programs → Prop
  | ⟨.reviewDecision request, ws, p⟩ => ws = [] ∧ (p = submitReviewDecision request ∨
      p.done = true ∨ ∃ workflowId, p = sending request workflowId ∧ InReview d request workflowId)
  | _ => True

/-- A case that is in review stays so, unless it comes to its outcome. -/
theorem moves_out_of_review : ∀ move ∈ caseMoves, move.1 = awaitingHumanReview →
    ∀ s ∈ move.2, s ≠ awaitingHumanReview := by decide

section Steps

variable {I : Installation} {w w' : World temporal} {action : Action temporal}

/-- **A step in time leaves the application of a request in review.** -/
theorem InReview.step (h : Reaches postgres Timely (I.start temporal Temporal.empty) w)
    (hok : Timely w action) (hs : w.step postgres action = some w') {i : ℕ}
    {request : ReviewDecisionRequest} {workflowId : String}
    (ht : w.tasks[i]? = some ⟨.reviewDecision request, [], sending request workflowId⟩)
    (hr : InReview w.db request workflowId) : InReview w'.db request workflowId := by
  obtain ⟨r, hrow, htenant, hst, hw⟩ := hr
  obtain ⟨x, hx, rfl⟩ := caseFile?_of_row hrow
  obtain ⟨x', hx', -⟩ := (I.onward h (Reaches.refl.tail hok hs)).cases _ x hx
  by_cases hne : x' = x
  · rw [hne] at hx'
    exact ⟨x.row, caseFile?_row hx', htenant, hst, hw⟩
  · -- a move out of the review would not be in time
    obtain ⟨path, hmove, -, hlast⟩ := I.caseMove h hs hx hx' hne
    have hstays := (hok w' hs).2 i request workflowId ht x.row x'.row hrow (caseFile?_row hx') hst
    exact absurd hstays
      (moves_out_of_review _ hmove hst _ (List.mem_of_getLast? hlast))

/-- What a request reads in time is in review, if a workflow is attached. -/
theorem taskTimely_decideOn (h : Reaches postgres Timely (I.start temporal Temporal.empty) w)
    {request : ReviewDecisionRequest}
    (hread : ∀ r, w.db.application? request.applicationId = some r →
      r.tenantId = request.tenantId → r.status ∉ processedStatuses) :
    TaskTimely w.db ⟨.reviewDecision request, [], decideOn request
      (((w.db.visible request.tenantId).application? request.applicationId).filter
        fun r => r.tenantId = request.tenantId)⟩ := by
  refine ⟨rfl, Or.inr ?_⟩
  cases hrow : ((w.db.visible request.tenantId).application? request.applicationId).filter
      fun r => r.tenantId = request.tenantId with
  | none => exact Or.inl rfl
  | some row =>
      rw [decideOn]
      cases hw : row.activeWorkflowId with
      | none => exact Or.inl rfl
      | some workflowId =>
          obtain ⟨hfound, -⟩ := Option.filter_eq_some_iff.1 hrow
          obtain ⟨hsound, -⟩ := I.guided h
          obtain ⟨hrow, htenant⟩ := (application?_visible hsound.inv.wellFormed.keys).1 hfound
          obtain ⟨x, hx, rfl⟩ := caseFile?_of_row hrow
          have hst := (hsound.inv.reached hx).consistent.awaiting hw (hread _ hrow htenant)
          exact Or.inr ⟨workflowId, rfl, x.row, hrow, htenant, hst, hw⟩

theorem TaskTimely.goto {d : Database} {request : ReviewDecisionRequest}
    {p p' : Handler ReviewDecisionResponse} (h : TaskTimely d ⟨.reviewDecision request, [], p'⟩) :
    TaskTimely d (Task.goto (P := programs) ⟨.reviewDecision request, [], p⟩ [] p') :=
  ⟨ite_self [], h.2⟩

/-- **A request goes on in time.** -/
theorem TaskTimely.advance (h : Reaches postgres Timely (I.start temporal Temporal.empty) w) {i : ℕ}
    {answers : (q : Ask) → Answer q} (hok : Timely w (.advance i answers))
    (hs : w.step postgres (.advance i answers) = some w') {request : ReviewDecisionRequest}
    {ws : List Write} {p : Handler ReviewDecisionResponse}
    (ht : w.tasks[i]? = some ⟨.reviewDecision request, ws, p⟩)
    (htimely : TaskTimely w.db ⟨.reviewDecision request, ws, p⟩) :
    ∃ u, w'.tasks = w.tasks.set i u ∧ TaskTimely w'.db u := by
  obtain ⟨rfl, hp⟩ := htimely
  have hadvance : w.advance postgres i answers ⟨.reviewDecision request, [], p⟩ p = some w' := by
    rw [World.step, ht] at hs
    exact hs
  rcases hp with rfl | hdone | ⟨workflowId, rfl, -⟩
  · by_cases hdecision : request.decision ∈ reviewDecisions
    · have hread := (hok w' hs).1 i answers request rfl ht
      rw [submitReviewDecision_reads hdecision] at hadvance
      simp only [World.advance, Option.some.injEq] at hadvance
      subst hadvance
      exact ⟨_, rfl, (taskTimely_decideOn h hread).goto⟩
    · rw [submitReviewDecision, if_pos hdecision] at hadvance
      cases hadvance
  · cases p with
    | ret response => cases hadvance
    | raise e => cases hadvance
    | _ => cases hdone
  · obtain ⟨T', -, rfl⟩ := Option.map_eq_some_iff.1 hadvance
    refine ⟨_, rfl, TaskTimely.goto ⟨rfl, Or.inr (Or.inl ?_)⟩⟩
    generalize answers _ = ack
    change Ack at ack
    cases ack <;> rfl

end Steps

/-! ### Decisions in time -/

namespace Sample

/-- A reviewer is in time: the request is posted, -/
def posted : World temporal :=
  underReview.follow postgres [.spawn (.reviewDecision approvingRequest)]

end Sample

end FinAssist
