/-
**The shape of a handler.**

Every command handler reads and writes in one transaction, commits it, and has nothing left to do
that can fail.  This module says so of each of them, from the text of the handlers alone.

Main results:

* `FinAssist.Command.commitsOnce` — **a handler is a program of one transaction**.
-/

import FinAssist.ActivitySpecs
import FinAssist.OneTransaction

set_option relaxedAutoImplicit false
set_option autoImplicit false

namespace FinAssist

open ReadCommitted ApplicationStatus

section Pieces

variable {t : TenantId} {α : Type}

/-! ### Statements -/

theorem within_pure (a : α) : (pure a : Handler α).Within := trivial

theorem within_ask (q : Ask) : (Handler.ask q).Within := ⟨trivial, fun _ => trivial⟩

theorem within_ofExcept (r : Except Error α) : (Handler.ofExcept r).Within := by
  cases r <;> trivial

theorem within_select (f : Database → α) : (select t f).Within := fun _ => trivial

/-- What is quiet and writes what it likes. -/
theorem Handler.Quiet.within {p : Handler α} (h : p.Quiet fun _ => True) : p.Within :=
  Prog.Inside.mono (fun _ _ => trivial) (fun _ _ => trivial) (fun _ h => h) h

theorem within_execute (s : Statement) : (execute t s).Within := by
  refine ⟨trivial, fun o => ?_⟩
  cases o <;> trivial

theorem within_insertAll {rows : List Row} : (insertAll t rows).Within :=
  Handler.Quiet.within (quiet_insertAll fun _ _ => trivial)

/-! ### Repositories -/

theorem within_requireReservation (key operationName : String) :
    (requireReservation t key operationName).Within := by
  refine Prog.Inside.bind (Prog.Inside.bind (within_ask _) fun at' => ⟨trivial, fun o => ?_⟩)
    fun reserved => ?_
  · cases o with
    | none => trivial
    | some f => cases f <;> trivial
  · cases reserved <;> trivial

theorem within_requireApplication (a : ApplicationId) : (requireApplication t a).Within := by
  refine Prog.Inside.bind (Prog.Inside.bind (within_select _) fun _ => within_pure _) fun row => ?_
  cases row <;> trivial

theorem within_addApplication (application : Application) :
    (addApplication t application).Within := by
  refine Prog.Inside.bind (within_ask _) fun snapshotId => ⟨trivial, fun o => ?_⟩
  cases o with
  | some f => trivial
  | none =>
      refine ⟨trivial, fun o => ?_⟩
      cases o <;> trivial

theorem within_saveApplication (cached : ApplicationRow) (application : Application) :
    (saveApplication t cached application).Within := by
  refine Prog.Inside.bind (within_select _) fun found =>
    Prog.Inside.bind (within_ask _) fun hit => ?_
  cases found.map fun row => cond hit cached row with
  | none => trivial
  | some existing =>
      dsimp only
      split
      next => trivial
      next =>
        exact Prog.Inside.bind (within_ask _) fun _ => Prog.Inside.bind (within_execute _) fun _ =>
          Prog.Inside.bind (within_execute _) fun _ => within_pure _

theorem within_transition (application : Application) (s : ApplicationStatus) (reason : String) :
    (transition application s reason).Within :=
  Prog.Inside.bind (within_ask _) fun _ => within_ofExcept _

theorem within_addApplicant (applicant : Applicant) : (addApplicant t applicant).Within :=
  Prog.Inside.bind (within_ask _) fun _ => within_execute _

theorem within_markDecided (a : ApplicationId) (decision reason : String)
    (reviewerId : Option String) (decidedAt : DateTime) :
    (markDecided t a decision reason reviewerId decidedAt).Within := by
  refine Prog.Inside.bind (within_select _) fun row => ?_
  cases row.filter fun r => r.tenantId = t with
  | none => trivial
  | some entry => exact within_execute _

theorem within_addExtractionRun (a : ApplicationId) (runId documentId : String)
    (classification : DocumentClassification) (facts : List (String × ExtractedFact))
    (completedAt : DateTime) :
    (addExtractionRun t a runId documentId classification facts completedAt).Within :=
  Prog.Inside.bind (within_execute _) fun _ => within_insertAll

theorem within_addVerificationRun (a : ApplicationId) (runId : String)
    (checks : List (String × VerificationCheck))
    (snapshots : List (String × ExternalResponseSnapshot)) (completedAt : DateTime) :
    (addVerificationRun t a runId checks snapshots completedAt).Within :=
  Prog.Inside.bind (within_execute _) fun _ => Prog.Inside.bind within_insertAll fun _ =>
    Prog.Inside.bind within_insertAll fun _ =>
      Prog.Inside.bind (Handler.Quiet.within (quiet_withIds _)) fun _ => within_insertAll

theorem within_recordEvents (events : List DomainEvent) :
    ∀ recording, (recordEvents t events recording).Within := by
  induction events with
  | nil => exact fun _ => trivial
  | cons event events ih =>
      intro recording
      refine Prog.Inside.bind ?_ ih
      refine Prog.Inside.bind (within_ask _) fun eventId =>
        Prog.Inside.bind (within_ask _) fun at' => ?_
      cases recording.checkpoint with
      | some c => trivial
      | none => exact Prog.Inside.bind (within_select _) fun _ => within_pure _

theorem within_recordDomainEvents (events : List DomainEvent) :
    (recordDomainEvents t events).Within := by
  refine Prog.Inside.bind (within_recordEvents events _) fun recording => ?_
  have hlast : (insertAll t (recording.newHashes.map .auditHash) >>= fun _ =>
      insertAll t (recording.outbox.map .outboxEvent)).Within :=
    Prog.Inside.bind within_insertAll fun _ => within_insertAll
  refine Prog.Inside.bind within_insertAll fun _ => ?_
  cases recording.checkpoint with
  | none => exact hlast
  | some c => exact Prog.Inside.bind (within_execute _) fun _ => hlast

theorem commits_recordAndCommit (application : Application) :
    (recordAndCommit t application).CommitsOnce :=
  Prog.Within.commitsOnce (within_recordDomainEvents _) fun _ => trivial

/-! ### Pieces of the handlers -/

theorem within_newApplicationId : newApplicationId.Within := by
  refine Prog.Inside.bind (within_ask _) fun id => ?_
  cases ApplicationId.of? id.value <;> trivial

theorem within_enterHumanReview (cached : ApplicationRow) (application : Application)
    (reason : String) : (enterHumanReview t cached application reason).Within :=
  Prog.Inside.bind (within_transition _ _ _) fun _ =>
    Prog.Inside.bind (within_saveApplication _ _) fun _ => Prog.Inside.bind (within_ask _) fun _ =>
      Prog.Inside.bind (within_execute _) fun _ => within_pure _

theorem within_finishIntake (row : ApplicationRow) (application : Application) (accepted : Bool) :
    (finishIntake t row application accepted).Within := by
  cases accepted with
  | true =>
      exact Prog.Inside.bind (within_transition _ _ _) fun _ =>
        Prog.Inside.bind (within_saveApplication _ _) fun _ => within_pure _
  | false => exact within_enterHumanReview _ _ _

theorem within_finishDocuments (row : ApplicationRow) (documentCount : ℕ) :
    (finishDocuments t row documentCount).Within := by
  rw [finishDocuments]
  split
  next =>
    exact Prog.Inside.bind (within_transition _ _ _) fun _ =>
      Prog.Inside.bind (within_saveApplication _ _) fun _ => within_pure _
  next => exact within_enterHumanReview _ _ _

end Pieces

/-! ### Handlers -/

/-- What the two submissions do once they have moved the application, and the start of the
workflow. -/
theorem commits_saveSubmission (command : ApplicationCommand) (row : ApplicationRow)
    (application : Application) (s : ApplicationStatus) :
    (do let application ← saveSubmission command row application
        startWorkflow command application s).CommitsOnce := by
  refine Prog.CommitsOnce.bind ?_ fun application =>
    Prog.Silent.bind (fun _ => trivial) fun _ => trivial
  exact Prog.Within.commitsOnce (within_saveApplication _ _) fun _ =>
    Prog.CommitsOnce.bind (commits_recordAndCommit _) fun _ => trivial

/-- **A handler is a program of one transaction.** -/
theorem Command.commitsOnce (c : Command) : c.handle.CommitsOnce := by
  cases c with
  | createApplication c =>
      refine Prog.Within.commitsOnce (within_requireReservation _ _) fun _ =>
        Prog.Within.commitsOnce (Handler.Quiet.within (quiet_requireProduct _ _)) fun product => ?_
      split
      next => trivial
      next =>
        exact Prog.Within.commitsOnce (Handler.Quiet.within quiet_newApplicantId) fun _ =>
          Prog.Within.commitsOnce (within_ofExcept _) fun _ =>
          Prog.Within.commitsOnce (within_addApplicant _) fun _ =>
          Prog.Within.commitsOnce within_newApplicationId fun _ =>
          Prog.Within.commitsOnce (within_ask _) fun _ =>
          Prog.Within.commitsOnce (within_ofExcept _) fun _ =>
          Prog.Within.commitsOnce (within_addApplication _) fun _ =>
          Prog.CommitsOnce.bind (commits_recordAndCommit _) fun _ => trivial
  | submitApplication c =>
      exact Prog.Within.commitsOnce (within_requireReservation _ _) fun _ =>
        Prog.Within.commitsOnce (within_requireApplication _) fun _ =>
        Prog.Within.commitsOnce (within_ask _) fun _ =>
        Prog.Within.commitsOnce (within_ofExcept _) fun _ => commits_saveSubmission _ _ _ _
  | resubmitApplication c =>
      exact Prog.Within.commitsOnce (within_requireReservation _ _) fun _ =>
        Prog.Within.commitsOnce (within_requireApplication _) fun _ =>
        Prog.Within.commitsOnce (within_transition _ _ _) fun _ => commits_saveSubmission _ _ _ _
  | uploadDocument c =>
      exact Prog.Within.commitsOnce (within_requireReservation _ _) fun _ =>
        Prog.Within.commitsOnce (within_requireApplication _) fun _ =>
        Prog.Within.commitsOnce (within_ask _) fun _ =>
        Prog.Within.commitsOnce (Handler.Quiet.within (quiet_ofPort _)) fun _ =>
        Prog.Within.commitsOnce (within_ask _) fun _ =>
        Prog.Within.commitsOnce (within_ask _) fun _ =>
        Prog.Within.commitsOnce (Handler.Quiet.within (quiet_ofPort _)) fun _ =>
        Prog.Within.commitsOnce (within_ask _) fun _ =>
        Prog.Within.commitsOnce (within_execute _) fun _ =>
        Prog.Within.commitsOnce (within_recordDomainEvents _) fun _ => trivial
  | advanceIntakeValidation c =>
      exact Prog.Within.commitsOnce (within_requireReservation _ _) fun _ =>
        Prog.Within.commitsOnce (within_requireApplication _) fun _ =>
        Prog.Within.commitsOnce (Handler.Quiet.within (quiet_requireProduct _ _)) fun _ =>
        Prog.Within.commitsOnce (within_transition _ _ _) fun _ =>
        Prog.Within.commitsOnce (within_saveApplication _ _) fun _ =>
        Prog.Within.commitsOnce (within_finishIntake _ _ _) fun _ =>
        Prog.CommitsOnce.bind (commits_recordAndCommit _) fun _ => trivial
  | advanceDocumentProcessing c =>
      exact Prog.Within.commitsOnce (within_requireReservation _ _) fun _ =>
        Prog.Within.commitsOnce (within_requireApplication _) fun _ =>
        Prog.Within.commitsOnce (within_select _) fun _ =>
        Prog.Within.commitsOnce (within_finishDocuments _ _) fun _ =>
        Prog.CommitsOnce.bind (commits_recordAndCommit _) fun _ => trivial
  | processDocument c =>
      refine Prog.Within.commitsOnce (within_requireReservation _ _) fun _ =>
        Prog.Within.commitsOnce (within_select _) fun documents => ?_
      split
      next => trivial
      next =>
        exact Prog.Within.commitsOnce (within_ask _) fun _ =>
          Prog.Within.commitsOnce (Handler.Quiet.within (quiet_ofPort _)) fun _ =>
          Prog.Within.commitsOnce (Handler.Quiet.within (quiet_extractDocument _ _ _)) fun _ =>
          Prog.Within.commitsOnce (Handler.Quiet.within (quiet_withIds _)) fun _ =>
          Prog.Within.commitsOnce (within_ask _) fun _ =>
          Prog.Within.commitsOnce (within_ask _) fun _ =>
          Prog.Within.commitsOnce (within_addExtractionRun _ _ _ _ _ _) fun _ => trivial
  | verifyApplicationFacts c =>
      exact Prog.Within.commitsOnce (within_requireReservation _ _) fun _ =>
        Prog.Within.commitsOnce (within_requireApplication _) fun _ =>
        Prog.Within.commitsOnce (Handler.Quiet.within (quiet_requireApplicant _ _ _)) fun _ =>
        Prog.Within.commitsOnce (within_select _) fun _ =>
        Prog.Within.commitsOnce (Handler.Quiet.within (quiet_checkIdentity _ _)) fun _ =>
        Prog.Within.commitsOnce (Handler.Quiet.within (quiet_declaredIncome _)) fun _ =>
        Prog.Within.commitsOnce (Handler.Quiet.within (quiet_checkEmployment _ _ _)) fun _ =>
        Prog.Within.commitsOnce (Handler.Quiet.within (quiet_captureCreditReport _ _)) fun _ =>
        Prog.Within.commitsOnce
          (Handler.Quiet.within (quiet_captureTransactionHistory _ _ _)) fun _ =>
        Prog.Within.commitsOnce (within_ask _) fun _ =>
        Prog.Within.commitsOnce (Handler.Quiet.within (quiet_withIds _)) fun _ =>
        Prog.Within.commitsOnce (Handler.Quiet.within (quiet_withIds _)) fun _ =>
        Prog.Within.commitsOnce (within_ask _) fun _ =>
        Prog.Within.commitsOnce (within_addVerificationRun _ _ _ _ _) fun _ => trivial
  | enterHumanReview c =>
      exact Prog.Within.commitsOnce (within_requireReservation _ _) fun _ =>
        Prog.Within.commitsOnce (within_requireApplication _) fun _ =>
        Prog.Within.commitsOnce (within_enterHumanReview _ _ _) fun _ =>
        Prog.CommitsOnce.bind (commits_recordAndCommit _) fun _ => trivial
  | applyReviewDecision c =>
      change Prog.CommitsOnce (FinAssist.applyReviewDecision c)
      rw [FinAssist.applyReviewDecision]
      split
      next => trivial
      next =>
        exact Prog.Within.commitsOnce (within_requireReservation _ _) fun _ =>
          Prog.Within.commitsOnce (within_requireApplication _) fun _ =>
          Prog.Within.commitsOnce (within_transition _ _ _) fun _ =>
          Prog.Within.commitsOnce (within_ask _) fun _ =>
          Prog.Within.commitsOnce (within_markDecided _ _ _ _ _) fun _ =>
          Prog.Within.commitsOnce (within_saveApplication _ _) fun _ =>
          Prog.CommitsOnce.bind (commits_recordAndCommit _) fun _ => trivial

end FinAssist
