/-
**The life of one application.**

What the system is for, said of one application and without transactions: its row, the statuses
it has gone through, and its entry in the review queue, moved forward by seven kinds of steps.
An application is created as a draft, submitted, passes the intake, the check for documents and
the verification, waits for a human, and gets an outcome; asked for more information it may be
resubmitted.  The handlers of `FinAssist/Commands.lean` are shown elsewhere to make just these
steps, whatever runs beside them.

A step checks what the code checks and no more.  What the statuses can be, which workflow is
attached and what the review queue says about it are consequences, proved here by induction.

Main definitions:

* `FinAssist.CaseFile` — an application's row, history and review-queue entry;
* `FinAssist.CaseFile.Step`, `FinAssist.CaseFile.Reached` — **the steps, and what they lead to**;
* `FinAssist.lastSubmission` — the version of the latest submission or resubmission;
* `FinAssist.Narrates` — the events that tell a history.

Main results:

* `FinAssist.CaseFile.Reached.consistent` — **the invariant of a case**;
* `FinAssist.CaseFile.Steps.eq_of_same_stage` — while one workflow is attached no status comes
  back;
* `FinAssist.CaseFile.Step.outcome` — how an outcome is entered.
-/

import FinAssist.UnitOfWork
import Mathlib.Data.List.Chain
import Mathlib.Logic.Relation

set_option relaxedAutoImplicit false
set_option autoImplicit false

namespace FinAssist

open ApplicationStatus

/-! ### The latest submission -/

/-- Whether a version is a submission or a resubmission, from its status and the one before. -/
def isSubmission (previous : Option ApplicationStatus) (s : ApplicationStatus) : Bool :=
  s = submitted || (s = documentProcessing && previous = some needsMoreInformation)

/-- Scans the rest of a history; the next version is `version`. -/
def lastSubmissionFrom : Option ApplicationStatus → ℕ → ℕ → List ApplicationStatus → ℕ
  | _, _, latest, [] => latest
  | previous, version, latest, s :: rest =>
      lastSubmissionFrom (some s) (version + 1)
        (if isSubmission previous s then version else latest) rest

/-- **The version of the latest submission or resubmission**; zero if there is none. -/
def lastSubmission (history : List ApplicationStatus) : ℕ := lastSubmissionFrom none 1 0 history

theorem lastSubmissionFrom_snoc (s : ApplicationStatus) (h : List ApplicationStatus) :
    ∀ (previous : Option ApplicationStatus) (version latest : ℕ),
      lastSubmissionFrom previous version latest (h ++ [s]) =
        if isSubmission (h.getLast?.or previous) s then version + h.length
        else lastSubmissionFrom previous version latest h := by
  induction h with
  | nil => intro previous version latest; simp [lastSubmissionFrom]
  | cons x h ih =>
      intro previous version latest
      rw [List.cons_append, lastSubmissionFrom, ih, lastSubmissionFrom]
      have hlast : (x :: h).getLast?.or previous = h.getLast?.or (some x) := by
        cases h with
        | nil => simp
        | cons y h => rw [List.getLast?_cons_cons]; cases hl : (y :: h).getLast? <;> simp_all
      rw [hlast, List.length_cons]
      congr 1
      omega

theorem lastSubmission_snoc (h : List ApplicationStatus) (s : ApplicationStatus) :
    lastSubmission (h ++ [s]) =
      if isSubmission h.getLast? s then h.length + 1 else lastSubmission h := by
  rw [lastSubmission, lastSubmissionFrom_snoc, Nat.add_comm, lastSubmission]
  simp

theorem lastSubmission_le (h : List ApplicationStatus) : lastSubmission h ≤ h.length := by
  induction h using List.reverseRecOn with
  | nil => exact Nat.le_refl 0
  | append_singleton h s ih =>
      rw [lastSubmission_snoc, List.length_append, List.length_singleton]
      split <;> omega

/-! ### Cases and their steps -/

/-- **What is kept of one application.** -/
structure CaseFile where
  row : ApplicationRow
  history : List ApplicationStatus
  review : Option ReviewQueueEntryRow

namespace CaseFile

/-- The case after it has gone through `path`. -/
def move (c : CaseFile) (path : List ApplicationStatus) (at' : DateTime)
    (workflowId : Option String) (review : Option ReviewQueueEntryRow) : CaseFile where
  row := { c.row with
    status := path.getLastD c.row.status
    version := c.row.version + path.length
    updatedAt := at'
    activeWorkflowId := workflowId }
  history := c.history ++ path
  review := review

/-- The id of a workflow started for the next version. -/
def nextWorkflowId (c : CaseFile) : String :=
  applicationWorkflowId c.row.tenantId c.row.applicationId (c.row.version + 1)

/-- The entry with which the case enters the review queue. -/
def pendingEntry (c : CaseFile) (enteredQueueAt : DateTime) : ReviewQueueEntryRow :=
  ⟨c.row.applicationId, c.row.tenantId, enteredQueueAt, "pending", none, none, none, none⟩

/-- **A step of a case.** -/
inductive Step (c : CaseFile) : CaseFile → Prop
  | submit (at' : DateTime) (h : isLegalTransition c.row.status submitted = true) :
      Step c (c.move [submitted] at' (some c.nextWorkflowId) c.review)
  | resubmit (at' : DateTime) (h : isLegalTransition c.row.status documentProcessing = true) :
      Step c (c.move [documentProcessing] at' (some c.nextWorkflowId) c.review)
  | acceptIntake (at' : DateTime) (h : isLegalTransition c.row.status intakeValidation = true) :
      Step c (c.move [intakeValidation, documentProcessing] at' c.row.activeWorkflowId c.review)
  | flagIntake (at' enteredQueueAt : DateTime)
      (h : isLegalTransition c.row.status intakeValidation = true) (hr : c.review = none) :
      Step c (c.move [intakeValidation, awaitingHumanReview] at' c.row.activeWorkflowId
        (some (c.pendingEntry enteredQueueAt)))
  | startVerification (at' : DateTime)
      (h : isLegalTransition c.row.status verification = true) :
      Step c (c.move [verification] at' c.row.activeWorkflowId c.review)
  | enterReview (at' enteredQueueAt : DateTime)
      (h : isLegalTransition c.row.status awaitingHumanReview = true) (hr : c.review = none) :
      Step c (c.move [awaitingHumanReview] at' c.row.activeWorkflowId
        (some (c.pendingEntry enteredQueueAt)))
  | decide (decision : ApplicationStatus) (reason : String) (reviewerId : Option String)
      (at' decidedAt : DateTime) (entry : ReviewQueueEntryRow) (hd : decision ∈ reviewOutcomes)
      (h : isLegalTransition c.row.status decision = true) (hr : c.review = some entry) :
      Step c (c.move [decision] at' none
        (some (decidedColumns entry decision.value reason reviewerId decidedAt)))

/-- Any number of steps. -/
abbrev Steps : CaseFile → CaseFile → Prop := Relation.ReflTransGen Step

/-- **The cases that creation and steps lead to.** -/
inductive Reached : CaseFile → Prop
  | created (row : ApplicationRow) (hs : row.status = draft) (hv : row.version = 1)
      (hw : row.activeWorkflowId = none) : Reached ⟨row, [draft], none⟩
  | step {c c' : CaseFile} (h : Reached c) (hs : Step c c') : Reached c'

theorem Reached.steps {c c' : CaseFile} (h : Reached c) (hs : Steps c c') : Reached c' := by
  induction hs with
  | refl => exact h
  | tail _ hs ih => exact ih.step hs

/-! ### The invariant -/

/-- The id of the workflow of the latest submission. -/
def currentWorkflowId (c : CaseFile) : String :=
  applicationWorkflowId c.row.tenantId c.row.applicationId (lastSubmission c.history)

/-- **Where a case is**: what its status, its workflow and its entry in the queue say together. -/
inductive Phase (c : CaseFile) : Prop
  | draft (hs : c.row.status = draft) (hw : c.row.activeWorkflowId = none) (hr : c.review = none)
  | processing
      (hs : c.row.status = submitted ∨ c.row.status = documentProcessing ∨
        c.row.status = verification)
      (hw : c.row.activeWorkflowId = some c.currentWorkflowId)
      (hr : ∀ e, c.review = some e → e.status = "decided")
  | review (hs : c.row.status = awaitingHumanReview)
      (hw : c.row.activeWorkflowId = some c.currentWorkflowId) (e : ReviewQueueEntryRow)
      (hr : c.review = some e) (he : e.status = "pending")
  | outcome (hs : c.row.status ∈ reviewOutcomes) (hw : c.row.activeWorkflowId = none)
      (e : ReviewQueueEntryRow) (hr : c.review = some e) (he : e.status = "decided")
      (hd : e.decision = some c.row.status.value)

/-- **The invariant of a case.** -/
structure Consistent (c : CaseFile) : Prop where
  version : c.row.version = c.history.length
  head : c.history.head? = some draft
  last : c.history.getLast? = some c.row.status
  legal : c.history.IsChain fun s s' => isLegalTransition s s' = true
  reviewed : c.review = none ↔ awaitingHumanReview ∉ c.history
  phase : c.Phase

theorem Consistent.history_ne_nil {c : CaseFile} (h : c.Consistent) : c.history ≠ [] := by
  intro hnil
  simpa [hnil] using h.last

theorem Consistent.version_pos {c : CaseFile} (h : c.Consistent) : 1 ≤ c.row.version := by
  rw [h.version]
  exact List.length_pos_iff.2 h.history_ne_nil

/-- A step along a legal path keeps what the invariant says of the history. -/
theorem Consistent.move {c : CaseFile} (h : c.Consistent) {path : List ApplicationStatus}
    {at' : DateTime} {workflowId : Option String} {review : Option ReviewQueueEntryRow}
    (hpath : (c.row.status :: path).IsChain fun s s' => isLegalTransition s s' = true)
    (hreviewed : review = none ↔ awaitingHumanReview ∉ c.history ∧ awaitingHumanReview ∉ path)
    (hphase : (c.move path at' workflowId review).Phase) :
    (c.move path at' workflowId review).Consistent := by
  refine ⟨?_, ?_, ?_, ?_, ?_, hphase⟩
  · simp [CaseFile.move, h.version]
  · rw [CaseFile.move, List.head?_append, h.head]
    rfl
  · rw [CaseFile.move, List.getLast?_append, h.last, List.getLastD_eq_getLast?]
    cases path.getLast? <;> rfl
  · refine h.legal.append hpath.tail ?_
    intro x hx y hy
    rw [h.last] at hx
    cases hx
    cases path with
    | nil => cases hy
    | cons z path => cases hy; exact hpath.rel
  · simpa [CaseFile.move, List.mem_append, not_or] using hreviewed

/-- The workflow of the latest submission stays the same along a path that submits nothing. -/
theorem currentWorkflowId_move {c : CaseFile} {path : List ApplicationStatus} {at' : DateTime}
    {workflowId : Option String} {review : Option ReviewQueueEntryRow}
    (h : lastSubmission (c.history ++ path) = lastSubmission c.history) :
    (c.move path at' workflowId review).currentWorkflowId = c.currentWorkflowId := by
  simp only [currentWorkflowId, CaseFile.move, h]

/-- The workflow of a submission is the one for the next version. -/
theorem currentWorkflowId_submission {c : CaseFile} (hc : c.Consistent) {s : ApplicationStatus}
    {at' : DateTime} {workflowId : Option String} {review : Option ReviewQueueEntryRow}
    (h : isSubmission (some c.row.status) s = true) :
    (c.move [s] at' workflowId review).currentWorkflowId = c.nextWorkflowId := by
  simp only [currentWorkflowId, CaseFile.move, nextWorkflowId]
  rw [lastSubmission_snoc, hc.last, if_pos h, hc.version]

/-- **Every step keeps the invariant.** -/
theorem Step.consistent {c c' : CaseFile} (hs : Step c c') (hc : c.Consistent) :
    c'.Consistent := by
  cases hs with
  | submit at' h =>
      have hd := legal_submitted_iff.1 h
      -- a draft has never been in review
      have hnone : c.review = none := by
        cases hc.phase with
        | draft _ _ hr => exact hr
        | processing hs => simp [hd] at hs
        | review hs => simp [hd] at hs
        | outcome hs => simp [hd, reviewOutcomes] at hs
      refine hc.move (by simpa using h) (by simp [hc.reviewed]) ?_
      refine .processing (Or.inl rfl) ?_ (by simp [CaseFile.move, hnone])
      rw [currentWorkflowId_submission hc (by simp [isSubmission])]
      rfl
  | resubmit at' h =>
      rcases legal_documentProcessing_iff.1 h with hi | hn
      · -- the table allows it, but no case rests in intake validation
        cases hc.phase with
        | draft hs => simp [hi] at hs
        | processing hs => simp [hi] at hs
        | review hs => simp [hi] at hs
        | outcome hs => simp [hi, reviewOutcomes] at hs
      · refine hc.move (by simpa using h) (by simp [hc.reviewed]) ?_
        refine .processing (Or.inr (Or.inl rfl)) ?_ ?_
        · rw [currentWorkflowId_submission hc (by simp [isSubmission, hn])]
          rfl
        · intro e he
          cases hc.phase with
          | draft hs => simp [hn] at hs
          | processing hs => simp [hn] at hs
          | review hs => simp [hn] at hs
          | outcome _ _ e' hr hst =>
              -- the entry that asked for more information was decided
              have heq : e' = e := Option.some.inj (hr.symm.trans he)
              exact heq ▸ hst
  | acceptIntake at' h =>
      have hd := legal_intakeValidation_iff.1 h
      refine hc.move (by simp [h]; decide) (by simp [hc.reviewed]) ?_
      cases hc.phase with
      | draft hs => simp [hd] at hs
      | processing hs hw hr =>
          refine .processing (Or.inr (Or.inl rfl)) ?_ hr
          rw [currentWorkflowId_move]
          · exact hw
          · rw [List.append_cons, lastSubmission_snoc, lastSubmission_snoc]
            simp [isSubmission]
      | review hs => simp [hd] at hs
      | outcome hs => simp [hd, reviewOutcomes] at hs
  | flagIntake at' enteredQueueAt h hr =>
      have hd := legal_intakeValidation_iff.1 h
      refine hc.move (by simp [h]; decide) (by simp) ?_
      cases hc.phase with
      | draft hs => simp [hd] at hs
      | processing hs hw _ =>
          refine .review rfl ?_ _ rfl rfl
          rw [currentWorkflowId_move]
          · exact hw
          · rw [List.append_cons, lastSubmission_snoc, lastSubmission_snoc]
            simp [isSubmission]
      | review hs => simp [hd] at hs
      | outcome hs => simp [hd, reviewOutcomes] at hs
  | startVerification at' h =>
      have hd := legal_verification_iff.1 h
      refine hc.move (by simpa using h) (by simp [hc.reviewed]) ?_
      cases hc.phase with
      | draft hs => simp [hd] at hs
      | processing hs hw hr =>
          refine .processing (Or.inr (Or.inr rfl)) ?_ hr
          rw [currentWorkflowId_move]
          · exact hw
          · rw [lastSubmission_snoc]
            simp [isSubmission]
      | review hs => simp [hd] at hs
      | outcome hs => simp [hd, reviewOutcomes] at hs
  | enterReview at' enteredQueueAt h hr =>
      refine hc.move (by simpa using h) (by simp) ?_
      have hfrom := legal_awaitingHumanReview_iff.1 h
      cases hc.phase with
      | draft hs => simp [hs, canEscalateToHumanReview] at hfrom
      | processing hs hw _ =>
          refine .review rfl ?_ _ rfl rfl
          rw [currentWorkflowId_move]
          · exact hw
          · rw [lastSubmission_snoc]
            simp [isSubmission]
      | review hs => simp [hs, canEscalateToHumanReview] at hfrom
      | outcome _ _ e he => simp [hr] at he
  | decide decision reason reviewerId at' decidedAt entry hd h hr =>
      refine hc.move (by simpa using h) ?_ (.outcome hd rfl _ rfl rfl rfl)
      -- there is a queue entry, so the case has been in review before
      have hne : awaitingHumanReview ∈ c.history := by
        by_contra hno
        rw [hc.reviewed.2 hno] at hr
        cases hr
      simp [hne]

theorem Reached.consistent {c : CaseFile} (h : Reached c) : c.Consistent := by
  induction h with
  | created row hs hv hw =>
      exact ⟨hv, rfl, by simp [hs], by simp, by simp, .draft hs hw rfl⟩
  | step _ hs ih => exact hs.consistent ih

/-! ### What a step keeps -/

/-- A step goes through one or two statuses more. -/
theorem Step.exists_move {c c' : CaseFile} (hs : Step c c') :
    ∃ path at' workflowId review, path ≠ [] ∧ c' = c.move path at' workflowId review := by
  cases hs with
  | submit at' h => exact ⟨_, _, _, _, by simp, rfl⟩
  | resubmit at' h => exact ⟨_, _, _, _, by simp, rfl⟩
  | acceptIntake at' h => exact ⟨_, _, _, _, by simp, rfl⟩
  | flagIntake at' e h hr => exact ⟨_, _, _, _, by simp, rfl⟩
  | startVerification at' h => exact ⟨_, _, _, _, by simp, rfl⟩
  | enterReview at' e h hr => exact ⟨_, _, _, _, by simp, rfl⟩
  | decide d r w at' at'' e hd h hr => exact ⟨_, _, _, _, by simp, rfl⟩

theorem Step.history_prefix {c c' : CaseFile} (hs : Step c c') : c.history <+: c'.history := by
  obtain ⟨path, at', workflowId, review, -, rfl⟩ := hs.exists_move
  exact List.prefix_append _ _

theorem Step.length_lt {c c' : CaseFile} (hs : Step c c') :
    c.history.length < c'.history.length := by
  obtain ⟨path, at', workflowId, review, hne, rfl⟩ := hs.exists_move
  have := List.length_pos_iff.2 hne
  simp only [CaseFile.move, List.length_append]
  omega

/-- The columns that no step changes. -/
theorem Step.row_fixed {c c' : CaseFile} (hs : Step c c') :
    c'.row.applicationId = c.row.applicationId ∧ c'.row.tenantId = c.row.tenantId ∧
      c'.row.applicantId = c.row.applicantId ∧ c'.row.productId = c.row.productId ∧
      c'.row.requestedAmount = c.row.requestedAmount ∧
      c'.row.requestedTermMonths = c.row.requestedTermMonths := by
  obtain ⟨path, at', workflowId, review, -, rfl⟩ := hs.exists_move
  exact ⟨rfl, rfl, rfl, rfl, rfl, rfl⟩

theorem Steps.history_prefix {c c' : CaseFile} (hs : Steps c c') : c.history <+: c'.history := by
  induction hs with
  | refl => exact List.prefix_refl _
  | tail _ hs ih => exact ih.trans hs.history_prefix

theorem Steps.row_fixed {c c' : CaseFile} (hs : Steps c c') :
    c'.row.applicationId = c.row.applicationId ∧ c'.row.tenantId = c.row.tenantId ∧
      c'.row.applicantId = c.row.applicantId ∧ c'.row.productId = c.row.productId ∧
      c'.row.requestedAmount = c.row.requestedAmount ∧
      c'.row.requestedTermMonths = c.row.requestedTermMonths := by
  induction hs with
  | refl => exact ⟨rfl, rfl, rfl, rfl, rfl, rfl⟩
  | tail _ hs ih =>
      obtain ⟨h₁, h₂, h₃, h₄, h₅, h₆⟩ := hs.row_fixed
      obtain ⟨i₁, i₂, i₃, i₄, i₅, i₆⟩ := ih
      exact ⟨h₁.trans i₁, h₂.trans i₂, h₃.trans i₃, h₄.trans i₄, h₅.trans i₅, h₆.trans i₆⟩

/-- **A case that has gone through no more statuses has not moved.** -/
theorem Steps.eq_of_length {c c' : CaseFile} (hs : Steps c c')
    (h : c'.history.length ≤ c.history.length) : c' = c := by
  rcases Relation.ReflTransGen.cases_tail hs with rfl | ⟨c'', hs', hlast⟩
  · rfl
  · have hle := (Steps.history_prefix hs').length_le
    have hlt := hlast.length_lt
    omega

/-! ### Stages -/

/-- How far a case has come since its latest submission. -/
def rank : ApplicationStatus → ℕ
  | draft => 0
  | submitted => 1
  | intakeValidation => 2
  | documentProcessing => 3
  | verification => 4
  | _ => 5

/-- A step either goes on with the same workflow, and comes farther, or it detaches the
workflow. -/
theorem Step.rank_lt {c c' : CaseFile} (hc : c.Consistent) (hs : Step c c') {w : String}
    (hw : c.row.activeWorkflowId = some w) :
    (c'.row.activeWorkflowId = some w ∧ rank c.row.status < rank c'.row.status) ∨
      c'.row.activeWorkflowId = none := by
  cases hs with
  | submit at' h =>
      have hd := legal_submitted_iff.1 h
      cases hc.phase with
      | draft _ hn => simp [hn] at hw
      | processing hs => simp [hd] at hs
      | review hs => simp [hd] at hs
      | outcome hs => simp [hd, reviewOutcomes] at hs
  | resubmit at' h =>
      rcases legal_documentProcessing_iff.1 h with hi | hn
      · cases hc.phase with
        | draft hs => simp [hi] at hs
        | processing hs => simp [hi] at hs
        | review hs => simp [hi] at hs
        | outcome hs => simp [hi, reviewOutcomes] at hs
      · cases hc.phase with
        | draft hs => simp [hn] at hs
        | processing hs => simp [hn] at hs
        | review hs => simp [hn] at hs
        | outcome _ hnone => simp [hnone] at hw
  | acceptIntake at' h =>
      have hd := legal_intakeValidation_iff.1 h
      exact Or.inl ⟨hw, by simp [CaseFile.move, hd, rank]⟩
  | flagIntake at' e h hr =>
      have hd := legal_intakeValidation_iff.1 h
      exact Or.inl ⟨hw, by simp [CaseFile.move, hd, rank]⟩
  | startVerification at' h =>
      have hd := legal_verification_iff.1 h
      exact Or.inl ⟨hw, by simp [CaseFile.move, hd, rank]⟩
  | enterReview at' e h hr =>
      refine Or.inl ⟨hw, ?_⟩
      cases hc.phase with
      | draft hs => simp [CaseFile.move, hs, rank]
      | processing hs => rcases hs with hs | hs | hs <;> simp [CaseFile.move, hs, rank]
      | review hs =>
          have := legal_awaitingHumanReview_iff.1 h
          simp [hs, canEscalateToHumanReview] at this
      | outcome _ hn => simp [hn] at hw
  | decide d r w' at' at'' e hd h hr => exact Or.inr rfl

/-- The workflow of version `v` was attached once and has been detached. -/
def Detached (v : ℕ) (c : CaseFile) : Prop :=
  v ≤ c.history.length ∧
    c.row.activeWorkflowId ≠ some (applicationWorkflowId c.row.tenantId c.row.applicationId v)

theorem Step.detached {c c' : CaseFile} (hc : c.Consistent) (hs : Step c c') {v : ℕ}
    (h : c.Detached v) : c'.Detached v := by
  obtain ⟨hv, hne⟩ := h
  refine ⟨by have := hs.length_lt; omega, ?_⟩
  have hnext : ∀ w, w = c.nextWorkflowId →
      w ≠ applicationWorkflowId c.row.tenantId c.row.applicationId v := by
    rintro w rfl heq
    have := applicationWorkflowId_version heq
    rw [hc.version] at this
    omega
  cases hs with
  | submit at' h => exact fun heq => hnext _ rfl (Option.some.inj heq)
  | resubmit at' h => exact fun heq => hnext _ rfl (Option.some.inj heq)
  | acceptIntake at' h => exact hne
  | flagIntake at' e h hr => exact hne
  | startVerification at' h => exact hne
  | enterReview at' e h hr => exact hne
  | decide d r w' at' at'' e hd h hr => exact fun heq => by cases heq

theorem Steps.detached {c c' : CaseFile} (hc : Reached c) (hs : Steps c c') {v : ℕ}
    (h : c.Detached v) : c'.Detached v := by
  induction hs with
  | refl => exact h
  | tail hs' hs ih => exact hs.detached (hc.steps hs').consistent ih

/-- While a workflow is attached the case has come farther, or not moved. -/
theorem Steps.attached {c c' : CaseFile} (hc : Reached c) (hs : Steps c c') {v : ℕ}
    (hv : v ≤ c.history.length)
    (hw : c.row.activeWorkflowId =
      some (applicationWorkflowId c.row.tenantId c.row.applicationId v)) :
    c' = c ∨ (c'.row.activeWorkflowId = c.row.activeWorkflowId ∧
      rank c.row.status < rank c'.row.status) ∨ c'.Detached v := by
  induction hs with
  | refl => exact Or.inl rfl
  | @tail b c' hs' hs ih =>
      have hfix := Steps.row_fixed hs'
      have hfix' := hs.row_fixed
      have hlen := (Steps.history_prefix hs').length_le
      have hlen' := hs.length_lt
      have hdetach : c'.row.activeWorkflowId = none → c'.Detached v :=
        fun hn => ⟨by omega, by simp [hn]⟩
      rcases ih with rfl | ⟨hsame, hrank⟩ | hdet
      · rcases hs.rank_lt hc.consistent hw with ⟨hw', hr⟩ | hn
        · exact Or.inr (Or.inl ⟨hw'.trans hw.symm, hr⟩)
        · exact Or.inr (Or.inr (hdetach hn))
      · rcases hs.rank_lt (hc.steps hs').consistent (hsame.trans hw) with ⟨hw', hr⟩ | hn
        · exact Or.inr (Or.inl ⟨hw'.trans hw.symm, by omega⟩)
        · exact Or.inr (Or.inr (hdetach hn))
      · exact Or.inr (Or.inr (hs.detached (hc.steps hs').consistent hdet))

/-- **While one workflow is attached no status comes back**: a case that has the same workflow
and the same status as before has not moved. -/
theorem Steps.eq_of_same_stage {c c' : CaseFile} (hc : Reached c) (hs : Steps c c')
    {w : String} (hw : c.row.activeWorkflowId = some w) (hw' : c'.row.activeWorkflowId = some w)
    (hst : c'.row.status = c.row.status) : c' = c := by
  have hcur : c.row.activeWorkflowId = some c.currentWorkflowId := by
    cases hc.consistent.phase with
    | draft _ hn => simp [hn] at hw
    | processing _ h => exact h
    | review _ h => exact h
    | outcome _ hn => simp [hn] at hw
  rcases Steps.attached hc hs (lastSubmission_le c.history) hcur with h | ⟨-, hrank⟩ | hdet
  · exact h
  · rw [hst] at hrank
    omega
  · have hfix := Steps.row_fixed hs
    refine absurd ?_ hdet.2
    rw [hw', ← hw, hcur, currentWorkflowId, hfix.1, hfix.2.1]

/-! ### Outcomes -/

/-- **How an outcome is entered**: by a decision, on an entry of the review queue, which gets the
decision and its author. -/
theorem Step.outcome {c c' : CaseFile} (hs : Step c c') (h : c'.row.status ∈ reviewOutcomes) :
    ∃ (reason : String) (reviewerId : Option String) (at' decidedAt : DateTime)
      (entry : ReviewQueueEntryRow),
      isLegalTransition c.row.status c'.row.status = true ∧ c.review = some entry ∧
      c' = c.move [c'.row.status] at' none
        (some (decidedColumns entry c'.row.status.value reason reviewerId decidedAt)) := by
  cases hs with
  | submit at' h' => simp [CaseFile.move, reviewOutcomes] at h
  | resubmit at' h' => simp [CaseFile.move, reviewOutcomes] at h
  | acceptIntake at' h' => simp [CaseFile.move, reviewOutcomes] at h
  | flagIntake at' e h' hr => simp [CaseFile.move, reviewOutcomes] at h
  | startVerification at' h' => simp [CaseFile.move, reviewOutcomes] at h
  | enterReview at' e h' hr => simp [CaseFile.move, reviewOutcomes] at h
  | decide d reason reviewerId at' decidedAt entry hd h' hr =>
      exact ⟨reason, reviewerId, at', decidedAt, entry, h', hr, rfl⟩

/-- A case that waits for a human moves only by a decision. -/
theorem Step.of_awaiting {c c' : CaseFile} (hs : Step c c')
    (h : c.row.status = awaitingHumanReview) : c'.row.status ∈ reviewOutcomes := by
  cases hs with
  | submit at' h' => simp [h, legal_submitted_iff] at h'
  | resubmit at' h' => simp [h, legal_documentProcessing_iff] at h'
  | acceptIntake at' h' => simp [h, legal_intakeValidation_iff] at h'
  | flagIntake at' e h' hr => simp [h, legal_intakeValidation_iff] at h'
  | startVerification at' h' => simp [h, legal_verification_iff] at h'
  | enterReview at' e h' hr =>
      simp [h, legal_awaitingHumanReview_iff, canEscalateToHumanReview] at h'
  | decide d reason reviewerId at' decidedAt entry hd h' hr => exact hd

end CaseFile

/-! ### The events of a history -/

/-- **The events that tell a history**: one for each version, the first one the creation, each
other one the change from the status before. -/
inductive Narrates (a : ApplicationId) (t : TenantId) :
    List ApplicationStatus → List DomainEvent → Prop
  | created (at' : DateTime) (productId : String) :
      Narrates a t [draft] [.applicationCreated a t at' productId]
  | changed {history : List ApplicationStatus} {events : List DomainEvent}
      {previous : ApplicationStatus} (h : Narrates a t history events)
      (hlast : history.getLast? = some previous) (s : ApplicationStatus) (at' : DateTime)
      (reason : String) :
      Narrates a t (history ++ [s])
        (events ++ [.applicationStateChanged a t at' previous s reason (history.length + 1)])

theorem Narrates.length_eq {a : ApplicationId} {t : TenantId} {history : List ApplicationStatus}
    {events : List DomainEvent} (h : Narrates a t history events) :
    events.length = history.length := by
  induction h with
  | created => rfl
  | changed _ _ _ _ _ ih => simp [ih]

/-- The events that tell a history are about its application, and of its tenant. -/
theorem Narrates.about {a : ApplicationId} {t : TenantId} {history : List ApplicationStatus}
    {events : List DomainEvent} (h : Narrates a t history events) :
    ∀ e ∈ events, e.tenantId = t ∧ e.applicationId = a := by
  induction h with
  | created => intro e he; obtain rfl := List.mem_singleton.1 he; exact ⟨rfl, rfl⟩
  | changed _ _ _ _ _ ih =>
      intro e he
      rcases List.mem_append.1 he with he | he
      · exact ih e he
      · obtain rfl := List.mem_singleton.1 he
        exact ⟨rfl, rfl⟩

end FinAssist
