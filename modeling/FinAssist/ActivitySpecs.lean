/-
**What the activities and the review endpoint promise.**

An activity is a command whose taken key counts as success: what it commits is what the command
commits, it never fails because of the key, and when it returns the key is taken and the status it
reports is the one the application has.  The review endpoint writes nothing; it signals the
workflow that is attached to the application when it reads it.

With this every program of the development has a contract, and what holds of all of them holds in
every world they reach.

Main definitions:

* `FinAssist.ActivityCall.Runs` — the commands an attempt at an activity runs;
* `FinAssist.ActivityCall.contract`, `FinAssist.ReviewDecisionRequest.contract`;
* `FinAssist.outline` — **the contracts of all programs**.

Main results:

* `FinAssist.ActivityCall.verified` — every activity meets its contract;
* `FinAssist.submitReviewDecision_verified` — the review endpoint meets its contract.
-/

import FinAssist.EvidenceSpecs

set_option relaxedAutoImplicit false
set_option autoImplicit false

namespace FinAssist

open ReadCommitted ApplicationStatus Discipline

/-! ### What was seen, from an earlier start -/

theorem Seen.since_mono {d₀ d₁ d : Database} {a : ApplicationId} {x : CaseFile}
    (h : Onward d₀ d₁) (hx : Seen d₁ d a x) : Seen d₀ d a x := by
  refine ⟨?_, hx.reached, hx.until'⟩
  intro x₀ hx₀
  obtain ⟨x₁, hx₁, hs⟩ := h.cases a x₀ hx₀
  exact hs.trans (hx.since x₁ hx₁)

theorem Command.Commits.since_mono {c : Command} {d₀ d₁ d : Database} {ws : List Write}
    (h : Onward d₀ d₁) (hc : c.Commits d₁ d ws) : c.Commits d₀ d ws :=
  ⟨h.trans hc.since, hc.shape, hc.effect⟩

theorem Command.Raises.since_mono {c : Command} {d₀ d₁ d : Database} {e : Error}
    (h : Onward d₀ d₁) (hr : c.Raises d₁ e d) : c.Raises d₀ e d := by
  cases e with
  | illegalStateTransition source target =>
      obtain ⟨hfree, htarget, hno, a, x, ha, hx, ht, hs⟩ := hr
      exact ⟨hfree, htarget, hno, a, x, ha, hx.since_mono h, ht, hs⟩
  | _ => exact hr

/-! ### The contracts of the activities -/

/-- **The commands that an attempt at an activity runs.** -/
inductive ActivityCall.Runs (info : ActivityInfo) : ActivityCall → Command → Prop
  | validateIntake (ctx : ActivityContext) :
      Runs info (.validateIntake ctx)
        (.advanceIntakeValidation ⟨ctx.tenantId, ctx.applicationId, FinAssist.idempotencyKey info⟩)
  | checkRequiredDocuments (ctx : ActivityContext) :
      Runs info (.checkRequiredDocuments ctx)
        (.advanceDocumentProcessing
          ⟨ctx.tenantId, ctx.applicationId, FinAssist.idempotencyKey info⟩)
  | extractDocumentFacts (ctx : ActivityContext) (documentId : String) :
      Runs info (.extractDocumentFacts ctx)
        (.processDocument ⟨ctx.tenantId, ctx.applicationId, documentId, documentKey info documentId⟩)
  | verifyFacts (ctx : ActivityContext) :
      Runs info (.verifyFacts ctx)
        (.verifyApplicationFacts ⟨ctx.tenantId, ctx.applicationId, FinAssist.idempotencyKey info⟩)
  | enterHumanReview (input : EnterHumanReviewActivityInput) :
      Runs info (.enterHumanReview input)
        (.enterHumanReview
          ⟨input.tenantId, input.applicationId, FinAssist.idempotencyKey info, input.reason⟩)
  | applyReviewDecision (input : ApplyReviewDecisionActivityInput) (decision : ApplicationStatus)
      (h : ofValue? input.decision = some decision) :
      Runs info (.applyReviewDecision input)
        (.applyReviewDecision ⟨input.tenantId, input.applicationId, FinAssist.idempotencyKey info,
          decision, input.reason, input.reviewerId⟩)

namespace ActivityCall

/-- The application an activity is about. -/
def applicationId : ActivityCall → ApplicationId
  | validateIntake ctx => ctx.applicationId
  | checkRequiredDocuments ctx => ctx.applicationId
  | extractDocumentFacts ctx => ctx.applicationId
  | verifyFacts ctx => ctx.applicationId
  | enterHumanReview input => input.applicationId
  | applyReviewDecision input => input.applicationId

def tenantId : ActivityCall → TenantId
  | validateIntake ctx => ctx.tenantId
  | checkRequiredDocuments ctx => ctx.tenantId
  | extractDocumentFacts ctx => ctx.tenantId
  | verifyFacts ctx => ctx.tenantId
  | enterHumanReview input => input.tenantId
  | applyReviewDecision input => input.tenantId

/-- The operation under which an activity reserves its key.  The extraction reserves one for each
document. -/
def operationName? : ActivityCall → Option String
  | validateIntake _ => some advanceIntakeValidationOperation
  | checkRequiredDocuments _ => some advanceDocumentProcessingOperation
  | extractDocumentFacts _ => none
  | verifyFacts _ => some verifyApplicationFactsOperation
  | enterHumanReview _ => some enterHumanReviewOperation
  | applyReviewDecision _ => some applyReviewDecisionOperation

/-- The key of an activity. -/
def key? (info : ActivityInfo) (call : ActivityCall) : Option Key :=
  call.operationName?.map fun operationName =>
    .idempotencyKey call.tenantId operationName (FinAssist.idempotencyKey info)

/-- Whether the key of an activity is taken. -/
def Done (info : ActivityInfo) (call : ActivityCall) (d : Database) : Prop :=
  ∀ k ∈ call.key? info, d.has k = true

/-- What a result says of the rows. -/
def Reports (d : Database) : (call : ActivityCall) → call.Result → Prop
  | validateIntake ctx, r => ∃ s, Command.StatusIs d ctx.applicationId s ∧ r.status = s.value
  | checkRequiredDocuments ctx, r =>
      ∃ s, Command.StatusIs d ctx.applicationId s ∧ r.status = s.value
  | extractDocumentFacts _, _ => True
  | verifyFacts _, _ => True
  | enterHumanReview input, r =>
      ∃ s, Command.StatusIs d input.applicationId s ∧ r.status = s.value
  | applyReviewDecision input, r =>
      ∃ s, Command.StatusIs d input.applicationId s ∧ r.status = s.value

/-- **The contract of an activity.** -/
def contract (info : ActivityInfo) (call : ActivityCall) (d₀ : Database) : HandlerContract where
  asks := Ask.Justified
  commits d ws := ∃ c, call.Runs info c ∧ c.Commits d₀ d ws
  raises e d :=
    match e with
    | .illegalStateTransition _ _ => ∃ c, call.Runs info c ∧ c.Raises d₀ e d
    | _ => True

/-- What is so when an activity returns. -/
def Returns (info : ActivityInfo) (call : ActivityCall) (r : call.Result) (d : Database) : Prop :=
  call.Done info d ∧ call.Reports d r

theorem Runs.applicationId {info : ActivityInfo} {call : ActivityCall} {c : Command}
    (h : call.Runs info c) : c.applicationId? = some call.applicationId := by
  cases h <;> rfl

theorem Runs.tenantId {info : ActivityInfo} {call : ActivityCall} {c : Command}
    (h : call.Runs info c) : c.tenantId = call.tenantId := by
  cases h <;> rfl

/-- The key of an activity is the key of the command it runs. -/
theorem Runs.key {info : ActivityInfo} {call : ActivityCall} {c : Command} (h : call.Runs info c)
    {k : Key} (hk : k ∈ call.key? info) : k = c.key := by
  cases h <;> simp only [key?, operationName?, Option.map_some, Option.map_none,
    Option.mem_def, Option.some.injEq, reduceCtorEq] at hk <;> exact hk.symm

theorem Runs.done {info : ActivityInfo} {call : ActivityCall} {c : Command} (h : call.Runs info c)
    {d : Database} (hk : d.has c.key = true) : call.Done info d := by
  intro k hmem
  rw [h.key hmem]
  exact hk

end ActivityCall

/-- What a command does to the rows is a step onward. -/
theorem Command.commits_rely {c : Command} {d₀ : Database} : ∀ (d : Database) (ws : List Write),
    InOrder d → postgres.Granted d ws → c.Commits d₀ d ws → Onward d (postgres.view d ws) :=
  fun _ _ hd hg hc => (hc.keeps hd hg).2

section Rules

variable {info : ActivityInfo} {call : ActivityCall} {d₀ d : Database} {α : Type}

/-- **A command whose taken key counts as success.** -/
theorem wp_orIfDuplicate {c : Command} (hc : call.Runs info c) (h₀ : Onward d₀ d)
    {body recover : Handler α} {Q : α → List Write → Database → Prop}
    (hbody : casework.wp (c.contract d) body Q [] d)
    (hrecover : ∀ d', Onward d d' → d'.has c.key = true →
      casework.wp (call.contract info d₀) recover Q [] d') :
    casework.wp (call.contract info d₀) (orIfDuplicate body recover) Q [] d := by
  refine wp_tryCatch (R := fun e d' => c.Raises d e d' ∧ Onward d d') _ body _ ?_ ?_ [] d ?_
  · rintro e p ws d' ⟨hr, hrely⟩ hp d'' hi
    cases e with
    | duplicateRequest operationName key =>
        cases hp
        exact hrecover d'' (hrely.trans hi.rely) (hi.rely.keys _ hr.2.2)
    | _ => cases hp
  · rintro e d' ⟨hr, -⟩ _
    cases e with
    | illegalStateTransition source target => exact ⟨c, hc, hr.since_mono h₀⟩
    | _ => trivial
  · refine wp_weaken (C := { c.contract d with
      raises := fun e d' => c.Raises d e d' ∧ Onward d d' }) _ ?_ ?_ ?_
      (wp_mono _ (fun _ _ _ h => h.1) (wp_rely _ Command.commits_rely hbody))
    · exact fun _ _ h => h
    · exact fun _ _ h => ⟨c, hc, Command.Commits.since_mono h₀ h⟩
    · exact fun _ _ h => h

/-- The current status is read. -/
theorem wp_currentStatus {t : TenantId} {a : ApplicationId}
    {Q : ActivityStatusResult → List Write → Database → Prop}
    (h : ∀ s version d', Onward d d' → Command.StatusIs d' a s → Q ⟨s.value, version⟩ [] d') :
    casework.wp (call.contract info d₀) (currentStatus t a) Q [] d := by
  refine wp_seq _ (wp_seq _ (wp_findApplication (by simp) (fun _ _ => trivial)
    fun x d' hi hx ht => ?_))
  exact h x.row.status x.row.version d' hi.rely ⟨x.row, caseFile?_row hx, rfl⟩

/-- **An activity that reports a status.** -/
theorem wp_statusActivity {c : Command} (hc : call.Runs info c)
    {f : c.Result → ActivityStatusResult}
    (hf : ∀ r d', c.Reports d' r →
      ∃ s, Command.StatusIs d' call.applicationId s ∧ (f r).status = s.value) :
    casework.wp (call.contract info d₀)
      (orIfDuplicate (do let result ← c.handle; pure (f result))
        (currentStatus call.tenantId call.applicationId))
      (fun r _ d' => call.Done info d' ∧
        ∃ s, Command.StatusIs d' call.applicationId s ∧ r.status = s.value) [] d₀ := by
  refine wp_orIfDuplicate hc (Onward.refl d₀) ?_ ?_
  · refine wp_seq _ (wp_mono _ ?_ (c.verified d₀))
    rintro r ws d' ⟨-, hkey, hr⟩
    exact ⟨hc.done hkey, hf r d' hr⟩
  · intro d₁ _ hk
    refine wp_currentStatus fun s version d₂ hr hs => ?_
    exact ⟨hc.done (hr.keys _ hk), s, hs, rfl⟩

end Rules

theorem validateIntakeActivity_verified (info : ActivityInfo) (ctx : ActivityContext)
    (d₀ : Database) :
    casework.wp ((ActivityCall.validateIntake ctx).contract info d₀)
      (validateIntakeActivity info ctx)
      (fun r _ d => (ActivityCall.validateIntake ctx).Returns info r d) [] d₀ :=
  wp_statusActivity (.validateIntake ctx) fun r _ hr => ⟨r.status, hr, rfl⟩

theorem checkRequiredDocumentsActivity_verified (info : ActivityInfo) (ctx : ActivityContext)
    (d₀ : Database) :
    casework.wp ((ActivityCall.checkRequiredDocuments ctx).contract info d₀)
      (checkRequiredDocumentsActivity info ctx)
      (fun r _ d => (ActivityCall.checkRequiredDocuments ctx).Returns info r d) [] d₀ :=
  wp_statusActivity (.checkRequiredDocuments ctx) fun r _ hr => ⟨r.status, hr, rfl⟩

theorem enterHumanReviewActivity_verified (info : ActivityInfo)
    (input : EnterHumanReviewActivityInput) (d₀ : Database) :
    casework.wp ((ActivityCall.enterHumanReview input).contract info d₀)
      (enterHumanReviewActivity info input)
      (fun r _ d => (ActivityCall.enterHumanReview input).Returns info r d) [] d₀ :=
  wp_statusActivity (.enterHumanReview input) fun r _ hr => ⟨r.status, hr, rfl⟩

theorem applyReviewDecisionActivity_none (info : ActivityInfo)
    {input : ApplyReviewDecisionActivityInput} (hd : ofValue? input.decision = none) :
    applyReviewDecisionActivity info input = Handler.raise (.valueError
      (pyRepr input.decision ++ " is not a valid ApplicationStatus")) := by
  simp only [applyReviewDecisionActivity, hd]
  rfl

theorem applyReviewDecisionActivity_some (info : ActivityInfo)
    {input : ApplyReviewDecisionActivityInput} {decision : ApplicationStatus}
    (hd : ofValue? input.decision = some decision) :
    applyReviewDecisionActivity info input =
      orIfDuplicate (do
          let result ← applyReviewDecision ⟨input.tenantId, input.applicationId,
            idempotencyKey info, decision, input.reason, input.reviewerId⟩
          pure ⟨result.status.value, result.version⟩)
        (currentStatus input.tenantId input.applicationId) := by
  simp only [applyReviewDecisionActivity, hd]
  rfl

/-- The text of the decision is read back before the command is run. -/
theorem applyReviewDecisionActivity_verified (info : ActivityInfo)
    (input : ApplyReviewDecisionActivityInput) (d₀ : Database) :
    casework.wp ((ActivityCall.applyReviewDecision input).contract info d₀)
      (applyReviewDecisionActivity info input)
      (fun r _ d => (ActivityCall.applyReviewDecision input).Returns info r d) [] d₀ := by
  cases hd : ofValue? input.decision with
  | none =>
      rw [applyReviewDecisionActivity_none info hd]
      trivial
  | some decision =>
      rw [applyReviewDecisionActivity_some info hd]
      exact wp_statusActivity (.applyReviewDecision input decision hd)
        fun r _ hr => ⟨r.status, hr, rfl⟩

theorem verifyFactsActivity_verified (info : ActivityInfo) (ctx : ActivityContext)
    (d₀ : Database) :
    casework.wp ((ActivityCall.verifyFacts ctx).contract info d₀) (verifyFactsActivity info ctx)
      (fun r _ d => (ActivityCall.verifyFacts ctx).Returns info r d) [] d₀ := by
  have hc := (ActivityCall.Runs.verifyFacts ctx : ActivityCall.Runs info _ _)
  refine wp_orIfDuplicate hc (Onward.refl d₀) ?_ ?_
  · refine wp_seq _ (wp_mono _ ?_ (Command.verified _ d₀))
    rintro r ws d' ⟨-, hkey, -⟩
    exact ⟨hc.done hkey, trivial⟩
  · intro d₁ _ hk
    refine wp_seq _ (wp_select fun d₂ hi => ?_)
    exact ⟨hc.done (hi.rely.keys _ hk), trivial⟩

/-- The loop over the documents, from any number of facts. -/
theorem wp_extractEach (info : ActivityInfo) (ctx : ActivityContext) {d₀ : Database}
    (documents : List UploadedDocument) :
    ∀ (factCount : ℕ) (d : Database), Onward d₀ d →
      casework.wp ((ActivityCall.extractDocumentFacts ctx).contract info d₀)
        (extractEach info ctx documents factCount) (fun _ _ _ => True) [] d := by
  induction documents with
  | nil => exact fun _ _ _ => trivial
  | cons document documents ih =>
      intro factCount d h₀
      refine wp_seq _ ?_
      refine wp_mono (Q := fun _ ws d' => ws = [] ∧ Onward d d') _ ?_
        (wp_orIfDuplicate (.extractDocumentFacts ctx document.documentId) h₀ ?_ ?_)
      · rintro factCount' ws d' ⟨rfl, hr⟩
        exact ih factCount' d' (h₀.trans hr)
      · have hprocess := wp_rely _ Command.commits_rely (processDocument_verified ⟨ctx.tenantId,
          ctx.applicationId, document.documentId, documentKey info document.documentId⟩ d)
        refine wp_seq _ (wp_mono _ ?_ (wp_weaken _ ?_ ?_ ?_ hprocess))
        · exact fun _ ws d' h => ⟨h.1.1, h.2⟩
        · exact fun _ _ h => h
        · exact fun _ _ h => h
        · exact fun _ _ h => h.1
      · exact fun d' hr _ => ⟨rfl, hr⟩

theorem extractDocumentFactsActivity_verified (info : ActivityInfo) (ctx : ActivityContext)
    (d₀ : Database) :
    casework.wp ((ActivityCall.extractDocumentFacts ctx).contract info d₀)
      (extractDocumentFactsActivity info ctx)
      (fun r _ d => (ActivityCall.extractDocumentFacts ctx).Returns info r d) [] d₀ := by
  refine wp_seq _ (wp_select fun d hi => ?_)
  refine wp_seq _ (wp_mono _ ?_ (wp_extractEach info ctx _ 0 d hi.rely))
  intro factCount ws d' _
  refine ⟨?_, trivial⟩
  intro k hk
  simp [ActivityCall.key?, ActivityCall.operationName?] at hk

/-- **Every activity meets its contract.** -/
theorem ActivityCall.verified (info : ActivityInfo) (call : ActivityCall) (d₀ : Database) :
    casework.wp (call.contract info d₀) (call.run info)
      (fun r _ d => call.Returns info r d) [] d₀ := by
  cases call with
  | validateIntake ctx => exact validateIntakeActivity_verified info ctx d₀
  | checkRequiredDocuments ctx => exact checkRequiredDocumentsActivity_verified info ctx d₀
  | extractDocumentFacts ctx => exact extractDocumentFactsActivity_verified info ctx d₀
  | verifyFacts ctx => exact verifyFactsActivity_verified info ctx d₀
  | enterHumanReview input => exact enterHumanReviewActivity_verified info input d₀
  | applyReviewDecision input => exact applyReviewDecisionActivity_verified info input d₀

/-! ### The review endpoint -/

/-- **The contract of a request to the review endpoint**: it signals the workflow that was
attached when it read the application. -/
def ReviewDecisionRequest.contract (request : ReviewDecisionRequest) (d₀ : Database) :
    HandlerContract where
  asks q d :=
    match q with
    | .signalReviewDecision workflowId decision reason reviewerId =>
        decision = request.decision ∧ decision ∈ reviewDecisions ∧ reason = request.reason ∧
          reviewerId = request.reviewerId ∧
          ∃ x, Seen d₀ d request.applicationId x ∧ x.row.tenantId = request.tenantId ∧
            x.row.activeWorkflowId = some workflowId
    | _ => False
  commits _ _ := False
  raises _ _ := True

theorem submitReviewDecision_verified (request : ReviewDecisionRequest) (d₀ : Database) :
    casework.wp (request.contract d₀) (submitReviewDecision request) (fun _ _ _ => True) [] d₀ := by
  by_cases hd : request.decision ∈ reviewDecisions
  · rw [submitReviewDecision, if_neg (not_not.2 hd)]
    refine wp_seq _ (wp_seq _ (wp_findApplication (by simp) (fun _ _ => trivial)
      fun x d₁ hi₁ hx ht => ?_))
    have hseen := Seen.now hi₁.rely hi₁.inv hx
    rw [Discipline.wp_pure]
    cases hw : x.row.activeWorkflowId with
    | none => trivial
    | some workflowId =>
        refine wp_seq _ (wp_seq _ ?_)
        refine fun d₂ hi₂ => ⟨⟨rfl, hd, rfl, rfl, x, hseen.mono hi₂.rely, ht, hw⟩, fun ack => ?_⟩
        cases ack <;> trivial
  · rw [submitReviewDecision, if_pos hd]
    trivial

theorem getApplicationStatus_verified (query : GetApplicationStatusQuery) (d₀ : Database) :
    casework.wp ⟨fun _ _ => False, fun _ _ => False, fun _ _ => True⟩
      (getApplicationStatus query) (fun _ _ _ => True) [] d₀ :=
  wp_seq _ (wp_findApplication (by simp) (fun _ _ => trivial) fun _ _ _ _ _ => trivial)

/-! ### All programs -/

/-- **The contracts of all programs.** -/
def outline : Outline programs casework where
  contract κ d₀ :=
    match κ with
    | .command c => c.contract d₀
    | .applicationStatus _ => ⟨fun _ _ => False, fun _ _ => False, fun _ _ => True⟩
    | .reviewDecision request => request.contract d₀
    | .activity info call => call.contract info d₀
  returns κ d₀ :=
    match κ with
    | .command c => c.Returns d₀
    | .applicationStatus _ => fun _ _ => True
    | .reviewDecision _ => fun _ _ => True
    | .activity info call => call.Returns info
  verified := by
    intro κ d₀ _
    cases κ with
    | command c => exact c.verified d₀
    | applicationStatus query => exact getApplicationStatus_verified query d₀
    | reviewDecision request => exact submitReviewDecision_verified request d₀
    | activity info call => exact call.verified info d₀
  commit_ok := by
    intro κ d₀ d ws hd hg hc
    cases κ with
    | command c => exact Command.Commits.keeps hc hd hg
    | applicationStatus query => exact hc.elim
    | reviewDecision request => exact hc.elim
    | activity info call =>
        obtain ⟨c, -, hc⟩ := hc
        exact hc.keeps hd hg

end FinAssist
