/-
**What a workflow leads to.**

With a workflow the cases move along few of the ways the table of transitions has: two submissions
and what the activities do, each for the workflow that is attached.  This module lists the moves,
follows the histories along them, and says what a workflow returns.  A workflow that has ended
returns a status its application has had, with its version: that of the decision it has applied, or,
if more information was asked for and the application was resubmitted before a repeated attempt
looked, a later one.

Main definitions:

* `FinAssist.caseMoves` — the moves of a case;
* `FinAssist.statusChanges` — the changes of status in a history;
* `FinAssist.FirstOutcome` — the first outcome since a submission;
* `FinAssist.WorkflowExecution.Concludes` — **what a result says**.

Main results:

* `FinAssist.cases_move_along` — **every commit that changes an application makes one of the moves**;
* `FinAssist.activities_keep_to_workflow` — **an activity moves the case of its own workflow**, and
  finds it where it starts from;
* `FinAssist.review_follows_verification` — what enters review from the verification was verified;
* `FinAssist.results_are_faithful` — **what a workflow returns is what became of the application**.
-/

import FinAssist.ReviewDecisions

set_option relaxedAutoImplicit false
set_option autoImplicit false

namespace FinAssist

open ReadCommitted ApplicationStatus Discipline Durable

/-! ### The moves of a case -/

/-- **The moves of a case**: the status it moves from, and those it goes through. -/
def caseMoves : List (ApplicationStatus × List ApplicationStatus) :=
  [(draft, [submitted]),
   (needsMoreInformation, [documentProcessing]),
   (submitted, [intakeValidation, documentProcessing]),
   (submitted, [intakeValidation, awaitingHumanReview]),
   (documentProcessing, [ApplicationStatus.verification]),
   (documentProcessing, [awaitingHumanReview]),
   (ApplicationStatus.verification, [awaitingHumanReview])] ++
  reviewOutcomes.map fun decision => (awaitingHumanReview, [decision])

theorem nonempty_of_caseMoves : ∀ move ∈ caseMoves, move.2 ≠ [] := by decide

/-- The moves are transitions of the table, one after the other. -/
theorem legal_of_caseMoves : ∀ move ∈ caseMoves,
    (move.1 :: move.2).IsChain fun s s' => isLegalTransition s s' = true := by decide

/-- A move that leads to an outcome goes nowhere else. -/
theorem eq_of_caseMoves : ∀ move ∈ caseMoves, ∀ s ∈ move.2, s ∈ reviewOutcomes →
    move.2 = [s] := by decide

/-- An activity moves a case along, from the status it starts from. -/
theorem ActivityCall.Runs.caseMove {info : ActivityInfo} {call : ActivityCall} {c : Command}
    (h : call.Runs info c) {x x' : CaseFile} (hm : c.Moves x x') (hs : x.row.status = call.source) :
    ∃ path, (x.row.status, path) ∈ caseMoves ∧ x'.history = x.history ++ path := by
  rw [hs]
  cases h with
  | validateIntake ctx => cases hm <;> exact ⟨_, by simp [caseMoves, source], rfl⟩
  | checkRequiredDocuments ctx => cases hm <;> exact ⟨_, by simp [caseMoves, source], rfl⟩
  | extractDocumentFacts ctx documentId => cases hm
  | verifyFacts ctx => cases hm
  | enterHumanReview input => cases hm; exact ⟨_, by simp [caseMoves, source], rfl⟩
  | applyReviewDecision input decision hd =>
      cases hm
      case decide at' decidedAt entry hmem hr =>
      exact ⟨[decision], List.mem_append_right _ (List.mem_map.2 ⟨decision, hmem, rfl⟩), rfl⟩

/-- **Every commit that moves a case makes one of the moves.** -/
theorem Steered.caseMove {d₀ d : Database} {T : Temporal} {c : Command} {ws : List Write}
    (h : Steered d T) (hd : InOrder d) (hg : postgres.Granted d ws) (ha : Acts d T c)
    (hc : c.Commits d₀ d ws) {a : ApplicationId} {x x' : CaseFile}
    (hx : d.caseFile? a = some x) (hx' : (postgres.view d ws).caseFile? a = some x')
    (hne : x' ≠ x) :
    ∃ path, (x.row.status, path) ∈ caseMoves ∧ x'.history = x.history ++ path := by
  rcases h.moved hd hg ha hc hx hx' hne with
    ⟨-, -, s, hhist, hsub⟩ | ⟨e, -, info, call, -, hruns, -, -, -, hst, hm⟩
  · refine ⟨[s], ?_, hhist⟩
    have hlegal : isLegalTransition x.row.status s = true := by
      have hchain := ((hc.keeps hd hg).1.reached hx').consistent.legal
      rw [hhist] at hchain
      exact (List.isChain_append.1 hchain).2.2 _ (hd.reached hx).consistent.last s rfl
    simp only [isSubmission, Bool.or_eq_true, Bool.and_eq_true, decide_eq_true_eq] at hsub
    rcases hsub with rfl | ⟨rfl, hn⟩
    · rw [legal_submitted_iff.1 hlegal]
      simp [caseMoves]
    · rw [Option.some.inj hn]
      simp [caseMoves]
  · exact hruns.caseMove hm hst

/-- **A step that changes a case makes one of the moves.** -/
theorem Installation.caseMove (I : Installation) {ok : World temporal → Action temporal → Prop}
    {w w' : World temporal} (h : Reaches postgres ok (I.start temporal Temporal.empty) w)
    {action : Action temporal} (hs : w.step postgres action = some w') {a : ApplicationId}
    {x x' : CaseFile} (hx : w.db.caseFile? a = some x) (hx' : w'.db.caseFile? a = some x')
    (hne : x' ≠ x) : ∃ path, (x.row.status, path) ∈ caseMoves ∧
      x'.history = x.history ++ path ∧ path.getLast? = some x'.row.status := by
  obtain ⟨hsound, hguided⟩ := I.guided h
  have hdb : w'.db ≠ w.db := fun heq => by
    rw [heq, hx] at hx'
    exact hne (Option.some.inj hx').symm
  obtain ⟨i, t, k, ht, hp, hview, -⟩ := World.committed_of_db hs hdb
  obtain ⟨c, d₀, -, hacts, hc⟩ := hguided.acts hsound ht hp
  obtain ⟨path, hmove, hhist⟩ := hguided.steered.caseMove hsound.inv (hsound.granted i t ht) hacts hc
    hx (hview ▸ hx') hne
  have hlast := ((I.sound (h.reachable.tail trivial hs)).inv.reached hx').consistent.last
  rw [hhist, List.getLast?_append_of_ne_nil _ (nonempty_of_caseMoves _ hmove)] at hlast
  exact ⟨path, hmove, hhist, hlast⟩

/-- A case that was not there has been created. -/
theorem Installation.newCase (I : Installation) {ok : World temporal → Action temporal → Prop}
    {w w' : World temporal} (h : Reaches postgres ok (I.start temporal Temporal.empty) w)
    {action : Action temporal} (hs : w.step postgres action = some w') {a : ApplicationId}
    {x' : CaseFile} (hx : w.db.caseFile? a = none) (hx' : w'.db.caseFile? a = some x') :
    x'.history = [draft] := by
  obtain ⟨hsound, hguided⟩ := I.guided h
  have hdb : w'.db ≠ w.db := fun heq => by
    rw [heq, hx] at hx'
    cases hx'
  obtain ⟨i, t, k, ht, hp, hview, -⟩ := World.committed_of_db hs hdb
  obtain ⟨c, d₀, -, -, hc⟩ := hguided.acts hsound ht hp
  exact hc.created hx (hview ▸ hx')

/-! ### Changes of status -/

/-- The changes of status in a history, one after the other. -/
def statusChanges (history : List ApplicationStatus) :
    List (ApplicationStatus × ApplicationStatus) :=
  history.zip history.tail

theorem statusChanges_append {history : List ApplicationStatus} {s : ApplicationStatus}
    (hlast : history.getLast? = some s) (path : List ApplicationStatus) :
    statusChanges (history ++ path) = statusChanges history ++ statusChanges (s :: path) := by
  induction history with
  | nil => cases hlast
  | cons s₀ history ih =>
      cases history with
      | nil =>
          cases hlast
          rfl
      | cons s₁ history =>
          have htail := ih (by simpa using hlast)
          simp only [statusChanges, List.cons_append, List.tail_cons, List.zip_cons_cons] at htail ⊢
          rw [htail]

/-- **What holds of the changes of every move holds of all changes**, however a case has moved. -/
theorem Installation.changes (I : Installation) {ok : World temporal → Action temporal → Prop}
    {w : World temporal} (h : Reaches postgres ok (I.start temporal Temporal.empty) w)
    {P : ApplicationStatus × ApplicationStatus → Prop}
    (hP : ∀ m ∈ caseMoves, ∀ change ∈ statusChanges (m.1 :: m.2), P change) {a : ApplicationId}
    {x : CaseFile} (hx : w.db.caseFile? a = some x) : ∀ change ∈ statusChanges x.history, P change := by
  refine I.agreement (P := fun d _ => ∀ a x, d.caseFile? a = some x →
    ∀ change ∈ statusChanges x.history, P change) ?_ ?_ h a x hx
  · intro a x hx
    rw [Database.caseFile?, I.slice] at hx
    cases hx
  · intro tasks d T d' T' hd hsteered hev ih a x' hx'
    cases hev with
    | commit c d₀ ws hg ha hc =>
        cases hx : d.caseFile? a with
        | none =>
            rw [hc.created hx hx']
            intro change hmem
            cases hmem
        | some x =>
            by_cases hne : x' = x
            · subst hne
              exact ih a x' hx
            · obtain ⟨path, hmove, hhist⟩ := hsteered.caseMove hd hg ha hc hx hx' hne
              rw [hhist, statusChanges_append (hd.reached hx).consistent.last]
              intro change hmem
              rcases List.mem_append.1 hmem with hmem | hmem
              · exact ih a x hx change hmem
              · exact hP _ hmove change hmem
    | _ => exact ih a x' hx'

/-- The snapshots of an application tell the history of its case. -/
theorem InOrder.statuses {d : Database} (h : InOrder d) {a : ApplicationId} {x : CaseFile}
    (hx : d.caseFile? a = some x) :
    (d.versionsOf a).map ApplicationVersionRow.status = x.history := by
  obtain ⟨events, htells⟩ := h.tells hx
  exact htells.statuses

/-- **Every commit that changes an application makes one of the moves**, from the status before to the
status after it: the others that the table of transitions allows are never made, and the snapshots
tell the way. -/
theorem cases_move_along (I : Installation) {w w' : World temporal}
    (h : Reachable postgres (I.start temporal Temporal.empty) w) {action : Action temporal}
    (hs : w.step postgres action = some w') {r r' : ApplicationRow}
    (hr : w.db.application? r.applicationId = some r)
    (hr' : w'.db.application? r.applicationId = some r') (hne : r' ≠ r) :
    ∃ path, (r.status, path) ∈ caseMoves ∧ path.getLast? = some r'.status ∧
      r'.version = r.version + path.length ∧
      (w'.db.versionsOf r.applicationId).map ApplicationVersionRow.status =
        (w.db.versionsOf r.applicationId).map ApplicationVersionRow.status ++ path := by
  have hinv := (I.guided h).1.inv
  have hinv' := (I.sound (h.tail trivial hs)).inv
  obtain ⟨x, hx, rfl⟩ := caseFile?_of_row hr
  obtain ⟨x', hx', rfl⟩ := caseFile?_of_row hr'
  have hxx : x' ≠ x := fun heq => hne (by rw [heq])
  obtain ⟨path, hmove, hhist, hlast⟩ := I.caseMove h hs hx hx' hxx
  rw [hinv.statuses hx, hinv'.statuses hx']
  refine ⟨path, hmove, hlast, ?_, hhist⟩
  rw [(hinv'.reached hx').consistent.version, (hinv.reached hx).consistent.version, hhist,
    List.length_append]

/-- An approval. -/
theorem cases_move_along_approval :
    ∃ path, (awaitingHumanReview, path) ∈ caseMoves ∧ path.getLast? = some approved ∧
      6 = 5 + path.length ∧
      (Sample.approvedWorld.db.versionsOf Sample.loanId).map ApplicationVersionRow.status =
        (Sample.deciding.db.versionsOf Sample.loanId).map ApplicationVersionRow.status ++ path := by
  obtain ⟨hstep, hbefore, hafter⟩ := Sample.approval_moves
  exact cases_move_along Sample.installation Sample.reachable_deciding
    (World.step_eq_follow hstep) hbefore hafter (by decide)

/-! ### Activities and the workflow that is attached -/

/-- **An attempt finds its case where the activity starts from**, or the key of the activity is
taken. -/
theorem Steered.found {d : Database} {T : Temporal} (h : Steered d T) {e : WorkflowExecution}
    (he : e ∈ T.executions) {info : ActivityInfo} {call : ActivityCall}
    (hknows : e.Knows d info call) {k : Key} (hk : k ∈ call.key? info) :
    d.has k = true ∨ ∃ x, d.caseFile? call.applicationId = some x ∧
      x.row.activeWorkflowId = some info.workflowId ∧ x.row.status = call.source := by
  cases hfree : d.has k with
  | true => exact Or.inl rfl
  | false =>
      obtain ⟨x, hx, -, -, hplaced⟩ := h.placed e he
      obtain ⟨hw, hs⟩ := hplaced.of_free (hknows.underway hk hfree) hk hfree
      refine Or.inr ⟨x, ?_, ?_, hs⟩
      · rw [hknows.applicationId]
        exact hx
      · rw [← hknows.workflowId]
        exact hw

/-- **Activities keep to the workflow that is attached**, whatever attempts are repeated, go on after
they were given up or are not heard of.  No attempt ever raises an `IllegalStateTransitionError`: it
finds the application in the status the activity starts from, or the key of the activity is taken.
And what an attempt changes the status of is the application of its workflow, which is attached to it;
the application goes one of its moves. -/
theorem activities_keep_to_workflow (I : Installation) {w : World temporal}
    (h : Reachable postgres (I.start temporal Temporal.empty) w) :
    (∀ (i : ℕ) info call ws source target,
      w.tasks[i]? ≠ some ⟨.activity info call, ws, .raise (.illegalStateTransition source target)⟩) ∧
    (∀ (i : ℕ) info call ws p, w.tasks[i]? = some ⟨.activity info call, ws, p⟩ →
      ∀ k ∈ call.key? info, w.db.has k = true ∨
        ∃ r, w.db.application? call.applicationId = some r ∧
          r.activeWorkflowId = some info.workflowId ∧ r.status = call.source) ∧
    ∀ action w' i info call ws, w.step postgres action = some w' →
      w'.log = w.log ++ [⟨i, .activity info call, ws⟩] →
      ∀ r r', w.db.application? r.applicationId = some r →
        w'.db.application? r.applicationId = some r' → r'.status ≠ r.status →
        (∃ e ∈ w.ext.executions, e.workflowId = info.workflowId ∧
          e.input.applicationId = r.applicationId) ∧
        r.activeWorkflowId = some info.workflowId ∧ r.status = call.source ∧
        ∃ path, path.getLast? = some r'.status ∧
          (r.status :: path).IsChain fun s s' => isLegalTransition s s' = true := by
  obtain ⟨hsound, hguided⟩ := I.guided h
  refine ⟨fun i info call ws source target ht => ?_, fun i info call ws p ht k hk => ?_, ?_⟩
  · exact (hguided.tasks i _ ht).2 source target rfl
  · obtain ⟨⟨e, he, hknows⟩, -⟩ := hguided.tasks i _ ht
    rcases hguided.steered.found he hknows hk with htaken | ⟨x, hx, hw, hs⟩
    · exact Or.inl htaken
    · exact Or.inr ⟨x.row, caseFile?_row hx, hw, hs⟩
  · intro action w' i info call ws hs hlog r r' hr hr' hne
    obtain ⟨x, hx, hxr⟩ := caseFile?_of_row hr
    obtain ⟨x', hx', rfl⟩ := caseFile?_of_row hr'
    have hxx : x' ≠ x := fun heq => hne (by rw [heq, hxr])
    obtain ⟨happ, hw, hst, c, hruns, hm⟩ := I.moved_by_activity h hs hlog hx hx' hxx
    obtain ⟨t, k, ht, -, hkind, -⟩ := World.committed_of_log hs hlog
    have htask := hguided.tasks i t ht
    obtain ⟨κ, vs, p⟩ := t
    subst hkind
    obtain ⟨⟨e, he, hknows⟩, -⟩ := htask
    obtain ⟨path, hmove, hhist⟩ := hruns.caseMove hm hst
    have hlast := ((I.sound (h.tail trivial hs)).inv.reached hx').consistent.last
    rw [hhist, List.getLast?_append_of_ne_nil _ (nonempty_of_caseMoves _ hmove)] at hlast
    rw [hxr] at hw hst hmove
    exact ⟨⟨e, he, hknows.workflowId, by rw [← hknows.applicationId, happ]⟩, hw, hst, path, hlast,
      legal_of_caseMoves _ hmove⟩

/-- The attempt at the intake finds the application as it was submitted, and commits. -/
theorem activities_keep_to_workflow_validating :
    (∀ (i : ℕ) info call ws p,
      Sample.validating.tasks[i]? = some ⟨.activity info call, ws, p⟩ →
      ∀ k ∈ call.key? info, Sample.validating.db.has k = true ∨
        ∃ r, Sample.validating.db.application? call.applicationId = some r ∧
          r.activeWorkflowId = some info.workflowId ∧ r.status = call.source) ∧
    ∃ i info call ws,
      Sample.validated.log = Sample.validating.log ++ [⟨i, .activity info call, ws⟩] ∧
      (∃ e ∈ Sample.validating.ext.executions, e.workflowId = info.workflowId ∧
        e.input.applicationId = Sample.loanId) ∧
      some Sample.workflowId = some info.workflowId ∧ submitted = call.source ∧
      ∃ path, path.getLast? = some documentProcessing ∧
        (submitted :: path).IsChain fun s s' => isLegalTransition s s' = true := by
  obtain ⟨-, hfound, hcommits⟩ :=
    activities_keep_to_workflow Sample.installation Sample.reachable_validating
  obtain ⟨i, info, call, ws, hlog⟩ := Sample.validated_logged
  have hmoved := hcommits (.advance 2 (Sample.answers 61)) Sample.validated i info call ws
    (World.step_eq_follow Sample.validated_step) hlog
    (Sample.loanRow submitted 2 (some Sample.workflowId))
    (Sample.loanRow documentProcessing 4 (some Sample.workflowId)) (by decide +kernel)
    (by decide +kernel) (by decide)
  exact ⟨hfound, i, info, call, ws, hlog, hmoved⟩

/-! ### Review follows verification -/

/-- A verification of the application was recorded. -/
def Database.HasRun (d : Database) (a : ApplicationId) : Prop :=
  ∃ run ∈ d.verificationRuns, run.applicationId = a

theorem change_verificationRun? (t : TenantId) (s : Statement) (r : Row) :
    (s.change t r).verificationRun? = r.verificationRun? := by
  cases s <;> cases r <;> rfl

theorem Database.HasRun.view {d : Database} {a : ApplicationId} (h : d.HasRun a)
    (ws : List Write) : (postgres.view d ws).HasRun a := by
  obtain ⟨run, hrun, ha⟩ := h
  refine ⟨run, ?_, ha⟩
  rw [Database.verificationRuns, filterMap_view _ change_verificationRun?]
  exact List.mem_append_left _ hrun

/-- **Where the verification is recorded**: once its key is taken, and before its workflow enters
the review. -/
structure Verified (d : Database) (T : Temporal) : Prop where
  keyed : ∀ t info, d.has (.idempotencyKey t verifyApplicationFactsOperation
      (idempotencyKey info)) = true →
    ∀ e ∈ T.executions, e.workflowId = info.workflowId → d.HasRun e.input.applicationId
  entering : ∀ e ∈ T.executions, ∀ input,
    e.state.flow.call? = some (.enterHumanReview input) → d.HasRun e.input.applicationId
  reviewed : ∀ a x, d.caseFile? a = some x →
    (ApplicationStatus.verification, awaitingHumanReview) ∈ statusChanges x.history → d.HasRun a

/-- A command under the operation of the verification records a run. -/
theorem ActivityCall.Runs.records {info : ActivityInfo} {call : ActivityCall} {c : Command}
    (h : call.Runs info c) (hop : c.operationName = verifyApplicationFactsOperation)
    {d₀ d : Database} {ws : List Write} (hc : c.Commits d₀ d ws) :
    (postgres.view d ws).HasRun call.applicationId := by
  cases h with
  | verifyFacts ctx =>
      obtain ⟨-, w, hw, run, hins, ha⟩ := hc.effect
      refine ⟨run, ?_, ha⟩
      rw [Database.verificationRuns, filterMap_view _ change_verificationRun?]
      exact List.mem_append_right _ (List.mem_filterMap.2 ⟨w, hw, by rw [hins]; rfl⟩)
  | validateIntake ctx =>
      exact absurd hop (by decide :
        advanceIntakeValidationOperation ≠ verifyApplicationFactsOperation)
  | checkRequiredDocuments ctx =>
      exact absurd hop (by decide :
        advanceDocumentProcessingOperation ≠ verifyApplicationFactsOperation)
  | extractDocumentFacts ctx documentId =>
      exact absurd hop (by decide : processDocumentOperation ≠ verifyApplicationFactsOperation)
  | enterHumanReview input =>
      exact absurd hop (by decide : enterHumanReviewOperation ≠ verifyApplicationFactsOperation)
  | applyReviewDecision input decision hd =>
      exact absurd hop (by decide :
        applyReviewDecisionOperation ≠ verifyApplicationFactsOperation)

section Verified

variable {d : Database} {T T' : Temporal}

/-- **A commit keeps where the verification is recorded.** -/
theorem Verified.commit (h : Verified d T) (hsteered : Steered d T) (hd : InOrder d)
    {c : Command} {d₀ : Database} {ws : List Write} (hg : postgres.Granted d ws) (ha : Acts d T c)
    (hc : c.Commits d₀ d ws) : Verified (postgres.view d ws) T := by
  refine ⟨?_, fun e he input hinput => (h.entering e he input hinput).view ws, ?_⟩
  · intro t info hk e he hid
    rcases (hc.has_idempotencyKey _ _ _).1 hk with hold | hnew
    · exact (h.keyed t info hold e he hid).view ws
    · obtain ⟨e', he', call, hknows, hruns, -⟩ := ha.of_key (by simp [activityOperations]) hnew
      obtain rfl := hsteered.unique he' he (hknows.workflowId.trans hid.symm)
      rw [← hknows.applicationId]
      exact hruns.records (Key.idempotencyKey.inj hnew).2.1.symm hc
  · intro a x' hx' hmem
    cases hx : d.caseFile? a with
    | none =>
        rw [hc.created hx hx'] at hmem
        cases hmem
    | some x =>
        by_cases hne : x' = x
        · subst hne
          exact (h.reviewed a x' hx hmem).view ws
        rcases hsteered.moved hd hg ha hc hx hx' hne with
          ⟨-, -, s, hhist, hsub⟩ | ⟨e, he, info, call, hcall, hruns, -, happ, -, hst, hm⟩
        · rw [hhist, statusChanges_append (hd.reached hx).consistent.last] at hmem
          rcases List.mem_append.1 hmem with hmem | hmem
          · exact (h.reviewed a x hx hmem).view ws
          · -- a submission does not enter review
            obtain ⟨-, rfl⟩ := Prod.mk.inj (List.mem_singleton.1 hmem)
            simp [isSubmission] at hsub
        · obtain ⟨hflow, -⟩ := WorkflowExecution.underway?_eq_some.1 hcall
          obtain ⟨path, hmove, hhist⟩ := hruns.caseMove hm hst
          rw [hhist, statusChanges_append (hd.reached hx).consistent.last] at hmem
          rcases List.mem_append.1 hmem with hmem | hmem
          · exact (h.reviewed a x hx hmem).view ws
          · -- only the activity that enters the review moves a case on from the verification
            have hfrom : x.row.status = ApplicationStatus.verification := by
              have hall : ∀ m ∈ caseMoves, ∀ change ∈ statusChanges (m.1 :: m.2),
                  change = (ApplicationStatus.verification, awaitingHumanReview) →
                  m.1 = ApplicationStatus.verification := by decide
              exact hall _ hmove _ hmem rfl
            rw [hfrom] at hst
            cases hruns with
            | enterHumanReview input => exact happ ▸ (h.entering e he input hflow).view ws
            | verifyFacts ctx => cases hm
            | extractDocumentFacts ctx documentId => cases hm
            | validateIntake ctx => cases hst
            | checkRequiredDocuments ctx => cases hst
            | applyReviewDecision input decision hd => cases hst

/-- **An event keeps where the verification is recorded**: the review is entered after the
verification was answered. -/
theorem Verified.happen (h : Verified d T) (hsteered : Steered d T) {workflowId : String}
    {event : Event ActivityCall.Result ReviewDecisionSignal}
    (hhappen : T.happen workflowId event = some T')
    (htold : ∀ e, T.execution? workflowId = some e → Told d e event) : Verified d T' := by
  obtain ⟨e, state, hfound, hnext, hup, -⟩ := Temporal.happen_cases hsteered.ids hhappen
  have he := hup.mem
  refine ⟨?_, ?_, h.reviewed⟩
  · intro t info hk f hf hid
    rcases hup.cases f hf with rfl | ⟨hf, -⟩
    · exact h.keyed t info hk e he hid
    · exact h.keyed t info hk f hf hid
  · intro f hf input hinput
    rcases hup.cases f hf with rfl | ⟨hf, -⟩
    · have hpos := hsteered.position e he
      cases (Execution.next_cases hnext).2 with
      | resume k s hflow hs => rw [hflow] at hpos; cases hpos; cases hinput
      | timeout k hflow hs => rw [hflow] at hpos; cases hpos; cases hinput
      | answer c k r hflow =>
          have hunder : e.underway? = some (⟨e.workflowId, e.state.answered + 1⟩, c) :=
            WorkflowExecution.underway?_eq_some.2 ⟨by rw [hflow]; rfl, rfl⟩
          obtain ⟨hdone, -⟩ := htold e hfound _ hunder
          rw [hflow] at hpos
          change (k r).call? = _ at hinput
          cases hpos with
          | verifying => exact h.keyed _ _ (hdone _ rfl) e he rfl
          | validating => dsimp only at hinput; split at hinput <;> cases hinput
          | checking => dsimp only at hinput; split at hinput <;> cases hinput
          | _ => cases hinput
      | _ => exact h.entering e he input hinput
    · exact h.entering f hf input hinput

/-- An execution that is started has verified nothing, and no key of it is taken. -/
theorem Verified.start (h : Verified d T) (hsteered : Steered d T) {t : TenantId}
    {a : ApplicationId} {v : ℕ} {s : ApplicationStatus} (hsub : Submitted d t a v s) :
    Verified d (T.startWorkflow (applicationWorkflowId t a v) ⟨t, a, v, s.value⟩) := by
  cases hfound : T.execution? (applicationWorkflowId t a v) with
  | some e =>
      simp only [Temporal.startWorkflow, hfound]
      exact h
  | none =>
      simp only [Temporal.startWorkflow, hfound]
      have hnew := Temporal.execution?_none hfound
      refine ⟨?_, ?_, h.reviewed⟩
      · intro t' info hk e he hid
        rcases List.mem_append.1 he with he | he
        · exact h.keyed t' info hk e he hid
        · obtain rfl := List.mem_singleton.1 he
          obtain ⟨e', he', hid', -⟩ := hsteered.taken t' _ info (by simp [activityOperations]) hk
          exact absurd (hid'.trans hid.symm) (hnew e' he')
      · intro e he input hinput
        rcases List.mem_append.1 he with he | he
        · exact h.entering e he input hinput
        · obtain rfl := List.mem_singleton.1 he
          obtain ⟨call, hcall, hsource⟩ := hsub.begins
          rw [show (Execution.start (ApplicationWorkflow.run ⟨t, a, v, s.value⟩)).flow.call? =
            some call from hcall] at hinput
          cases hinput
          rcases hsource with hs | hs <;> cases hs

end Verified

/-- Where verifications are recorded, in every world that is reached. -/
theorem Installation.verified (I : Installation) {ok : World temporal → Action temporal → Prop}
    {w : World temporal} (h : Reaches postgres ok (I.start temporal Temporal.empty) w) :
    Verified w.db w.ext := by
  refine I.agreement ?_ ?_ h
  · refine ⟨?_, by simp [Temporal.empty], ?_⟩
    · intro t info _ e he
      cases he
    · intro a x hx
      rw [Database.caseFile?, I.slice] at hx
      cases hx
  · intro tasks d T d' T' hd hsteered hev ih
    cases hev with
    | idle => exact ih
    | commit c d₀ ws hg ha hc => exact ih.commit hsteered hd hg ha hc
    | start t a v s hsub => exact ih.start hsteered hsub
    | event workflowId event T' hhappen hno htold hanswer => exact ih.happen hsteered hhappen htold
    | signal κ hκ d₀ workflowId decision reason reviewerId T' hasks hsignal =>
        obtain ⟨T'', hhappen, rfl⟩ := Temporal.signal_cases hsignal
        have hkept := ih.happen hsteered hhappen fun _ _ => trivial
        exact ⟨hkept.keyed, hkept.entering, hkept.reviewed⟩

/-- **What enters review from the verification was verified**: an application whose snapshots show
the review right after the verification has a verification on record, in every world from then on. -/
theorem review_follows_verification (I : Installation) {w : World temporal}
    (h : Reachable postgres (I.start temporal Temporal.empty) w) {a : ApplicationId}
    (hchange : (ApplicationStatus.verification, awaitingHumanReview) ∈
      statusChanges ((w.db.versionsOf a).map ApplicationVersionRow.status)) :
    ∃ run ∈ w.db.verificationRuns, run.applicationId = a := by
  have hinv := (I.guided h).1.inv
  rcases hinv.slices a with hempty | ⟨x, events, htells⟩
  · have hnone : w.db.versionsOf a = [] := congrArg Slice.versions hempty
    rw [hnone] at hchange
    cases hchange
  · have hx : w.db.caseFile? a = some x := htells.caseFile?
    rw [hinv.statuses hx] at hchange
    exact (I.verified h).reviewed a x hx hchange

namespace Sample

/-- External systems that accept a document and find no facts in it. -/
def accepting (n : ℕ) : (q : Ask) → Answer q
  | .scan .. => .ok ⟨"application/pdf", 1⟩
  | .putObject _ key _ contentType => .ok ⟨key, "", 1, contentType⟩
  | .getObjectMetadata _ key => .ok ⟨key, "", 1, "application/pdf"⟩
  | .getObject .. => .ok [0]
  | .extractText .. => .ok []
  | .classify _ => .ok .identityDocument
  | .extractFacts .. => .ok []
  | q => answers n q

/-- Task `i` takes `count` steps. -/
def acceptingSteps (i n count : ℕ) : List (Action temporal) :=
  (List.range' n count).map fun m => .advance i (accepting m)

/-- An application with a document is submitted, and its workflow takes it to the review. -/
def verifiedWorld : World temporal :=
  (installation.start temporal Temporal.empty).follow postgres
    (.spawn (.command (.createApplication create)) :: acceptingSteps 0 0 18 ++
     .spawn (.command (.uploadDocument ⟨tenantId, loanId, "upload-1", "identity", "id.pdf",
      "application/pdf", [0]⟩)) :: acceptingSteps 1 18 15 ++
     .spawn (.command (.submitApplication ⟨tenantId, loanId, "submit-1"⟩)) ::
      acceptingSteps 2 33 17 ++
     .spawn (.activity ⟨workflowId, 1⟩ (.validateIntake ⟨tenantId, loanId⟩)) ::
      acceptingSteps 3 50 27 ++
     .tick (TemporalTick.complete workflowId 3) ::
     .spawn (.activity ⟨workflowId, 2⟩ (.checkRequiredDocuments ⟨tenantId, loanId⟩)) ::
      acceptingSteps 4 77 17 ++
     .tick (TemporalTick.complete workflowId 4) ::
     .spawn (.activity ⟨workflowId, 3⟩ (.extractDocumentFacts ⟨tenantId, loanId⟩)) ::
      acceptingSteps 5 94 13 ++
     .tick (TemporalTick.complete workflowId 5) ::
     .spawn (.activity ⟨workflowId, 4⟩ (.verifyFacts ⟨tenantId, loanId⟩)) ::
      acceptingSteps 6 107 13 ++
     .tick (TemporalTick.complete workflowId 6) ::
     .spawn (.activity ⟨workflowId, 5⟩ (.enterHumanReview ⟨tenantId, loanId,
      "verification complete: 0 matched; 2 insufficient evidence"⟩)) :: acceptingSteps 7 120 18)

end Sample

/-- An application with a document. -/
theorem review_follows_verification_document :
    ∃ run ∈ Sample.verifiedWorld.db.verificationRuns, run.applicationId = Sample.loanId :=
  review_follows_verification Sample.installation (reachable_follow _ _)
    (show _ ∈ statusChanges ((Sample.verifiedWorld.db.versionsOf Sample.loanId).map
      ApplicationVersionRow.status) by decide +kernel)

/-! ### The first outcome since a submission -/

/-- **The first outcome since version `v`** is `decision`, with version `n`. -/
structure FirstOutcome (history : List ApplicationStatus) (v n : ℕ)
    (decision : ApplicationStatus) : Prop where
  after : v < n
  status : history[n - 1]? = some decision
  outcome : decision ∈ reviewOutcomes
  first : ∀ m s, v < m → m < n → history[m - 1]? = some s → s ∉ reviewOutcomes

theorem FirstOutcome.le_length {history : List ApplicationStatus} {v n : ℕ}
    {decision : ApplicationStatus} (h : FirstOutcome history v n decision) :
    n ≤ history.length := by
  have := (List.getElem?_eq_some_iff.1 h.status).1
  omega

/-- It stays the first one. -/
theorem FirstOutcome.mono {history history' : List ApplicationStatus} {v n : ℕ}
    {decision : ApplicationStatus} (h : FirstOutcome history v n decision)
    (hpre : history <+: history') : FirstOutcome history' v n decision := by
  obtain ⟨rest, rfl⟩ := hpre
  have hle := h.le_length
  have hafter := h.after
  refine ⟨hafter, ?_, h.outcome, fun m s hm hn hs => ?_⟩
  · rw [List.getElem?_append_left (by omega)]
    exact h.status
  · rw [List.getElem?_append_left (by omega)] at hs
    exact h.first m s hm hn hs

namespace CaseFile

/-- **A case since its submission with version `v`**: the workflow of that submission is attached and
there was no outcome, or it is detached and there was a first one. -/
def Since (v : ℕ) (x : CaseFile) : Prop :=
  v ≤ x.history.length ∧
  ((x.row.activeWorkflowId =
      some (applicationWorkflowId x.row.tenantId x.row.applicationId v) ∧
      ∀ m s, v < m → x.history[m - 1]? = some s → s ∉ reviewOutcomes) ∨
    (x.Detached v ∧ ∃ n decision, FirstOutcome x.history v n decision))

/-- A case that moves on with its workflow, through no outcome. -/
theorem Since.along {v : ℕ} {x : CaseFile} (h : x.Since v) (hx : x.Reached)
    {path : List ApplicationStatus} {at' : DateTime} {review : Option ReviewQueueEntryRow}
    (hs : x.Step (x.move path at' x.row.activeWorkflowId review))
    (hpath : ∀ s ∈ path, s ∉ reviewOutcomes) :
    (x.move path at' x.row.activeWorkflowId review).Since v := by
  obtain ⟨hv, ⟨hw, hno⟩ | ⟨hdet, n, decision, hfirst⟩⟩ := h
  · refine ⟨hv.trans hs.length_lt.le, Or.inl ⟨hw, fun m s hm hmem => ?_⟩⟩
    rw [CaseFile.move, List.getElem?_append] at hmem
    split at hmem
    next => exact hno m s hm hmem
    next => exact hpath s (List.mem_of_getElem? hmem)
  · exact ⟨hv.trans hs.length_lt.le, Or.inr ⟨hs.detached hx.consistent hdet, n, decision,
      hfirst.mono hs.history_prefix⟩⟩

/-- A case that is submitted again has had its outcome. -/
theorem Since.resubmitted {v : ℕ} {x x' : CaseFile} (h : x.Since v) (hx : x.Reached)
    (hs : x.Step x') (hnone : x.row.activeWorkflowId = none) : x'.Since v := by
  obtain ⟨hv, ⟨hw, -⟩ | ⟨hdet, n, decision, hfirst⟩⟩ := h
  · rw [hnone] at hw
    cases hw
  · exact ⟨hv.trans hs.length_lt.le, Or.inr ⟨hs.detached hx.consistent hdet, n, decision,
      hfirst.mono hs.history_prefix⟩⟩

/-- **Every step goes on from the submission.** -/
theorem Since.step {v : ℕ} {x x' : CaseFile} (h : x.Since v) (hx : x.Reached) (hs : x.Step x') :
    x'.Since v := by
  have hunattached := hx.consistent.unattached
  cases hs with
  | submit at' hlegal =>
      exact h.resubmitted hx (.submit at' hlegal) (hunattached (Or.inl (legal_submitted_iff.1 hlegal)))
  | resubmit at' hlegal =>
      exact h.resubmitted hx (.resubmit at' hlegal) (hunattached (Or.inr (hx.resubmission hlegal)))
  | acceptIntake at' hlegal => exact h.along hx (.acceptIntake at' hlegal) (by decide)
  | flagIntake at' enteredQueueAt hlegal hr =>
      exact h.along hx (.flagIntake at' enteredQueueAt hlegal hr) (by decide)
  | startVerification at' hlegal => exact h.along hx (.startVerification at' hlegal) (by decide)
  | enterReview at' enteredQueueAt hlegal hr =>
      exact h.along hx (.enterReview at' enteredQueueAt hlegal hr) (by decide)
  | decide decision reason reviewerId at' decidedAt entry hd hlegal hr =>
      have hs := Step.decide decision reason reviewerId at' decidedAt entry hd hlegal hr
      obtain ⟨hv, ⟨hw, hno⟩ | ⟨hdet, n, decision', hfirst⟩⟩ := h
      · refine ⟨hv.trans hs.length_lt.le, Or.inr ⟨⟨hv.trans hs.length_lt.le, by simp [CaseFile.move]⟩,
          x.history.length + 1, decision, ?_, ?_, hd, ?_⟩⟩
        · omega
        · simp [CaseFile.move]
        · intro m s hm hn hmem
          rw [CaseFile.move, List.getElem?_append_left (by omega)] at hmem
          exact hno m s hm hmem
      · exact ⟨hv.trans hs.length_lt.le, Or.inr ⟨hs.detached hx.consistent hdet, n, decision',
          hfirst.mono hs.history_prefix⟩⟩

theorem Since.steps {v : ℕ} {x x' : CaseFile} (h : x.Since v) (hx : x.Reached)
    (hs : x.Steps x') : x'.Since v := by
  induction hs with
  | refl => exact h
  | tail hs' hs ih => exact ih.step (hx.steps hs') hs

end CaseFile

/-- **Every execution goes on from its submission.** -/
theorem Installation.since (I : Installation) {ok : World temporal → Action temporal → Prop}
    {w : World temporal} (h : Reaches postgres ok (I.start temporal Temporal.empty) w) :
    ∀ e ∈ w.ext.executions, ∃ x, w.db.caseFile? e.input.applicationId = some x ∧
      x.Since e.input.version := by
  refine I.agreement (P := fun d T => ∀ e ∈ T.executions,
    ∃ x, d.caseFile? e.input.applicationId = some x ∧ x.Since e.input.version) ?_ ?_ h
  · intro e he
    cases he
  intro tasks d T d' T' hd hsteered hev ih
  have hhappen : ∀ {T''} {workflowId event}, T.happen workflowId event = some T'' →
      ∀ e ∈ T''.executions, ∃ x, d.caseFile? e.input.applicationId = some x ∧
        x.Since e.input.version := by
    intro T'' workflowId event hh e he
    obtain ⟨e', state, -, -, hup, -⟩ := Temporal.happen_cases hsteered.ids hh
    rcases hup.cases e he with rfl | ⟨he, -⟩
    · exact ih e' hup.mem
    · exact ih e he
  cases hev with
  | idle => exact ih
  | commit c d₀ ws hg ha hc =>
      intro e he
      obtain ⟨x, hx, hsince⟩ := ih e he
      obtain ⟨x', hx', hs⟩ := (hc.keeps hd hg).2.cases _ x hx
      exact ⟨x', hx', hsince.steps (hd.reached hx) hs⟩
  | event workflowId event T' hh hno htold hanswer => exact hhappen hh
  | signal κ hκ d₀ workflowId decision reason reviewerId T' hasks hsignal =>
      obtain ⟨T'', hh, rfl⟩ := Temporal.signal_cases hsignal
      exact fun e he => hhappen hh e he
  | start t a v s hsub =>
      cases hfound : T.execution? (applicationWorkflowId t a v) with
      | some e =>
          simp only [Temporal.startWorkflow, hfound]
          exact ih
      | none =>
          simp only [Temporal.startWorkflow, hfound]
          intro e he
          rcases List.mem_append.1 he with he | he
          · exact ih e he
          obtain rfl := List.mem_singleton.1 he
          obtain ⟨x, hx, hxt, hlen, -, hw, -⟩ :=
            hsteered.unmoved hsub (Temporal.execution?_none hfound)
          obtain ⟨events, htells⟩ := hd.tells hx
          have hid : x.row.applicationId = a := htells.id
          refine ⟨x, hx, hlen.ge, Or.inl ⟨by rw [hxt, hid]; exact hw, ?_⟩⟩
          intro m s' hm hmem
          change v < m at hm
          rw [List.getElem?_eq_none (by omega)] at hmem
          cases hmem

/-! ### What an attempt returns -/

/-- What an attempt that applies a decision says: the row as it is. -/
def Kind.Says : (κ : Kind) → κ.Result → Database → Prop
  | .activity _ (.applyReviewDecision input), r, d =>
      ∃ row, d.application? input.applicationId = some row ∧ r.status = row.status.value ∧
        r.version = row.version
  | _, _, _ => True

/-- **Applying a decision returns the row as it is then**, also if it was applied before. -/
theorem applyReviewDecisionActivity_returns (info : ActivityInfo)
    (input : ApplyReviewDecisionActivityInput) (d₀ : Database) :
    casework.wp ((ActivityCall.applyReviewDecision input).contract info d₀)
      (applyReviewDecisionActivity info input)
      (fun r _ d => Kind.Says (.activity info (.applyReviewDecision input)) r d) [] d₀ := by
  cases hd : ofValue? input.decision with
  | none =>
      rw [applyReviewDecisionActivity_none info hd]
      trivial
  | some decision =>
      rw [applyReviewDecisionActivity_some info hd]
      refine wp_orIfDuplicate (.applyReviewDecision input decision hd) (Onward.refl d₀) ?_ ?_
      · refine wp_seq _ (wp_mono _ ?_ (applyReviewDecision_returns _ d₀))
        rintro r ws d ⟨-, row, hrow, hs, hv⟩
        exact ⟨row, hrow, congrArg ApplicationStatus.value hs, hv⟩
      · intro d _ _
        refine wp_seq _ (wp_seq _ (wp_findApplication (by simp) (fun _ _ => trivial)
          fun x d' _ hx _ => ?_))
        exact ⟨x.row, caseFile?_row hx, rfl, rfl⟩

/-- The outline, with what an applied decision returns. -/
def sayingOutline : Outline programs casework where
  contract := outline.contract
  returns κ d₀ r d := outline.returns κ d₀ r d ∧ κ.Says r d
  verified := by
    intro κ d₀ h₀
    refine wp_and _ (outline.verified κ d₀ h₀) ?_
    have htrue : casework.wp (outline.contract κ d₀) κ.prog (fun _ _ _ => True) [] d₀ :=
      wp_mono _ (fun _ _ _ _ => trivial) (outline.verified κ d₀ h₀)
    cases κ with
    | activity info call =>
        cases call with
        | applyReviewDecision input => exact applyReviewDecisionActivity_returns info input d₀
        | _ => exact htrue
    | _ => exact htrue
  commit_ok := outline.commit_ok

/-! ### What a workflow returns -/

/-- **What a result says**: a status the application has had, with its version, since the first
outcome after the submission. -/
def WorkflowExecution.Concludes (e : WorkflowExecution) (d : Database) (status : String)
    (version : ℕ) : Prop :=
  ∃ x n decision s, d.caseFile? e.input.applicationId = some x ∧
    FirstOutcome x.history e.input.version n decision ∧ n ≤ version ∧
    x.history[version - 1]? = some s ∧ status = s.value

theorem WorkflowExecution.Concludes.mono {e : WorkflowExecution} {d d' : Database}
    {status : String} {version : ℕ} (h : e.Concludes d status version) (hon : Onward d d') :
    e.Concludes d' status version := by
  obtain ⟨x, n, decision, s, hx, hfirst, hle, hs, rfl⟩ := h
  obtain ⟨x', hx', hsteps⟩ := hon.cases _ x hx
  have hpre := CaseFile.Steps.history_prefix hsteps
  refine ⟨x', n, decision, s, hx', hfirst.mono hpre, hle, ?_, rfl⟩
  obtain ⟨rest, hrest⟩ := hpre
  rw [← hrest, List.getElem?_append_left (List.getElem?_eq_some_iff.1 hs).1]
  exact hs

/-- What an attempt that has applied a decision has returned. -/
def WorkflowExecution.Learns (e : WorkflowExecution) (d : Database) :
    (call : ActivityCall) → call.Result → Prop
  | .applyReviewDecision _, r => e.Concludes d r.status r.version
  | _, _ => True

/-- What is known of the result of a task. -/
def TaskLearns (d : Database) (T : Temporal) : Task programs → Prop
  | ⟨.activity info call, _, .ret r⟩ =>
      ∀ e ∈ T.executions, e.underway? = some (info, call) → e.Learns d call r
  | _ => True

theorem WorkflowExecution.Learns.mono {e : WorkflowExecution} {d d' : Database}
    {call : ActivityCall} {r : call.Result} (h : e.Learns d call r) (hon : Onward d d') :
    e.Learns d' call r := by
  cases call with
  | applyReviewDecision input => exact WorkflowExecution.Concludes.mono h hon
  | _ => trivial

/-- **A decision that was applied has detached the workflow.** -/
theorem WorkflowExecution.Placed.applied {e : WorkflowExecution} {d : Database} {x : CaseFile}
    (h : e.Placed d x) {info : ActivityInfo} {input : ApplyReviewDecisionActivityInput}
    (hc : e.underway? = some (info, .applyReviewDecision input))
    (hdone : (ActivityCall.applyReviewDecision input).Done info d) :
    x.Detached e.input.version := by
  cases h with
  | before info' call hc' k hk hfree hw hs =>
      rw [hc] at hc'
      cases hc'
      rw [hdone k hk] at hfree
      cases hfree
  | after info' call hc' hdone' hw hs =>
      rw [hc] at hc'
      cases hc'
      cases hs
  | waiting hf hw hs =>
      obtain ⟨hcall, -⟩ := underway?_eq_some.1 hc
      rw [hf] at hcall
      cases hcall
  | decided hd hx => exact hx

/-- **What an attempt returns is what became of the application.** -/
theorem learns_of_live {w : World temporal} (hinv : InOrder w.db) (hsteered : Steered w.db w.ext)
    (hsince : ∀ e ∈ w.ext.executions, ∃ x, w.db.caseFile? e.input.applicationId = some x ∧
      x.Since e.input.version)
    {t : Task programs} {ws : List Write} {p : Handler (programs.Result t.kind)}
    (hlive : sayingOutline.Live (fun _ _ => True) t ws p w.db) :
    TaskLearns w.db w.ext (t.goto ws p) := by
  obtain ⟨κ, vs, p₀⟩ := t
  cases κ with
  | activity info call =>
      cases p with
      | ret r =>
          intro e he hcall
          cases call with
          | applyReviewDecision input =>
              obtain ⟨d₀, -, -, ⟨hdone, -⟩, row, hrow, hstatus, hversion⟩ := hlive
              obtain ⟨x, hx, hv, hcases⟩ := hsince e he
              obtain ⟨x', hx', -, -, hplaced⟩ := hsteered.placed e he
              rw [hx] at hx'
              cases hx'
              have hdet := hplaced.applied hcall hdone
              obtain ⟨happ, -⟩ :=
                WorkflowExecution.underway_about (hsteered.position e he) hcall
              change input.applicationId = _ at happ
              rw [happ, caseFile?_row hx] at hrow
              cases hrow
              rcases hcases with ⟨hw, -⟩ | ⟨-, n, decision, hfirst⟩
              · exact absurd hw hdet.2
              · have hcons := (hinv.reached hx).consistent
                refine ⟨x, n, decision, x.row.status, hx, hfirst, ?_, ?_, hstatus⟩
                · rw [hversion, hcons.version]
                  exact hfirst.le_length
                · rw [hversion, hcons.version, ← List.getLast?_eq_getElem?]
                  exact hcons.last
          | _ => trivial
      | _ => trivial
  | _ => trivial

/-- What is known of a result stays so. -/
theorem TaskLearns.evolves {tasks : List (Task programs)} {d d' : Database} {T T' : Temporal}
    {t : Task programs} (h : TaskLearns d T t) (hguided : TaskGuided d T t) (hsteered : Steered d T)
    (hd : InOrder d) (hev : Evolves tasks d T d' T') : TaskLearns d' T' t := by
  obtain ⟨κ, ws, p⟩ := t
  cases κ with
  | activity info call =>
      cases p with
      | ret r =>
          intro g hg hcall
          obtain ⟨⟨f, hf, hknows⟩, -⟩ := hguided
          obtain ⟨e, he, hcall', hinput⟩ := hknows.before hsteered hf hev hg hcall
          have hlearns := (h e he hcall').mono (hev.onward hd)
          cases call with
          | applyReviewDecision input =>
              change WorkflowExecution.Concludes _ _ _ _ at hlearns ⊢
              unfold WorkflowExecution.Concludes at hlearns ⊢
              rw [← hinput]
              exact hlearns
          | _ => trivial
      | _ => trivial
  | _ => trivial

/-- **What is known of results**: of those of the attempts, and of those of the workflows. -/
structure Concluded (w : World temporal) : Prop where
  tasks : ∀ t ∈ w.tasks, TaskLearns w.db w.ext t
  results : ∀ e ∈ w.ext.executions, ∀ result, e.state.flow = .ret result →
    e.Concludes w.db result.finalStatus result.finalVersion

/-- The results of the workflows after an event: one that has ended has returned what the attempt
that it was told of has. -/
theorem Concluded.happen {w : World temporal} (h : Concluded w) (hsteered : Steered w.db w.ext)
    {T' : Temporal} {workflowId : String} {event : Event ActivityCall.Result ReviewDecisionSignal}
    (hhappen : w.ext.happen workflowId event = some T')
    (hanswer : ∀ e call r, w.ext.execution? workflowId = some e → event = .answer call r →
      ∃ t ∈ w.tasks, activityAnswer? e t = some event) :
    ∀ e ∈ T'.executions, ∀ result, e.state.flow = .ret result →
      e.Concludes w.db result.finalStatus result.finalVersion := by
  obtain ⟨e, state, hfound, hnext, hup, -⟩ := Temporal.happen_cases hsteered.ids hhappen
  intro f hf result hresult
  rcases hup.cases f hf with rfl | ⟨hf, -⟩
  · have hpos := hsteered.position e hup.mem
    have hold := h.results e hup.mem result
    cases (Execution.next_cases hnext).2 with
    | resume k s hflow hs => rw [hflow] at hpos; cases hpos; cases hresult
    | timeout k hflow hs => rw [hflow] at hpos; cases hpos; cases hresult
    | answer c k r hflow =>
        obtain ⟨t, ht, hevent⟩ := hanswer e c r hfound rfl
        obtain ⟨info, call, ws, r', rfl, heq, hcall⟩ := activityAnswer?_cases hevent
        cases heq
        have hlearns := h.tasks _ ht e hup.mem hcall
        rw [hflow] at hpos
        change k r = _ at hresult
        cases hpos with
        | applying decision =>
            cases hresult
            exact hlearns
        | validating => dsimp only at hresult; split at hresult <;> cases hresult
        | checking => dsimp only at hresult; split at hresult <;> cases hresult
        | _ => cases hresult
    | _ => exact hold hresult
  · exact h.results f hf result hresult

/-- What is known of the results of the workflows stays so. -/
theorem Concluded.results_evolve {w : World temporal} (h : Concluded w) (hd : InOrder w.db)
    (hsteered : Steered w.db w.ext) {d' : Database} {T' : Temporal}
    (hev : Evolves w.tasks w.db w.ext d' T') :
    ∀ e ∈ T'.executions, ∀ result, e.state.flow = .ret result →
      e.Concludes d' result.finalStatus result.finalVersion := by
  cases hev with
  | idle => exact h.results
  | commit c d₀ ws hg ha hc =>
      exact fun e he result hresult => (h.results e he result hresult).mono (hc.keeps hd hg).2
  | event workflowId event T' hhappen hno htold hanswer => exact h.happen hsteered hhappen hanswer
  | signal κ hκ d₀ workflowId decision reason reviewerId T' hasks hsignal =>
      obtain ⟨T'', hhappen, rfl⟩ := Temporal.signal_cases hsignal
      have hresults := h.happen hsteered hhappen (by
        intro e call r _ heq
        cases heq)
      exact hresults
  | start t a v s hsub =>
      cases hfound : w.ext.execution? (applicationWorkflowId t a v) with
      | some e =>
          simp only [Temporal.startWorkflow, hfound]
          exact h.results
      | none =>
          simp only [Temporal.startWorkflow, hfound]
          intro e he result hresult
          rcases List.mem_append.1 he with he | he
          · exact h.results e he result hresult
          · -- a workflow begins with an activity
            obtain rfl := List.mem_singleton.1 he
            obtain ⟨call, hcall, -⟩ := hsub.begins
            rw [show ApplicationWorkflow.run ⟨t, a, v, s.value⟩ = .ret result from hresult] at hcall
            cases hcall

/-- **What is known of results is known in every world that is reached.** -/
theorem Installation.concluded (I : Installation) {ok : World temporal → Action temporal → Prop}
    {w : World temporal} (h : Reaches postgres ok (I.start temporal Temporal.empty) w) :
    Concluded w := by
  induction h with
  | refl => exact ⟨by simp [Installation.start], by simp [Installation.start, Temporal.empty]⟩
  | @tail w w' action h hok hs ih =>
      obtain ⟨hsound, hguided⟩ := I.guided h
      obtain ⟨hsound', hguided'⟩ := I.guided (h.tail hok hs)
      have hsince' := I.since (h.tail hok hs)
      have hsteered := hguided.steered
      have hev := hguided.evolves hsound hs
      have hlive := Outline.sound (O := sayingOutline) (fun _ _ => trivial)
        (show casework.Inv (I.start temporal Temporal.empty).db from I.inOrder) rfl h
      have hkept : ∀ t ∈ w.tasks, TaskLearns w'.db w'.ext t := by
        intro t ht
        obtain ⟨i, hi⟩ := List.getElem?_of_mem ht
        exact (ih.tasks t ht).evolves (hguided.tasks i t hi) hsteered hsound.inv hev
      have hnew : ∀ (t : Task programs) (ws : List Write) (p : Handler (programs.Result t.kind)),
          sayingOutline.Live (fun _ _ => True) t ws p w'.db → TaskLearns w'.db w'.ext (t.goto ws p) :=
        fun t ws p => learns_of_live hsound'.inv hguided'.steered hsince'
      constructor
      · intro u hu
        cases World.step_cases hs with
        | tick τ T' hT => exact hkept u hu
        | spawn κ hκ =>
            rcases List.mem_append.1 hu with hu | hu
            · exact hkept u hu
            · obtain rfl := List.mem_singleton.1 hu
              have hstart := hnew ⟨κ, [], programs.prog κ⟩ [] (programs.prog κ)
                ⟨w.db, trivial, hsound.inv, sayingOutline.verified κ w.db hsound.inv⟩
              simpa [Task.goto] using hstart
        | advance i answers t w' ht hadv =>
            obtain ⟨ws, p, htasks, hl⟩ := hlive.next ht hadv
            rw [htasks] at hu
            rcases List.mem_or_eq_of_mem_set hu with hu | rfl
            · exact hkept u hu
            · exact hnew t ws p hl
        | kill i t ht =>
            rcases List.mem_or_eq_of_mem_set hu with hu | rfl
            · exact hkept u hu
            · obtain ⟨κ, ws, p⟩ := t
              cases κ <;> trivial
      · exact ih.results_evolve hsound.inv hsteered hev

/-- **What follows the first outcome of a case is a resubmission.** -/
theorem Installation.resubmitted_after (I : Installation)
    {ok : World temporal → Action temporal → Prop} {w : World temporal}
    (h : Reaches postgres ok (I.start temporal Temporal.empty) w) {a : ApplicationId} {x : CaseFile}
    (hx : w.db.caseFile? a = some x) {v n : ℕ} {decision : ApplicationStatus}
    (hfirst : FirstOutcome x.history v n decision) (hlt : n < x.history.length) :
    decision = needsMoreInformation ∧ x.history[n]? = some documentProcessing := by
  have hafter := hfirst.after
  obtain ⟨s, hs⟩ : ∃ s, x.history[n]? = some s := ⟨_, List.getElem?_eq_getElem hlt⟩
  have hmem : (decision, s) ∈ statusChanges x.history := by
    refine List.mem_iff_getElem?.2 ⟨n - 1, ?_⟩
    rw [statusChanges, List.getElem?_zip_eq_some, List.getElem?_tail]
    refine ⟨hfirst.status, ?_⟩
    rw [show n - 1 + 1 = n by omega]
    exact hs
  have hpair := I.changes h (P := fun change => change.1 ∈ reviewOutcomes →
    change = (needsMoreInformation, documentProcessing)) (by decide) hx _ hmem hfirst.outcome
  obtain ⟨rfl, rfl⟩ := Prod.mk.inj hpair
  exact ⟨rfl, hs⟩

/-- **What a workflow returns is what became of the application.**  After its submission the
application has had a first outcome, the decision of this workflow; the workflow returns the decision
and its version, or, only if more information was asked for and the application was submitted again
in between, a later version with the status it has had. -/
theorem results_are_faithful (I : Installation) {w : World temporal}
    (h : Reachable postgres (I.start temporal Temporal.empty) w) :
    ∀ e ∈ w.ext.executions, ∀ result, e.state.flow = .ret result →
      ∃ n decision s,
        let statuses := (w.db.versionsOf e.input.applicationId).map ApplicationVersionRow.status
        FirstOutcome statuses e.input.version n decision ∧
        statuses[result.finalVersion - 1]? = some s ∧ result.finalStatus = s.value ∧
        (result.finalVersion = n ∨ (n < result.finalVersion ∧ decision = needsMoreInformation ∧
          statuses[n]? = some documentProcessing)) := by
  intro e he result hresult
  obtain ⟨x, n, decision, s, hx, hfirst, hle, hs, hstatus⟩ := (I.concluded h).results e he result
    hresult
  refine ⟨n, decision, s, ?_⟩
  dsimp only
  rw [(I.guided h).1.inv.statuses hx]
  refine ⟨hfirst, hs, hstatus, ?_⟩
  rcases Nat.eq_or_lt_of_le hle with heq | hlt
  · exact Or.inl heq.symm
  · refine Or.inr ⟨hlt, I.resubmitted_after h hx hfirst ?_⟩
    have hlen := (List.getElem?_eq_some_iff.1 hs).1
    have hafter := hfirst.after
    omega

namespace Sample

/-- The workflow is told, and ends. -/
def ended : World temporal := approvedWorld.follow postgres [.tick (TemporalTick.complete workflowId 5)]

theorem reachable_ended : Reachable postgres (installation.start temporal Temporal.empty) ended :=
  reachable_approvedWorld.trans (reachable_follow _ _)

end Sample

/-- A workflow that has ended. -/
theorem results_are_faithful_ended :
    (Sample.ended.ext.executions.map fun e => e.state.flow.done) = [true] ∧
    ∀ e ∈ Sample.ended.ext.executions, ∀ result, e.state.flow = .ret result →
      ∃ n decision s,
        let statuses := (Sample.ended.db.versionsOf e.input.applicationId).map
          ApplicationVersionRow.status
        FirstOutcome statuses e.input.version n decision ∧
        statuses[result.finalVersion - 1]? = some s ∧ result.finalStatus = s.value ∧
        (result.finalVersion = n ∨ (n < result.finalVersion ∧ decision = needsMoreInformation ∧
          statuses[n]? = some documentProcessing)) :=
  ⟨by decide +kernel, results_are_faithful Sample.installation Sample.reachable_ended⟩

end FinAssist
