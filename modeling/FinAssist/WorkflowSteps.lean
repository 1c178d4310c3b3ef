/-
**Workflows and cases move together.**

Between an application's case and the workflow that is attached to it there is no transaction: the
server keeps the one, the database the other, and an attempt at an activity may commit and not be
heard of, or commit long after it was given up.  What ties them together is the key of the activity
under way.  While it is free the case waits in the status the activity starts from; once it is taken
the case is in a status the activity leads to; and a workflow whose decision was applied is detached
for good.

This module says so, and shows that every commit, every start of an execution and every event of one
keeps it.  The runs of the whole system come in `FinAssist/WorkflowRuns.lean`.

Main definitions:

* `FinAssist.ActivityCall.source`, `FinAssist.ActivityCall.results` — the statuses before and after
  an activity;
* `FinAssist.WorkflowExecution.Placed` — **where an execution and its case are**;
* `FinAssist.Steered` — the invariant of the rows and the server;
* `FinAssist.Acts` — a command that a request or an attempt at an activity runs.

Main results:

* `FinAssist.Steered.moved` — **who moves a case**: a submission, or the activity under way of the
  workflow that is attached;
* `FinAssist.Steered.commit`, `FinAssist.Steered.start`, `FinAssist.Steered.happen` — the invariant
  is kept.
-/

import FinAssist.ApplicationWorkflow
import FinAssist.CaseStages
import FinAssist.IdempotentCommands

set_option relaxedAutoImplicit false
set_option autoImplicit false

namespace FinAssist

open ReadCommitted ApplicationStatus Durable

/-! ### The keys of the activities -/

/-- The operations that are reserved under the key of an activity. -/
def activityOperations : List String :=
  [advanceIntakeValidationOperation, advanceDocumentProcessingOperation,
   verifyApplicationFactsOperation, enterHumanReviewOperation, applyReviewDecisionOperation]

theorem Command.isRequest.operationName {c : Command} (h : c.isRequest = true) :
    c.operationName ∉ activityOperations := by
  cases c with
  | createApplication c => exact (by decide : createApplicationOperation ∉ activityOperations)
  | submitApplication c => exact (by decide : submitApplicationOperation ∉ activityOperations)
  | resubmitApplication c => exact (by decide : resubmitApplicationOperation ∉ activityOperations)
  | uploadDocument c => exact (by decide : uploadDocumentOperation ∉ activityOperations)
  | _ => cases h

theorem processDocument_operationName (c : ProcessDocumentCommand) :
    (Command.processDocument c).operationName ∉ activityOperations :=
  (by decide : processDocumentOperation ∉ activityOperations)

/-! ### What an activity does to the case -/

namespace ActivityCall

/-- The status in which an activity finds the case. -/
def source : ActivityCall → ApplicationStatus
  | validateIntake _ => submitted
  | checkRequiredDocuments _ => documentProcessing
  | extractDocumentFacts _ => ApplicationStatus.verification
  | verifyFacts _ => ApplicationStatus.verification
  | enterHumanReview _ => ApplicationStatus.verification
  | applyReviewDecision _ => awaitingHumanReview

/-- The statuses in which an activity leaves the case, if the workflow stays attached. -/
def results : ActivityCall → List ApplicationStatus
  | validateIntake _ => [documentProcessing, awaitingHumanReview]
  | checkRequiredDocuments _ => [ApplicationStatus.verification, awaitingHumanReview]
  | extractDocumentFacts _ => [ApplicationStatus.verification]
  | verifyFacts _ => [ApplicationStatus.verification]
  | enterHumanReview _ => [awaitingHumanReview]
  | applyReviewDecision _ => []

theorem operationName_mem {call : ActivityCall} {operationName : String}
    (h : call.operationName? = some operationName) : operationName ∈ activityOperations := by
  cases call <;> cases h <;> simp [activityOperations]

/-- A command under an operation of the activities is that of the activity, under its key. -/
theorem Runs.key_mem {info : ActivityInfo} {call : ActivityCall} {c : Command}
    (h : call.Runs info c) (hop : c.operationName ∈ activityOperations) :
    c.key ∈ call.key? info := by
  cases h with
  | extractDocumentFacts ctx documentId => exact absurd hop (processDocument_operationName _)
  | _ => rfl

/-- **An activity that moves the case moves it to where it leaves it**, or detaches the workflow. -/
theorem Runs.moves {info : ActivityInfo} {call : ActivityCall} {c : Command}
    (h : call.Runs info c) {x x' : CaseFile} (hm : c.Moves x x') :
    (x'.row.activeWorkflowId = x.row.activeWorkflowId ∧ x'.row.status ∈ call.results) ∨
      ((∃ input, call = .applyReviewDecision input) ∧ x'.row.activeWorkflowId = none) := by
  cases h with
  | validateIntake ctx => cases hm <;> exact Or.inl ⟨rfl, by simp [CaseFile.move, results]⟩
  | checkRequiredDocuments ctx => cases hm <;> exact Or.inl ⟨rfl, by simp [CaseFile.move, results]⟩
  | extractDocumentFacts ctx documentId => cases hm
  | verifyFacts ctx => cases hm
  | enterHumanReview input => cases hm; exact Or.inl ⟨rfl, by simp [CaseFile.move, results]⟩
  | applyReviewDecision input decision hd => cases hm; exact Or.inr ⟨⟨input, rfl⟩, rfl⟩

/-- An activity submits nothing. -/
theorem Runs.history {info : ActivityInfo} {call : ActivityCall} {c : Command}
    (h : call.Runs info c) {x x' : CaseFile} (hm : c.Moves x x') (n : ℕ) :
    lastSubmission (x'.history.take n) ≤ x.history.length := by
  have hone : ∀ (s : ApplicationStatus) (hist : List ApplicationStatus),
      isSubmission hist.getLast? s = false → lastSubmission (hist ++ [s]) = lastSubmission hist := by
    intro s hist hs
    rw [lastSubmission_snoc, hs]
    rfl
  have htake : ∀ path : List ApplicationStatus,
      (∀ m, lastSubmission (x.history ++ path.take m) ≤ x.history.length) →
      lastSubmission ((x.history ++ path).take n) ≤ x.history.length := by
    intro path hpath
    rw [List.take_append]
    by_cases hn : n ≤ x.history.length
    · rw [Nat.sub_eq_zero_of_le hn, List.take_zero, List.append_nil]
      exact (lastSubmission_le _).trans (List.length_take_le' _ _)
    · rw [List.take_of_length_le (by omega)]
      exact hpath _
  have hle := lastSubmission_le x.history
  have hsingle : ∀ s : ApplicationStatus, isSubmission x.history.getLast? s = false →
      ∀ m, lastSubmission (x.history ++ [s].take m) ≤ x.history.length := by
    intro s hs m
    cases m with
    | zero => simpa using hle
    | succ m => simpa [hone s x.history hs] using hle
  have hpair : ∀ s s' : ApplicationStatus, isSubmission x.history.getLast? s = false →
      isSubmission (some s) s' = false →
      ∀ m, lastSubmission (x.history ++ [s, s'].take m) ≤ x.history.length := by
    intro s s' hs hs' m
    rcases m with _ | _ | m
    · simpa using hle
    · simpa [hone s x.history hs] using hle
    · have htwo : x.history ++ [s, s'].take (m + 2) = (x.history ++ [s]) ++ [s'] := by simp
      rw [htwo, hone s' _ (by simpa using hs'), hone s x.history hs]
      exact hle
  cases h with
  | validateIntake ctx =>
      cases hm
      · exact htake _ (hpair _ _ (by simp [isSubmission]) (by simp [isSubmission]))
      · exact htake _ (hpair _ _ (by simp [isSubmission]) (by simp [isSubmission]))
  | checkRequiredDocuments ctx =>
      cases hm
      · exact htake _ (hsingle _ (by simp [isSubmission]))
      · exact htake _ (hsingle _ (by simp [isSubmission]))
  | extractDocumentFacts ctx documentId => cases hm
  | verifyFacts ctx => cases hm
  | enterHumanReview input =>
      cases hm
      exact htake _ (hsingle _ (by simp [isSubmission]))
  | applyReviewDecision input decision hd =>
      cases hm
      case decide at' decidedAt entry hout hr =>
      refine htake _ (hsingle _ ?_)
      have hno := (by decide : ∀ s ∈ reviewOutcomes, s ≠ submitted ∧ s ≠ documentProcessing) _ hout
      simp [isSubmission, hno.1, hno.2]

end ActivityCall

/-! ### Where an execution and its case are -/

namespace WorkflowExecution

/-- The activity under way, with its number; also of an execution that has failed, whose attempts
may still be on their way. -/
def underway? (e : WorkflowExecution) : Option (ActivityInfo × ActivityCall) :=
  e.state.flow.call?.map fun call => (⟨e.workflowId, e.state.answered + 1⟩, call)

/-- The workflow is attached to the case. -/
def Attached (e : WorkflowExecution) (x : CaseFile) : Prop :=
  x.row.activeWorkflowId = some e.workflowId

/-- The decision of the workflow was applied. -/
def Decided (e : WorkflowExecution) (d : Database) : Prop :=
  e.state.flow.done = true ∨
    ∃ info input, e.underway? = some (info, .applyReviewDecision input) ∧
      (ActivityCall.applyReviewDecision input).Done info d

/-- **Where an execution and its case are.** -/
inductive Placed (e : WorkflowExecution) (d : Database) (x : CaseFile) : Prop
  | before (info : ActivityInfo) (call : ActivityCall) (hc : e.underway? = some (info, call))
      (k : Key) (hk : k ∈ call.key? info) (hfree : d.has k = false) (hw : e.Attached x)
      (hs : x.row.status = call.source)
  | after (info : ActivityInfo) (call : ActivityCall) (hc : e.underway? = some (info, call))
      (hdone : call.Done info d) (hw : e.Attached x) (hs : x.row.status ∈ call.results)
  | waiting (hf : e.state.flow = ApplicationWorkflow.waiting e.input) (hw : e.Attached x)
      (hs : x.row.status = awaitingHumanReview)
  | decided (hd : e.Decided d) (hx : x.Detached e.input.version)

/-- What an attempt at an activity knows of the execution it is for: the activity is under way, or
it is one of those that were carried out. -/
structure Knows (e : WorkflowExecution) (d : Database) (info : ActivityInfo) (call : ActivityCall) :
    Prop where
  workflowId : e.workflowId = info.workflowId
  applicationId : call.applicationId = e.input.applicationId
  tenantId : call.tenantId = e.input.tenantId
  place : e.underway? = some (info, call) ∨
    (info.activityId ≤ e.state.answered ∧ call.Done info d)

theorem underway?_eq_some {e : WorkflowExecution} {info : ActivityInfo} {call : ActivityCall} :
    e.underway? = some (info, call) ↔
      e.state.flow.call? = some call ∧ info = ⟨e.workflowId, e.state.answered + 1⟩ := by
  simp only [underway?, Option.map_eq_some_iff, Prod.mk.injEq]
  constructor
  · rintro ⟨c, hc, rfl, rfl⟩
    exact ⟨hc, rfl⟩
  · rintro ⟨hc, rfl⟩
    exact ⟨call, hc, rfl, rfl⟩

/-- The activity under way is about the application of the workflow. -/
theorem underway_about {e : WorkflowExecution}
    (hp : ApplicationWorkflow.Position e.input e.state.flow) {info : ActivityInfo}
    {call : ActivityCall} (hc : e.underway? = some (info, call)) :
    call.applicationId = e.input.applicationId ∧ call.tenantId = e.input.tenantId := by
  obtain ⟨hcall, -⟩ := underway?_eq_some.1 hc
  generalize e.state.flow = flow at hp hcall
  cases hp <;> cases hcall <;> exact ⟨rfl, rfl⟩

theorem Decided.mono {e : WorkflowExecution} {d d' : Database} (h : e.Decided d)
    (hr : Onward d d') : e.Decided d' := by
  rcases h with h | ⟨info, input, hc, hdone⟩
  · exact Or.inl h
  · exact Or.inr ⟨info, input, hc, fun k hk => hr.keys k (hdone k hk)⟩

/-- While the workflow is attached the status is one its activity knows. -/
theorem Placed.attached_ne {e : WorkflowExecution} {d : Database} {x : CaseFile}
    (h : e.Placed d x) (hne : ¬ e.Attached x) : e.Decided d ∧ x.Detached e.input.version := by
  cases h with
  | before info call hc k hk hfree hw hs => exact absurd hw hne
  | after info call hc hdone hw hs => exact absurd hw hne
  | waiting hf hw hs => exact absurd hw hne
  | decided hd hx => exact ⟨hd, hx⟩

/-- **An activity whose key is free finds its case where it starts from.** -/
theorem Placed.of_free {e : WorkflowExecution} {d : Database} {x : CaseFile} (h : e.Placed d x)
    {info : ActivityInfo} {call : ActivityCall} (hc : e.underway? = some (info, call)) {k : Key}
    (hk : k ∈ call.key? info) (hfree : d.has k = false) :
    e.Attached x ∧ x.row.status = call.source := by
  have hnot : ¬ call.Done info d := fun hdone => by
    rw [hdone k hk] at hfree
    cases hfree
  cases h with
  | before info' call' hc' k' hk' hfree' hw hs =>
      rw [hc] at hc'
      cases hc'
      exact ⟨hw, hs⟩
  | after info' call' hc' hdone hw hs =>
      rw [hc] at hc'
      cases hc'
      exact absurd hdone hnot
  | waiting hf hw hs =>
      obtain ⟨hcall, -⟩ := underway?_eq_some.1 hc
      rw [hf] at hcall
      cases hcall
  | decided hd hx =>
      rcases hd with hdone | ⟨info', input, hc', hdone⟩
      · obtain ⟨hcall, -⟩ := underway?_eq_some.1 hc
        obtain ⟨k', hk'⟩ := Flow.call?_eq_some hcall
        rw [hk'] at hdone
        cases hdone
      · rw [hc] at hc'
        cases hc'
        exact absurd hdone hnot

end WorkflowExecution

/-! ### The invariant -/

/-- **The rows and the server agree.**  `taken` says that the key of an activity is taken only when
it was scheduled, and `submissions` that a case stays as it was submitted until a workflow was
started for it. -/
structure Steered (d : Database) (T : Temporal) : Prop where
  ids : (T.executions.map WorkflowExecution.workflowId).Nodup
  named : ∀ e ∈ T.executions, e.workflowId =
    applicationWorkflowId e.input.tenantId e.input.applicationId e.input.version
  position : ∀ e ∈ T.executions, ApplicationWorkflow.Position e.input e.state.flow
  placed : ∀ e ∈ T.executions, ∃ x, d.caseFile? e.input.applicationId = some x ∧
    x.row.tenantId = e.input.tenantId ∧ e.input.version ≤ x.history.length ∧ e.Placed d x
  taken : ∀ t operationName info, operationName ∈ activityOperations →
    d.has (.idempotencyKey t operationName (idempotencyKey info)) = true →
    ∃ e ∈ T.executions, e.workflowId = info.workflowId ∧
      (info.activityId ≤ e.state.answered ∨ ∃ call, e.underway? = some (info, call))
  submissions : ∀ a x v, d.caseFile? a = some x → 1 ≤ v → v ≤ x.history.length →
    lastSubmission (x.history.take v) = v → v = x.history.length ∨
    ∃ e ∈ T.executions, e.workflowId = applicationWorkflowId x.row.tenantId a v

theorem Steered.unique {d : Database} {T : Temporal} (h : Steered d T) {e e' : WorkflowExecution}
    (he : e ∈ T.executions) (he' : e' ∈ T.executions) (hid : e.workflowId = e'.workflowId) :
    e = e' :=
  List.inj_on_of_nodup_map h.ids he he' hid

/-- **A command that is run**: for a request, or for an attempt at an activity. -/
inductive Acts (d : Database) (T : Temporal) : Command → Prop
  | request (c : Command) (h : c.isRequest = true) : Acts d T c
  | activity (info : ActivityInfo) (call : ActivityCall) (c : Command) (e : WorkflowExecution)
      (he : e ∈ T.executions) (hknows : e.Knows d info call) (hruns : call.Runs info c) :
      Acts d T c

/-- No workflow is attached to a case that can be submitted. -/
theorem CaseFile.Consistent.unattached {x : CaseFile} (h : x.Consistent)
    (hs : x.row.status = draft ∨ x.row.status = needsMoreInformation) :
    x.row.activeWorkflowId = none := by
  cases h.phase with
  | draft _ hw => exact hw
  | processing hs' => rcases hs with hs | hs <;> simp [hs] at hs'
  | review hs' => rcases hs with hs | hs <;> simp [hs] at hs'
  | outcome _ hw => exact hw

/-- **A request that moves a case submits it**: no workflow is attached before. -/
theorem Command.isRequest.moves {c : Command} (h : c.isRequest = true) {x x' : CaseFile}
    (hx : x.Reached) (hm : c.Moves x x') (hs : x.Step x') : x.row.activeWorkflowId = none ∧
      ∃ s, x'.history = x.history ++ [s] ∧ isSubmission (some x.row.status) s = true := by
  have hx' := hx.step hs
  cases c with
  | submitApplication c =>
      cases hm with
      | submit _ at' =>
          have hd := legal_submitted_iff.1 (hx.legal_of_move hx')
          exact ⟨hx.consistent.unattached (Or.inl hd), submitted, rfl, by simp [isSubmission]⟩
  | resubmitApplication c =>
      cases hm with
      | resubmit _ at' =>
          have hn := hx.resubmission (hx.legal_of_move hx')
          exact ⟨hx.consistent.unattached (Or.inr hn), documentProcessing, rfl,
            by simp [isSubmission, hn]⟩
  | createApplication c => cases hm
  | uploadDocument c => cases hm
  | _ => cases h

/-! ### Commits -/

section Commit

variable {d₀ d : Database} {T : Temporal} {c : Command} {ws : List Write}

/-- What a commit makes of a case. -/
theorem Command.Commits.caseFile? (hc : c.Commits d₀ d ws) {a : ApplicationId} {x : CaseFile}
    (hx : d.caseFile? a = some x) :
    (postgres.view d ws).caseFile? a = some x ∨
    ∃ x', (postgres.view d ws).caseFile? a = some x' ∧ c.applicationId? = some a ∧
      c.Moves x x' ∧ x.Step x' := by
  have hsame : ∀ {b : ApplicationId}, (postgres.view d ws).slice b = d.slice b →
      (postgres.view d ws).caseFile? b = d.caseFile? b := fun h => congrArg Slice.caseFile? h
  rcases hc.effect.cases with ⟨b, y, hcreate⟩ | ⟨b, y, y', hb, -, hm, hmove⟩ | hleave
  · by_cases hab : a = b
    · subst hab
      rw [Database.caseFile?, hcreate.before] at hx
      cases hx
    · exact Or.inl ((hsame (hcreate.others a hab)).trans hx)
  · by_cases hab : a = b
    · subst hab
      have hy := hmove.before
      rw [hx] at hy
      cases hy
      exact Or.inr ⟨y', hmove.after, hb, hm, hmove.step⟩
    · exact Or.inl ((hsame (hmove.others a hab)).trans hx)
  · exact Or.inl ((hsame (hleave a)).trans hx)

/-- A case that was not there was created. -/
theorem Command.Commits.created (hc : c.Commits d₀ d ws) {a : ApplicationId} {x' : CaseFile}
    (hx : d.caseFile? a = none) (hx' : (postgres.view d ws).caseFile? a = some x') :
    x'.history = [draft] := by
  have hsame : (postgres.view d ws).slice a ≠ d.slice a := fun heq => by
    rw [Database.caseFile?, heq] at hx'
    rw [Database.caseFile?, hx'] at hx
    cases hx
  rcases hc.effect.cases with ⟨b, y, hcreate⟩ | ⟨b, y, y', -, -, -, hmove⟩ | hleave
  · by_cases hab : a = b
    · subst hab
      have hy := hcreate.after
      rw [hx'] at hy
      cases hy
      exact hcreate.draft
    · exact absurd (hcreate.others a hab) hsame
  · by_cases hab : a = b
    · subst hab
      rw [hmove.before] at hx
      cases hx
    · exact absurd (hmove.others a hab) hsame
  · exact absurd (hleave a) hsame

/-- A command that moves a case has an operation of its own. -/
theorem Command.Moves.operationName {x x' : CaseFile} (hm : c.Moves x x')
    (h : c.isRequest = false) : c.operationName ∈ activityOperations := by
  cases hm with
  | submit => cases h
  | resubmit => cases h
  | _ => simp [activityOperations, Command.operationName]

/-- The activity whose free key a command takes is under way. -/
theorem WorkflowExecution.Knows.underway {e : WorkflowExecution} {info : ActivityInfo}
    {call : ActivityCall} (h : e.Knows d info call) {k : Key} (hk : k ∈ call.key? info)
    (hfree : d.has k = false) : e.underway? = some (info, call) := by
  rcases h.place with hc | ⟨-, hdone⟩
  · exact hc
  · rw [hdone k hk] at hfree
    cases hfree

/-- **Who moves a case**: a request, when no workflow is attached; or an attempt at the activity
under way of the workflow that is attached, from the status the activity starts from. -/
theorem Steered.moved (h : Steered d T) (hd : InOrder d) (hg : postgres.Granted d ws)
    (ha : Acts d T c) (hc : c.Commits d₀ d ws) {a : ApplicationId} {x x' : CaseFile}
    (hx : d.caseFile? a = some x) (hx' : (postgres.view d ws).caseFile? a = some x')
    (hne : x' ≠ x) :
    (c.isRequest = true ∧ x.row.activeWorkflowId = none ∧
      ∃ s, x'.history = x.history ++ [s] ∧ isSubmission (some x.row.status) s = true) ∨
    ∃ e ∈ T.executions, ∃ info call, e.underway? = some (info, call) ∧ call.Runs info c ∧
      c.key ∈ call.key? info ∧ e.input.applicationId = a ∧ e.Attached x ∧
      x.row.status = call.source ∧ c.Moves x x' := by
  rcases hc.caseFile? hx with hsame | ⟨y, hy, hca, hm, hs⟩
  · rw [hx'] at hsame
    exact absurd (Option.some.inj hsame) hne
  rw [hx'] at hy
  cases hy
  cases ha with
  | request c hreq => exact Or.inl ⟨hreq, Command.isRequest.moves hreq (hd.reached hx) hm hs⟩
  | activity info call c e he hknows hruns =>
      refine Or.inr ⟨e, he, info, call, ?_⟩
      have hnot : c.isRequest = false := by cases hruns <;> rfl
      have hkey := hruns.key_mem (hm.operationName hnot)
      have hfree := hc.free hg
      have hcall := hknows.underway hkey hfree
      have happ : e.input.applicationId = a := by
        rw [← hknows.applicationId]
        exact Option.some.inj (hruns.applicationId.symm.trans hca)
      obtain ⟨x₁, hx₁, -, -, hplaced⟩ := h.placed e he
      rw [happ, hx] at hx₁
      cases hx₁
      obtain ⟨hw, hst⟩ := hplaced.of_free hcall hkey hfree
      exact ⟨hcall, hruns, hkey, happ, hw, hst, hm⟩

/-- The key of an activity names the activity. -/
theorem ActivityCall.key?_eq {info : ActivityInfo} {call : ActivityCall} {k : Key}
    (h : k ∈ call.key? info) : ∃ operationName ∈ activityOperations,
      k = .idempotencyKey call.tenantId operationName (idempotencyKey info) := by
  obtain ⟨operationName, hop, rfl⟩ := Option.map_eq_some_iff.1 h
  exact ⟨operationName, ActivityCall.operationName_mem hop, rfl⟩

/-- **A key of the activities is taken by an attempt at just this activity.** -/
theorem Acts.of_key (h : Acts d T c) {t : TenantId} {operationName : String} {info : ActivityInfo}
    (hop : operationName ∈ activityOperations)
    (hk : Key.idempotencyKey t operationName (idempotencyKey info) = c.key) :
    ∃ e ∈ T.executions, ∃ call, e.Knows d info call ∧ call.Runs info c ∧
      c.key ∈ call.key? info := by
  obtain ⟨-, rfl, hid⟩ := Key.idempotencyKey.inj hk
  cases h with
  | request c hreq => exact absurd hop (Command.isRequest.operationName hreq)
  | activity info' call c e he hknows hruns =>
      have hkey := hruns.key_mem hop
      obtain ⟨op, -, hk'⟩ := ActivityCall.key?_eq hkey
      obtain ⟨-, -, hid'⟩ := Key.idempotencyKey.inj hk'
      have heq : info = info' := idempotencyKey_inj (hid.trans hid')
      subst heq
      exact ⟨e, he, call, hknows, hruns, hkey⟩

/-- The key of a command that has committed is taken. -/
theorem Command.Commits.has_key (hc : c.Commits d₀ d ws) :
    (postgres.view d ws).has c.key = true :=
  (hc.has_idempotencyKey _ _ _).2 (Or.inr rfl)

/-- An activity whose key was taken without moving a case is the verification. -/
theorem ActivityCall.Runs.results_of_unmoved {info : ActivityInfo} {call : ActivityCall}
    (hruns : call.Runs info c) (hkey : c.key ∈ call.key? info) (hc : c.Commits d₀ d ws)
    {x : CaseFile} (hx : d.caseFile? call.applicationId = some x)
    (hx' : (postgres.view d ws).caseFile? call.applicationId = some x) :
    call.source ∈ call.results := by
  have hmoves : ∀ a y y', c.applicationId? = some a → MovesCase d ws a y y' → False := by
    intro a y y' ha hmove
    have haa : call.applicationId = a := Option.some.inj (hruns.applicationId.symm.trans ha)
    subst haa
    have hy := hmove.before
    have hy' := hmove.after
    rw [hx] at hy
    rw [hx'] at hy'
    cases hy
    cases hy'
    exact absurd hmove.step.length_lt (lt_irrefl _)
  cases hruns with
  | extractDocumentFacts ctx documentId => exact List.mem_singleton.2 rfl
  | verifyFacts ctx => exact List.mem_singleton.2 rfl
  | _ =>
      obtain ⟨a, y, y', ha, -, -, hmove⟩ := hc.effect
      exact (hmoves a y y' ha hmove).elim

/-- A case that was submitted last has its workflow attached. -/
theorem CaseFile.Consistent.attached {x : CaseFile} (h : x.Consistent)
    (hlast : lastSubmission x.history = x.history.length) :
    x.row.activeWorkflowId = some x.currentWorkflowId := by
  have hsub : x.row.status = submitted ∨ x.row.status = documentProcessing := by
    rcases List.eq_nil_or_concat x.history with hnil | ⟨hist, s, hhist⟩
    · exact absurd hnil h.history_ne_nil
    · rw [List.concat_eq_append] at hhist
      rw [hhist, lastSubmission_snoc] at hlast
      have hs : x.row.status = s := by
        have := h.last
        rw [hhist, List.getLast?_append] at this
        simpa using this.symm
      split at hlast
      next hsub =>
        rw [hs]
        simp only [isSubmission, Bool.or_eq_true, Bool.and_eq_true, decide_eq_true_eq] at hsub
        exact hsub.imp id fun h => h.1
      next =>
        have := lastSubmission_le hist
        simp only [List.length_append, List.length_singleton] at hlast
        omega
  cases h.phase with
  | draft hs => rcases hsub with hsub | hsub <;> simp [hsub] at hs
  | processing _ hw => exact hw
  | review hs => rcases hsub with hsub | hsub <;> simp [hsub] at hs
  | outcome hs => rcases hsub with hsub | hsub <;> simp [hsub, reviewOutcomes] at hs

variable (h : Steered d T) (hd : InOrder d) (hg : postgres.Granted d ws) (ha : Acts d T c)
  (hc : c.Commits d₀ d ws)

include h hd hg ha hc

/-- An execution is where its case is after a commit that has left the case alone. -/
theorem Steered.placed_kept {e : WorkflowExecution} (he : e ∈ T.executions) {x : CaseFile}
    (hx : d.caseFile? e.input.applicationId = some x) (hp : e.Placed d x)
    (hx' : (postgres.view d ws).caseFile? e.input.applicationId = some x) :
    e.Placed (postgres.view d ws) x := by
  have hon := (hc.keeps hd hg).2
  cases hp with
  | before info call hcall k hk hfree hw hs =>
      cases htaken : (postgres.view d ws).has k with
      | false => exact .before info call hcall k hk htaken hw hs
      | true =>
          -- the attempt that has taken the key did not move the case
          obtain ⟨op, hop, rfl⟩ := ActivityCall.key?_eq hk
          rcases (hc.has_idempotencyKey _ _ _).1 htaken with hyes | hkey
          · rw [hyes] at hfree
            cases hfree
          obtain ⟨e', he', call', hknows, hruns, hkey'⟩ := ha.of_key hop hkey
          have hcall' := hknows.underway hkey' (hc.free hg)
          have hsame : e' = e := by
            refine h.unique he' he (hknows.workflowId.trans ?_)
            rw [(WorkflowExecution.underway?_eq_some.1 hcall).2]
          subst hsame
          rw [hcall] at hcall'
          cases hcall'
          have hresult := hruns.results_of_unmoved hkey' hc (hknows.applicationId ▸ hx)
            (hknows.applicationId ▸ hx')
          refine .after info call hcall ?_ hw (hs ▸ hresult)
          intro k' hk'
          rw [hk] at hk'
          cases hk'
          exact htaken
  | after info call hcall hdone hw hs =>
      exact .after info call hcall (fun k hk => hon.keys k (hdone k hk)) hw hs
  | waiting hf hw hs => exact .waiting hf hw hs
  | decided hdec hx => exact .decided (hdec.mono hon) hx

/-- An execution is where its case is after a commit that has moved the case. -/
theorem Steered.placed_moved {e : WorkflowExecution} (he : e ∈ T.executions) {x x' : CaseFile}
    (hx : d.caseFile? e.input.applicationId = some x) (hv : e.input.version ≤ x.history.length)
    (ht : x.row.tenantId = e.input.tenantId) (hp : e.Placed d x)
    (hx' : (postgres.view d ws).caseFile? e.input.applicationId = some x') (hs : x.Step x')
    (hne : x' ≠ x) : e.Placed (postgres.view d ws) x' := by
  have hon := (hc.keeps hd hg).2
  have hcons := (hd.reached hx).consistent
  have hdetached : ¬ e.Attached x → e.Placed (postgres.view d ws) x' := fun hno => by
    obtain ⟨hdec, hdet⟩ := hp.attached_ne hno
    exact .decided (hdec.mono hon) (hs.detached hcons hdet)
  rcases h.moved hd hg ha hc hx hx' hne with
    ⟨-, hnone, -⟩ | ⟨e', he', info, call, hcall, hruns, hkey, happ, hw, hst, hm⟩
  · exact hdetached fun hyes => by
      rw [WorkflowExecution.Attached, hnone] at hyes
      cases hyes
  · by_cases hatt : e.Attached x
    · have hsame : e' = e := h.unique he' he (Option.some.inj (hw.symm.trans hatt))
      subst hsame
      have hdone : call.Done info (postgres.view d ws) := by
        intro k hk
        rw [hkey] at hk
        cases hk
        exact hc.has_key
      rcases hruns.moves hm with ⟨hsame, hres⟩ | ⟨⟨input, rfl⟩, hnone⟩
      · exact .after info call hcall hdone (hsame.trans hw) hres
      · refine .decided (Or.inr ⟨info, input, hcall, hdone⟩) ⟨?_, by rw [hnone]; simp⟩
        exact hv.trans hs.length_lt.le
    · exact hdetached hatt

/-- **Every commit keeps the invariant.** -/
theorem Steered.commit : Steered (postgres.view d ws) T := by
  have hkeeps := hc.keeps hd hg
  refine ⟨h.ids, h.named, h.position, ?_, ?_, ?_⟩
  · intro e he
    obtain ⟨x, hx, ht, hv, hp⟩ := h.placed e he
    rcases hc.caseFile? hx with hx' | ⟨x', hx', -, -, hs⟩
    · exact ⟨x, hx', ht, hv, h.placed_kept hd hg ha hc he hx hp hx'⟩
    · have hne : x' ≠ x := fun heq => absurd hs.length_lt (heq ▸ lt_irrefl _)
      exact ⟨x', hx', hs.row_fixed.2.1.trans ht, hv.trans hs.length_lt.le,
        h.placed_moved hd hg ha hc he hx hv ht hp hx' hs hne⟩
  · intro t operationName info hop hk
    rcases (hc.has_idempotencyKey _ _ _).1 hk with hold | hnew
    · exact h.taken t operationName info hop hold
    · obtain ⟨e, he, call, hknows, -, -⟩ := ha.of_key hop hnew
      refine ⟨e, he, hknows.workflowId, ?_⟩
      rcases hknows.place with hcall | ⟨hle, -⟩
      · exact Or.inr ⟨call, hcall⟩
      · exact Or.inl hle
  · intro a x' v hx' hpos hle hv
    cases hx : d.caseFile? a with
    | none =>
        -- a case that was created has one version
        refine Or.inl ?_
        have hlen := hc.created hx hx'
        rw [hlen, List.length_singleton] at hle ⊢
        omega
    | some x =>
        obtain ⟨events, htells⟩ := hd.tells hx
        rcases hc.caseFile? hx with hsame | ⟨y, hy, -, -, hs⟩
        · rw [hx'] at hsame
          cases hsame
          exact h.submissions a x' v hx hpos hle hv
        rw [hx'] at hy
        cases hy
        have hne : x' ≠ x := fun heq => absurd hs.length_lt (heq ▸ lt_irrefl _)
        have hold : v ≤ x.history.length → x'.history.take v = x.history.take v := fun hle => by
          obtain ⟨rest, hrest⟩ := hs.history_prefix
          rw [← hrest, List.take_append_of_le_length hle]
        -- a case that nobody has started a workflow for is still attached to the one it waits for
        have hstill : v = x.history.length →
            lastSubmission (x.history.take v) = v → x.row.activeWorkflowId =
              some (applicationWorkflowId x.row.tenantId a v) := by
          rintro rfl hlast
          rw [List.take_length] at hlast
          rw [(hd.reached hx).consistent.attached hlast, CaseFile.currentWorkflowId, hlast]
          have hid : x.row.applicationId = a := htells.id
          rw [hid]
        rcases h.moved hd hg ha hc hx hx' hne with
          ⟨-, hnone, s, hhist, -⟩ | ⟨e, he, info, call, -, hruns, -, -, hw, -, hm⟩
        · by_cases hvx : v ≤ x.history.length
          · rw [hold hvx] at hv
            rcases h.submissions a x v hx hpos hvx hv with heq | ⟨e, he, hid⟩
            · rw [hstill heq hv] at hnone
              cases hnone
            · exact Or.inr ⟨e, he, by rw [hs.row_fixed.2.1]; exact hid⟩
          · rw [hhist, List.length_append, List.length_singleton] at hle ⊢
            exact Or.inl (by omega)
        · have hvx : v ≤ x.history.length := hv ▸ hruns.history hm v
          rw [hold hvx] at hv
          rw [hs.row_fixed.2.1]
          rcases h.submissions a x v hx hpos hvx hv with heq | hstarted
          · refine Or.inr ⟨e, he, ?_⟩
            exact Option.some.inj (hw.symm.trans (hstill heq hv))
          · exact Or.inr hstarted

end Commit

/-! ### Starts -/

theorem Temporal.execution?_none {T : Temporal} {workflowId : String}
    (h : T.execution? workflowId = none) : ∀ e ∈ T.executions, e.workflowId ≠ workflowId :=
  fun e he => by simpa using List.find?_eq_none.1 h e he

theorem Temporal.execution?_some {T : Temporal} {workflowId : String} {e : WorkflowExecution}
    (h : T.execution? workflowId = some e) : e ∈ T.executions ∧ e.workflowId = workflowId :=
  ⟨List.mem_of_find?_eq_some h, by simpa using List.find?_some h⟩

/-- Where a new execution begins. -/
theorem position_start (input : ApplicationWorkflowInput) {s : ApplicationStatus}
    (hs : input.startingStatus = s.value) (hsub : s = submitted ∨ s = documentProcessing) :
    ∃ call k, ApplicationWorkflow.run input = .call call k ∧
      ApplicationWorkflow.Position input (ApplicationWorkflow.run input) ∧ call.source = s ∧
      call.tenantId = input.tenantId ∧ ∃ operationName, call.operationName? = some operationName := by
  rcases hsub with rfl | rfl
  · rw [ApplicationWorkflow.run_submitted input hs]
    exact ⟨_, _, rfl, .validating, rfl, rfl, _, rfl⟩
  · rw [ApplicationWorkflow.run_resubmitted input hs]
    exact ⟨_, _, rfl, .checking, rfl, rfl, _, rfl⟩

/-- What a workflow that is started for a submission begins with. -/
theorem Submitted.begins {d : Database} {t : TenantId} {a : ApplicationId} {v : ℕ}
    {s : ApplicationStatus} (h : Submitted d t a v s) :
    ∃ call, (ApplicationWorkflow.run ⟨t, a, v, s.value⟩).call? = some call ∧
      (call.source = submitted ∨ call.source = documentProcessing) := by
  obtain ⟨x₀, at', -, -, -, -, hs, -⟩ := h
  simp only [isSubmission, Bool.or_eq_true, Bool.and_eq_true, decide_eq_true_eq] at hs
  have hs' : s = submitted ∨ s = documentProcessing := hs.imp id fun h => h.1
  obtain ⟨call, k, hrun, -, hsource, -⟩ := position_start ⟨t, a, v, s.value⟩ rfl hs'
  exact ⟨call, by rw [hrun]; rfl, hsource ▸ hs'⟩

/-- **What was submitted stays so until its workflow is started**: only that workflow could have
moved the case. -/
theorem Steered.unmoved {d : Database} {T : Temporal} (h : Steered d T) {t : TenantId}
    {a : ApplicationId} {v : ℕ} {s : ApplicationStatus} (hsub : Submitted d t a v s)
    (hnew : ∀ e ∈ T.executions, e.workflowId ≠ applicationWorkflowId t a v) :
    ∃ x, d.caseFile? a = some x ∧ x.row.tenantId = t ∧ x.history.length = v ∧
      x.row.status = s ∧ x.row.activeWorkflowId = some (applicationWorkflowId t a v) ∧
      (s = submitted ∨ s = documentProcessing) := by
  obtain ⟨x₀, at', hreached, ht, ha, hv, hs, x, hx, hsteps⟩ := hsub
  have hlen := hreached.consistent.version
  have hlast := hreached.consistent.last
  generalize hy : x₀.move [s] at' (some x₀.nextWorkflowId) x₀.review = y at hsteps
  have hyhist : y.history = x₀.history ++ [s] := by rw [← hy]; rfl
  have hylen : y.history.length = v := by simp [hyhist, hv, hlen]
  have hysub : lastSubmission y.history = v := by
    rw [hyhist, lastSubmission_snoc, hlast, if_pos hs, hv, hlen]
  have hprefix := CaseFile.Steps.history_prefix hsteps
  have htake : x.history.take v = y.history := by
    obtain ⟨rest, hrest⟩ := hprefix
    rw [← hrest, ← hylen, List.take_left']
    rfl
  have hytenant : y.row.tenantId = t := by rw [← hy]; exact ht
  have hxt : x.row.tenantId = t := (CaseFile.Steps.row_fixed hsteps).2.1.trans hytenant
  have hvx : v ≤ x.history.length := hylen ▸ hprefix.length_le
  have hunmoved : x = y := by
    rcases h.submissions a x v hx (by omega) hvx (by rw [htake, hysub]) with
      heq | ⟨e, he, hwe⟩
    · exact hsteps.eq_of_length (by omega)
    · rw [hxt] at hwe
      exact absurd hwe (hnew e he)
  subst hunmoved
  refine ⟨x, hx, hxt, hylen, by rw [← hy]; rfl, ?_, ?_⟩
  · rw [← hy, hv, ← ht, ← ha]
    rfl
  · simp only [isSubmission, Bool.or_eq_true, Bool.and_eq_true, decide_eq_true_eq] at hs
    exact hs.imp id fun h => h.1

/-- **A start keeps the invariant**: what was submitted waits for its workflow. -/
theorem Steered.start {d : Database} {T : Temporal} (h : Steered d T)
    {workflowId : String} {t : TenantId} {a : ApplicationId} {v : ℕ} {s : ApplicationStatus}
    (hid : workflowId = applicationWorkflowId t a v) (hsub : Submitted d t a v s) :
    Steered d (T.startWorkflow workflowId ⟨t, a, v, s.value⟩) := by
  cases hfound : T.execution? workflowId with
  | some e =>
      simp only [Temporal.startWorkflow, hfound]
      exact h
  | none =>
      simp only [Temporal.startWorkflow, hfound]
      have hnew := Temporal.execution?_none hfound
      obtain ⟨x, hx, hxt, hlen, hstatus, hattached, hskind⟩ := h.unmoved hsub (hid ▸ hnew)
      rw [← hid] at hattached
      obtain ⟨call, k, hrun, hpos, hsource, hcallt, op, hop⟩ :=
        position_start ⟨t, a, v, s.value⟩ rfl hskind
      refine ⟨?_, ?_, ?_, ?_, ?_, ?_⟩
      · rw [List.map_append, List.nodup_append]
        refine ⟨h.ids, by simp, ?_⟩
        intro i hi j hj
        obtain ⟨e, he, rfl⟩ := List.mem_map.1 hi
        rw [List.map_singleton, List.mem_singleton] at hj
        exact hj ▸ hnew e he
      · intro e he
        rcases List.mem_append.1 he with he | he
        · exact h.named e he
        · rw [List.mem_singleton.1 he]
          exact hid
      · intro e he
        rcases List.mem_append.1 he with he | he
        · exact h.position e he
        · rw [List.mem_singleton.1 he]
          exact hpos
      · intro e he
        rcases List.mem_append.1 he with he | he
        · exact h.placed e he
        · rw [List.mem_singleton.1 he]
          refine ⟨x, hx, hxt, hlen.ge, ?_⟩
          have hunder : WorkflowExecution.underway? ⟨workflowId, ⟨t, a, v, s.value⟩,
              .start (ApplicationWorkflow.run ⟨t, a, v, s.value⟩)⟩ =
              some (⟨workflowId, 1⟩, call) := by
            rw [WorkflowExecution.underway?_eq_some]
            exact ⟨by rw [Execution.start, hrun]; rfl, rfl⟩
          have hkey : Key.idempotencyKey call.tenantId op (idempotencyKey ⟨workflowId, 1⟩) ∈
              call.key? ⟨workflowId, 1⟩ := by
            simp [ActivityCall.key?, hop]
          refine .before _ call hunder _ hkey ?_ hattached (hstatus.trans hsource.symm)
          -- no key of a workflow is taken that was not started
          by_contra htaken
          rw [Bool.not_eq_false] at htaken
          obtain ⟨e', he', hwe, -⟩ := h.taken _ op ⟨workflowId, 1⟩
            (ActivityCall.operationName_mem hop) htaken
          exact hnew e' he' hwe
      · intro t' op' info hop' hk
        obtain ⟨e, he, hrest⟩ := h.taken t' op' info hop' hk
        exact ⟨e, List.mem_append_left _ he, hrest⟩
      · intro a' x' v' hx' hpos' hle hv'
        rcases h.submissions a' x' v' hx' hpos' hle hv' with heq | ⟨e, he, hwe⟩
        · exact Or.inl heq
        · exact Or.inr ⟨e, List.mem_append_left _ he, hwe⟩

/-! ### Events -/

/-- **What an event does to the server**: one execution is another one, the rest stays. -/
structure Temporal.Updated (T T' : Temporal) (e e' : WorkflowExecution) : Prop where
  mem : e ∈ T.executions
  same : e'.workflowId = e.workflowId ∧ e'.input = e.input
  ids : T'.executions.map WorkflowExecution.workflowId =
    T.executions.map WorkflowExecution.workflowId
  cases : ∀ f ∈ T'.executions, f = e' ∨ (f ∈ T.executions ∧ f.workflowId ≠ e.workflowId)
  kept : ∀ f ∈ T.executions, f.workflowId ≠ e.workflowId → f ∈ T'.executions
  updated : e' ∈ T'.executions

theorem Temporal.happen_cases {T T' : Temporal}
    (hids : (T.executions.map WorkflowExecution.workflowId).Nodup) {workflowId : String}
    {event : Event ActivityCall.Result ReviewDecisionSignal}
    (h : T.happen workflowId event = some T') :
    ∃ e state, T.execution? workflowId = some e ∧ e.state.next maximumAttempts event = some state ∧
      T.Updated T' e { e with state := state } ∧ T'.signals = T.signals := by
  simp only [Temporal.happen, Option.bind_eq_some_iff, Option.map_eq_some_iff] at h
  obtain ⟨e, he, state, hs, rfl⟩ := h
  obtain ⟨hmem, hid⟩ := Temporal.execution?_some he
  refine ⟨e, state, he, hs, ⟨hmem, ⟨rfl, rfl⟩, ?_, ?_, ?_, ?_⟩, rfl⟩
  · simp only [List.map_map]
    refine List.map_congr_left fun f _ => ?_
    simp only [Function.comp]
    split <;> rfl
  · intro f hf
    obtain ⟨g, hg, rfl⟩ := List.mem_map.1 hf
    by_cases hgid : g.workflowId = workflowId
    · rw [if_pos hgid]
      rw [List.inj_on_of_nodup_map hids hg hmem (hgid.trans hid.symm)]
      exact Or.inl rfl
    · rw [if_neg hgid]
      exact Or.inr ⟨hg, fun heq => hgid (heq.trans hid)⟩
  · intro f hf hne
    exact List.mem_map.2 ⟨f, hf, if_neg fun heq => hne (heq.trans hid.symm)⟩
  · exact List.mem_map.2 ⟨e, hmem, if_pos hid⟩

/-- What the server must know before it tells a workflow: the activity was carried out, and a status
that the workflow goes by is the one of the case. -/
def Told (d : Database) (e : WorkflowExecution) :
    Event ActivityCall.Result ReviewDecisionSignal → Prop
  | .answer call r => ∀ info, e.underway? = some (info, call) →
      call.Done info d ∧ (call.results ≠ [] → call.Reports d r)
  | _ => True

/-- The place of an execution is one of its program and of its number. -/
theorem WorkflowExecution.Placed.congr {e e' : WorkflowExecution} {d : Database} {x : CaseFile}
    (h : e.Placed d x) (hid : e'.workflowId = e.workflowId) (hinput : e'.input = e.input)
    (hflow : e'.state.flow = e.state.flow) (hanswered : e'.state.answered = e.state.answered) :
    e'.Placed d x := by
  have hunder : e'.underway? = e.underway? := by
    simp only [underway?, hflow, hanswered, hid]
  have hatt : e'.Attached x ↔ e.Attached x := by rw [Attached, Attached, hid]
  cases h with
  | before info call hc k hk hfree hw hs =>
      exact .before info call (hunder.trans hc) k hk hfree (hatt.2 hw) hs
  | after info call hc hdone hw hs => exact .after info call (hunder.trans hc) hdone (hatt.2 hw) hs
  | waiting hf hw hs => exact .waiting (by rw [hflow, hf, hinput]) (hatt.2 hw) hs
  | decided hd hx =>
      refine .decided ?_ (hinput ▸ hx)
      rcases hd with hdone | ⟨info, input, hc, hdone⟩
      · exact Or.inl (by rw [hflow]; exact hdone)
      · exact Or.inr ⟨info, input, hunder.trans hc, hdone⟩

section Happen

variable {d : Database} {T : Temporal} {e : WorkflowExecution}

/-- The key of the activity with the next number is free, while none or another one is under
way. -/
theorem Steered.next_free (h : Steered d T) (he : e ∈ T.executions) {info : ActivityInfo}
    (hid : info.workflowId = e.workflowId) (hn : e.state.answered < info.activityId)
    (hne : ∀ call, e.underway? ≠ some (info, call)) {call : ActivityCall} {k : Key}
    (hk : k ∈ call.key? info) : d.has k = false := by
  obtain ⟨op, hop, rfl⟩ := ActivityCall.key?_eq hk
  by_contra htaken
  rw [Bool.not_eq_false] at htaken
  obtain ⟨e', he', hwe, hplace⟩ := h.taken _ op info hop htaken
  obtain rfl := h.unique he' he (hwe.trans hid)
  rcases hplace with hle | ⟨call', hcall⟩
  · omega
  · exact hne call' hcall

/-- An execution whose next activity is scheduled has not taken its key yet. -/
theorem Steered.placed_next (h : Steered d T) (he : e ∈ T.executions) {x : CaseFile}
    (hw : e.Attached x) {e' : WorkflowExecution} (hid : e'.workflowId = e.workflowId)
    (call : ActivityCall) (hcall : e'.state.flow.call? = some call)
    (hn : e.state.answered ≤ e'.state.answered)
    (hne : ∀ call', e.underway? ≠ some (⟨e.workflowId, e'.state.answered + 1⟩, call'))
    (hop : ∃ operationName, call.operationName? = some operationName)
    (hs : x.row.status = call.source) : e'.Placed d x := by
  obtain ⟨op, hop⟩ := hop
  have hunder : e'.underway? = some (⟨e.workflowId, e'.state.answered + 1⟩, call) :=
    WorkflowExecution.underway?_eq_some.2 ⟨hcall, by rw [hid]⟩
  have hkey : Key.idempotencyKey call.tenantId op
      (idempotencyKey ⟨e.workflowId, e'.state.answered + 1⟩) ∈
      call.key? ⟨e.workflowId, e'.state.answered + 1⟩ := by
    simp [ActivityCall.key?, hop]
  have hw' : e'.Attached x := by rw [WorkflowExecution.Attached, hid]; exact hw
  exact .before _ call hunder _ hkey
    (h.next_free he rfl (Nat.lt_succ_of_le hn) hne hkey) hw' hs

/-- An execution that waits waits for its case. -/
theorem WorkflowExecution.Placed.of_await {x : CaseFile} (hp : e.Placed d x)
    {k : Option ReviewDecisionSignal → Workflow ApplicationWorkflowResult}
    (hf : e.state.flow = .await k) : e.Attached x ∧ x.row.status = awaitingHumanReview := by
  have hnone : ∀ i, e.underway? ≠ some i := by simp [underway?, hf, Flow.call?]
  cases hp with
  | before info call hc => exact absurd hc (hnone _)
  | after info call hc => exact absurd hc (hnone _)
  | waiting _ hw hs => exact ⟨hw, hs⟩
  | decided hd hx =>
      rcases hd with hdone | ⟨info, input, hc, -⟩
      · rw [hf] at hdone
        cases hdone
      · exact absurd hc (hnone _)

/-- **The wait is over**, and the decision will be applied. -/
theorem Steered.placed_decision (h : Steered d T) (he : e ∈ T.executions) {x : CaseFile}
    (hp : e.Placed d x) {k : Option ReviewDecisionSignal → Workflow ApplicationWorkflowResult}
    (hf : e.state.flow = .await k) (e' : WorkflowExecution) (decision : ReviewDecisionSignal)
    (hid : e'.workflowId = e.workflowId)
    (hflow : e'.state.flow = ApplicationWorkflow.applying e.input decision)
    (hn : e'.state.answered = e.state.answered) : e'.Placed d x := by
  obtain ⟨hw, hs⟩ := hp.of_await hf
  have hnone : ∀ i, e.underway? ≠ some i := by
    simp [WorkflowExecution.underway?, hf, Flow.call?]
  exact h.placed_next he hw hid (.applyReviewDecision _) (by rw [hflow]; rfl) hn.ge
    (fun _ => hnone _) ⟨_, rfl⟩ hs

/-- **An activity was carried out**, and its workflow is told. -/
theorem Steered.placed_answer (h : Steered d T) (he : e ∈ T.executions) {x : CaseFile}
    (hx : d.caseFile? e.input.applicationId = some x) (hp : e.Placed d x) {call : ActivityCall}
    {k : call.Result → Workflow ApplicationWorkflowResult} {r : call.Result}
    (hf : e.state.flow = .call call k) (htold : Told d e (.answer call r))
    {e' : WorkflowExecution} (hid : e'.workflowId = e.workflowId) (hinput : e'.input = e.input)
    (hflow : e'.state.flow = k r) (hn : e'.state.answered = e.state.answered + 1) :
    e'.Placed d x := by
  have hunder : e.underway? = some (⟨e.workflowId, e.state.answered + 1⟩, call) :=
    WorkflowExecution.underway?_eq_some.2 ⟨by rw [hf]; rfl, rfl⟩
  obtain ⟨hdone, hreports⟩ := htold _ hunder
  have hne : ∀ call', e.underway? ≠ some (⟨e.workflowId, e'.state.answered + 1⟩, call') := by
    intro call' heq
    rw [hunder] at heq
    simp [hn] at heq
  -- the key is taken, so the activity has left the case where it leaves it
  have hplace : (e.Attached x ∧ x.row.status ∈ call.results) ∨
      ((∃ input, call = .applyReviewDecision input) ∧ x.Detached e.input.version) := by
    cases hp with
    | before info call' hc k' hk' hfree hw hs =>
        rw [hunder] at hc
        cases hc
        rw [hdone k' hk'] at hfree
        cases hfree
    | after info call' hc _ hw hs =>
        rw [hunder] at hc
        cases hc
        exact Or.inl ⟨hw, hs⟩
    | waiting hf' => rw [hf] at hf'; cases hf'
    | decided hd hx =>
        rcases hd with hd | ⟨info, input, hc, -⟩
        · rw [hf] at hd
          cases hd
        · rw [hunder] at hc
          cases hc
          exact Or.inr ⟨⟨input, rfl⟩, hx⟩
  have hattached : (∀ input, call ≠ .applyReviewDecision input) →
      e.Attached x ∧ x.row.status ∈ call.results := fun hno =>
    hplace.resolve_right fun hdecided => hno _ hdecided.1.choose_spec
  have hnext := fun (call' : ActivityCall) hw (hcall : e'.state.flow.call? = some call') =>
    h.placed_next he (x := x) hw hid call' hcall (by omega) hne
  have hwait : e.Attached x → e'.Attached x := fun hw => by
    rw [WorkflowExecution.Attached, hid]
    exact hw
  have hstatus : ∀ {s}, Command.StatusIs d e.input.applicationId s → s = x.row.status := by
    rintro s ⟨row, hrow, rfl⟩
    rw [caseFile?_row hx] at hrow
    rw [Option.some.inj hrow]
  have hpos := h.position e he
  rw [hf] at hpos
  cases hpos with
  | validating =>
      obtain ⟨hw, hs⟩ := hattached (by simp)
      obtain ⟨s, his, hr⟩ := hreports (by simp [ActivityCall.results])
      obtain rfl := hstatus his
      dsimp only at hflow
      by_cases hreview : x.row.status = awaitingHumanReview
      · rw [if_pos (hr.trans (congrArg _ hreview))] at hflow
        exact .waiting (by rw [hflow, hinput]) (hwait hw) hreview
      · rw [if_neg fun heq => hreview (value_inj (hr.symm.trans heq))] at hflow
        have hdoc : x.row.status = documentProcessing := by
          simpa [ActivityCall.results, hreview] using hs
        exact hnext (.checkRequiredDocuments _) hw (by rw [hflow]; rfl) ⟨_, rfl⟩ hdoc
  | checking =>
      obtain ⟨hw, hs⟩ := hattached (by simp)
      obtain ⟨s, his, hr⟩ := hreports (by simp [ActivityCall.results])
      obtain rfl := hstatus his
      dsimp only at hflow
      by_cases hreview : x.row.status = awaitingHumanReview
      · rw [if_pos (hr.trans (congrArg _ hreview))] at hflow
        exact .waiting (by rw [hflow, hinput]) (hwait hw) hreview
      · rw [if_neg fun heq => hreview (value_inj (hr.symm.trans heq))] at hflow
        have hver : x.row.status = ApplicationStatus.verification := by
          simpa [ActivityCall.results, hreview] using hs
        refine .after ⟨e'.workflowId, e'.state.answered + 1⟩ (.extractDocumentFacts _)
          (WorkflowExecution.underway?_eq_some.2 ⟨by rw [hflow]; rfl, rfl⟩) ?_ (hwait hw) ?_
        · intro k' hk'
          cases hk'
        · simp [ActivityCall.results, hver]
  | extracting =>
      obtain ⟨hw, hs⟩ := hattached (by simp)
      exact hnext (.verifyFacts _) hw (by rw [hflow]; rfl) ⟨_, rfl⟩
        (List.mem_singleton.1 hs)
  | verifying =>
      obtain ⟨hw, hs⟩ := hattached (by simp)
      exact hnext (.enterHumanReview _) hw (by rw [hflow]; rfl) ⟨_, rfl⟩
        (List.mem_singleton.1 hs)
  | entering summary =>
      obtain ⟨hw, hs⟩ := hattached (by simp)
      exact .waiting (by rw [hflow, hinput]) (hwait hw) (List.mem_singleton.1 hs)
  | applying decision =>
      obtain ⟨-, hx⟩ := hplace.resolve_left fun hno => by
        cases hno.2
      exact .decided (Or.inl (by rw [hflow]; rfl)) (hinput ▸ hx)

/-- **Every event keeps the invariant.** -/
theorem Steered.happen (h : Steered d T) {T' : Temporal} {workflowId : String}
    {event : Event ActivityCall.Result ReviewDecisionSignal}
    (ht : T.happen workflowId event = some T')
    (htold : ∀ e, T.execution? workflowId = some e → Told d e event) : Steered d T' := by
  obtain ⟨e, state, hfound, hnext, hup, -⟩ := Temporal.happen_cases h.ids ht
  have he := hup.mem
  have hanswered := Execution.next_answered hnext
  have hposition := Execution.next_closed (ApplicationWorkflow.closed e.input) hnext
    (h.position e he)
  -- only one execution goes on, and it keeps its id
  have hid : ∀ f ∈ T.executions, ∃ f' ∈ T'.executions, f'.workflowId = f.workflowId := by
    intro f hf
    by_cases hne : f.workflowId = e.workflowId
    · exact ⟨_, hup.updated, hne.symm⟩
    · exact ⟨f, hup.kept f hf hne, rfl⟩
  refine ⟨hup.ids ▸ h.ids, ?_, ?_, ?_, ?_, ?_⟩
  · intro f hf
    rcases hup.cases f hf with rfl | ⟨hf, -⟩
    · exact h.named e he
    · exact h.named f hf
  · intro f hf
    rcases hup.cases f hf with rfl | ⟨hf, -⟩
    · exact hposition
    · exact h.position f hf
  · intro f hf
    rcases hup.cases f hf with rfl | ⟨hf, -⟩
    · obtain ⟨x, hx, hxt, hv, hp⟩ := h.placed e he
      refine ⟨x, hx, hxt, hv, ?_⟩
      have hpos := h.position e he
      cases (Execution.next_cases hnext).2 with
      | signal s => exact hp.congr rfl rfl rfl rfl
      | deliver s rest hi => exact hp.congr rfl rfl rfl rfl
      | giveUp c k hflow hlimit => exact hp.congr rfl rfl rfl rfl
      | fail c k hflow => exact hp.congr rfl rfl rfl rfl
      | resume k s hflow hs =>
          rw [hflow] at hpos
          cases hpos
          exact h.placed_decision he hp hflow ⟨e.workflowId, e.input, _⟩ s rfl rfl rfl
      | timeout k hflow hs =>
          -- the timer puts the escalation in the place of a signal
          rw [hflow] at hpos
          cases hpos
          exact h.placed_decision he hp hflow ⟨e.workflowId, e.input, _⟩ slaEscalation rfl rfl rfl
      | answer c k r hflow =>
          exact h.placed_answer he hx hp hflow (htold e hfound) rfl rfl rfl rfl
    · exact h.placed f hf
  · intro t op info hop hk
    obtain ⟨f, hf, hwf, hplace⟩ := h.taken t op info hop hk
    by_cases hfe : f.workflowId = e.workflowId
    · obtain rfl := h.unique hf he hfe
      refine ⟨_, hup.updated, hwf, ?_⟩
      rcases hplace with hle | ⟨call, hcall⟩
      · exact Or.inl (hle.trans hanswered)
      · -- a call that is under way stays so, or was answered
        obtain ⟨hc, hinfo⟩ := WorkflowExecution.underway?_eq_some.1 hcall
        rcases Execution.next_scheduled hnext hc with ⟨hc', hn⟩ | ⟨hn, -⟩
        · exact Or.inr ⟨call, WorkflowExecution.underway?_eq_some.2 ⟨hc', by rw [hinfo, hn]⟩⟩
        · exact Or.inl (by rw [hinfo, hn])
    · exact ⟨f, hup.kept f hf hfe, hwf, hplace⟩
  · intro a x v hx hpos hle hv
    rcases h.submissions a x v hx hpos hle hv with heq | ⟨f, hf, hwf⟩
    · exact Or.inl heq
    · obtain ⟨f', hf', hwf'⟩ := hid f hf
      exact Or.inr ⟨f', hf', hwf'.trans hwf⟩

end Happen

end FinAssist
