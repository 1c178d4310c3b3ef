/-
**Nobody decides but a reviewer.**

What a workflow applies is what it was signalled, or the escalation of its timer.  This module
follows a decision from the request that sends it: the endpoint has checked it and read which
workflow is attached, the server keeps it in the inbox of the execution, the execution takes the one
it was told last and has it applied, and the transaction that moves the case writes the same decision
and the same reviewer to the queue.  So no case is approved, declined or sent back without a request
that says so, whatever is retried, lost or late.  A case that was approved, declined or escalated is
never moved again.

Main definitions:

* `FinAssist.ReviewDecisionRequest.Sent` — a signal, as the endpoint sends it;
* `FinAssist.Signalled` — **where decisions come from**.

Main results:

* `FinAssist.Installation.signalled` — every decision on its way was signalled;
* `FinAssist.Installation.decided` — what a transaction that leads to an outcome does;
* `FinAssist.decisions_are_signalled` — **an outcome is one that a reviewer has asked for**, or the
  escalation of the timer;
* `FinAssist.closed_for_good` — **a case that was closed stays as it is**.
-/

import FinAssist.WorkflowRuns

set_option relaxedAutoImplicit false
set_option autoImplicit false

namespace FinAssist

open ReadCommitted ApplicationStatus Durable

/-! ### Where decisions come from -/

/-- What the endpoint signals for a request. -/
def ReviewDecisionRequest.signal (request : ReviewDecisionRequest) : ReviewDecisionSignal :=
  ⟨request.decision, request.reason, request.reviewerId⟩

/-- **A signal that was sent for a request**, one of those that were posted, to a workflow of its
application. -/
structure ReviewDecisionRequest.Sent (request : ReviewDecisionRequest)
    (tasks : List (Task programs)) (s : SignalRecord) : Prop where
  posted : Kind.reviewDecision request ∈ tasks.map Task.kind
  sender : s.sender = .reviewDecision request
  signal : s.signal = request.signal
  decision : request.decision ∈ reviewDecisions
  workflow : ∃ v, s.workflowId = applicationWorkflowId request.tenantId request.applicationId v

/-- The decision was signalled to the workflow. -/
def Temporal.Accepted (T : Temporal) (workflowId : String) (decision : ReviewDecisionSignal) :
    Prop :=
  ∃ s ∈ T.signals, s.workflowId = workflowId ∧ s.signal = decision

/-- **What an execution has heard of**: each decision it holds or applies was signalled to it, or is
the one of the timer. -/
structure WorkflowExecution.Heard (e : WorkflowExecution) (T : Temporal) : Prop where
  inbox : ∀ s ∈ e.state.inbox, T.Accepted e.workflowId s
  slot : ∀ s ∈ e.state.slot, T.Accepted e.workflowId s
  applied : ∀ input, e.state.flow.call? = some (.applyReviewDecision input) →
    ∃ decision, input = ApplicationWorkflow.decisionInput e.input decision ∧
      (decision = slaEscalation ∨ T.Accepted e.workflowId decision)

/-- **Where decisions come from.** -/
structure Signalled (tasks : List (Task programs)) (T : Temporal) : Prop where
  sent : ∀ s ∈ T.signals, ∃ request : ReviewDecisionRequest, request.Sent tasks s
  heard : ∀ e ∈ T.executions, e.Heard T

theorem Temporal.Accepted.mono {T T' : Temporal} {workflowId : String}
    {decision : ReviewDecisionSignal} (h : T.Accepted workflowId decision)
    (hs : T.signals ⊆ T'.signals) : T'.Accepted workflowId decision := by
  obtain ⟨s, hmem, hid, heq⟩ := h
  exact ⟨s, hs hmem, hid, heq⟩

theorem WorkflowExecution.Heard.mono {e : WorkflowExecution} {T T' : Temporal} (h : e.Heard T)
    (hs : T.signals ⊆ T'.signals) : e.Heard T' := by
  refine ⟨fun s hmem => (h.inbox s hmem).mono hs, fun s hmem => (h.slot s hmem).mono hs, ?_⟩
  intro input hinput
  obtain ⟨decision, heq, hd⟩ := h.applied input hinput
  exact ⟨decision, heq, hd.imp id fun ha => ha.mono hs⟩

theorem Signalled.tasks {tasks tasks' : List (Task programs)} {T : Temporal}
    (h : Signalled tasks T) (hkinds : tasks.map Task.kind ⊆ tasks'.map Task.kind) :
    Signalled tasks' T := by
  refine ⟨fun s hs => ?_, h.heard⟩
  obtain ⟨request, hsent⟩ := h.sent s hs
  exact ⟨request, { hsent with posted := hkinds hsent.posted }⟩

/-! ### Events -/

/-- **What an execution has heard of after an event.**  A decision is taken from the slot, or it is
the one of the timer; no other event leads to a decision. -/
theorem WorkflowExecution.Heard.next {e : WorkflowExecution} {T T' : Temporal} (h : e.Heard T)
    (hpos : ApplicationWorkflow.Position e.input e.state.flow) (hs : T.signals ⊆ T'.signals)
    {event : Event ActivityCall.Result ReviewDecisionSignal}
    {state : Execution ActivityCall.Result ReviewDecisionSignal ApplicationWorkflowResult}
    (hnext : e.state.next maximumAttempts event = some state)
    (hsignal : ∀ s, event = .signal s → T'.Accepted e.workflowId s) :
    WorkflowExecution.Heard { e with state := state } T' := by
  have h' := h.mono hs
  cases (Execution.next_cases hnext).2 with
  | signal s =>
      refine ⟨fun s' hs' => ?_, h'.slot, h'.applied⟩
      rcases List.mem_append.1 hs' with hs' | hs'
      · exact h'.inbox s' hs'
      · exact List.mem_singleton.1 hs' ▸ hsignal s rfl
  | deliver s rest hi =>
      have hmem : ∀ s' ∈ s :: rest, T'.Accepted e.workflowId s' := hi ▸ h'.inbox
      refine ⟨fun s' hs' => hmem s' (List.mem_cons_of_mem _ hs'), fun s' hs' => ?_, h'.applied⟩
      cases hs'
      exact hmem s List.mem_cons_self
  | resume k s hf hslot =>
      refine ⟨h'.inbox, h'.slot, fun input hinput => ?_⟩
      rw [hf] at hpos
      cases hpos
      cases hinput
      exact ⟨s, rfl, Or.inr (h'.slot s hslot)⟩
  | timeout k hf hslot =>
      refine ⟨h'.inbox, h'.slot, fun input hinput => ?_⟩
      rw [hf] at hpos
      cases hpos
      cases hinput
      exact ⟨slaEscalation, rfl, Or.inl rfl⟩
  | answer c k r hf =>
      -- a decision is applied after the wait, and an answer does not lead there
      refine ⟨h'.inbox, h'.slot, fun input hinput => ?_⟩
      rw [hf] at hpos
      have hno : (k r).call? ≠ some (.applyReviewDecision input) := by
        cases hpos with
        | validating => dsimp only; split <;> intro heq <;> cases heq
        | checking => dsimp only; split <;> intro heq <;> cases heq
        | _ => intro heq; cases heq
      exact absurd hinput hno
  | giveUp c k hf hlimit => exact ⟨h'.inbox, h'.slot, h'.applied⟩
  | fail c k hf => exact ⟨h'.inbox, h'.slot, h'.applied⟩

section Server

variable {tasks : List (Task programs)} {d : Database} {T T' : Temporal}

/-- An event keeps where decisions come from. -/
theorem Signalled.happen (h : Signalled tasks T) (hsteered : Steered d T) {workflowId : String}
    {event : Event ActivityCall.Result ReviewDecisionSignal}
    (hhappen : T.happen workflowId event = some T') (hno : ∀ s, event ≠ .signal s) :
    Signalled tasks T' := by
  obtain ⟨e, state, -, hnext, hup, hsignals⟩ := Temporal.happen_cases hsteered.ids hhappen
  refine ⟨fun s hs => h.sent s (hsignals ▸ hs), fun f hf => ?_⟩
  have hsub : T.signals ⊆ T'.signals := by rw [hsignals]; exact List.Subset.refl _
  rcases hup.cases f hf with rfl | ⟨hf, -⟩
  · exact (h.heard e hup.mem).next (hsteered.position e hup.mem) hsub hnext
      fun s heq => absurd heq (hno s)
  · exact (h.heard f hf).mono hsub

/-- **A signal that is taken was sent for a request.** -/
theorem Signalled.signal (h : Signalled tasks T) (hsteered : Steered d T) {κ : Kind}
    {workflowId : String} {signal : ReviewDecisionSignal}
    (hsignal : T.signalWorkflow κ workflowId signal = some T')
    (hsent : ∃ request : ReviewDecisionRequest, request.Sent tasks ⟨κ, workflowId, signal⟩) :
    Signalled tasks T' := by
  obtain ⟨T'', hhappen, rfl⟩ := Temporal.signal_cases hsignal
  obtain ⟨e, state, hfound, hnext, hup, hsignals⟩ := Temporal.happen_cases hsteered.ids hhappen
  have hid := (Temporal.execution?_some hfound).2
  have hsub : T.signals ⊆ T''.signals ++ [⟨κ, workflowId, signal⟩] := by
    rw [hsignals]
    exact List.subset_append_left _ _
  constructor
  · intro s hs
    rcases List.mem_append.1 hs with hs | hs
    · exact h.sent s (hsignals ▸ hs)
    · obtain rfl := List.mem_singleton.1 hs
      exact hsent
  · intro f hf
    rcases hup.cases f hf with rfl | ⟨hf, -⟩
    · refine (h.heard e hup.mem).next (hsteered.position e hup.mem) hsub hnext fun s heq => ?_
      cases heq
      exact ⟨_, List.mem_append_right _ (List.mem_singleton.2 rfl), hid.symm, rfl⟩
    · exact (h.heard f hf).mono hsub

/-- An execution that is started holds no decision. -/
theorem Signalled.start (h : Signalled tasks T) {workflowId : String} {t : TenantId}
    {a : ApplicationId} {v : ℕ} {s : ApplicationStatus} (hsub : Submitted d t a v s) :
    Signalled tasks (T.startWorkflow workflowId ⟨t, a, v, s.value⟩) := by
  cases hfound : T.execution? workflowId with
  | some e =>
      simp only [Temporal.startWorkflow, hfound]
      exact h
  | none =>
      simp only [Temporal.startWorkflow, hfound]
      refine ⟨h.sent, fun e he => ?_⟩
      rcases List.mem_append.1 he with he | he
      · exact (h.heard e he).mono (List.Subset.refl _)
      obtain rfl := List.mem_singleton.1 he
      obtain ⟨call, hcall, hsource⟩ := hsub.begins
      refine ⟨by simp [Execution.start], by simp [Execution.start], fun input hinput => ?_⟩
      rw [show (Execution.start (ApplicationWorkflow.run ⟨t, a, v, s.value⟩)).flow.call? =
        some call from hcall] at hinput
      cases hinput
      rcases hsource with hs | hs <;> cases hs

end Server

/-! ### Runs -/

/-- A program that signals a decision is the review endpoint. -/
theorem Kind.signals {κ : Kind} {d₀ d : Database} (hd : InOrder d)
    {workflowId decision reason reviewerId : String}
    (h : (outline.contract κ d₀).asks
      (.signalReviewDecision workflowId decision reason reviewerId) d) :
    ∃ request : ReviewDecisionRequest, κ = .reviewDecision request ∧
      request.decision ∈ reviewDecisions ∧ request.signal = ⟨decision, reason, reviewerId⟩ ∧
      ∃ v, workflowId = applicationWorkflowId request.tenantId request.applicationId v := by
  cases κ with
  | command c => exact h.elim
  | applicationStatus query => exact h.elim
  | activity info call => exact h.elim
  | reviewDecision request =>
      obtain ⟨rfl, hmem, rfl, rfl, x, hx, ht, hw⟩ := h
      refine ⟨request, rfl, hmem, rfl, lastSubmission x.history, ?_⟩
      rw [hx.reached.consistent.active hw, CaseFile.currentWorkflowId, ht, hx.applicationId hd]

/-- **Whatever happens, decisions come from requests.** -/
theorem Signalled.evolves {tasks : List (Task programs)} {d d' : Database} {T T' : Temporal}
    (h : Signalled tasks T) (hsteered : Steered d T) (hd : InOrder d)
    (hev : Evolves tasks d T d' T') : Signalled tasks T' := by
  cases hev with
  | idle => exact h
  | commit c d₀ ws hg ha hc => exact h
  | start t a v s hsub => exact h.start hsub
  | event workflowId event T' hhappen hno htold hanswer => exact h.happen hsteered hhappen hno
  | signal κ hκ d₀ workflowId decision reason reviewerId T' hasks hsignal =>
      obtain ⟨request, rfl, hmem, hsig, v, hv⟩ := Kind.signals hd hasks
      exact h.signal hsteered hsignal ⟨request, hκ, rfl, hsig.symm, hmem, v, hv⟩

/-- **Every decision on its way was signalled**, in every world that is reached. -/
theorem Installation.signalled (I : Installation) {ok : World temporal → Action temporal → Prop}
    {w : World temporal} (h : Reaches postgres ok (I.start temporal Temporal.empty) w) :
    Signalled w.tasks w.ext := by
  induction h with
  | refl =>
      exact ⟨by simp [Installation.start, Temporal.empty], by simp [Installation.start,
        Temporal.empty]⟩
  | tail h _ hs ih =>
      obtain ⟨hsound, hguided⟩ := I.guided h
      refine (ih.evolves hguided.steered hsound.inv (hguided.evolves hsound hs)).tasks ?_
      exact (World.kinds_of_step hs).subset

/-! ### Who moves a case -/

/-- **A case moves by a submission, or by the activity under way of its workflow.** -/
theorem Installation.moved (I : Installation) {ok : World temporal → Action temporal → Prop}
    {w w' : World temporal} (h : Reaches postgres ok (I.start temporal Temporal.empty) w)
    {action : Action temporal} (hs : w.step postgres action = some w') {a : ApplicationId}
    {x x' : CaseFile} (hx : w.db.caseFile? a = some x) (hx' : w'.db.caseFile? a = some x')
    (hne : x' ≠ x) :
    (x.row.activeWorkflowId = none ∧
      ∃ s, x'.history = x.history ++ [s] ∧ isSubmission (some x.row.status) s = true) ∨
    ∃ e ∈ w.ext.executions, ∃ info call c, e.underway? = some (info, call) ∧ call.Runs info c ∧
      e.input.applicationId = a ∧ e.Attached x ∧ x.row.status = call.source ∧ c.Moves x x' := by
  obtain ⟨hsound, hguided⟩ := I.guided h
  have hdb : w'.db ≠ w.db := by
    intro heq
    rw [heq, hx] at hx'
    exact hne (Option.some.inj hx').symm
  obtain ⟨i, t, k, ht, hp, hview, -⟩ := World.committed_of_db hs hdb
  obtain ⟨c, d₀, -, hacts, hc⟩ := hguided.acts hsound ht hp
  rw [hview] at hx'
  rcases hguided.steered.moved hsound.inv (hsound.granted i t ht) hacts hc hx hx' hne with
    ⟨-, hw, hsub⟩ | ⟨e, he, info, call, hcall, hruns, -, happ, hw, hst, hm⟩
  · exact Or.inl ⟨hw, hsub⟩
  · exact Or.inr ⟨e, he, info, call, c, hcall, hruns, happ, hw, hst, hm⟩

/-- A submission is no outcome. -/
theorem CaseFile.Consistent.not_outcome {x x' : CaseFile} (hx' : x'.Consistent)
    {s : ApplicationStatus} (h : x'.history = x.history ++ [s])
    (hs : isSubmission (some x.row.status) s = true) : x'.row.status ∉ reviewOutcomes := by
  have hlast : x'.row.status = s := by
    have := hx'.last
    rw [h, List.getLast?_append] at this
    simpa using this.symm
  rw [hlast]
  simp only [isSubmission, Bool.or_eq_true, Bool.and_eq_true, decide_eq_true_eq] at hs
  rcases hs with rfl | ⟨rfl, -⟩ <;> decide

/-- The entry of a case in review is pending. -/
theorem CaseFile.Consistent.pending {x : CaseFile} (h : x.Consistent)
    (hs : x.row.status = awaitingHumanReview) {entry : ReviewQueueEntryRow}
    (hr : x.review = some entry) : entry.status = "pending" := by
  cases h.phase with
  | draft hs' => simp [hs] at hs'
  | processing hs' => simp [hs] at hs'
  | review _ _ entry' hr' he =>
      rw [hr] at hr'
      exact Option.some.inj hr' ▸ he
  | outcome hs' => simp [hs, reviewOutcomes] at hs'

/-- **An activity that leads to an outcome applies a decision**, on an entry of the queue. -/
theorem ActivityCall.Runs.outcome {info : ActivityInfo} {call : ActivityCall} {c : Command}
    (h : call.Runs info c) {x x' : CaseFile} (hm : c.Moves x x')
    (hout : x'.row.status ∈ reviewOutcomes) :
    ∃ input decision at' decidedAt entry, call = .applyReviewDecision input ∧
      ofValue? input.decision = some decision ∧ x.review = some entry ∧
      x' = x.move [decision] at' none (some (decidedColumns entry decision.value input.reason
        input.reviewerId decidedAt)) := by
  cases h with
  | validateIntake ctx => cases hm <;> simp [CaseFile.move, reviewOutcomes] at hout
  | checkRequiredDocuments ctx => cases hm <;> simp [CaseFile.move, reviewOutcomes] at hout
  | extractDocumentFacts ctx documentId => cases hm
  | verifyFacts ctx => cases hm
  | enterHumanReview input => cases hm; simp [CaseFile.move, reviewOutcomes] at hout
  | applyReviewDecision input decision hd =>
      cases hm
      case decide at' decidedAt entry hmem hr =>
      exact ⟨input, decision, at', decidedAt, entry, rfl, hd, hr, rfl⟩

/-- **What a decision is**: the escalation of the timer, or what a request has asked for that was
posted for this application and signalled to the workflow that is attached. -/
def DecidedBy (w : World temporal) (r : ApplicationRow) (entry : ReviewQueueEntryRow) : Prop :=
  (entry.decision = some escalated.value ∧ entry.reason = some slaTimeoutReason ∧
    entry.reviewerId = none) ∨
  ∃ (request : ReviewDecisionRequest) (s : SignalRecord), s ∈ w.ext.signals ∧
    request.Sent w.tasks s ∧ r.activeWorkflowId = some s.workflowId ∧
    request.applicationId = r.applicationId ∧ request.tenantId = r.tenantId ∧
    entry.decision = some request.decision ∧ entry.reason = some request.reason ∧
    entry.reviewerId = some request.reviewerId

/-- The id of a case is that of its row. -/
theorem InOrder.applicationId {d : Database} (h : InOrder d) {a : ApplicationId} {x : CaseFile}
    (hx : d.caseFile? a = some x) : x.row.applicationId = a := by
  obtain ⟨events, htells⟩ := h.tells hx
  exact htells.id

/-- **What a transaction that leads to an outcome does to the case.** -/
theorem Installation.decided (I : Installation) {ok : World temporal → Action temporal → Prop}
    {w w' : World temporal} (h : Reaches postgres ok (I.start temporal Temporal.empty) w)
    {action : Action temporal} (hs : w.step postgres action = some w') {a : ApplicationId}
    {x x' : CaseFile} (hx : w.db.caseFile? a = some x) (hx' : w'.db.caseFile? a = some x')
    (hne : x' ≠ x) (hout : x'.row.status ∈ reviewOutcomes) :
    x.row.status = awaitingHumanReview ∧ x'.row.activeWorkflowId = none ∧ ∃ entry entry',
      x.review = some entry ∧ entry.status = "pending" ∧ x'.review = some entry' ∧
      entry'.status = "decided" ∧ entry'.decision = some x'.row.status.value ∧
      DecidedBy w x.row entry' := by
  obtain ⟨hsound, hguided⟩ := I.guided h
  have hcons' := ((I.sound (h.reachable.tail trivial hs)).inv.reached hx').consistent
  rcases I.moved h hs hx hx' hne with ⟨-, s, hhist, hsub⟩ |
    ⟨e, he, info, call, c, hcall, hruns, happ, hw, hst, hm⟩
  · exact absurd hout (hcons'.not_outcome hhist hsub)
  obtain ⟨input, decision, at', decidedAt, entry, rfl, hd, hreview, rfl⟩ := hruns.outcome hm hout
  obtain ⟨hflow, -⟩ := WorkflowExecution.underway?_eq_some.1 hcall
  have hvalue := ofValue?_eq_some hd
  have hpending := (hsound.inv.reached hx).consistent.pending hst hreview
  refine ⟨hst, rfl, entry, _, hreview, hpending, rfl, rfl, rfl, ?_⟩
  -- where the decision comes from
  obtain ⟨signal, rfl, horigin⟩ := ((I.signalled h).heard e he).applied input hflow
  rcases horigin with rfl | ⟨s, hmem, hid, rfl⟩
  · refine Or.inl ⟨?_, rfl, rfl⟩
    exact congrArg some hvalue
  · obtain ⟨request, hsent⟩ := (I.signalled h).sent s hmem
    obtain ⟨v, hv⟩ := hsent.workflow
    obtain ⟨x₁, hx₁, hten, -⟩ := hguided.steered.placed e he
    rw [happ, hx] at hx₁
    cases hx₁
    have hnamed := hguided.steered.named e he
    rw [← hid, hv] at hnamed
    obtain ⟨ht, ha, -⟩ := applicationWorkflowId_injective hnamed
    have happ' : x.row.applicationId = a := hsound.inv.applicationId hx
    refine Or.inr ⟨request, s, hmem, hsent, ?_, ?_, ?_, ?_, ?_, ?_⟩
    · rw [hid]
      exact hw
    · rw [ha, happ, happ']
    · rw [ht, ← hten]
    · refine congrArg some (hvalue.trans ?_)
      rw [ApplicationWorkflow.decisionInput, hsent.signal]
      rfl
    · rw [ApplicationWorkflow.decisionInput, hsent.signal]
      rfl
    · rw [ApplicationWorkflow.decisionInput, hsent.signal]
      exact if_neg request.reviewerId_nonempty

/-- **Nobody decides but a reviewer.**  A transaction that leads to an outcome finds the case in
review with an entry that is pending; it detaches the workflow and decides the entry with the same
outcome, and the entry says who has decided: a request that was posted for this application and
signalled to this workflow, with a reviewer, or nobody, and then the case is escalated. -/
theorem decisions_are_signalled (I : Installation) {w w' : World temporal}
    (h : Reachable postgres (I.start temporal Temporal.empty) w) {action : Action temporal}
    (hs : w.step postgres action = some w') {r r' : ApplicationRow}
    (hr : w.db.application? r.applicationId = some r)
    (hr' : w'.db.application? r.applicationId = some r') (hne : r' ≠ r)
    (hout : r'.status ∈ reviewOutcomes) :
    r.status = awaitingHumanReview ∧ r'.activeWorkflowId = none ∧ ∃ entry entry',
      w.db.reviewQueueEntry? r.applicationId = some entry ∧ entry.status = "pending" ∧
      w'.db.reviewQueueEntry? r.applicationId = some entry' ∧ entry'.status = "decided" ∧
      entry'.decision = some r'.status.value ∧ DecidedBy w r entry' := by
  obtain ⟨x, hx, rfl⟩ := caseFile?_of_row hr
  obtain ⟨x', hx', rfl⟩ := caseFile?_of_row hr'
  have hxx : x' ≠ x := fun heq => hne (by rw [heq])
  obtain ⟨hst, hw, entry, entry', hentry, hpending, hentry', hdecided, hdecision, hby⟩ :=
    I.decided h hs hx hx' hxx hout
  exact ⟨hst, hw, entry, entry', (caseFile?_review hx).trans hentry, hpending,
    (caseFile?_review hx').trans hentry', hdecided, hdecision, hby⟩

namespace Sample

/-- A decision was posted and signalled, and the attempt at applying it is about to commit. -/
def deciding : World temporal :=
  underReview.follow postgres
    (.spawn (.reviewDecision ⟨tenantId, loanId, "APPROVED", "fine", "rev-1", by decide, by decide⟩) ::
      steps 4 81 2 ++
     .tick (TemporalTick.deliver workflowId) :: .tick (TemporalTick.resume workflowId) ::
     .spawn (.activity ⟨workflowId, 3⟩
      (.applyReviewDecision ⟨tenantId, loanId, "APPROVED", "fine", some "rev-1"⟩)) :: steps 5 83 18)

/-- The attempt commits. -/
def approval : Action temporal := .advance 5 (answers 101)

def approvedWorld : World temporal := deciding.follow postgres [approval]

theorem reachable_deciding :
    Reachable postgres (installation.start temporal Temporal.empty) deciding :=
  reachable_underReview.trans (reachable_follow _ _)

theorem reachable_approvedWorld :
    Reachable postgres (installation.start temporal Temporal.empty) approvedWorld :=
  reachable_deciding.trans (reachable_follow _ _)

def reviewedRow : ApplicationRow := loanRow awaitingHumanReview 5 (some workflowId)

def approvedRow : ApplicationRow := loanRow approved 6 none

/-- The application before and after the commit. -/
theorem approval_moves : (deciding.step postgres approval).isSome = true ∧
    deciding.db.application? reviewedRow.applicationId = some reviewedRow ∧
    approvedWorld.db.application? reviewedRow.applicationId = some approvedRow := by
  decide +kernel

end Sample

/-- A decision that a reviewer has posted. -/
theorem decisions_are_signalled_approval : ∃ entry entry',
    Sample.deciding.db.reviewQueueEntry? Sample.loanId = some entry ∧ entry.status = "pending" ∧
    Sample.approvedWorld.db.reviewQueueEntry? Sample.loanId = some entry' ∧
    entry'.status = "decided" ∧ entry'.decision = some approved.value ∧
    DecidedBy Sample.deciding Sample.reviewedRow entry' := by
  obtain ⟨hstep, hbefore, hafter⟩ := Sample.approval_moves
  exact (decisions_are_signalled Sample.installation Sample.reachable_deciding
    (World.step_eq_follow hstep) hbefore hafter (by decide) (by decide)).2.2

/-! ### Cases that were closed -/

/-- The outcomes after which nothing is asked of the applicant. -/
def closingStatuses : List ApplicationStatus := [approved, declined, escalated]

theorem CaseFile.Consistent.closed {x : CaseFile} (h : x.Consistent)
    (hs : x.row.status ∈ closingStatuses) : x.row.activeWorkflowId = none := by
  cases h.phase with
  | draft hs' => simp [hs', closingStatuses] at hs
  | processing hs' => rcases hs' with hs' | hs' | hs' <;> simp [hs', closingStatuses] at hs
  | review hs' => simp [hs', closingStatuses] at hs
  | outcome _ hw => exact hw

/-- **Nothing moves a closed case**: there is no workflow attached to it, and it cannot be
submitted. -/
theorem Installation.closed_stays (I : Installation) {w w' : World temporal}
    (h : Reachable postgres (I.start temporal Temporal.empty) w) {action : Action temporal}
    (hs : w.step postgres action = some w') {a : ApplicationId} {x : CaseFile}
    (hx : w.db.caseFile? a = some x) (hclosed : x.row.status ∈ closingStatuses) :
    w'.db.slice a = w.db.slice a := by
  by_contra hne
  have hdb : w'.db ≠ w.db := fun heq => hne (heq ▸ rfl)
  obtain ⟨hsound, hguided⟩ := I.guided h
  obtain ⟨i, t, k, ht, hp, hview, -⟩ := World.committed_of_db hs hdb
  obtain ⟨c, d₀, -, hacts, hc⟩ := hguided.acts hsound ht hp
  rw [hview] at hne
  have hreached := hsound.inv.reached hx
  have hcons := hreached.consistent
  rcases hc.effect.cases with ⟨b, y, hcreate⟩ | ⟨b, y, y', -, -, -, hmove⟩ | hleave
  · by_cases hab : a = b
    · subst hab
      rw [Database.caseFile?, hcreate.before] at hx
      cases hx
    · exact hne (hcreate.others a hab)
  · by_cases hab : a = b
    · subst hab
      have hy := hmove.before
      rw [hx] at hy
      cases hy
      have hxx : y' ≠ x := fun heq => absurd hmove.step.length_lt (heq ▸ lt_irrefl _)
      have hw := hcons.closed hclosed
      rcases hguided.steered.moved hsound.inv (hsound.granted i t ht) hacts hc hx hmove.after hxx with
        ⟨-, -, s, hhist, hsub⟩ | ⟨e, -, info, call, -, -, -, -, hatt, -, -⟩
      · -- a submission is not possible from here
        have hlegal : isLegalTransition x.row.status s = true := by
          have hchain := (hreached.step hmove.step).consistent.legal
          rw [hhist] at hchain
          exact (List.isChain_append.1 hchain).2.2 _ hcons.last s rfl
        simp only [isSubmission, Bool.or_eq_true, Bool.and_eq_true, decide_eq_true_eq] at hsub
        rcases hsub with rfl | ⟨-, hn⟩
        · rw [legal_submitted_iff.1 hlegal] at hclosed
          simp [closingStatuses] at hclosed
        · rw [Option.some.inj hn] at hclosed
          simp [closingStatuses] at hclosed
      · rw [WorkflowExecution.Attached, hw] at hatt
        cases hatt
    · exact hne (hmove.others a hab)
  · exact hne (hleave a)

/-- **A case that was closed stays as it is**: whatever is requested, retried or answered late, its
row, its snapshots, its entry in the queue and the events of its versions are the same in every
later world. -/
theorem closed_for_good (I : Installation) {w w' : World temporal}
    (h : Reachable postgres (I.start temporal Temporal.empty) w) (h' : Reachable postgres w w')
    {r : ApplicationRow} (hr : w.db.application? r.applicationId = some r)
    (hs : r.status ∈ closingStatuses) :
    w'.db.application? r.applicationId = some r ∧
      w'.db.versionsOf r.applicationId = w.db.versionsOf r.applicationId ∧
      w'.db.reviewQueueEntry? r.applicationId = w.db.reviewQueueEntry? r.applicationId ∧
      w'.db.outboxOf r.applicationId = w.db.outboxOf r.applicationId ∧
      w'.db.auditOf r.applicationId = w.db.auditOf r.applicationId := by
  obtain ⟨x, hx, rfl⟩ := caseFile?_of_row hr
  have hslice : w'.db.slice x.row.applicationId = w.db.slice x.row.applicationId := by
    induction h' with
    | refl => rfl
    | @tail w₁ w₂ action h₁ _ hstep ih =>
        have hx₁ : w₁.db.caseFile? x.row.applicationId = some x := by
          rw [Database.caseFile?, ih]
          exact hx
        exact (I.closed_stays (h.trans h₁) hstep hx₁ hs).trans ih
  refine ⟨?_, congrArg Slice.versions hslice, congrArg Slice.review hslice,
    congrArg Slice.outbox hslice, congrArg Slice.audits hslice⟩
  exact (congrArg Slice.row hslice).trans hr

namespace Sample

/-- And then a submission is tried again. -/
def resubmitting : World temporal :=
  approvedWorld.follow postgres
    (.spawn (.command (.submitApplication ⟨tenantId, loanId, "submit-2"⟩)) :: steps 6 102 4)

end Sample

/-- An application that was approved. -/
theorem closed_for_good_approved :
    (Sample.approvedWorld.db.outboxOf Sample.approvedRow.applicationId).length = 6 ∧
    Sample.resubmitting.tasks.length = Sample.approvedWorld.tasks.length + 1 ∧
    Sample.resubmitting.db.application? Sample.approvedRow.applicationId =
      some Sample.approvedRow ∧
    Sample.resubmitting.db.versionsOf Sample.approvedRow.applicationId =
      Sample.approvedWorld.db.versionsOf Sample.approvedRow.applicationId ∧
    Sample.resubmitting.db.outboxOf Sample.approvedRow.applicationId =
      Sample.approvedWorld.db.outboxOf Sample.approvedRow.applicationId := by
  have hafter : Sample.approvedWorld.db.application? Sample.approvedRow.applicationId =
      some Sample.approvedRow := Sample.approval_moves.2.2
  obtain ⟨hrow, hversions, -, houtbox, -⟩ := closed_for_good Sample.installation
    Sample.reachable_approvedWorld (reachable_follow Sample.approvedWorld _) hafter (by decide)
  exact ⟨by decide +kernel, by decide +kernel, hrow, hversions, houtbox⟩

end FinAssist
