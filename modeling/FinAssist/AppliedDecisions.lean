/-
**Which decision becomes of a case, and what its workflow returns.**

A decision goes a long way: a reviewer posts it, the endpoint signals it, the server keeps it for the
workflow, the workflow takes it out of a single slot when its wait ends, an attempt at an activity
commits it, and the workflow returns what it is told.  This module follows it.  An outcome that
approves, declines or asks for more information was asked for by a reviewer.  Of several decisions
that were acknowledged the workflow applies the one that was delivered last before its wait has
ended, and the others are lost.  And what the workflow returns is its decision, unless the
application was submitted again before the workflow was told.

Main definitions:

* `FinAssist.Requested` — a reviewer has asked for an outcome;
* `FinAssist.Temporal.signalsTo`, `FinAssist.lastDelivered` — the decisions a workflow was signalled,
  and the one it applies;
* `FinAssist.Taken` — the server has taken the signal of a request.

Main results:

* `FinAssist.outcomes_are_requested` — **no outcome but an escalation without a reviewer**;
* `FinAssist.last_delivered_is_applied` — **the decision that is applied is the one delivered last**;
* `FinAssist.results_report_decisions` — **a workflow returns its decision**, or what became of it.
-/

import FinAssist.WorkflowResults

set_option relaxedAutoImplicit false
set_option autoImplicit false

namespace FinAssist

open ReadCommitted ApplicationStatus Durable

/-! ### Signals that were taken -/

theorem Temporal.signals_of_happen {T T' : Temporal} {workflowId : String}
    {event : Event ActivityCall.Result ReviewDecisionSignal}
    (h : T.happen workflowId event = some T') : T'.signals = T.signals := by
  simp only [Temporal.happen, Option.bind_eq_some_iff, Option.map_eq_some_iff] at h
  obtain ⟨e, -, state, -, rfl⟩ := h
  rfl

theorem Temporal.signals_of_start (T : Temporal) (workflowId : String)
    (input : ApplicationWorkflowInput) : (T.startWorkflow workflowId input).signals = T.signals := by
  rw [Temporal.startWorkflow]
  split <;> rfl

theorem Temporal.signals_of_signal {T T' : Temporal} {κ : Kind} {workflowId : String}
    {signal : ReviewDecisionSignal} (h : T.signalWorkflow κ workflowId signal = some T') :
    T.signals ⊆ T'.signals := by
  obtain ⟨T'', hhappen, rfl⟩ := Temporal.signal_cases h
  rw [← Temporal.signals_of_happen hhappen]
  exact List.subset_append_left _ _

theorem Temporal.signals_of_answer {T T' : Temporal} {κ : Kind} {q : Ask} {a : Answer q}
    (h : T.answer κ q a = some T') : T.signals ⊆ T'.signals := by
  rcases Temporal.answer_cases h with rfl | ⟨workflowId, t, app, v, status, -, rfl⟩ |
    ⟨workflowId, decision, reason, reviewerId, -, hsignal⟩
  · exact List.Subset.refl _
  · rw [Temporal.signals_of_start]
    exact List.Subset.refl _
  · exact Temporal.signals_of_signal hsignal

/-- **Signals that were taken stay.** -/
theorem Evolves.signals {tasks : List (Task programs)} {d d' : Database} {T T' : Temporal}
    (hev : Evolves tasks d T d' T') : T.signals ⊆ T'.signals := by
  cases hev with
  | idle => exact List.Subset.refl _
  | commit c d₀ ws hg ha hc => exact List.Subset.refl _
  | start t a v s hsub =>
      rw [Temporal.signals_of_start]
      exact List.Subset.refl _
  | event workflowId event T' hhappen hno htold hanswer =>
      rw [Temporal.signals_of_happen hhappen]
      exact List.Subset.refl _
  | signal κ hκ d₀ workflowId decision reason reviewerId T' hasks hsignal =>
      exact Temporal.signals_of_signal hsignal

/-! ### Decisions of reviewers -/

/-- The outcomes that nobody but a reviewer decides on. -/
def reviewerOutcomes : List ApplicationStatus := [approved, declined, needsMoreInformation]

theorem reviewOutcomes_of_reviewerOutcomes : ∀ s ∈ reviewerOutcomes, s ∈ reviewOutcomes := by
  decide

/-- **A reviewer has asked for an outcome**: a request for the application was posted, with this
decision and a reviewer, and it was signalled. -/
structure Requested (w : World temporal) (a : ApplicationId) (s : SignalRecord)
    (request : ReviewDecisionRequest) (decision : ApplicationStatus) : Prop where
  taken : s ∈ w.ext.signals
  sent : request.Sent w.tasks s
  applicationId : request.applicationId = a
  decision : request.decision = decision.value
  reviewer : request.reviewerId ≠ ""

theorem Requested.step {w w' : World temporal} {action : Action temporal} {a : ApplicationId}
    {s : SignalRecord} {request : ReviewDecisionRequest} {decision : ApplicationStatus}
    (h : Requested w a s request decision) (hsound : outline.since.Sound Kind.Foreseen w)
    (hguided : Guided w) (hs : w.step postgres action = some w') :
    Requested w' a s request decision := by
  have hsub := (hguided.evolves hsound hs).signals
  have hposted := (World.kinds_of_step hs).subset h.sent.posted
  exact { h with taken := hsub h.taken, sent := { h.sent with posted := hposted } }

/-- **What leads to an outcome is an attempt of the workflow that is attached**, with the decision. -/
theorem Installation.applied (I : Installation) {ok : World temporal → Action temporal → Prop}
    {w w' : World temporal} (h : Reaches postgres ok (I.start temporal Temporal.empty) w)
    {action : Action temporal} (hs : w.step postgres action = some w') {a : ApplicationId}
    {x x' : CaseFile} (hx : w.db.caseFile? a = some x) (hx' : w'.db.caseFile? a = some x')
    (hne : x' ≠ x) (hout : x'.row.status ∈ reviewOutcomes) : ∃ i info input ws,
    w'.log = w.log ++ [⟨i, .activity info (.applyReviewDecision input), ws⟩] ∧
      x.row.activeWorkflowId = some info.workflowId ∧ input.applicationId = a ∧
      input.decision = x'.row.status.value := by
  obtain ⟨hsound, hguided⟩ := I.guided h
  have hcons' := ((I.sound (h.reachable.tail trivial hs)).inv.reached hx').consistent
  have hdb : w'.db ≠ w.db := fun heq => by
    rw [heq, hx] at hx'
    exact hne (Option.some.inj hx').symm
  obtain ⟨i, t, k, ht, hp, hview, hlog⟩ := World.committed_of_db hs hdb
  obtain ⟨c, d₀, hkind, hacts, hc⟩ := hguided.acts hsound ht hp
  have hg := hsound.granted i t ht
  have hguidedTask := hguided.tasks i t ht
  obtain ⟨κ, ws, p⟩ := t
  cases κ with
  | activity info call =>
      obtain ⟨ha, hw, -, c, hruns, hm⟩ := I.moved_by_activity h hs hlog hx hx' hne
      obtain ⟨input, decision, at', decidedAt, entry, rfl, hd, -, rfl⟩ := hruns.outcome hm hout
      exact ⟨i, info, input, ws, hlog, hw, ha.symm, (ofValue?_eq_some hd).symm⟩
  | command c' =>
      -- a request does not lead to an outcome
      obtain rfl : c = c' := hkind
      have hrequest : c.isRequest = true := hguidedTask
      rcases hguided.steered.moved hsound.inv hg hacts hc hx (hview ▸ hx') hne with
        ⟨-, -, s, hhist, hsub⟩ | ⟨e, -, info, call, -, hruns, -⟩
      · exact absurd hout (hcons'.not_outcome hhist hsub)
      · cases hruns <;> cases hrequest
  | applicationStatus query => exact hkind.elim
  | reviewDecision request => exact hkind.elim

/-- **An outcome that nobody but a reviewer decides on was asked for**, of the workflow that is
attached, and the entry of the queue says by whom. -/
theorem Installation.requested (I : Installation) {ok : World temporal → Action temporal → Prop}
    {w w' : World temporal} (h : Reaches postgres ok (I.start temporal Temporal.empty) w)
    {action : Action temporal} (hs : w.step postgres action = some w') {a : ApplicationId}
    {x x' : CaseFile} (hx : w.db.caseFile? a = some x) (hx' : w'.db.caseFile? a = some x')
    (hne : x' ≠ x) (hout : x'.row.status ∈ reviewerOutcomes) :
    x.row.status = awaitingHumanReview ∧ ∃ s request entry,
      Requested w a s request x'.row.status ∧ request.tenantId = x.row.tenantId ∧
      x.row.activeWorkflowId = some s.workflowId ∧ x'.review = some entry ∧
      entry.decision = some request.decision ∧ entry.reviewerId = some request.reviewerId := by
  have hreview := (by decide : ∀ s ∈ reviewerOutcomes, s ∈ reviewOutcomes ∧ s ≠ escalated) _ hout
  obtain ⟨hst, -, entry, entry', -, -, hentry, -, hdecision, hby⟩ :=
    I.decided h hs hx hx' hne hreview.1
  have happ : x.row.applicationId = a := (I.guided h).1.inv.applicationId hx
  rcases hby with ⟨hsla, -, -⟩ | ⟨request, s, hmem, hsent, hw, ha, ht, hd, -, hr⟩
  · rw [hdecision] at hsla
    exact absurd (value_inj (Option.some.inj hsla)) hreview.2
  · have hd' : request.decision = x'.row.status.value := Option.some.inj (hd.symm.trans hdecision)
    exact ⟨hst, s, request, entry', ⟨hmem, hsent, ha.trans happ, hd', request.reviewerId_nonempty⟩,
      ht, hw, hentry, hd, hr⟩

/-- **Every outcome in a history that nobody but a reviewer decides on was asked for.** -/
theorem Installation.history_requested (I : Installation)
    {ok : World temporal → Action temporal → Prop} {w : World temporal}
    (h : Reaches postgres ok (I.start temporal Temporal.empty) w) :
    ∀ a x, w.db.caseFile? a = some x → ∀ decision ∈ x.history, decision ∈ reviewerOutcomes →
      ∃ s request, Requested w a s request decision := by
  induction h with
  | refl =>
      intro a x hx
      change I.database.caseFile? a = some x at hx
      rw [Database.caseFile?, I.slice] at hx
      cases hx
  | @tail w w' action h _ hs ih =>
      obtain ⟨hsound, hguided⟩ := I.guided h
      have hkept : ∀ {a : ApplicationId} {decision : ApplicationStatus},
          (∃ s request, Requested w a s request decision) →
            ∃ s request, Requested w' a s request decision := by
        rintro a decision ⟨s, request, hreq⟩
        exact ⟨s, request, hreq.step hsound hguided hs⟩
      intro a x' hx' decision hmem hout
      cases hx : w.db.caseFile? a with
      | none =>
          rw [I.newCase h hs hx hx', List.mem_singleton] at hmem
          rw [hmem] at hout
          exact absurd hout (by decide)
      | some x =>
          by_cases hne : x' = x
          · rw [hne] at hmem
            exact hkept (ih a x hx decision hmem hout)
          · obtain ⟨path, hmove, hhist, hlast⟩ := I.caseMove h hs hx hx' hne
            rw [hhist] at hmem
            rcases List.mem_append.1 hmem with hmem | hmem
            · exact hkept (ih a x hx decision hmem hout)
            · -- the move ends in the outcome, so it is the status of the case
              obtain rfl := eq_of_caseMoves _ hmove decision hmem
                (reviewOutcomes_of_reviewerOutcomes _ hout)
              obtain rfl := Option.some.inj hlast
              obtain ⟨-, s, request, -, hreq, -⟩ := I.requested h hs hx hx' hne hout
              exact hkept ⟨s, request, hreq⟩

/-- **No outcome but an escalation without a reviewer.**  A transaction that approves or declines an
application, or asks for more information, finds it in review; a request with this decision and a
reviewer was posted for it and signalled to the workflow that is attached, and the entry of the queue
has the decision and the reviewer.  And an application for which no request was signalled never had an
outcome other than an escalation. -/
theorem outcomes_are_requested (I : Installation) {w : World temporal}
    (h : Reachable postgres (I.start temporal Temporal.empty) w) :
    (∀ action w' r r', w.step postgres action = some w' →
      w.db.application? r.applicationId = some r → w'.db.application? r.applicationId = some r' →
      r' ≠ r → r'.status ∈ reviewerOutcomes →
      r.status = awaitingHumanReview ∧ ∃ s request entry,
        Requested w r.applicationId s request r'.status ∧ request.tenantId = r.tenantId ∧
        r.activeWorkflowId = some s.workflowId ∧
        (∃ i info input ws,
          w'.log = w.log ++ [⟨i, .activity info (.applyReviewDecision input), ws⟩] ∧
          info.workflowId = s.workflowId) ∧
        w'.db.reviewQueueEntry? r.applicationId = some entry ∧
        entry.decision = some request.decision ∧ entry.reviewerId = some request.reviewerId) ∧
    ∀ r, w.db.application? r.applicationId = some r →
      (∀ s request decision, ¬ Requested w r.applicationId s request decision) →
      ∀ v ∈ w.db.versionsOf r.applicationId, v.status ∈ reviewOutcomes → v.status = escalated := by
  constructor
  · intro action w' r r' hs hr hr' hne hout
    obtain ⟨x, hx, rfl⟩ := caseFile?_of_row hr
    obtain ⟨x', hx', rfl⟩ := caseFile?_of_row hr'
    have hxx : x' ≠ x := fun heq => hne (by rw [heq])
    obtain ⟨hst, s, request, entry, hreq, ht, hw, hentry, hd, hrev⟩ :=
      I.requested h hs hx hx' hxx hout
    obtain ⟨i, info, input, ws, hlog, hw', -, -⟩ := I.applied h hs hx hx' hxx
      (reviewOutcomes_of_reviewerOutcomes _ hout)
    rw [hw] at hw'
    exact ⟨hst, s, request, entry, hreq, ht, hw,
      ⟨i, info, input, ws, hlog, (Option.some.inj hw').symm⟩, (caseFile?_review hx').trans hentry,
      hd, hrev⟩
  · intro r hr hno v hv hout
    by_contra hne
    obtain ⟨x, hx, -⟩ := caseFile?_of_row hr
    have hmem : v.status ∈ x.history := by
      rw [← (I.guided h).1.inv.statuses hx]
      exact List.mem_map_of_mem hv
    have hreviewer := (by decide : ∀ s ∈ reviewOutcomes, s ≠ escalated → s ∈ reviewerOutcomes) _
      hout hne
    obtain ⟨s, request, hreq⟩ := I.history_requested h _ x hx _ hmem hreviewer
    exact hno s request _ hreq

namespace Sample

/-- Nobody decides, and the timer of the review fires. -/
def escalatedWorld : World temporal :=
  underReview.follow postgres
    (.tick (TemporalTick.timeout workflowId) ::
     .spawn (.activity ⟨workflowId, 3⟩ (.applyReviewDecision
      ⟨tenantId, loanId, "ESCALATED", slaTimeoutReason, none⟩)) :: steps 4 81 19)

theorem reachable_escalatedWorld :
    Reachable postgres (installation.start temporal Temporal.empty) escalatedWorld :=
  reachable_underReview.trans (reachable_follow _ _)

end Sample

/-- An approval, and an application that was escalated. -/
theorem outcomes_are_requested_approval :
    (∃ s request entry, Requested Sample.deciding Sample.loanId s request approved ∧
      some Sample.workflowId = some s.workflowId ∧
      Sample.approvedWorld.db.reviewQueueEntry? Sample.loanId = some entry ∧
      entry.decision = some request.decision ∧ entry.reviewerId = some request.reviewerId) ∧
    (Sample.escalatedWorld.db.application? Sample.loanId).map ApplicationRow.status =
      some escalated ∧
    ∀ v ∈ Sample.escalatedWorld.db.versionsOf Sample.loanId, v.status ∈ reviewOutcomes →
      v.status = escalated := by
  obtain ⟨hstep, hbefore, hafter⟩ := Sample.approval_moves
  obtain ⟨-, s, request, entry, hreq, -, hw, -, hentry, hd, hr⟩ :=
    (outcomes_are_requested Sample.installation Sample.reachable_deciding).1 _ _ _ _
      (World.step_eq_follow hstep) hbefore hafter (by decide) (by decide)
  obtain ⟨hstatus, hsignals⟩ :
      (Sample.escalatedWorld.db.application? Sample.loanId).map ApplicationRow.status =
          some escalated ∧ Sample.escalatedWorld.ext.signals.length = 0 := by
    decide +kernel
  obtain ⟨r, hr', -⟩ := Option.map_eq_some_iff.1 hstatus
  have hid : r.applicationId = Sample.loanId := by
    simpa [Database.application?] using List.find?_some hr'
  refine ⟨⟨s, request, entry, hreq, hw, hentry, hd, hr⟩, hstatus, ?_⟩
  rw [← hid] at hr' ⊢
  refine (outcomes_are_requested Sample.installation Sample.reachable_escalatedWorld).2 r hr' ?_
  rintro s request decision ⟨hmem, -, -, -, -⟩
  rw [List.length_eq_zero_iff.1 hsignals] at hmem
  cases hmem

/-! ### Decisions in a queue -/

/-- The decisions that were signalled to a workflow, in the order in which the server has taken
them. -/
def Temporal.signalsTo (T : Temporal) (workflowId : String) : List ReviewDecisionSignal :=
  (T.signals.filter fun s => s.workflowId = workflowId).map SignalRecord.signal

/-- **The decision of a workflow whose wait has ended after `m` signals were delivered**: the last
one of these, or the escalation. -/
def lastDelivered (signals : List ReviewDecisionSignal) (m : ℕ) : ReviewDecisionSignal :=
  (signals.take m).getLast?.getD slaEscalation

/-- **Which of the signals an execution has got, and which it applies.** -/
structure WorkflowExecution.Queued (e : WorkflowExecution) (T : Temporal) : Prop where
  fed : ∃ n, e.state.Fed (T.signalsTo e.workflowId) n
  applied : ∀ input, e.state.flow.call? = some (.applyReviewDecision input) →
    ∃ m ≤ (T.signalsTo e.workflowId).length,
      input = ApplicationWorkflow.decisionInput e.input (lastDelivered (T.signalsTo e.workflowId) m)

/-- The signals of an execution are those that were taken for it. -/
structure Temporal.Queues (T : Temporal) : Prop where
  known : ∀ s ∈ T.signals, ∃ e ∈ T.executions, e.workflowId = s.workflowId
  queued : ∀ e ∈ T.executions, e.Queued T

theorem lastDelivered_append {signals : List ReviewDecisionSignal} {m : ℕ}
    (h : m ≤ signals.length) (later : List ReviewDecisionSignal) :
    lastDelivered (signals ++ later) m = lastDelivered signals m := by
  rw [lastDelivered, List.take_append_of_le_length h, lastDelivered]

/-- **An event of an execution keeps its queue.** -/
theorem WorkflowExecution.Queued.next {e : WorkflowExecution} {T T' : Temporal} (h : e.Queued T)
    (hpos : ApplicationWorkflow.Position e.input e.state.flow)
    {event : Event ActivityCall.Result ReviewDecisionSignal}
    {state : Execution ActivityCall.Result ReviewDecisionSignal ApplicationWorkflowResult}
    (hnext : e.state.next maximumAttempts event = some state)
    (hsignals : T'.signalsTo e.workflowId =
      T.signalsTo e.workflowId ++ event.signal?.toList) :
    WorkflowExecution.Queued { e with state := state } T' := by
  obtain ⟨n, hfed⟩ := h.fed
  refine ⟨?_, fun input hinput => ?_⟩
  · change ∃ n, state.Fed (T'.signalsTo e.workflowId) n
    rw [hsignals]
    exact hfed.next hnext
  change state.flow.call? = _ at hinput
  change ∃ m ≤ (T'.signalsTo e.workflowId).length, input =
    ApplicationWorkflow.decisionInput e.input (lastDelivered (T'.signalsTo e.workflowId) m)
  rw [hsignals]
  have hkept : e.state.flow.call? = some (.applyReviewDecision input) →
      ∃ m ≤ (T.signalsTo e.workflowId ++ event.signal?.toList).length, input =
        ApplicationWorkflow.decisionInput e.input
          (lastDelivered (T.signalsTo e.workflowId ++ event.signal?.toList) m) := by
    intro hcall
    obtain ⟨m, hm, heq⟩ := h.applied input hcall
    refine ⟨m, ?_, ?_⟩
    · rw [List.length_append]
      omega
    · rw [lastDelivered_append hm, heq]
  cases (Execution.next_cases hnext).2 with
  | signal s => exact hkept hinput
  | deliver s rest hi => exact hkept hinput
  | giveUp c k hf hlimit => exact hkept hinput
  | fail c k hf => exact hkept hinput
  | resume k s hf hslot =>
      rw [hf] at hpos
      cases hpos
      cases hinput
      refine ⟨n, ?_, ?_⟩
      · rw [List.length_append]
        exact hfed.le.trans (Nat.le_add_right _ _)
      · rw [lastDelivered_append hfed.le, lastDelivered, ← hfed.slot, hslot]
  | timeout k hf hslot =>
      rw [hf] at hpos
      cases hpos
      cases hinput
      refine ⟨n, ?_, ?_⟩
      · rw [List.length_append]
        exact hfed.le.trans (Nat.le_add_right _ _)
      · rw [lastDelivered_append hfed.le, lastDelivered, ← hfed.slot, hslot]
  | answer c k r hf =>
      -- a decision is applied after the wait, and an answer does not lead there
      rw [hf] at hpos
      have hno : (k r).call? ≠ some (.applyReviewDecision input) := by
        cases hpos with
        | validating => dsimp only; split <;> intro heq <;> cases heq
        | checking => dsimp only; split <;> intro heq <;> cases heq
        | _ => intro heq; cases heq
      exact absurd hinput hno

/-- The signals of one execution are not those of another. -/
theorem Temporal.signalsTo_append (signals : List SignalRecord) (executions : List WorkflowExecution)
    (s : SignalRecord) (workflowId : String) :
    Temporal.signalsTo ⟨executions, signals ++ [s]⟩ workflowId =
      Temporal.signalsTo ⟨executions, signals⟩ workflowId ++
        (if s.workflowId = workflowId then [s.signal] else []) := by
  simp only [Temporal.signalsTo, List.filter_append, List.map_append]
  congr 1
  by_cases h : s.workflowId = workflowId <;> simp [h]

theorem Temporal.Queues.happen {d : Database} {T T' : Temporal} (h : T.Queues)
    (hsteered : Steered d T) {workflowId : String}
    {event : Event ActivityCall.Result ReviewDecisionSignal}
    (hhappen : T.happen workflowId event = some T') (hno : ∀ s, event ≠ .signal s) : T'.Queues := by
  obtain ⟨e, state, -, hnext, hup, hsignals⟩ := Temporal.happen_cases hsteered.ids hhappen
  have hsame : ∀ workflowId, T'.signalsTo workflowId = T.signalsTo workflowId := fun workflowId => by
    rw [Temporal.signalsTo, hsignals, Temporal.signalsTo]
  have hnone : event.signal? = none := by
    cases event with
    | signal s => exact absurd rfl (hno s)
    | _ => rfl
  constructor
  · intro s hs
    rw [hsignals] at hs
    obtain ⟨f, hf, hid⟩ := h.known s hs
    by_cases hfe : f.workflowId = e.workflowId
    · exact ⟨_, hup.updated, hfe.symm.trans hid⟩
    · exact ⟨f, hup.kept f hf hfe, hid⟩
  · intro f hf
    rcases hup.cases f hf with rfl | ⟨hf, -⟩
    · refine (h.queued e hup.mem).next (hsteered.position e hup.mem) hnext ?_
      rw [hsame, hnone]
      simp
    · obtain ⟨hfed, happlied⟩ := h.queued f hf
      rw [← hsame] at hfed happlied
      exact ⟨hfed, happlied⟩

theorem Temporal.Queues.signal {d : Database} {T T' : Temporal} (h : T.Queues)
    (hsteered : Steered d T) {κ : Kind} {workflowId : String} {signal : ReviewDecisionSignal}
    (hsignal : T.signalWorkflow κ workflowId signal = some T') : T'.Queues := by
  obtain ⟨T'', hhappen, rfl⟩ := Temporal.signal_cases hsignal
  obtain ⟨e, state, hfound, hnext, hup, hsignals⟩ := Temporal.happen_cases hsteered.ids hhappen
  have hid := (Temporal.execution?_some hfound).2
  have hlist : ∀ id, Temporal.signalsTo
      { T'' with signals := T''.signals ++ [⟨κ, workflowId, signal⟩] } id =
        T.signalsTo id ++ (if workflowId = id then [signal] else []) := fun id => by
    rw [Temporal.signalsTo_append, hsignals]
    rfl
  constructor
  · intro s hs
    rcases List.mem_append.1 hs with hs | hs
    · rw [hsignals] at hs
      obtain ⟨f, hf, hfid⟩ := h.known s hs
      by_cases hfe : f.workflowId = e.workflowId
      · exact ⟨_, hup.updated, hfe.symm.trans hfid⟩
      · exact ⟨f, hup.kept f hf hfe, hfid⟩
    · obtain rfl := List.mem_singleton.1 hs
      exact ⟨_, hup.updated, hid⟩
  · intro f hf
    rcases hup.cases f hf with rfl | ⟨hf, hfe⟩
    · refine (h.queued e hup.mem).next (hsteered.position e hup.mem) hnext ?_
      rw [hlist, if_pos hid.symm]
      rfl
    · obtain ⟨hfed, happlied⟩ := h.queued f hf
      have hsame : Temporal.signalsTo
          { T'' with signals := T''.signals ++ [⟨κ, workflowId, signal⟩] } f.workflowId =
            T.signalsTo f.workflowId := by
        rw [hlist, if_neg fun heq => hfe (heq.symm.trans hid.symm), List.append_nil]
      rw [← hsame] at hfed happlied
      exact ⟨hfed, happlied⟩

theorem Temporal.Queues.start {d : Database} {T : Temporal} (h : T.Queues) {t : TenantId}
    {a : ApplicationId} {v : ℕ} {s : ApplicationStatus} (hsub : Submitted d t a v s)
    (workflowId : String) : (T.startWorkflow workflowId ⟨t, a, v, s.value⟩).Queues := by
  cases hfound : T.execution? workflowId with
  | some e =>
      simp only [Temporal.startWorkflow, hfound]
      exact h
  | none =>
      simp only [Temporal.startWorkflow, hfound]
      refine ⟨fun s hs => ?_, fun e he => ?_⟩
      · obtain ⟨f, hf, hid⟩ := h.known s hs
        exact ⟨f, List.mem_append_left _ hf, hid⟩
      rcases List.mem_append.1 he with he | he
      · obtain ⟨hfed, happlied⟩ := h.queued e he
        exact ⟨hfed, happlied⟩
      obtain rfl := List.mem_singleton.1 he
      -- no signal was taken for a workflow that was not there
      have hnil : T.signalsTo workflowId = [] := by
        refine List.map_eq_nil_iff.2 (List.filter_eq_nil_iff.2 fun s hs heq => ?_)
        obtain ⟨f, hf, hid⟩ := h.known s hs
        exact Temporal.execution?_none hfound f hf (hid.trans (of_decide_eq_true heq))
      obtain ⟨call, hcall, hsource⟩ := hsub.begins
      refine ⟨⟨0, ?_⟩, fun input hinput => ?_⟩
      · change Execution.Fed (Execution.start _) (T.signalsTo workflowId) 0
        rw [hnil]
        exact Execution.fed_start _
      · rw [show (Execution.start (ApplicationWorkflow.run ⟨t, a, v, s.value⟩)).flow.call? =
          some call from hcall] at hinput
        cases hinput
        rcases hsource with hs | hs <;> cases hs

/-- **Signals are delivered in their order**, in every world that is reached. -/
theorem Installation.queues (I : Installation) {ok : World temporal → Action temporal → Prop}
    {w : World temporal} (h : Reaches postgres ok (I.start temporal Temporal.empty) w) :
    w.ext.Queues := by
  refine I.agreement (P := fun _ T => T.Queues) ⟨by simp [Temporal.empty], by simp [Temporal.empty]⟩
    ?_ h
  intro tasks d T d' T' hd hsteered hev ih
  cases hev with
  | idle => exact ih
  | commit c d₀ ws hg ha hc => exact ih
  | start t a v s hsub => exact ih.start hsub _
  | event workflowId event T' hhappen hno htold hanswer => exact ih.happen hsteered hhappen hno
  | signal κ hκ d₀ workflowId decision reason reviewerId T' hasks hsignal =>
      exact ih.signal hsteered hsignal

/-! ### Requests that have succeeded -/

/-- The server has taken the signal of a request. -/
def Taken (T : Temporal) (request : ReviewDecisionRequest) (workflowId : String) : Prop :=
  ∃ s ∈ T.signals, s.workflowId = workflowId ∧ s.sender = .reviewDecision request ∧
    s.signal = request.signal

/-- Whether an answer acknowledges the signal of a request to a workflow. -/
def Acknowledges (request : ReviewDecisionRequest) (workflowId : String) :
    (q : Ask) → Answer q → Prop
  | .signalReviewDecision id decision reason reviewerId, .acknowledged =>
      id = workflowId ∧ ⟨decision, reason, reviewerId⟩ = request.signal
  | _, _ => False

/-- **What is left of the endpoint answers with a workflow that has taken the signal.** -/
def Answered (request : ReviewDecisionRequest) :
    (String → Prop) → Handler ReviewDecisionResponse → Prop
  | taken, Prog.ret response => taken response.workflowId
  | _, Prog.raise _ => True
  | taken, Prog.ask q k =>
      ∀ a, Answered request (fun id => taken id ∨ Acknowledges request id q a) (k a)
  | taken, Prog.query k => ∀ d, Answered request taken (k d)
  | taken, Prog.exec _ k => ∀ o, Answered request taken (k o)
  | taken, Prog.commit k => Answered request taken k
  | taken, Prog.rollback k => Answered request taken k

theorem Answered.mono {request : ReviewDecisionRequest} {p : Handler ReviewDecisionResponse} :
    ∀ {taken taken' : String → Prop}, (∀ id, taken id → taken' id) → Answered request taken p →
      Answered request taken' p := by
  induction p with
  | ret response =>
      intro taken taken' himp h
      exact himp _ h
  | raise e =>
      intro taken taken' _ _
      trivial
  | ask q k ih =>
      intro taken taken' himp h a
      exact ih a (fun id => Or.imp_left (himp id)) (h a)
  | query k ih =>
      intro taken taken' himp h d
      exact ih d himp (h d)
  | exec w k ih =>
      intro taken taken' himp h o
      exact ih o himp (h o)
  | commit k ih =>
      intro taken taken' himp h
      exact ih himp h
  | rollback k ih =>
      intro taken taken' himp h
      exact ih himp h

/-- It is enough that what comes after does so. -/
theorem answered_bind {request : ReviewDecisionRequest} {α : Type} {p : Handler α}
    {f : α → Handler ReviewDecisionResponse} :
    ∀ {taken : String → Prop}, (∀ a, Answered request taken (f a)) →
      Answered request taken (p >>= f) := by
  rw [Prog.bind_eq]
  induction p with
  | ret a => exact fun h => h a
  | raise e => exact fun _ => trivial
  | ask q k ih => exact fun h a => ih a fun b => (h b).mono fun _ => Or.inl
  | query k ih => exact fun h d => ih d h
  | exec w k ih => exact fun h o => ih o h
  | commit k ih => exact fun h => ih h
  | rollback k ih => exact fun h => ih h

/-- **The endpoint answers with the workflow it has signalled.** -/
theorem answered_submitReviewDecision (request : ReviewDecisionRequest) :
    Answered request (fun _ => False) (submitReviewDecision request) := by
  rw [submitReviewDecision]
  split
  · trivial
  · refine answered_bind fun current => ?_
    cases current.activeWorkflowId with
    | none => trivial
    | some workflowId =>
        intro ack
        cases ack with
        | acknowledged => exact Or.inr ⟨rfl, rfl⟩
        | rejected text => trivial
        | lost delivered => trivial

/-- What is known of a request on its way, or answered. -/
def TaskAnswers (T : Temporal) : Task programs → Prop
  | ⟨.reviewDecision request, _, p⟩ => Answered request (Taken T request) p
  | _ => True

theorem TaskAnswers.mono {T T' : Temporal} (hsub : T.signals ⊆ T'.signals) {t : Task programs}
    (h : TaskAnswers T t) : TaskAnswers T' t := by
  obtain ⟨κ, ws, p⟩ := t
  cases κ with
  | reviewDecision request =>
      exact Answered.mono (fun id ⟨s, hs, hid⟩ => ⟨s, hsub hs, hid⟩) h
  | _ => trivial

/-- An acknowledgement is given for a signal that was taken. -/
theorem Temporal.taken_of_acknowledges {T T' : Temporal} {request : ReviewDecisionRequest}
    {q : Ask} {a : Answer q} (h : T.answer (.reviewDecision request) q a = some T')
    {workflowId : String} (hack : Acknowledges request workflowId q a) :
    Taken T' request workflowId := by
  cases q with
  | signalReviewDecision id decision reason reviewerId =>
      change Ack at a
      cases a with
      | acknowledged =>
          obtain ⟨rfl, hsignal⟩ := hack
          obtain ⟨T'', -, rfl⟩ := Temporal.signal_cases h
          exact ⟨_, List.mem_append_right _ (List.mem_singleton.2 rfl), rfl, rfl, hsignal⟩
      | _ => exact hack.elim
  | _ => exact hack.elim

/-- A request goes on. -/
theorem TaskAnswers.advance {w w' : World temporal} {i : ℕ} {t : Task programs}
    (h : TaskAnswers w.ext t) (hadv : Advanced postgres w i t w') :
    ∃ u, w'.tasks = w.tasks.set i u ∧ TaskAnswers w'.ext u := by
  obtain ⟨κ, ws, p⟩ := t
  cases κ with
  | reviewDecision request =>
      change Answered request (Taken w.ext request) p at h
      cases hadv with
      | ask q k a T' hp hT' =>
          change p = _ at hp
          rw [hp] at h
          refine ⟨_, rfl, Answered.mono (fun id hid => ?_) (h a)⟩
          rcases hid with ⟨s, hs, hid⟩ | hack
          · exact ⟨s, Temporal.signals_of_answer hT' hs, hid⟩
          · exact Temporal.taken_of_acknowledges hT' hack
      | query k hp =>
          change p = _ at hp
          rw [hp] at h
          exact ⟨_, rfl, h _⟩
      | refused x k f hp hf =>
          change p = _ at hp
          rw [hp] at h
          exact ⟨_, rfl, h _⟩
      | exec x k hp hf hfree =>
          change p = _ at hp
          rw [hp] at h
          exact ⟨_, rfl, h _⟩
      | commit k hp =>
          change p = _ at hp
          rw [hp] at h
          exact ⟨_, rfl, h⟩
      | rollback k hp =>
          change p = _ at hp
          rw [hp] at h
          exact ⟨_, rfl, h⟩
  | _ =>
      obtain ⟨⟨κ', ws', p'⟩, htasks, hkind, -⟩ := hadv.shape
      cases hkind
      exact ⟨_, htasks, trivial⟩

/-- **What is known of requests is known in every world that is reached.** -/
theorem Installation.answers_requests (I : Installation)
    {ok : World temporal → Action temporal → Prop} {w : World temporal}
    (h : Reaches postgres ok (I.start temporal Temporal.empty) w) :
    ∀ t ∈ w.tasks, TaskAnswers w.ext t := by
  induction h with
  | refl => simp [Installation.start]
  | @tail w w' action h hok hs ih =>
      obtain ⟨hsound, hguided⟩ := I.guided h
      have hsub := (hguided.evolves hsound hs).signals
      have hkept : ∀ t ∈ w.tasks, TaskAnswers w'.ext t := fun t ht => (ih t ht).mono hsub
      intro u hu
      cases World.step_cases hs with
      | tick τ T' hT => exact hkept u hu
      | spawn κ hκ =>
          rcases List.mem_append.1 hu with hu | hu
          · exact hkept u hu
          · obtain rfl := List.mem_singleton.1 hu
            cases κ with
            | reviewDecision request =>
                exact (answered_submitReviewDecision request).mono fun _ hno => hno.elim
            | _ => trivial
      | advance i answers t w' ht hadv =>
          obtain ⟨u', htasks, hanswers⟩ := (ih t (List.mem_of_getElem? ht)).advance hadv
          rw [htasks] at hu
          rcases List.mem_or_eq_of_mem_set hu with hu | rfl
          · exact hkept u hu
          · exact hanswers
      | kill i t ht =>
          rcases List.mem_or_eq_of_mem_set hu with hu | rfl
          · exact hkept u hu
          · obtain ⟨κ, ws, p⟩ := t
            cases κ <;> trivial

/-! ### Which decision is applied -/

/-- **A wait ends with the decision that was delivered last.** -/
theorem Evolves.wait {tasks : List (Task programs)} {d d' : Database} {T T' : Temporal}
    (hev : Evolves tasks d T d' T') (hsteered : Steered d T) (hqueues : T.Queues)
    {e e' : WorkflowExecution} (he : e ∈ T.executions) (he' : e' ∈ T'.executions)
    (hid : e'.workflowId = e.workflowId)
    (hflow : e.state.flow = ApplicationWorkflow.waiting e.input) :
    e'.state.flow = ApplicationWorkflow.waiting e.input ∨
    ∃ n, e.state.Fed (T.signalsTo e.workflowId) n ∧ e'.state.flow =
      ApplicationWorkflow.applying e.input (lastDelivered (T.signalsTo e.workflowId) n) := by
  have hsame : e' ∈ T.executions → e'.state.flow = ApplicationWorkflow.waiting e.input :=
    fun hmem => by rw [hsteered.unique hmem he hid, hflow]
  have hhappen : ∀ {T''} {workflowId event}, T.happen workflowId event = some T'' →
      e' ∈ T''.executions → e'.state.flow = ApplicationWorkflow.waiting e.input ∨
        ∃ n, e.state.Fed (T.signalsTo e.workflowId) n ∧ e'.state.flow =
          ApplicationWorkflow.applying e.input (lastDelivered (T.signalsTo e.workflowId) n) := by
    intro T'' workflowId event hh hmem
    obtain ⟨f, state, -, hnext, hup, -⟩ := Temporal.happen_cases hsteered.ids hh
    rcases hup.cases e' hmem with rfl | ⟨hmem, -⟩
    · obtain rfl : f = e := hsteered.unique hup.mem he hid
      obtain ⟨n, hfed⟩ := (hqueues.queued f hup.mem).fed
      change state.flow = _ ∨ ∃ n, f.state.Fed _ n ∧ state.flow = _
      cases (Execution.next_cases hnext).2 with
      | resume k s hf hslot =>
          rw [hflow] at hf
          cases hf
          refine Or.inr ⟨n, hfed, ?_⟩
          rw [lastDelivered, ← hfed.slot, hslot]
      | timeout k hf hslot =>
          rw [hflow] at hf
          cases hf
          refine Or.inr ⟨n, hfed, ?_⟩
          rw [lastDelivered, ← hfed.slot, hslot]
      | answer c k r hf =>
          rw [hflow] at hf
          cases hf
      | _ => exact Or.inl hflow
    · exact Or.inl (hsame hmem)
  cases hev with
  | idle => exact Or.inl (hsame he')
  | commit c d₀ ws hg ha hc => exact Or.inl (hsame he')
  | event workflowId event T' hh hno htold hanswer => exact hhappen hh he'
  | signal κ hκ d₀ workflowId decision reason reviewerId T' hasks hsignal =>
      obtain ⟨T'', hh, rfl⟩ := Temporal.signal_cases hsignal
      exact hhappen hh he'
  | start t a v s hsub =>
      simp only [Temporal.startWorkflow] at he'
      split at he'
      next => exact Or.inl (hsame he')
      next hfound =>
        rcases List.mem_append.1 he' with he' | he'
        · exact Or.inl (hsame he')
        · obtain rfl := List.mem_singleton.1 he'
          exact absurd hid.symm (Temporal.execution?_none hfound e he)

/-- A call that applies a decision is that of a workflow at the end of its wait. -/
theorem flow_of_applying {input : ApplicationWorkflowInput}
    {flow : Workflow ApplicationWorkflowResult} (hpos : ApplicationWorkflow.Position input flow)
    {x : ApplyReviewDecisionActivityInput} (h : flow.call? = some (.applyReviewDecision x)) :
    ∃ decision, flow = ApplicationWorkflow.applying input decision ∧
      x = ApplicationWorkflow.decisionInput input decision := by
  cases hpos with
  | applying decision =>
      cases h
      exact ⟨decision, rfl, rfl⟩
  | _ => cases h

/-- **The decision that is applied is the one delivered last.**  The signal of a request that has
succeeded was taken.  The signals of a workflow are delivered in the order in which they were taken,
each in place of the one before.  The wait of a workflow ends with the one delivered last, or with
the escalation if there was none; and an outcome is committed with the decision with which the wait
of the workflow that is attached has ended. -/
theorem last_delivered_is_applied (I : Installation) {w : World temporal}
    (h : Reachable postgres (I.start temporal Temporal.empty) w) :
    (∀ (i : ℕ) request ws response,
      w.tasks[i]? = some ⟨.reviewDecision request, ws, .ret response⟩ →
      Taken w.ext request response.workflowId) ∧
    (∀ e ∈ w.ext.executions, ∃ n, e.state.Fed (w.ext.signalsTo e.workflowId) n) ∧
    (∀ action w', w.step postgres action = some w' →
      ∀ e ∈ w.ext.executions, ∀ e' ∈ w'.ext.executions, e'.workflowId = e.workflowId →
        e.state.flow = ApplicationWorkflow.waiting e.input →
        e'.state.flow = ApplicationWorkflow.waiting e.input ∨
        ∃ n, e.state.Fed (w.ext.signalsTo e.workflowId) n ∧ e'.state.flow =
          ApplicationWorkflow.applying e.input
            (lastDelivered (w.ext.signalsTo e.workflowId) n)) ∧
    ∀ action w' r r', w.step postgres action = some w' →
      w.db.application? r.applicationId = some r → w'.db.application? r.applicationId = some r' →
      r' ≠ r → r'.status ∈ reviewOutcomes →
      ∃ e ∈ w.ext.executions, ∃ decision m, r.activeWorkflowId = some e.workflowId ∧
        e.state.flow = ApplicationWorkflow.applying e.input decision ∧
        r'.status.value = decision.decision ∧ m ≤ (w.ext.signalsTo e.workflowId).length ∧
        decision.decision = (lastDelivered (w.ext.signalsTo e.workflowId) m).decision := by
  obtain ⟨hsound, hguided⟩ := I.guided h
  have hqueues := I.queues h
  refine ⟨fun i request ws response ht => ?_, fun e he => (hqueues.queued e he).fed, ?_, ?_⟩
  · exact I.answers_requests h _ (List.mem_of_getElem? ht)
  · intro action w' hs e he e' he' hid hflow
    exact (hguided.evolves hsound hs).wait hguided.steered hqueues he he' hid hflow
  · intro action w' r r' hs hr hr' hne hout
    obtain ⟨x, hx, rfl⟩ := caseFile?_of_row hr
    obtain ⟨x', hx', rfl⟩ := caseFile?_of_row hr'
    have hxx : x' ≠ x := fun heq => hne (by rw [heq])
    have hcons' := ((I.sound (h.tail trivial hs)).inv.reached hx').consistent
    rcases I.moved h hs hx hx' hxx with ⟨-, s, hhist, hsub⟩ |
      ⟨e, he, info, call, c, hcall, hruns, -, hw, -, hm⟩
    · exact absurd hout (hcons'.not_outcome hhist hsub)
    obtain ⟨input, status, at', decidedAt, entry, rfl, hd, -, rfl⟩ := hruns.outcome hm hout
    obtain ⟨hflow, -⟩ := WorkflowExecution.underway?_eq_some.1 hcall
    obtain ⟨decision, hdecision, rfl⟩ := flow_of_applying (hguided.steered.position e he) hflow
    obtain ⟨m, hm, heq⟩ := (hqueues.queued e he).applied _ hflow
    exact ⟨e, he, decision, m, hw, hdecision, ofValue?_eq_some hd, hm,
      congrArg ApplyReviewDecisionActivityInput.decision heq⟩

namespace Sample

theorem fine_nonempty : "fine" ≠ "" := by decide

theorem no_nonempty : "no" ≠ "" := by decide

theorem salary_nonempty : "salary" ≠ "" := by decide

theorem firstReviewer_nonempty : "rev-1" ≠ "" := by decide

theorem secondReviewer_nonempty : "rev-2" ≠ "" := by decide

def approvingRequest : ReviewDecisionRequest :=
  ⟨tenantId, loanId, "APPROVED", "fine", "rev-1", fine_nonempty, firstReviewer_nonempty⟩

def decliningRequest : ReviewDecisionRequest :=
  ⟨tenantId, loanId, "DECLINED", "no", "rev-2", no_nonempty, secondReviewer_nonempty⟩

def askingRequest : ReviewDecisionRequest :=
  ⟨tenantId, loanId, "NEEDS_MORE_INFORMATION", "salary", "rev-1", salary_nonempty,
    firstReviewer_nonempty⟩

/-- Two reviewers decide, and both are acknowledged before the workflow goes on. -/
def contested : World temporal :=
  underReview.follow postgres
    (.spawn (.reviewDecision approvingRequest) :: steps 4 81 2 ++
     .spawn (.reviewDecision decliningRequest) :: steps 5 83 2 ++
     .tick (TemporalTick.deliver workflowId) :: .tick (TemporalTick.deliver workflowId) ::
     .tick (TemporalTick.resume workflowId) ::
     .spawn (.activity ⟨workflowId, 3⟩
      (.applyReviewDecision ⟨tenantId, loanId, "DECLINED", "no", some "rev-2"⟩)) :: steps 6 85 18)

/-- And the attempt at applying one of them commits. -/
def refusal : Action temporal := .advance 6 (answers 103)

def declinedWorld : World temporal := contested.follow postgres [refusal]

theorem reachable_contested :
    Reachable postgres (installation.start temporal Temporal.empty) contested :=
  reachable_underReview.trans (reachable_follow _ _)

def declinedRow : ApplicationRow := loanRow declined 6 none

/-- The application before and after the commit. -/
theorem refusal_moves : (contested.step postgres refusal).isSome = true ∧
    contested.db.application? reviewedRow.applicationId = some reviewedRow ∧
    declinedWorld.db.application? reviewedRow.applicationId = some declinedRow := by
  decide +kernel

/-- One reviewer decides and is acknowledged, but the timer of the review fires first. -/
def unheard : World temporal :=
  underReview.follow postgres
    (.spawn (.reviewDecision approvingRequest) :: steps 4 81 2 ++
     .tick (TemporalTick.timeout workflowId) ::
     .spawn (.activity ⟨workflowId, 3⟩ (.applyReviewDecision
      ⟨tenantId, loanId, "ESCALATED", slaTimeoutReason, none⟩)) :: steps 5 83 19)

/-- The decision of a request that has succeeded, and the workflow it was signalled to. -/
def succeeded? (t : Task programs) : Option (String × String) :=
  match t with
  | ⟨.reviewDecision request, _, .ret response⟩ => some (request.decision, response.workflowId)
  | _ => none

theorem of_succeeded? {t : Task programs} {decision workflowId : String}
    (h : succeeded? t = some (decision, workflowId)) : ∃ request ws response,
    t = ⟨.reviewDecision request, ws, .ret response⟩ ∧ request.decision = decision ∧
      response.workflowId = workflowId := by
  unfold succeeded? at h
  split at h
  next request ws response =>
    cases h
    exact ⟨request, ws, response, rfl, rfl, rfl⟩
  next => cases h

def statusOf (w : World temporal) : Option ApplicationStatus :=
  (w.db.application? loanId).map ApplicationRow.status

end Sample

/-- Two decisions that were taken, of which the one delivered last is applied. -/
theorem last_delivered_is_applied_contested :
    (∃ request : ReviewDecisionRequest, request.decision = "APPROVED" ∧
      Taken Sample.contested.ext request Sample.workflowId) ∧
    ∃ e ∈ Sample.contested.ext.executions, ∃ decision m,
      some Sample.workflowId = some e.workflowId ∧
      e.state.flow = ApplicationWorkflow.applying e.input decision ∧
      declined.value = decision.decision ∧
      m ≤ (Sample.contested.ext.signalsTo e.workflowId).length ∧
      decision.decision =
        (lastDelivered (Sample.contested.ext.signalsTo e.workflowId) m).decision := by
  have happlied := last_delivered_is_applied Sample.installation Sample.reachable_contested
  constructor
  · have hsome : (Sample.contested.tasks[4]?.bind Sample.succeeded?) =
        some ("APPROVED", Sample.workflowId) := by decide +kernel
    obtain ⟨t, ht, hsucceeded⟩ := Option.bind_eq_some_iff.1 hsome
    obtain ⟨request, ws, response, rfl, hd, hw⟩ := Sample.of_succeeded? hsucceeded
    exact ⟨request, hd, hw ▸ happlied.1 4 request ws response ht⟩
  · obtain ⟨hstep, hbefore, hafter⟩ := Sample.refusal_moves
    exact happlied.2.2.2 _ _ _ _ (World.step_eq_follow hstep) hbefore hafter (by decide)
      (by decide)

/-- **Decisions that were acknowledged are lost**: to a later one, and to the timer. -/
theorem acknowledged_decisions_lost :
    (Reachable postgres (Sample.installation.start temporal Temporal.empty) Sample.declinedWorld ∧
      Sample.declinedWorld.tasks.filterMap Sample.succeeded? =
        [("APPROVED", Sample.workflowId), ("DECLINED", Sample.workflowId)] ∧
      Sample.statusOf Sample.declinedWorld = some declined) ∧
    Reachable postgres (Sample.installation.start temporal Temporal.empty) Sample.unheard ∧
      Sample.unheard.tasks.filterMap Sample.succeeded? = [("APPROVED", Sample.workflowId)] ∧
      Sample.statusOf Sample.unheard = some escalated := by
  have hdeclined : Sample.declinedWorld.tasks.filterMap Sample.succeeded? =
      [("APPROVED", Sample.workflowId), ("DECLINED", Sample.workflowId)] ∧
      Sample.statusOf Sample.declinedWorld = some declined := by
    decide +kernel
  have hescalated : Sample.unheard.tasks.filterMap Sample.succeeded? =
      [("APPROVED", Sample.workflowId)] ∧ Sample.statusOf Sample.unheard = some escalated := by
    decide +kernel
  exact ⟨⟨Sample.reachable_contested.trans (reachable_follow _ _), hdeclined⟩,
    Sample.reachable_underReview.trans (reachable_follow _ _), hescalated⟩

/-! ### What a workflow returns -/

/-- The first outcome was that of the shorter history, if it was there. -/
theorem FirstOutcome.of_prefix {history history' : List ApplicationStatus} {v n : ℕ}
    {decision : ApplicationStatus} (h : FirstOutcome history' v n decision)
    (hpre : history <+: history') (hn : n ≤ history.length) : FirstOutcome history v n decision := by
  obtain ⟨rest, rfl⟩ := hpre
  have hafter := h.after
  refine ⟨hafter, ?_, h.outcome, fun m s hm hmn hs => ?_⟩
  · rw [← h.status, List.getElem?_append_left (by omega)]
  · refine h.first m s hm hmn ?_
    rw [List.getElem?_append_left (by omega)]
    exact hs

/-- An execution was there before, or its application is as it was submitted. -/
theorem Evolves.known {tasks : List (Task programs)} {d d' : Database} {T T' : Temporal}
    (hev : Evolves tasks d T d' T') (hsteered : Steered d T) {e : WorkflowExecution}
    (he : e ∈ T'.executions) :
    (∃ f ∈ T.executions, f.workflowId = e.workflowId ∧ f.input = e.input) ∨
    ∃ x, d'.caseFile? e.input.applicationId = some x ∧ x.history.length = e.input.version := by
  have hhappen : ∀ {T''} {workflowId event}, T.happen workflowId event = some T'' →
      e ∈ T''.executions → ∃ f ∈ T.executions, f.workflowId = e.workflowId ∧ f.input = e.input := by
    intro T'' workflowId event hh hmem
    obtain ⟨f, state, -, -, hup, -⟩ := Temporal.happen_cases hsteered.ids hh
    rcases hup.cases e hmem with rfl | ⟨hmem, -⟩
    · exact ⟨f, hup.mem, rfl, rfl⟩
    · exact ⟨e, hmem, rfl, rfl⟩
  cases hev with
  | idle => exact Or.inl ⟨e, he, rfl, rfl⟩
  | commit c d₀ ws hg ha hc => exact Or.inl ⟨e, he, rfl, rfl⟩
  | event workflowId event T' hh hno htold hanswer => exact Or.inl (hhappen hh he)
  | signal κ hκ d₀ workflowId decision reason reviewerId T' hasks hsignal =>
      obtain ⟨T'', hh, rfl⟩ := Temporal.signal_cases hsignal
      exact Or.inl (hhappen hh he)
  | start t a v s hsub =>
      cases hfound : T.execution? (applicationWorkflowId t a v) with
      | some f =>
          simp only [Temporal.startWorkflow, hfound] at he
          exact Or.inl ⟨e, he, rfl, rfl⟩
      | none =>
          simp only [Temporal.startWorkflow, hfound] at he
          rcases List.mem_append.1 he with he | he
          · exact Or.inl ⟨e, he, rfl, rfl⟩
          · obtain rfl := List.mem_singleton.1 he
            obtain ⟨x, hx, -, hlen, -⟩ := hsteered.unmoved hsub (Temporal.execution?_none hfound)
            exact Or.inr ⟨x, hx, hlen⟩

/-- **The first outcome since a submission was applied by its workflow.** -/
theorem Installation.decides (I : Installation) {ok : World temporal → Action temporal → Prop}
    {w : World temporal} (h : Reaches postgres ok (I.start temporal Temporal.empty) w) :
    ∀ e ∈ w.ext.executions, ∀ x, w.db.caseFile? e.input.applicationId = some x →
      ∀ n decision, FirstOutcome x.history e.input.version n decision →
      ∃ entry ∈ w.log, ∃ info input, entry.kind = .activity info (.applyReviewDecision input) ∧
        info.workflowId = e.workflowId ∧ input.decision = decision.value := by
  induction h with
  | refl =>
      intro e he
      cases he
  | @tail w w' action h hok hs ih =>
      obtain ⟨hsound, hguided⟩ := I.guided h
      have hlogged : w.log ⊆ w'.log := by
        rcases World.commit_cases hs with ⟨-, hlog⟩ | ⟨i, t, k, -, -, -, hlog⟩ <;> rw [hlog]
        · exact List.Subset.refl _
        · exact List.subset_append_left _ _
      intro e he x' hx' n decision hfirst
      rcases (hguided.evolves hsound hs).known hguided.steered he with
        ⟨f, hf, hid, hinput⟩ | ⟨x₀, hx₀, hlen⟩
      · obtain ⟨x, hx, hsince⟩ := I.since h f hf
        have hold : FirstOutcome x.history e.input.version n decision →
            ∃ entry ∈ w'.log, ∃ info input,
              entry.kind = .activity info (.applyReviewDecision input) ∧
              info.workflowId = e.workflowId ∧ input.decision = decision.value := by
          intro hfirst'
          obtain ⟨entry, hmem, info, input, hkind, hw, hd⟩ :=
            ih f hf x hx n decision (hinput ▸ hfirst')
          exact ⟨entry, hlogged hmem, info, input, hkind, hw.trans hid, hd⟩
        rw [← hinput] at hx'
        by_cases hne : x' = x
        · exact hold (hne ▸ hfirst)
        obtain ⟨path, hmove, hhist, hlast⟩ := I.caseMove h hs hx hx' hne
        by_cases hn : n ≤ x.history.length
        · exact hold (hfirst.of_prefix ⟨path, hhist.symm⟩ hn)
        -- the outcome is that of this step
        have hstatus := hfirst.status
        rw [hhist, List.getElem?_append_right (by omega)] at hstatus
        have hmem := List.mem_of_getElem? hstatus
        obtain rfl := eq_of_caseMoves _ hmove decision hmem hfirst.outcome
        obtain rfl := Option.some.inj hlast
        obtain ⟨i, info, input, ws, hlog, hw, -, hd⟩ := I.applied h hs hx hx' hne hfirst.outcome
        refine ⟨_, hlog ▸ List.mem_append_right _ (List.mem_singleton.2 rfl), info, input, rfl, ?_,
          hd⟩
        obtain ⟨x₁, hx₁, hten, -⟩ := hguided.steered.placed f hf
        rw [hx] at hx₁
        cases hx₁
        obtain ⟨-, ⟨hatt, -⟩ | ⟨-, n₀, decision₀, hfirst₀⟩⟩ := hsince
        · rw [hw] at hatt
          rw [Option.some.inj hatt, ← hid, hguided.steered.named f hf, hten,
            hsound.inv.applicationId hx]
        · -- there was an outcome before
          have hle := hfirst₀.le_length
          have hearlier := (hfirst₀.mono ⟨_, hhist.symm⟩).status
          exact absurd hfirst₀.outcome (hfirst.first n₀ decision₀ (hinput ▸ hfirst₀.after) (by omega)
            hearlier)
      · -- an application that is as it was submitted has had no outcome since
        rw [hx'] at hx₀
        cases hx₀
        have hafter := hfirst.after
        have hle := hfirst.le_length
        omega

/-- **A workflow returns its decision**: what an attempt of the workflow has committed, with its
version; or, only if it has asked for more information and the application was submitted again
before the workflow was told, a later status and version of the application. -/
theorem results_report_decisions (I : Installation) {w : World temporal}
    (h : Reachable postgres (I.start temporal Temporal.empty) w) :
    ∀ e ∈ w.ext.executions, ∀ result, e.state.flow = .ret result →
      ∃ n decision,
        let statuses := (w.db.versionsOf e.input.applicationId).map ApplicationVersionRow.status
        (∃ entry ∈ w.log, ∃ info input, entry.kind = .activity info (.applyReviewDecision input) ∧
          info.workflowId = e.workflowId ∧ input.decision = decision.value) ∧
        FirstOutcome statuses e.input.version n decision ∧
        (result.finalStatus = decision.value ∧ result.finalVersion = n ∨
          decision = needsMoreInformation ∧ statuses[n]? = some documentProcessing ∧
            n < result.finalVersion ∧ ∃ s, statuses[result.finalVersion - 1]? = some s ∧
              result.finalStatus = s.value) := by
  intro e he result hresult
  obtain ⟨x, n, decision, s, hx, hfirst, hle, hs, hstatus⟩ := (I.concluded h).results e he result
    hresult
  refine ⟨n, decision, ?_⟩
  dsimp only
  rw [(I.guided h).1.inv.statuses hx]
  refine ⟨I.decides h e he x hx n decision hfirst, hfirst, ?_⟩
  rcases Nat.eq_or_lt_of_le hle with rfl | hlt
  · have hsame := hs.symm.trans hfirst.status
    exact Or.inl ⟨hstatus.trans (congrArg _ (Option.some.inj hsame)), rfl⟩
  · have hlen := (List.getElem?_eq_some_iff.1 hs).1
    have hafter := hfirst.after
    obtain ⟨hneeds, hdocuments⟩ := I.resubmitted_after h hx hfirst (by omega)
    exact Or.inr ⟨hneeds, hdocuments, hlt, s, hs, hstatus⟩

namespace Sample

/-- More information is asked for, and the workflow is not told. -/
def asking : World temporal :=
  underReview.follow postgres
    (.spawn (.reviewDecision askingRequest) :: steps 4 81 2 ++
     .tick (TemporalTick.deliver workflowId) :: .tick (TemporalTick.resume workflowId) ::
     .spawn (.activity ⟨workflowId, 3⟩ (.applyReviewDecision
      ⟨tenantId, loanId, "NEEDS_MORE_INFORMATION", "salary", some "rev-1"⟩)) :: steps 5 83 19)

/-- The application is submitted again, and then the workflow is told by the next attempt. -/
def told : World temporal :=
  asking.follow postgres
    (.tick (TemporalTick.retry workflowId) ::
     .spawn (.command (.resubmitApplication ⟨tenantId, loanId, "resubmit-1"⟩)) :: steps 6 102 17 ++
     .spawn (.activity ⟨workflowId, 3⟩ (.applyReviewDecision
      ⟨tenantId, loanId, "NEEDS_MORE_INFORMATION", "salary", some "rev-1"⟩)) :: steps 7 130 4 ++
     [.tick (TemporalTick.complete workflowId 7)])

theorem reachable_told :
    Reachable postgres (installation.start temporal Temporal.empty) told :=
  (reachable_underReview.trans (reachable_follow _ _)).trans (reachable_follow _ _)

/-- The decisions that a workflow has applied. -/
def appliedBy (workflowId : String) (w : World temporal) : List String :=
  w.log.filterMap fun entry => match entry.kind with
    | .activity info (.applyReviewDecision input) =>
        if info.workflowId = workflowId then some input.decision else none
    | _ => none

/-- What a workflow has returned. -/
def returned? (workflowId : String) (w : World temporal) : Option (String × ℕ) :=
  (w.ext.execution? workflowId).bind fun e => match e.state.flow with
    | .ret result => some (result.finalStatus, result.finalVersion)
    | _ => none

theorem of_returned? {workflowId : String} {w : World temporal} {status : String} {version : ℕ}
    (h : returned? workflowId w = some (status, version)) : ∃ e ∈ w.ext.executions,
    e.workflowId = workflowId ∧ ∃ result, e.state.flow = .ret result ∧
      result.finalStatus = status ∧ result.finalVersion = version := by
  obtain ⟨e, he, hresult⟩ := Option.bind_eq_some_iff.1 h
  split at hresult
  next result hflow =>
    cases hresult
    obtain ⟨hmem, hid⟩ := Temporal.execution?_some he
    exact ⟨e, hmem, hid, result, hflow, rfl, rfl⟩
  next => cases hresult

end Sample

/-- **A workflow returns what it has not decided**: it has asked for more information, which is
version 6 of the application, and returns the status and the version of the resubmission. -/
theorem resubmission_is_reported :
    Reachable postgres (Sample.installation.start temporal Temporal.empty) Sample.told ∧
    Sample.appliedBy Sample.workflowId Sample.told = ["NEEDS_MORE_INFORMATION"] ∧
    ((Sample.told.db.versionsOf Sample.loanId).map ApplicationVersionRow.status)[5]? =
      some needsMoreInformation ∧
    Sample.returned? Sample.workflowId Sample.told = some ("DOCUMENT_PROCESSING", 7) := by
  refine ⟨Sample.reachable_told, ?_⟩
  decide +kernel

/-- The same workflow. -/
theorem results_report_decisions_told : ∃ e ∈ Sample.told.ext.executions, ∃ n decision,
    FirstOutcome ((Sample.told.db.versionsOf e.input.applicationId).map
      ApplicationVersionRow.status) e.input.version n decision ∧
    (∃ entry ∈ Sample.told.log, ∃ info input,
      entry.kind = .activity info (.applyReviewDecision input) ∧
      info.workflowId = e.workflowId ∧ input.decision = decision.value) ∧
    ("DOCUMENT_PROCESSING" = decision.value ∧ 7 = n ∨ decision = needsMoreInformation ∧ n < 7) := by
  have hreturned : Sample.returned? Sample.workflowId Sample.told = some ("DOCUMENT_PROCESSING", 7) :=
    by decide +kernel
  obtain ⟨e, he, -, result, hflow, hstatus, hversion⟩ := Sample.of_returned? hreturned
  obtain ⟨n, decision, hentry, hfirst, hcases⟩ :=
    results_report_decisions Sample.installation Sample.reachable_told e he result hflow
  rw [hstatus, hversion] at hcases
  exact ⟨e, he, n, decision, hfirst, hentry,
    hcases.imp id fun h => ⟨h.1, h.2.2.1⟩⟩

end FinAssist
