/-
**Workflows, attempts and requests side by side.**

`FinAssist/WorkflowSteps.lean` has the invariant that ties the cases to the workflows.  Here it is
carried through whole runs: any number of requests, executions, attempts that go on after they were
given up, answers that are lost, workers that die, signals and timers, in any order.  An attempt
knows that its activity is under way or was carried out; what it returns is what the case says; and
it never finds the case in a status its transition is illegal from.

Main definitions:

* `FinAssist.Kind.Foreseen` — the rows an attempt at an activity starts from;
* `FinAssist.TaskGuided` — what is known of a task;
* `FinAssist.Guided` — **what is known of a world**.

Main results:

* `FinAssist.Installation.guided` — **every world that is reached is guided**;
* `FinAssist.activities_in_step` — **no attempt finds the case in a status it cannot leave**, and what
  an attempt moves is a case its workflow is attached to.
-/

import FinAssist.UuidSpellings
import FinAssist.WorkflowSteps

set_option relaxedAutoImplicit false
set_option autoImplicit false

namespace FinAssist

open ReadCommitted ApplicationStatus Durable

/-! ### What is known of a task -/

/-- **The rows an attempt at an activity starts from**: its key is taken, or its workflow is attached
to a case in the status the activity starts from. -/
def Kind.Foreseen (κ : Kind) (d : Database) : Prop :=
  match κ with
  | .activity info call => ∀ k ∈ call.key? info, d.has k = false →
      ∃ x, d.caseFile? call.applicationId = some x ∧
        x.row.activeWorkflowId = some info.workflowId ∧ x.row.status = call.source
  | _ => True

/-- What is known of an attempt that has ended. -/
def Ended (d : Database) (T : Temporal) (info : ActivityInfo) (call : ActivityCall) :
    Handler call.Result → Prop
  | .ret r => call.Done info d ∧ ∀ e ∈ T.executions, e.underway? = some (info, call) →
      call.results ≠ [] → call.Reports d r
  | .raise e => ∀ source target, e ≠ .illegalStateTransition source target
  | _ => True

/-- **What is known of a task.** -/
def TaskGuided (d : Database) (T : Temporal) : Task programs → Prop
  | ⟨.command c, _, _⟩ => c.isRequest = true
  | ⟨.activity info call, _, p⟩ =>
      (∃ e ∈ T.executions, e.Knows d info call) ∧ Ended d T info call p
  | _ => True

/-- **What is known of a world.** -/
structure Guided (w : World temporal) : Prop where
  steered : Steered w.db w.ext
  tasks : ∀ (i : ℕ) t, w.tasks[i]? = some t → TaskGuided w.db w.ext t

/-! ### How an attempt ends -/

section Live

variable {d : Database} {T : Temporal} {info : ActivityInfo} {call : ActivityCall}

/-- From where it starts an activity may go where it tries to. -/
theorem ActivityCall.Runs.legal {c : Command} (hruns : call.Runs info c)
    {target : ApplicationStatus} (htarget : target ∈ c.targets) :
    isLegalTransition call.source target = true := by
  cases hruns with
  | validateIntake ctx => exact List.mem_singleton.1 htarget ▸ rfl
  | checkRequiredDocuments ctx =>
      exact (by decide : ∀ s ∈ [ApplicationStatus.verification, awaitingHumanReview],
        isLegalTransition documentProcessing s = true) target htarget
  | extractDocumentFacts ctx documentId => cases htarget
  | verifyFacts ctx => cases htarget
  | enterHumanReview input => exact List.mem_singleton.1 htarget ▸ rfl
  | applyReviewDecision input decision hdecision =>
      simp only [Command.targets] at htarget
      split at htarget
      next hout => exact List.mem_singleton.1 htarget ▸ legal_awaitingHumanReview_outcome hout
      next => cases htarget

/-- **An attempt whose key is free finds its case where it was at the start**, and the transition it
tries is legal. -/
theorem Steered.not_illegal (h : Steered d T) {e : WorkflowExecution}
    (he : e ∈ T.executions) (hknows : e.Knows d info call) {c : Command}
    (hruns : call.Runs info c) {d₀ : Database} (hpre : Kind.Foreseen (.activity info call) d₀)
    (h₀ : InOrder d₀) (hon : Onward d₀ d) {source target : ApplicationStatus}
    (hraises : c.Raises d₀ (.illegalStateTransition source target) d) : False := by
  obtain ⟨hfree, htarget, hillegal, a, x, ha, hseen, -, hst⟩ := hraises
  have happ : call.applicationId = a := Option.some.inj (hruns.applicationId.symm.trans ha)
  subst happ
  have hkey : c.key ∈ call.key? info := by
    cases hruns with
    | extractDocumentFacts ctx documentId => cases htarget
    | _ => rfl
  have hfree₀ : d₀.has c.key = false := by
    by_contra htaken
    rw [Bool.not_eq_false] at htaken
    rw [hon.keys _ htaken] at hfree
    cases hfree
  -- the case was in the same stage at the start and is now, so it was when it was read
  obtain ⟨x₀, hx₀, hw₀, hs₀⟩ := hpre _ hkey hfree₀
  obtain ⟨x₁, hx₁, -, -, hplaced⟩ := h.placed e he
  rw [← hknows.applicationId] at hx₁
  obtain ⟨hw₁, hs₁⟩ := hplaced.of_free (hknows.underway hkey hfree) hkey hfree
  obtain ⟨x₂, hx₂, hsteps⟩ := hseen.until'
  rw [hx₁] at hx₂
  cases hx₂
  have hfrom := hseen.since x₀ hx₀
  have hall : x₁ = x₀ := CaseFile.Steps.eq_of_same_stage (h₀.reached hx₀) (hfrom.trans hsteps) hw₀
    (hknows.workflowId ▸ hw₁) (hs₁.trans hs₀.symm)
  have hsame : x = x₀ := hfrom.eq_of_length (by
    rw [← hall]
    exact (CaseFile.Steps.history_prefix hsteps).length_le)
  rw [hsame, hs₀] at hst
  rw [← hst, hruns.legal htarget] at hillegal
  cases hillegal

/-- **How an attempt ends**, from its contract. -/
theorem Steered.ended (h : Steered d T)
    (hknows : ∃ e ∈ T.executions, e.Knows d info call) {ws : List Write}
    {p : Handler call.Result}
    (hlive : outline.since.Live (P := programs) Kind.Foreseen ⟨.activity info call, ws, p⟩ ws p d) :
    Ended d T info call p := by
  obtain ⟨d₀, hpre, h₀, hwp⟩ := hlive
  cases p with
  | ret r => exact ⟨hwp.1.1, fun _ _ _ _ => hwp.1.2⟩
  | raise error =>
      rintro source target rfl
      obtain ⟨⟨c, hruns, hraises⟩, hon⟩ := hwp
      obtain ⟨e, he, hk⟩ := hknows
      exact h.not_illegal he hk hruns hpre h₀ hon hraises
  | _ => trivial

end Live

/-! ### What happens beside a task -/

theorem WorkflowExecution.Knows.mono {d d' : Database} {e : WorkflowExecution}
    {info : ActivityInfo} {call : ActivityCall} (h : e.Knows d info call) (hon : Onward d d') :
    e.Knows d' info call := by
  refine ⟨h.workflowId, h.applicationId, h.tenantId, h.place.imp id ?_⟩
  exact fun hdone => ⟨hdone.1, fun k hk => hon.keys k (hdone.2 k hk)⟩

/-- What a result says stays so while the case stays. -/
theorem ActivityCall.Reports.congr {d d' : Database} {call : ActivityCall} {r : call.Result}
    (h : call.Reports d r) {x : CaseFile} (hx : d.caseFile? call.applicationId = some x)
    (hx' : d'.caseFile? call.applicationId = some x) : call.Reports d' r := by
  have hstatus : ∀ {s}, Command.StatusIs d call.applicationId s →
      Command.StatusIs d' call.applicationId s := by
    rintro s ⟨row, hrow, hs⟩
    rw [caseFile?_row hx] at hrow
    exact ⟨row, (caseFile?_row hx').trans hrow, hs⟩
  cases call with
  | extractDocumentFacts ctx => trivial
  | verifyFacts ctx => trivial
  | validateIntake ctx =>
      obtain ⟨s, hs, hr⟩ := h
      exact ⟨s, hstatus hs, hr⟩
  | checkRequiredDocuments ctx =>
      obtain ⟨s, hs, hr⟩ := h
      exact ⟨s, hstatus hs, hr⟩
  | enterHumanReview input =>
      obtain ⟨s, hs, hr⟩ := h
      exact ⟨s, hstatus hs, hr⟩
  | applyReviewDecision input =>
      obtain ⟨s, hs, hr⟩ := h
      exact ⟨s, hstatus hs, hr⟩

section Commit

variable {d₀ d : Database} {T : Temporal} {c : Command} {ws : List Write}

/-- **A case whose activity was carried out stays until the workflow goes on.** -/
theorem Steered.settled (h : Steered d T) (hd : InOrder d) (hg : postgres.Granted d ws)
    (ha : Acts d T c) (hc : c.Commits d₀ d ws) {e : WorkflowExecution} (he : e ∈ T.executions)
    {info : ActivityInfo} {call : ActivityCall} (hcall : e.underway? = some (info, call))
    (hdone : call.Done info d) (hres : call.results ≠ []) :
    ∃ x, d.caseFile? e.input.applicationId = some x ∧
      (postgres.view d ws).caseFile? e.input.applicationId = some x := by
  obtain ⟨x, hx, -, -, hp⟩ := h.placed e he
  refine ⟨x, hx, ?_⟩
  rcases hc.caseFile? hx with hsame | ⟨x', hx', -, -, hs⟩
  · exact hsame
  exfalso
  have hatt : e.Attached x := by
    by_contra hno
    obtain ⟨hdec, -⟩ := hp.attached_ne hno
    rcases hdec with hend | ⟨info', input, hcall', -⟩
    · obtain ⟨hflow, -⟩ := WorkflowExecution.underway?_eq_some.1 hcall
      obtain ⟨k, hk⟩ := Flow.call?_eq_some hflow
      rw [hk] at hend
      cases hend
    · rw [hcall] at hcall'
      cases hcall'
      exact hres rfl
  have hne : x' ≠ x := fun heq => absurd hs.length_lt (heq ▸ lt_irrefl _)
  rcases h.moved hd hg ha hc hx hx' hne with
    ⟨-, hnone, -⟩ | ⟨e', he', info', call', hcall', -, hkey, -, hw, -, -⟩
  · rw [WorkflowExecution.Attached, hnone] at hatt
    cases hatt
  · obtain rfl := h.unique he' he (Option.some.inj (hw.symm.trans hatt))
    rw [hcall] at hcall'
    cases hcall'
    have htaken := hdone _ hkey
    rw [hc.free hg] at htaken
    cases htaken

/-- **What is known of a task stays so while another one commits.** -/
theorem TaskGuided.commit {t : Task programs} (ht : TaskGuided d T t) (h : Steered d T)
    (hd : InOrder d) (hg : postgres.Granted d ws) (ha : Acts d T c) (hc : c.Commits d₀ d ws) :
    TaskGuided (postgres.view d ws) T t := by
  have hon := (hc.keeps hd hg).2
  obtain ⟨κ, vs, p⟩ := t
  cases κ with
  | command c' => exact ht
  | applicationStatus query => trivial
  | reviewDecision request => trivial
  | activity info call =>
      obtain ⟨⟨e, he, hknows⟩, hended⟩ := ht
      refine ⟨⟨e, he, hknows.mono hon⟩, ?_⟩
      cases p with
      | ret r =>
          refine ⟨fun k hk => hon.keys k (hended.1 k hk), ?_⟩
          intro f hf hcall hres
          obtain ⟨x, hx, hx'⟩ := h.settled hd hg ha hc hf hcall hended.1 hres
          rw [← (WorkflowExecution.underway_about (h.position f hf) hcall).1] at hx hx'
          exact (hended.2 f hf hcall hres).congr hx hx'
      | raise error => exact hended
      | _ => trivial

end Commit

section Server

variable {d : Database} {T T' : Temporal} {f g : WorkflowExecution} {info : ActivityInfo}
  {call : ActivityCall}

/-- An activity that an attempt knows was not started just now. -/
theorem WorkflowExecution.Knows.before_start (hknows : f.Knows d info call)
    (hf : f ∈ T.executions) {workflowId : String} {input : ApplicationWorkflowInput}
    (hg : g ∈ (T.startWorkflow workflowId input).executions)
    (hcall : g.underway? = some (info, call)) : g ∈ T.executions := by
  cases hfound : T.execution? workflowId with
  | some e =>
      simp only [Temporal.startWorkflow, hfound] at hg
      exact hg
  | none =>
      simp only [Temporal.startWorkflow, hfound] at hg
      rcases List.mem_append.1 hg with hg | hg
      · exact hg
      · obtain ⟨-, hinfo⟩ := WorkflowExecution.underway?_eq_some.1 hcall
        rw [List.mem_singleton.1 hg] at hinfo
        refine absurd ?_ (Temporal.execution?_none hfound f hf)
        rw [hknows.workflowId, hinfo]

/-- An activity that an attempt knows and that is under way was so before. -/
theorem WorkflowExecution.Knows.before_event (hknows : f.Knows d info call) (h : Steered d T)
    (hf : f ∈ T.executions) {workflowId : String}
    {event : Event ActivityCall.Result ReviewDecisionSignal}
    (hhappen : T.happen workflowId event = some T') (hg : g ∈ T'.executions)
    (hcall : g.underway? = some (info, call)) :
    ∃ e ∈ T.executions, e.underway? = some (info, call) ∧ e.input = g.input := by
  obtain ⟨e, state, -, hnext, hup, -⟩ := Temporal.happen_cases h.ids hhappen
  rcases hup.cases g hg with rfl | ⟨hg, -⟩
  · obtain ⟨-, hinfo⟩ := WorkflowExecution.underway?_eq_some.1 hcall
    have hsame : f = e := by
      refine h.unique hf hup.mem (hknows.workflowId.trans ?_)
      rw [hinfo]
    subst hsame
    rcases hknows.place with hold | ⟨hle, -⟩
    · exact ⟨f, hf, hold, rfl⟩
    · -- what was answered is not under way any more
      have := Execution.next_answered hnext
      rw [hinfo] at hle
      simp only at hle
      omega
  · exact ⟨g, hg, hcall, rfl⟩

/-- What is known of a task stays so while executions are started. -/
theorem TaskGuided.start {t : Task programs} (ht : TaskGuided d T t)
    {workflowId : String} {input : ApplicationWorkflowInput} :
    TaskGuided d (T.startWorkflow workflowId input) t := by
  have hkeep : T.executions ⊆ (T.startWorkflow workflowId input).executions := by
    rw [Temporal.startWorkflow]
    split
    next => exact List.Subset.refl _
    next => exact List.subset_append_left _ _
  obtain ⟨κ, vs, p⟩ := t
  cases κ with
  | command c' => exact ht
  | applicationStatus query => trivial
  | reviewDecision request => trivial
  | activity info call =>
      obtain ⟨⟨e, he, hknows⟩, hended⟩ := ht
      refine ⟨⟨e, hkeep he, hknows⟩, ?_⟩
      cases p with
      | ret r =>
          exact ⟨hended.1, fun g hg hcall => hended.2 g (hknows.before_start he hg hcall) hcall⟩
      | raise error => exact hended
      | _ => trivial

/-- An attempt knows its execution after an event as before. -/
theorem WorkflowExecution.Knows.next {e : WorkflowExecution} (h : e.Knows d info call)
    {state : Execution ActivityCall.Result ReviewDecisionSignal ApplicationWorkflowResult}
    {event : Event ActivityCall.Result ReviewDecisionSignal}
    (hnext : e.state.next maximumAttempts event = some state) (htold : Told d e event) :
    WorkflowExecution.Knows { e with state := state } d info call := by
  refine ⟨h.workflowId, h.applicationId, h.tenantId, ?_⟩
  rcases h.place with hcall | ⟨hle, hdone⟩
  · obtain ⟨hflow, hinfo⟩ := WorkflowExecution.underway?_eq_some.1 hcall
    rcases Execution.next_scheduled hnext hflow with ⟨hflow', hn⟩ | ⟨hn, r, rfl⟩
    · exact Or.inl (WorkflowExecution.underway?_eq_some.2 ⟨hflow', by rw [hinfo, hn]⟩)
    · exact Or.inr ⟨by rw [hinfo, hn], (htold info hcall).1⟩
  · exact Or.inr ⟨hle.trans (Execution.next_answered hnext), hdone⟩

/-- **What is known of a task stays so while the server moves.** -/
theorem TaskGuided.happen {t : Task programs} (ht : TaskGuided d T t) (h : Steered d T)
    {workflowId : String} {event : Event ActivityCall.Result ReviewDecisionSignal}
    (hhappen : T.happen workflowId event = some T')
    (htold : ∀ e, T.execution? workflowId = some e → Told d e event) : TaskGuided d T' t := by
  obtain ⟨e, state, hfound, hnext, hup, -⟩ := Temporal.happen_cases h.ids hhappen
  have htold' := htold e hfound
  obtain ⟨κ, vs, p⟩ := t
  cases κ with
  | command c' => exact ht
  | applicationStatus query => trivial
  | reviewDecision request => trivial
  | activity info call =>
      obtain ⟨⟨f, hf, hknows⟩, hended⟩ := ht
      have hknows' : ∃ f' ∈ T'.executions, f'.Knows d info call := by
        by_cases hne : f.workflowId = e.workflowId
        · obtain rfl := h.unique hf hup.mem hne
          exact ⟨_, hup.updated, hknows.next hnext htold'⟩
        · exact ⟨f, hup.kept f hf hne, hknows⟩
      refine ⟨hknows', ?_⟩
      cases p with
      | ret r =>
          refine ⟨hended.1, fun g hg hcall => ?_⟩
          obtain ⟨g', hg', hcall', -⟩ := hknows.before_event h hf hhappen hg hcall
          exact hended.2 g' hg' hcall'
      | raise error => exact hended
      | _ => trivial

end Server

/-! ### Steps -/

/-- An attempt that may start is one at the activity under way. -/
theorem Temporal.schedules_iff {T : Temporal} {info : ActivityInfo} {call : ActivityCall} :
    T.schedules info call = true ↔ ∃ e, T.execution? info.workflowId = some e ∧
      e.state.scheduled? = some (info.activityId, call) := by
  simp only [Temporal.schedules, Option.any_eq_true, decide_eq_true_eq]

theorem WorkflowExecution.underway_of_scheduled {e : WorkflowExecution} {info : ActivityInfo}
    {call : ActivityCall} (hid : e.workflowId = info.workflowId)
    (h : e.state.scheduled? = some (info.activityId, call)) : e.underway? = some (info, call) := by
  obtain ⟨-, hcall, hn⟩ := Execution.scheduled?_eq_some.1 h
  refine WorkflowExecution.underway?_eq_some.2 ⟨hcall, ?_⟩
  rw [hid, ← hn]

theorem Steered.knows {d : Database} {T : Temporal} (h : Steered d T) {info : ActivityInfo}
    {call : ActivityCall} (hs : T.schedules info call = true) :
    ∃ e ∈ T.executions, e.Knows d info call ∧ e.underway? = some (info, call) := by
  obtain ⟨e, hfound, hsched⟩ := Temporal.schedules_iff.1 hs
  obtain ⟨he, hid⟩ := Temporal.execution?_some hfound
  have hcall := WorkflowExecution.underway_of_scheduled hid hsched
  obtain ⟨happ, hten⟩ := WorkflowExecution.underway_about (h.position e he) hcall
  exact ⟨e, he, ⟨hid, happ, hten, Or.inl hcall⟩, hcall⟩

/-- **What starts finds the rows it may count on.** -/
theorem Steered.foreseen {w : World temporal} (h : Steered w.db w.ext) (κ : Kind)
    (hs : temporal.spawn w.db w.ext κ = true) : κ.Foreseen w.db := by
  cases κ with
  | activity info call =>
      intro k hk hfree
      obtain ⟨e, he, hknows, hcall⟩ := h.knows hs
      obtain ⟨x, hx, -, -, hp⟩ := h.placed e he
      obtain ⟨hw, hst⟩ := hp.of_free hcall hk hfree
      exact ⟨x, hknows.applicationId ▸ hx, hknows.workflowId ▸ hw, hst⟩
  | _ => trivial

/-- **What an answer of the server makes of it.** -/
theorem Temporal.answer_cases {T T' : Temporal} {κ : Kind} {q : Ask} {a : Answer q}
    (h : T.answer κ q a = some T') :
    T' = T ∨
    (∃ workflowId t app v status, q = .startApplicationWorkflow workflowId t app v status ∧
      T' = T.startWorkflow workflowId ⟨t, app, v, status⟩) ∨
    ∃ workflowId decision reason reviewerId,
      q = .signalReviewDecision workflowId decision reason reviewerId ∧
      T.signalWorkflow κ workflowId ⟨decision, reason, reviewerId⟩ = some T' := by
  cases q with
  | startApplicationWorkflow workflowId t app v status =>
      change Ack at a
      have hstart : ∀ {T''}, some (T.startWorkflow workflowId ⟨t, app, v, status⟩) = some T'' →
          ∃ workflowId' t' app' v' status', Ask.startApplicationWorkflow workflowId t app v status =
            .startApplicationWorkflow workflowId' t' app' v' status' ∧
            T'' = T.startWorkflow workflowId' ⟨t', app', v', status'⟩ := fun h =>
        ⟨_, _, _, _, _, rfl, (Option.some.inj h).symm⟩
      cases a with
      | acknowledged => exact Or.inr (Or.inl (hstart h))
      | rejected text => exact Or.inl (Option.some.inj h).symm
      | lost delivered =>
          cases delivered with
          | true => exact Or.inr (Or.inl (hstart h))
          | false => exact Or.inl (Option.some.inj h).symm
  | signalReviewDecision workflowId decision reason reviewerId =>
      change Ack at a
      cases a with
      | acknowledged => exact Or.inr (Or.inr ⟨_, _, _, _, rfl, h⟩)
      | rejected text => exact Or.inl (Option.some.inj h).symm
      | lost delivered =>
          cases delivered with
          | true => exact Or.inr (Or.inr ⟨_, _, _, _, rfl, h⟩)
          | false => exact Or.inl (Option.some.inj h).symm
  | _ => exact Or.inl (Option.some.inj h).symm

theorem Temporal.signal_cases {T T' : Temporal} {κ : Kind} {workflowId : String}
    {signal : ReviewDecisionSignal} (h : T.signalWorkflow κ workflowId signal = some T') :
    ∃ T'', T.happen workflowId (.signal signal) = some T'' ∧
      T' = { T'' with signals := T''.signals ++ [⟨κ, workflowId, signal⟩] } := by
  obtain ⟨T'', hhappen, rfl⟩ := Option.map_eq_some_iff.1 h
  exact ⟨T'', hhappen, rfl⟩

/-- A program that starts a workflow has submitted. -/
theorem Kind.starts {κ : Kind} {d₀ d : Database} {workflowId : String} {t : TenantId}
    {a : ApplicationId} {v : ℕ} {status : String}
    (h : (outline.contract κ d₀).asks (.startApplicationWorkflow workflowId t a v status) d) :
    workflowId = applicationWorkflowId t a v ∧ ∃ s, status = s.value ∧ Submitted d t a v s := by
  cases κ with
  | command c => exact h
  | applicationStatus query => exact h.elim
  | reviewDecision request => exact h.elim
  | activity info call => exact h

/-- **What a step may do to the rows and to the server**: a transaction commits, a workflow is
started for a submission, a signal is taken, an execution is told something, or nothing of that. -/
inductive Evolves (tasks : List (Task programs)) (d : Database) (T : Temporal) :
    Database → Temporal → Prop
  | idle : Evolves tasks d T d T
  | commit (c : Command) (d₀ : Database) (ws : List Write) (hg : postgres.Granted d ws)
      (ha : Acts d T c) (hc : c.Commits d₀ d ws) : Evolves tasks d T (postgres.view d ws) T
  | start (t : TenantId) (a : ApplicationId) (v : ℕ) (s : ApplicationStatus)
      (hsub : Submitted d t a v s) :
      Evolves tasks d T d (T.startWorkflow (applicationWorkflowId t a v) ⟨t, a, v, s.value⟩)
  | signal (κ : Kind) (hκ : κ ∈ tasks.map Task.kind) (d₀ : Database)
      (workflowId decision reason reviewerId : String) (T' : Temporal)
      (hasks : (outline.contract κ d₀).asks
        (.signalReviewDecision workflowId decision reason reviewerId) d)
      (hsignal : T.signalWorkflow κ workflowId ⟨decision, reason, reviewerId⟩ = some T') :
      Evolves tasks d T d T'
  | event (workflowId : String) (event : Event ActivityCall.Result ReviewDecisionSignal)
      (T' : Temporal) (hhappen : T.happen workflowId event = some T')
      (hno : ∀ s, event ≠ .signal s)
      (htold : ∀ e, T.execution? workflowId = some e → Told d e event)
      (hanswer : ∀ e call r, T.execution? workflowId = some e → event = .answer call r →
        ∃ t ∈ tasks, activityAnswer? e t = some event) : Evolves tasks d T d T'

section Evolves

variable {tasks : List (Task programs)} {d d' : Database} {T T' : Temporal}

/-- **The rows and the server agree afterwards.** -/
theorem Steered.evolves (h : Steered d T) (hd : InOrder d) (hev : Evolves tasks d T d' T') :
    Steered d' T' := by
  cases hev with
  | idle => exact h
  | commit c d₀ ws hg ha hc => exact h.commit hd hg ha hc
  | start t a v s hsub => exact h.start rfl hsub
  | event workflowId event T' hhappen hno htold hanswer => exact h.happen hhappen htold
  | signal κ hκ d₀ workflowId decision reason reviewerId T' hasks hsignal =>
      obtain ⟨T'', hhappen, rfl⟩ := Temporal.signal_cases hsignal
      have hs := h.happen hhappen fun _ _ => trivial
      exact ⟨hs.ids, hs.named, hs.position, hs.placed, hs.taken, hs.submissions⟩

/-- What is known of a task stays so beside it. -/
theorem TaskGuided.evolves {t : Task programs} (ht : TaskGuided d T t) (h : Steered d T)
    (hd : InOrder d) (hev : Evolves tasks d T d' T') : TaskGuided d' T' t := by
  cases hev with
  | idle => exact ht
  | commit c d₀ ws hg ha hc => exact ht.commit h hd hg ha hc
  | start t a v s hsub => exact ht.start
  | event workflowId event T' hhappen hno htold hanswer => exact ht.happen h hhappen htold
  | signal κ hκ d₀ workflowId decision reason reviewerId T' hasks hsignal =>
      obtain ⟨T'', hhappen, rfl⟩ := Temporal.signal_cases hsignal
      have hkept := ht.happen h hhappen fun _ _ => trivial
      exact hkept

/-- The rows only go on. -/
theorem Evolves.onward (hev : Evolves tasks d T d' T') (hd : InOrder d) : Onward d d' := by
  cases hev with
  | commit c d₀ ws hg ha hc => exact (hc.keeps hd hg).2
  | _ => exact .refl d

/-- **An activity that an attempt knows and that is under way was so before.** -/
theorem WorkflowExecution.Knows.before {f g : WorkflowExecution} {info : ActivityInfo}
    {call : ActivityCall} (hknows : f.Knows d info call) (h : Steered d T) (hf : f ∈ T.executions)
    (hev : Evolves tasks d T d' T') (hg : g ∈ T'.executions)
    (hcall : g.underway? = some (info, call)) :
    ∃ e ∈ T.executions, e.underway? = some (info, call) ∧ e.input = g.input := by
  cases hev with
  | idle => exact ⟨g, hg, hcall, rfl⟩
  | commit c d₀ ws hgr ha hc => exact ⟨g, hg, hcall, rfl⟩
  | start t a v s hsub => exact ⟨g, hknows.before_start hf hg hcall, hcall, rfl⟩
  | event workflowId event T' hhappen hno htold hanswer =>
      exact hknows.before_event h hf hhappen hg hcall
  | signal κ hκ d₀ workflowId decision reason reviewerId T' hasks hsignal =>
      obtain ⟨T'', hhappen, rfl⟩ := Temporal.signal_cases hsignal
      exact hknows.before_event h hf hhappen hg hcall

end Evolves

section Step

variable {w w' : World temporal}

/-- A task that has moved on is guided. -/
theorem TaskGuided.next {d : Database} {T : Temporal} {t : Task programs} {ws : List Write}
    {p : Handler (programs.Result t.kind)} (ht : TaskGuided d T t) (h : Steered d T)
    (hlive : outline.since.Live Kind.Foreseen t ws p d) : TaskGuided d T (t.goto ws p) := by
  obtain ⟨κ, vs, p₀⟩ := t
  cases κ with
  | command c => exact ht
  | applicationStatus query => trivial
  | reviewDecision request => trivial
  | activity info call =>
      have hended : outline.since.Live (P := programs) Kind.Foreseen
          ⟨.activity info call, ws, p⟩ ws p d := hlive
      exact ⟨ht.1, h.ended ht.1 hended⟩

/-- What a workflow is told is what an attempt at the activity under way has returned. -/
theorem activityAnswer?_cases {e : WorkflowExecution} {t : Task programs}
    {event : Event ActivityCall.Result ReviewDecisionSignal}
    (h : activityAnswer? e t = some event) :
    ∃ info call ws r, t = ⟨.activity info call, ws, .ret r⟩ ∧ event = .answer call r ∧
      e.underway? = some (info, call) := by
  obtain ⟨κ, ws, p⟩ := t
  cases κ with
  | activity info call =>
      cases p with
      | ret r =>
          simp only [activityAnswer?] at h
          split at h
          next hsched =>
            exact ⟨info, call, ws, r, rfl, (Option.some.inj h).symm,
              WorkflowExecution.underway_of_scheduled hsched.2.symm hsched.1⟩
          next => cases h
      | _ => cases h
  | _ => cases h

/-- It may be told so. -/
theorem Guided.told (h : Guided w) {e : WorkflowExecution} {i : ℕ} {t : Task programs}
    (he : e ∈ w.ext.executions) (ht : w.tasks[i]? = some t)
    {event : Event ActivityCall.Result ReviewDecisionSignal}
    (ha : activityAnswer? e t = some event) : Told w.db e event := by
  obtain ⟨info, call, ws, r, rfl, rfl, hcall⟩ := activityAnswer?_cases ha
  obtain ⟨-, hdone, hreports⟩ := h.tasks i _ ht
  intro info' hcall'
  rw [hcall] at hcall'
  cases hcall'
  exact ⟨hdone, hreports e he hcall⟩

/-- **Every tick of the server is an event of one execution** that it may be told: no signal, and no
answer that a task has not returned. -/
theorem Guided.tick (h : Guided w) {τ : TemporalTick} {T' : Temporal}
    (ht : temporal.tick w.ext w.db w.tasks τ = some T') :
    ∃ workflowId event, w.ext.happen workflowId event = some T' ∧ (∀ s, event ≠ .signal s) ∧
      (∀ e, w.ext.execution? workflowId = some e → Told w.db e event) ∧
      ∀ e call r, w.ext.execution? workflowId = some e → event = .answer call r →
        ∃ t ∈ w.tasks, activityAnswer? e t = some event := by
  -- what the server does by itself, without a task
  have hown : ∀ {workflowId : String} {event : Event ActivityCall.Result ReviewDecisionSignal},
      w.ext.happen workflowId event = some T' → (∀ s, event ≠ .signal s) →
      (∀ call r, event ≠ .answer call r) → ∃ workflowId event,
        w.ext.happen workflowId event = some T' ∧ (∀ s, event ≠ .signal s) ∧
        (∀ e, w.ext.execution? workflowId = some e → Told w.db e event) ∧
        ∀ e call r, w.ext.execution? workflowId = some e → event = .answer call r →
          ∃ t ∈ w.tasks, activityAnswer? e t = some event := by
    intro workflowId event hhappen hs hr
    refine ⟨workflowId, event, hhappen, hs, fun e _ => ?_, fun e call r _ heq => ?_⟩
    · cases event with
      | answer call r => exact absurd rfl (hr call r)
      | _ => trivial
    · exact absurd heq (hr call r)
  cases τ with
  | deliver workflowId => exact hown ht (by simp) (by simp)
  | resume workflowId => exact hown ht (by simp) (by simp)
  | timeout workflowId => exact hown ht (by simp) (by simp)
  | retry workflowId => exact hown ht (by simp) (by simp)
  | complete workflowId i =>
      obtain ⟨e, hfound, ht⟩ := Option.bind_eq_some_iff.1 ht
      obtain ⟨t, htask, ht⟩ := Option.bind_eq_some_iff.1 ht
      obtain ⟨event, hevent, ht⟩ := Option.bind_eq_some_iff.1 ht
      have hsame : ∀ e', w.ext.execution? workflowId = some e' → e' = e := fun e' he' => by
        rw [hfound] at he'
        exact (Option.some.inj he').symm
      refine ⟨workflowId, event, ht, ?_, ?_, ?_⟩
      · rintro s rfl
        obtain ⟨info, call, ws, r, -, heq, -⟩ := activityAnswer?_cases hevent
        cases heq
      · intro e' he'
        obtain rfl := hsame e' he'
        exact h.told (Temporal.execution?_some hfound).1 htask hevent
      · intro e' call r he' _
        obtain rfl := hsame e' he'
        exact ⟨t, List.mem_of_getElem? htask, hevent⟩
  | exhaust workflowId =>
      obtain ⟨e, -, ht⟩ := Option.bind_eq_some_iff.1 ht
      split at ht
      next => exact hown ht (by simp) (by simp)
      next => cases ht
  | fail workflowId i =>
      obtain ⟨e, -, ht⟩ := Option.bind_eq_some_iff.1 ht
      obtain ⟨t, -, ht⟩ := Option.bind_eq_some_iff.1 ht
      split at ht
      next => exact hown ht (by simp) (by simp)
      next => cases ht

/-- What a task that is about to commit does. -/
theorem Guided.acts (h : Guided w) (hs : outline.since.Sound Kind.Foreseen w) {i : ℕ}
    {t : Task programs} (ht : w.tasks[i]? = some t) {k : Handler (programs.Result t.kind)}
    (hp : t.prog = .commit k) : ∃ c d₀, Kind.Runs t.kind c ∧ Acts w.db w.ext c ∧
      c.Commits d₀ w.db t.writes := by
  obtain ⟨d₀, -, -, hc⟩ := hs.commits ht hp
  have hguided := h.tasks i t ht
  obtain ⟨κ, vs, p⟩ := t
  cases κ with
  | command c => exact ⟨c, d₀, rfl, .request c hguided, hc⟩
  | applicationStatus query => exact hc.elim
  | reviewDecision request => exact hc.elim
  | activity info call =>
      obtain ⟨c, hruns, hc⟩ := hc
      obtain ⟨⟨e, he, hknows⟩, -⟩ := hguided
      exact ⟨c, d₀, hruns, .activity info call c e he hknows hruns, hc⟩

/-- **What a step does to the rows and to the server.** -/
theorem Guided.evolves (h : Guided w) (hs : outline.since.Sound Kind.Foreseen w)
    {a : Action temporal} (hstep : w.step postgres a = some w') :
    Evolves w.tasks w.db w.ext w'.db w'.ext := by
  cases World.step_cases hstep with
  | spawn κ hκ => exact .idle
  | kill i t ht => exact .idle
  | tick τ T' hT =>
      obtain ⟨workflowId, event, hhappen, hno, htold, hanswer⟩ := h.tick hT
      exact .event workflowId event T' hhappen hno htold hanswer
  | advance i answers t w' ht hadv =>
      cases hadv with
      | ask q k a T' hp hT' =>
          obtain ⟨d₀, -, -, hasks⟩ := hs.asks ht hp
          rcases Temporal.answer_cases hT' with rfl | ⟨workflowId, t', app, v, status, rfl, rfl⟩ |
            ⟨workflowId, decision, reason, reviewerId, rfl, hsignal⟩
          · exact .idle
          · obtain ⟨rfl, s, rfl, hsub⟩ := Kind.starts hasks
            exact .start t' app v s hsub
          · exact .signal t.kind (List.mem_map_of_mem (List.mem_of_getElem? ht)) d₀ workflowId
              decision reason reviewerId T' hasks hsignal
      | commit k hp =>
          obtain ⟨c, d₀, -, hacts, hc⟩ := h.acts hs ht hp
          exact .commit c d₀ t.writes (hs.granted i t ht) hacts hc
      | _ => exact .idle

/-- **Every step keeps what is known of a world.** -/
theorem Guided.step (h : Guided w) (hs : outline.since.Sound Kind.Foreseen w)
    {a : Action temporal} (hstep : w.step postgres a = some w') : Guided w' := by
  have hev := h.evolves hs hstep
  have hst := h.steered.evolves hs.inv hev
  have hkept : ∀ {j : ℕ} {u : Task programs}, w.tasks[j]? = some u →
      TaskGuided w'.db w'.ext u := fun hu => (h.tasks _ _ hu).evolves h.steered hs.inv hev
  refine ⟨hst, fun j u hu => ?_⟩
  cases World.step_cases hstep with
  | tick τ T' hT => exact hkept hu
  | spawn κ hκ =>
      rw [List.getElem?_append] at hu
      split at hu
      next => exact hkept hu
      next =>
        obtain rfl : u = ⟨κ, [], programs.prog κ⟩ := by simpa using List.mem_of_getElem? hu
        have hlive : outline.since.Live Kind.Foreseen ⟨κ, [], programs.prog κ⟩ []
            (programs.prog κ) w.db :=
          ⟨w.db, h.steered.foreseen κ hκ, hs.inv, outline.since.verified κ w.db hs.inv⟩
        cases κ with
        | command c => exact hκ
        | applicationStatus query => trivial
        | reviewDecision request => trivial
        | activity info call =>
            obtain ⟨e, he, hknows, -⟩ := h.steered.knows hκ
            exact ⟨⟨e, he, hknows⟩, h.steered.ended ⟨e, he, hknows⟩ hlive⟩
  | advance i answers t w' ht hadv =>
      obtain ⟨ws, p, htasks, hlive⟩ := hs.next ht hadv
      rw [htasks] at hu
      rcases getElem?_set_cases hu with ⟨-, rfl⟩ | ⟨-, hu⟩
      · exact (hkept ht).next hst hlive
      · exact hkept hu
  | kill i t ht =>
      rcases getElem?_set_cases hu with ⟨-, rfl⟩ | ⟨-, hu⟩
      · have hguided := h.tasks i t ht
        obtain ⟨κ, vs, p⟩ := t
        cases κ with
        | command c => exact hguided
        | applicationStatus query => trivial
        | reviewDecision request => trivial
        | activity info call => exact ⟨hguided.1, by rintro source target heq; cases heq⟩
      · exact hkept hu

end Step

/-! ### Runs -/

/-- A server that has started nothing. -/
def Temporal.empty : Temporal := ⟨[], []⟩

theorem Installation.steered (I : Installation) : Steered I.database Temporal.empty := by
  have hnone : ∀ a, I.database.caseFile? a = none := fun a => by
    rw [Database.caseFile?, I.slice]
    rfl
  refine ⟨List.nodup_nil, by simp [Temporal.empty], by simp [Temporal.empty],
    by simp [Temporal.empty], ?_, ?_⟩
  · intro t operationName info _ hk
    rw [I.has_idempotencyKey] at hk
    cases hk
  · intro a x v hx
    rw [hnone] at hx
    cases hx

/-- **Every world that is reached is guided.** -/
theorem Installation.guided (I : Installation) {ok : World temporal → Action temporal → Prop}
    {w : World temporal} (h : Reaches postgres ok (I.start temporal Temporal.empty) w) :
    outline.since.Sound Kind.Foreseen w ∧ Guided w := by
  induction h with
  | refl =>
      have h₀ : casework.Inv (I.start temporal Temporal.empty).db := I.inOrder
      refine ⟨Outline.Sound.start h₀ rfl, I.steered, ?_⟩
      intro i t ht
      cases ht
  | tail _ _ hs ih =>
      exact ⟨ih.1.step (fun κ hκ => ih.2.steered.foreseen κ hκ) hs, ih.2.step ih.1 hs⟩

/-- **What every change of the rows and the server keeps holds of every world that is reached.** -/
theorem Installation.agreement (I : Installation) {ok : World temporal → Action temporal → Prop}
    {P : Database → Temporal → Prop} (h₀ : P I.database Temporal.empty)
    (hstep : ∀ {tasks d T d' T'}, InOrder d → Steered d T → Evolves tasks d T d' T' → P d T →
      P d' T')
    {w : World temporal} (h : Reaches postgres ok (I.start temporal Temporal.empty) w) :
    P w.db w.ext := by
  induction h with
  | refl => exact h₀
  | tail h _ hs ih =>
      obtain ⟨hsound, hguided⟩ := I.guided h
      exact hstep hsound.inv hguided.steered (hguided.evolves hsound hs) ih

theorem ActivityCall.Runs.source_eq {info info' : ActivityInfo} {call call' : ActivityCall}
    {c c' : Command} (h : call.Runs info c) (h' : call'.Runs info' c') (heq : c = c') :
    call.source = call'.source := by
  cases h <;> cases h' <;> first | rfl | cases heq

/-- A command is run for one activity. -/
theorem ActivityCall.Runs.unique {info info' : ActivityInfo} {call call' : ActivityCall}
    {c : Command} (h : call.Runs info c) (h' : call'.Runs info' c)
    (hop : c.operationName ∈ activityOperations) : info = info' ∧ call.source = call'.source := by
  obtain ⟨op, -, hk⟩ := ActivityCall.key?_eq (h.key_mem hop)
  obtain ⟨op', -, hk'⟩ := ActivityCall.key?_eq (h'.key_mem hop)
  obtain ⟨-, -, hid⟩ := Key.idempotencyKey.inj (hk.symm.trans hk')
  exact ⟨idempotencyKey_inj hid, h.source_eq h' rfl⟩

/-- **What an attempt moves is a case its workflow is attached to**, in the status the activity
starts from. -/
theorem Installation.moved_by_activity (I : Installation)
    {ok : World temporal → Action temporal → Prop} {w w' : World temporal}
    (h : Reaches postgres ok (I.start temporal Temporal.empty) w) {action : Action temporal}
    (hs : w.step postgres action = some w') {i : ℕ} {info : ActivityInfo} {call : ActivityCall}
    {ws : List Write} (hlog : w'.log = w.log ++ [⟨i, .activity info call, ws⟩])
    {a : ApplicationId} {x x' : CaseFile} (hx : w.db.caseFile? a = some x)
    (hx' : w'.db.caseFile? a = some x') (hne : x' ≠ x) :
    a = call.applicationId ∧ x.row.activeWorkflowId = some info.workflowId ∧
      x.row.status = call.source ∧ ∃ c, call.Runs info c ∧ c.Moves x x' := by
  obtain ⟨hsound, hguided⟩ := I.guided h
  obtain ⟨t, k, ht, hp, hkind, hws, hdb⟩ := World.committed_of_log hs hlog
  obtain ⟨c, d₀, hruns, hacts, hc⟩ := hguided.acts hsound ht hp
  have hg := hsound.granted i t ht
  rw [hkind] at hruns
  rw [hws] at hc hg
  rw [hdb] at hx'
  change call.Runs info c at hruns
  have hnot : c.isRequest = false := by cases hruns <;> rfl
  rcases hguided.steered.moved hsound.inv hg hacts hc hx hx' hne with
    ⟨hreq, -, -⟩ | ⟨e, he, info', call', hcall, hruns', -, happ, hw, hst, hm⟩
  · rw [hnot] at hreq
    cases hreq
  · obtain ⟨rfl, hsource⟩ := hruns.unique hruns' (hm.operationName hnot)
    have happ' := hruns.applicationId.symm.trans hruns'.applicationId
    have habout := (WorkflowExecution.underway_about (hguided.steered.position e he) hcall).1
    obtain ⟨-, hinfo⟩ := WorkflowExecution.underway?_eq_some.1 hcall
    refine ⟨?_, ?_, hst.trans hsource.symm, c, hruns, hm⟩
    · rw [Option.some.inj happ', habout, happ]
    · rw [hinfo]
      exact hw

/-- **Activities stay in step with the cases**, whatever attempts are repeated, given up or answered
late: an attempt that changes the row of an application does so while its workflow is attached to
it and in the status the activity starts from; and no attempt ever raises an
`IllegalStateTransitionError`. -/
theorem activities_in_step (I : Installation) {w : World temporal}
    (h : Reachable postgres (I.start temporal Temporal.empty) w) :
    (∀ (i : ℕ) info call ws source target,
      w.tasks[i]? ≠ some ⟨.activity info call, ws, .raise (.illegalStateTransition source target)⟩) ∧
    (∀ action w' i info call ws, w.step postgres action = some w' →
      w'.log = w.log ++ [⟨i, .activity info call, ws⟩] →
      ∀ r r', w.db.application? r.applicationId = some r →
        w'.db.application? r.applicationId = some r' → r' ≠ r →
        r.applicationId = call.applicationId ∧ r.activeWorkflowId = some info.workflowId ∧
          r.status = call.source) := by
  constructor
  · intro i info call ws source target ht
    exact ((I.guided h).2.tasks i _ ht).2 source target rfl
  · intro action w' i info call ws hs hlog r r' hr hr' hne
    obtain ⟨x, hx, hxr⟩ := caseFile?_of_row hr
    obtain ⟨x', hx', rfl⟩ := caseFile?_of_row hr'
    have hxx : x' ≠ x := fun heq => hne (heq ▸ hxr)
    obtain ⟨ha, hw, hst, -⟩ := I.moved_by_activity h hs hlog hx hx' hxx
    rw [hxr] at hw hst
    exact ⟨ha, hw, hst⟩

/-! ### An application without documents -/

namespace Sample

/-- The id of the application that `create` creates. -/
def loanId : ApplicationId := ⟨(newId 6).value, (newId 6).isCanonical⟩

/-- The id of the workflow that the submission starts. -/
def workflowId : String := applicationWorkflowId tenantId loanId 2

/-- The application in a status. -/
def loanRow (status : ApplicationStatus) (version : ℕ) (activeWorkflowId : Option String) :
    ApplicationRow where
  applicationId := loanId
  tenantId := tenantId
  applicantId := ⟨(newId 3).value, (newId 3).isCanonical⟩
  productId := productId
  requestedAmount := ⟨250000, .usd⟩
  requestedTermMonths := 24
  status := status
  version := version
  createdAt := noon
  updatedAt := noon
  activeWorkflowId := activeWorkflowId

/-- The application is submitted, and the attempt at its intake is about to commit. -/
def validating : World temporal :=
  (installation.start temporal Temporal.empty).follow postgres
    (.spawn (.command (.createApplication create)) :: steps 0 0 18 ++
     .spawn (.command (.submitApplication ⟨tenantId, loanId, "submit-1"⟩)) :: steps 1 18 17 ++
     .spawn (.activity ⟨workflowId, 1⟩ (.validateIntake ⟨tenantId, loanId⟩)) :: steps 2 35 26)

/-- The workflow waits for a decision, for there are no documents. -/
def underReview : World temporal :=
  validating.follow postgres
    (.advance 2 (answers 61) :: .tick (TemporalTick.complete workflowId 2) ::
     .spawn (.activity ⟨workflowId, 2⟩ (.checkRequiredDocuments ⟨tenantId, loanId⟩)) ::
      steps 3 62 19 ++ [.tick (TemporalTick.complete workflowId 3)])

theorem reachable_validating :
    Reachable postgres (installation.start temporal Temporal.empty) validating :=
  reachable_follow _ _

theorem reachable_underReview :
    Reachable postgres (installation.start temporal Temporal.empty) underReview :=
  reachable_validating.trans (reachable_follow _ _)

/-- The attempt commits. -/
def validated : World temporal := validating.follow postgres [.advance 2 (answers 61)]

/-- The attempt that has made an entry of the log. -/
def attempt? (e : Entry programs) : Option (ActivityInfo × ActivityCall) :=
  match e.kind with
  | .activity info call => some (info, call)
  | _ => none

theorem entry_of_attempt {e : Entry programs} {info : ActivityInfo} {call : ActivityCall}
    (h : attempt? e = some (info, call)) : e = ⟨e.task, .activity info call, e.writes⟩ := by
  obtain ⟨i, κ, ws⟩ := e
  cases κ <;> cases h
  rfl

theorem validated_step : (validating.step postgres (.advance 2 (answers 61))).isSome = true := by
  decide +kernel

theorem validated_logged : ∃ i info call ws,
    validated.log = validating.log ++ [⟨i, .activity info call, ws⟩] := by
  have hlength : validated.log.length = validating.log.length + 1 := by decide +kernel
  have hattempt : (validated.log.getLast?.bind attempt?).isSome = true := by decide +kernel
  rcases World.commit_cases (World.step_eq_follow validated_step) with
    ⟨-, hlog⟩ | ⟨i, t, k, -, -, -, hlog⟩
  · rw [validated, hlog] at hlength
    omega
  · change validated.log = _ at hlog
    rw [hlog, List.getLast?_concat] at hattempt
    obtain ⟨⟨info, call⟩, hcall⟩ := Option.isSome_iff_exists.1 hattempt
    exact ⟨i, info, call, t.writes, hlog.trans (by rw [entry_of_attempt hcall])⟩

end Sample

/-- The attempt at the intake, and its commit. -/
theorem activities_in_step_validating :
    Sample.validating.tasks.length = 3 ∧ (∀ (i : ℕ) info call ws source target,
      Sample.validating.tasks[i]? ≠
        some ⟨.activity info call, ws, .raise (.illegalStateTransition source target)⟩) ∧
    ∃ i info call ws, Sample.validated.log = Sample.validating.log ++ [⟨i, .activity info call, ws⟩] ∧
      Sample.loanId = call.applicationId ∧ some Sample.workflowId = some info.workflowId ∧
      submitted = call.source := by
  obtain ⟨hraises, hcommits⟩ := activities_in_step Sample.installation Sample.reachable_validating
  obtain ⟨i, info, call, ws, hlog⟩ := Sample.validated_logged
  have hmoved := hcommits (.advance 2 (Sample.answers 61)) Sample.validated i info call ws
    (World.step_eq_follow Sample.validated_step) hlog
    (Sample.loanRow submitted 2 (some Sample.workflowId))
    (Sample.loanRow documentProcessing 4 (some Sample.workflowId)) (by decide +kernel)
    (by decide +kernel) (by decide)
  exact ⟨by decide +kernel, hraises, i, info, call, ws, hlog, hmoved⟩

/-! ### Cases and executions -/

/-- The latest submission is the latest one up to itself. -/
theorem lastSubmission_take (history : List ApplicationStatus) :
    lastSubmission (history.take (lastSubmission history)) = lastSubmission history := by
  induction history using List.reverseRecOn with
  | nil => rfl
  | append_singleton history s ih =>
      have hle := lastSubmission_le history
      have hsnoc := lastSubmission_snoc history s
      by_cases hs : isSubmission history.getLast? s = true
      · rw [if_pos hs] at hsnoc
        rw [hsnoc, List.take_of_length_le (by simp), hsnoc]
      · rw [if_neg hs] at hsnoc
        rw [hsnoc, List.take_append_of_le_length hle, ih]

/-- A case with a workflow was submitted. -/
theorem CaseFile.Reached.submission_pos {x : CaseFile} (h : x.Reached)
    (hw : x.row.activeWorkflowId ≠ none) : 1 ≤ lastSubmission x.history := by
  induction h with
  | created row hs hv hnone => exact absurd hnone hw
  | @step x x' h hs ih =>
      have hsnoc : ∀ (history : List ApplicationStatus) s,
          1 ≤ lastSubmission history → 1 ≤ lastSubmission (history ++ [s]) := by
        intro history s hpos
        rw [lastSubmission_snoc]
        split <;> omega
      have hlast := h.consistent.last
      cases hs with
      | submit at' hlegal =>
          rw [CaseFile.move, lastSubmission_snoc, if_pos (by simp [isSubmission])]
          omega
      | resubmit at' hlegal =>
          have hn := h.resubmission hlegal
          rw [CaseFile.move, lastSubmission_snoc, hlast, if_pos (by simp [isSubmission, hn])]
          omega
      | acceptIntake at' hlegal =>
          rw [CaseFile.move, List.append_cons]
          exact hsnoc _ _ (hsnoc _ _ (ih hw))
      | flagIntake at' enteredQueueAt hlegal hr =>
          rw [CaseFile.move, List.append_cons]
          exact hsnoc _ _ (hsnoc _ _ (ih hw))
      | startVerification at' hlegal => exact hsnoc _ _ (ih hw)
      | enterReview at' enteredQueueAt hlegal hr => exact hsnoc _ _ (ih hw)
      | decide decision reason reviewerId at' decidedAt entry hd hlegal hr => exact absurd rfl hw

/-- A workflow id determines what it was made of. -/
theorem applicationWorkflowId_injective {t t' : TenantId} {a a' : ApplicationId} {v v' : ℕ}
    (h : applicationWorkflowId t a v = applicationWorkflowId t' a' v') :
    t = t' ∧ a = a' ∧ v = v' := by
  simp only [applicationWorkflowId_eq, String.append_assoc] at h
  obtain ⟨ht, h⟩ := Uuid.colon_inj t.isUuid t'.isUuid ((String.append_right_inj _).1 h)
  obtain ⟨ha, h⟩ := Uuid.colon_inj a.isUuid a'.isUuid h
  exact ⟨TenantId.ext_value ht, ApplicationId.ext_value ha,
    toString_nat_inj ((String.append_right_inj _).1 h)⟩

/-- An attached workflow is that of the latest submission. -/
theorem CaseFile.Consistent.active {x : CaseFile} (h : x.Consistent) {workflowId : String}
    (hw : x.row.activeWorkflowId = some workflowId) : workflowId = x.currentWorkflowId := by
  cases h.phase with
  | draft _ hn => rw [hn] at hw; cases hw
  | processing _ h => exact Option.some.inj (hw.symm.trans h)
  | review _ h => exact Option.some.inj (hw.symm.trans h)
  | outcome _ hn => rw [hn] at hw; cases hw

/-- **Where an execution is and where its case is**: while the workflow is attached, the case is in
review when the workflow waits, and else where the activity under way begins or where it ends; and a
workflow that is not attached has ended or has its decision applied. -/
def WorkflowExecution.InStep (e : WorkflowExecution) (r : ApplicationRow) : Prop :=
  if r.activeWorkflowId = some e.workflowId then
    (e.state.flow = ApplicationWorkflow.waiting e.input ∧ r.status = awaitingHumanReview) ∨
      ∃ call, e.state.flow.call? = some call ∧ r.status ∈ call.source :: call.results
  else
    e.state.flow.done = true ∨ ∃ input, e.state.flow.call? = some (.applyReviewDecision input)

/-- **Cases and workflows stay in step.**  Every execution has a case of its tenant, which is where
the execution is; and an application that has a workflow attached is that of an execution, or it is
still as it was submitted, and its workflow was not started. -/
theorem cases_follow_workflows (I : Installation) {w : World temporal}
    (h : Reachable postgres (I.start temporal Temporal.empty) w) :
    (∀ e ∈ w.ext.executions, ∃ r, w.db.application? e.input.applicationId = some r ∧
      r.tenantId = e.input.tenantId ∧ e.InStep r) ∧
    ∀ r workflowId, w.db.application? r.applicationId = some r →
      r.activeWorkflowId = some workflowId →
      (∃ e ∈ w.ext.executions, e.workflowId = workflowId ∧
        e.input.applicationId = r.applicationId) ∨
      ((∀ e ∈ w.ext.executions, e.workflowId ≠ workflowId) ∧
        workflowId = applicationWorkflowId r.tenantId r.applicationId r.version ∧
        (r.status = submitted ∨ r.status = documentProcessing)) := by
  obtain ⟨hsound, hguided⟩ := I.guided h
  have hsteered := hguided.steered
  constructor
  · intro e he
    obtain ⟨x, hx, hten, -, hp⟩ := hsteered.placed e he
    refine ⟨x.row, caseFile?_row hx, hten, ?_⟩
    unfold WorkflowExecution.InStep
    split
    next hatt =>
      cases hp with
      | before info call hc k hk hfree hw hs =>
          exact Or.inr ⟨call, (WorkflowExecution.underway?_eq_some.1 hc).1, by simp [hs]⟩
      | after info call hc hdone hw hs =>
          exact Or.inr ⟨call, (WorkflowExecution.underway?_eq_some.1 hc).1,
            List.mem_cons_of_mem _ hs⟩
      | waiting hf hw hs => exact Or.inl ⟨hf, hs⟩
      | decided hd hdet =>
          -- it was detached for good
          refine absurd hatt ?_
          rw [hsteered.named e he, ← hten]
          obtain ⟨events, htells⟩ := hsound.inv.tells hx
          have hid : x.row.applicationId = e.input.applicationId := htells.id
          rw [← hid]
          exact hdet.2
    next hatt =>
      obtain ⟨hdec, -⟩ := hp.attached_ne hatt
      rcases hdec with hdone | ⟨info, input, hc, -⟩
      · exact Or.inl hdone
      · exact Or.inr ⟨input, (WorkflowExecution.underway?_eq_some.1 hc).1⟩
  · intro r workflowId hr hw
    obtain ⟨x, hx, rfl⟩ := caseFile?_of_row hr
    have hreached := hsound.inv.reached hx
    have hcons := hreached.consistent
    have hcur := hcons.active hw
    have hpos := hreached.submission_pos (by rw [hw]; simp)
    by_cases hstarted : ∃ e ∈ w.ext.executions, e.workflowId = workflowId
    · obtain ⟨e, he, hid⟩ := hstarted
      refine Or.inl ⟨e, he, hid, ?_⟩
      have hnamed := (hsteered.named e he).symm.trans (hid.trans hcur)
      exact (applicationWorkflowId_injective hnamed).2.1
    · refine Or.inr ⟨fun e he hid => hstarted ⟨e, he, hid⟩, ?_⟩
      have hv : lastSubmission x.history = x.history.length := by
        rcases hsteered.submissions _ x (lastSubmission x.history) hx hpos
          (lastSubmission_le _) (lastSubmission_take _) with heq | ⟨e, he, hid⟩
        · exact heq
        · exact absurd ⟨e, he, hid.trans hcur.symm⟩ hstarted
      refine ⟨?_, ?_⟩
      · rw [hcur, CaseFile.currentWorkflowId, hv, hcons.version]
      · obtain ⟨history, s, hhist⟩ : ∃ history s, x.history = history ++ [s] := by
          rcases List.eq_nil_or_concat x.history with hnil | ⟨history, s, hhist⟩
          · exact absurd hnil hcons.history_ne_nil
          · exact ⟨history, s, hhist.trans (List.concat_eq_append ..)⟩
        have hlast := hcons.last
        rw [hhist, List.getLast?_append] at hlast
        obtain rfl : s = x.row.status := by simpa using hlast
        have hle := lastSubmission_le history
        rw [hhist, lastSubmission_snoc, List.length_append, List.length_singleton] at hv
        split at hv
        next hsub =>
          simp only [isSubmission, Bool.or_eq_true, Bool.and_eq_true, decide_eq_true_eq] at hsub
          exact hsub.imp id fun h => h.1
        next => omega

/-- An application in review. -/
theorem cases_follow_workflows_underReview :
    Sample.underReview.ext.executions.length = 1 ∧
    ∀ e ∈ Sample.underReview.ext.executions, ∃ r,
      Sample.underReview.db.application? e.input.applicationId = some r ∧
      r.tenantId = e.input.tenantId ∧ e.InStep r :=
  ⟨by decide +kernel,
    (cases_follow_workflows Sample.installation Sample.reachable_underReview).1⟩

end FinAssist
