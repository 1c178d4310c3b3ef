/-
**Statuses, workflows and the review queue stay in step.**

Three tables say where an application is: its row, with the status and the id of the workflow that
works on it, its snapshots, and its entry in the review queue.  Seven handlers update them, each a
part of it.  In every committed state, whatever runs side by side, they say the same; and since
the status in which the intake is under way is never committed, an application is resubmitted only
when more information was asked for, although the table of transitions would allow more.

Main definitions:

* `FinAssist.StagesAgree` — **the three tables say the same of an application**;
* `FinAssist.Resubmits` — a step that commits a resubmission.

Main results:

* `FinAssist.resubmit_succeeds_iff` — when a resubmission that runs by itself succeeds;
* `FinAssist.stages_agree` — **the tables agree, and only what waits for information is
  resubmitted**.
-/

import FinAssist.FreshRuns

set_option relaxedAutoImplicit false
set_option autoImplicit false

namespace FinAssist

open ReadCommitted ApplicationStatus

/-! ### What the tables say -/

/-- The statuses an application is ever committed in. -/
def committedStatuses : List ApplicationStatus :=
  [draft, submitted, documentProcessing, ApplicationStatus.verification, awaitingHumanReview,
   approved, declined, needsMoreInformation, escalated]

/-- The statuses in which a workflow works on the application. -/
def workedOn : List ApplicationStatus :=
  [submitted, documentProcessing, ApplicationStatus.verification, awaitingHumanReview]

/-- The statuses of an application's snapshots, in the order of their versions. -/
def Database.statusesOf (d : Database) (a : ApplicationId) : List ApplicationStatus :=
  (d.versionsOf a).map ApplicationVersionRow.status

/-- The entries of the review queue for an application. -/
def Database.entriesOf (d : Database) (a : ApplicationId) : List ReviewQueueEntryRow :=
  d.reviewQueueEntries.filter fun e => e.applicationId = a

/-- **The three tables say the same of an application.** -/
structure StagesAgree (d : Database) (r : ApplicationRow) : Prop where
  status : r.status ∈ committedStatuses
  attached : r.activeWorkflowId ≠ none ↔ r.status ∈ workedOn
  workflow : ∀ w, r.activeWorkflowId = some w →
    w = applicationWorkflowId r.tenantId r.applicationId
      (lastSubmission (d.statusesOf r.applicationId))
  pending : (∃ e ∈ d.entriesOf r.applicationId, e.status = "pending") ↔
    r.status = awaitingHumanReview
  decided : r.status ∈ reviewOutcomes → ∃ e, d.entriesOf r.applicationId = [e] ∧
    e.status = "decided" ∧ e.decision = some r.status.value

/-- No two entries are of one application. -/
theorem reviewQueueEntries_nodup {d : Database} (h : WellFormed d) :
    (d.reviewQueueEntries.map ReviewQueueEntryRow.applicationId).Nodup :=
  h.nodup_ids Row.reviewQueueEntry? _ Key.reviewQueueEntry fun r x hx => by
    cases r <;> cases hx
    exact List.mem_cons_self

/-- An application has at most the entry that is found. -/
theorem entriesOf_eq {d : Database} (h : WellFormed d) (a : ApplicationId) :
    d.entriesOf a = (d.reviewQueueEntry? a).toList := by
  cases he : d.reviewQueueEntry? a with
  | none =>
      rw [Option.toList_none, Database.entriesOf, List.filter_eq_nil_iff]
      exact fun e hmem => List.find?_eq_none.1 he e hmem
  | some e =>
      have hea : e.applicationId = a := by simpa using List.find?_some he
      have hone := filter_eq_singleton (reviewQueueEntries_nodup h) (List.mem_of_find?_eq_some he)
      rw [Database.entriesOf, ← hea]
      exact hone

/-- **In a case that is in order the tables agree.** -/
theorem InOrder.stagesAgree {d : Database} (h : InOrder d) {r : ApplicationRow}
    (hr : r ∈ d.applications) : StagesAgree d r := by
  have hrow := (application?_iff h.wellFormed.keys).2 ⟨application_mem.1 hr, rfl⟩
  obtain ⟨x, hx, rfl⟩ := caseFile?_of_row hrow
  obtain ⟨events, htells⟩ := h.tells hx
  have hstatuses : d.statusesOf x.row.applicationId = x.history := htells.statuses
  have hentries := entriesOf_eq h.wellFormed x.row.applicationId
  rw [caseFile?_review hx] at hentries
  have hcurrent : ∀ w, some x.currentWorkflowId = some w →
      w = applicationWorkflowId x.row.tenantId x.row.applicationId
        (lastSubmission (d.statusesOf x.row.applicationId)) := by
    intro w hw
    rw [hstatuses]
    exact (Option.some.inj hw).symm
  have hphase := htells.reached.consistent.phase
  cases hphase with
  | draft hs hw hr =>
      rw [hr] at hentries
      refine ⟨?_, ?_, ?_, ?_, ?_⟩
      · simp [hs, committedStatuses]
      · simp [hs, hw, workedOn]
      · simp [hw]
      · simp [hs, hentries]
      · simp [hs, reviewOutcomes]
  | processing hs hw hr =>
      refine ⟨?_, ?_, hw ▸ hcurrent, ?_, ?_⟩
      · rcases hs with hs | hs | hs <;> simp [hs, committedStatuses]
      · rcases hs with hs | hs | hs <;> simp [hs, hw, workedOn]
      · have hnone : ¬ ∃ e ∈ d.entriesOf x.row.applicationId, e.status = "pending" := by
          rintro ⟨e, he, hpending⟩
          rw [hentries, Option.mem_toList] at he
          rw [hr e he] at hpending
          exact absurd hpending (by decide)
        rcases hs with hs | hs | hs <;> simp only [hnone, hs, reduceCtorEq]
      · rcases hs with hs | hs | hs <;> simp [hs, reviewOutcomes]
  | review hs hw e hr he =>
      rw [hr] at hentries
      refine ⟨?_, ?_, hw ▸ hcurrent, ?_, ?_⟩
      · simp [hs, committedStatuses]
      · simp [hs, hw, workedOn]
      · simp [hs, hentries, he]
      · simp [hs, reviewOutcomes]
  | outcome hs hw e hr he hd =>
      rw [hr] at hentries
      refine ⟨?_, ?_, ?_, ?_, fun _ => ⟨e, hentries, he, hd⟩⟩
      · exact (by decide : ∀ s ∈ reviewOutcomes, s ∈ committedStatuses) _ hs
      · have hno := (by decide : ∀ s ∈ reviewOutcomes, s ∉ workedOn) _ hs
        simp [hw, hno]
      · simp [hw]
      · have hno := (by decide : ∀ s ∈ reviewOutcomes, s ≠ awaitingHumanReview) _ hs
        have hnp : ¬ e.status = "pending" := by
          rw [he]
          decide
        simp [hentries, hnp, hno]

/-! ### Resubmission -/

section Resubmission

variable {σ : Type} {E : Environment Answer σ} {G : IdSource E} {s : σ} {d : Database}

/-- **What was submitted is saved, recorded and committed.** -/
theorem alone_saveSubmission (hd : InOrder d)
    {command : ApplicationCommand} {operationName key : String} {reservedAt : DateTime}
    (hfit : Fit G d 2 s [reserveWrite command.tenantId operationName key reservedAt])
    {x : CaseFile} (hx : d.caseFile? command.applicationId = some x)
    (ht : x.row.tenantId = command.tenantId) (newStatus : ApplicationStatus) (reason : String)
    (at' : DateTime) :
    ∃ s' d', (saveSubmission command x.row
        ((rowToApplication x.row).moved newStatus reason at')).alone postgres E s d
          [reserveWrite command.tenantId operationName key reservedAt] =
      ⟨d', [], s', .ok (x.row.moved newStatus reason at'
        (some (applicationWorkflowId command.tenantId command.applicationId
          (x.row.version + 1))))⟩ := by
  obtain ⟨events, htells⟩ := hd.tells hx
  have haside : ∀ w ∈ [reserveWrite command.tenantId operationName key reservedAt], w.Aside :=
    fun w hw => List.mem_singleton.1 hw ▸ reserveWrite_aside _ _ _ _
  have hid : x.row.applicationId = command.applicationId := htells.id
  have hfound : (postgres.view d [reserveWrite command.tenantId operationName key reservedAt]
      ).application? x.row.applicationId = some x.row := by
    rw [application?_view_aside haside, hid]
    exact caseFile?_row hx
  have hfree : (postgres.view d [reserveWrite command.tenantId operationName key reservedAt]).has
      (.applicationVersion x.row.applicationId (x.row.version + 1)) = false := by
    by_contra hyes
    rw [Bool.not_eq_false, occupied_view_iff] at hyes
    rcases hyes with hyes | ⟨w, hw, row, hrow, hk⟩
    · rw [hid, hd.no_version hx (Nat.lt_succ_self _)] at hyes
      cases hyes
    · rw [List.mem_singleton.1 hw] at hrow
      cases hrow
      simp [Row.keys] at hk
  generalize happ : x.row.moved newStatus reason at' (some (applicationWorkflowId
    command.tenantId command.applicationId (x.row.version + 1))) = application
  obtain ⟨s₁, snapshotId, hsave, hfit₁⟩ := alone_saveApplication (t := command.tenantId)
    hd.wellFormed hfit x.row application (happ ▸ hfound) ht (happ ▸ ht)
    (happ ▸ rfl) (happ ▸ rfl) (happ ▸ rfl) (happ ▸ hfree)
  have hevents : ∀ event ∈ application.pullEvents.1, event.tenantId = command.tenantId := by
    intro event hevent
    rw [← happ] at hevent
    obtain rfl := List.mem_singleton.1 hevent
    exact ht
  have hone : application.pullEvents.1.length = 1 := by
    rw [← happ]
    rfl
  obtain ⟨s₂, recording, hrecord, -, -⟩ := alone_recordDomainEvents (t := command.tenantId)
    (n := 0) (by rw [hone]; exact hfit₁) hevents (Or.inr hone.le)
  have hrun := (Prog.alone_bind_ok (f := fun _ => do
      recordAndCommit command.tenantId application
      pure application) hsave).trans
    (Prog.alone_bind_ok ((Prog.alone_bind_ok hrecord).trans alone_commit))
  rw [saveSubmission]
  simp only [← happ] at hrun ⊢
  exact ⟨s₂, _, hrun⟩

/-- The workflow is asked for, and the handler returns whatever the answer is. -/
theorem alone_startWorkflow (command : ApplicationCommand) (application : Application)
    (startingStatus : ApplicationStatus) (ws : List Write) :
    ∃ s' r, (startWorkflow command application startingStatus).alone postgres E s d ws =
      ⟨d, ws, s', .ok r⟩ := by
  rw [startWorkflow]
  generalize applicationWorkflowId command.tenantId command.applicationId application.version = w
  exact ⟨_, _, Prog.alone_bind_ok (alone_ask _)⟩

/-- **A resubmission that runs by itself succeeds exactly from `NEEDS_MORE_INFORMATION`**, for the
tenant of the application and with a key that is not taken. -/
theorem resubmit_succeeds_iff (hd : InOrder d) (hinUse : InUse (G.used s) d) (hleft : 2 ≤ G.left s)
    (command : ApplicationCommand) :
    (∃ r, ((resubmitApplication command).alone postgres E s d []).result = .ok r) ↔
      d.has (.idempotencyKey command.tenantId resubmitApplicationOperation
        command.idempotencyKey) = false ∧
      ∃ row, d.application? command.applicationId = some row ∧ row.tenantId = command.tenantId ∧
        row.status = needsMoreInformation := by
  have hreserve := alone_requireReservation (E := E) (s := s) (d := d) command.tenantId
    command.idempotencyKey resubmitApplicationOperation
  cases hkey : d.has (.idempotencyKey command.tenantId resubmitApplicationOperation
      command.idempotencyKey) with
  | true =>
      rw [hkey] at hreserve
      rw [resubmitApplication, Prog.alone_bind_error hreserve]
      simp
  | false =>
      rw [hkey] at hreserve
      have hread : (requireApplication command.tenantId command.applicationId).alone postgres E
          (E s .now).2 d [reserveWrite command.tenantId resubmitApplicationOperation
            command.idempotencyKey (timeOf E s)] = _ :=
        alone_requireApplication command.tenantId command.applicationId
      rw [applicationRow?_reserved, applicationRow?] at hread
      cases hrow : (d.visible command.tenantId).application? command.applicationId with
      | none =>
          rw [hrow] at hread
          rw [resubmitApplication, Prog.alone_bind_ok hreserve, Prog.alone_bind_error hread]
          simp only [reduceCtorEq, exists_false, true_and, false_iff]
          rintro ⟨row, hfound, ht, -⟩
          rw [(application?_visible hd.wellFormed.keys).2 ⟨hfound, ht⟩] at hrow
          cases hrow
      | some row =>
          obtain ⟨hfound, ht⟩ := (application?_visible hd.wellFormed.keys).1 hrow
          obtain ⟨x, hx, rfl⟩ := caseFile?_of_row hfound
          rw [resubmitApplication, alone_begin hd hx ht hkey]
          have hfit := Fit.begin (t := command.tenantId) hinUse hleft hkey
          by_cases hlegal : isLegalTransition x.row.status documentProcessing = true
          · rw [Prog.alone_bind_ok (alone_transition (rowToApplication x.row) hlegal)]
            obtain ⟨s', d', hsaved⟩ := alone_saveSubmission hd (Fit.ask .now hfit) hx ht
              documentProcessing "applicant resubmitted with additional information"
              (timeOf E (E s .now).2)
            rw [Prog.alone_bind_ok hsaved]
            generalize x.row.moved documentProcessing
              "applicant resubmitted with additional information" _ _ = application
            obtain ⟨s'', r, hend⟩ := alone_startWorkflow (E := E) (s := s') (d := d') command
              application documentProcessing []
            rw [hend]
            have hn := (hd.reached hx).resubmission hlegal
            exact ⟨fun _ => ⟨rfl, x.row, hfound, ht, hn⟩, fun _ => ⟨r, rfl⟩⟩
          · rw [Bool.not_eq_true] at hlegal
            rw [Prog.alone_bind_error (alone_transition_illegal
              (rowToApplication x.row) hlegal)]
            simp only [reduceCtorEq, exists_false, true_and, false_iff]
            rintro ⟨row, hfound', -, hn⟩
            rw [hfound] at hfound'
            cases hfound'
            rw [hn] at hlegal
            revert hlegal
            decide

end Resubmission

/-- A case that has moved on by one status could. -/
theorem CaseFile.Reached.legal_of_move {x : CaseFile} (hx : x.Reached) {s : ApplicationStatus}
    {at' : DateTime} {workflowId : Option String} {review : Option ReviewQueueEntryRow}
    (h : (x.move [s] at' workflowId review).Reached) :
    isLegalTransition x.row.status s = true := by
  have hchain : (x.history ++ [s]).IsChain fun s s' => isLegalTransition s s' = true :=
    h.consistent.legal
  exact (List.isChain_append.1 hchain).2.2 _ hx.consistent.last s rfl

/-- **A resubmission is committed only from `NEEDS_MORE_INFORMATION`**, whatever runs beside it. -/
theorem Installation.resubmitted (I : Installation) {H : Host programs} {ext : H.Ext} {w w' : World H}
    (h : Reachable postgres (I.start H ext) w) {action : Action H}
    (hs : w.step postgres action = some w') {i : ℕ} {c : ApplicationCommand} {ws : List Write}
    (hlog : w'.log = w.log ++ [⟨i, .command (.resubmitApplication c), ws⟩]) :
    (∃ row, w.db.application? c.applicationId = some row ∧ row.tenantId = c.tenantId ∧
      row.status = needsMoreInformation) ∧
    ∃ row, w'.db.application? c.applicationId = some row ∧ row.status = documentProcessing := by
  obtain ⟨t, k, ht, hp, hkind, hws, hdb⟩ := World.committed_of_log hs hlog
  have hsound := I.sound h
  obtain ⟨d₀, -, -, hc⟩ := hsound.commits ht hp
  have hg := hsound.granted i t ht
  rw [hkind] at hc
  simp only at hws hdb
  rw [hws] at hc hg
  obtain ⟨a, x, x', ha, hxt, hmoves, hcase⟩ := (show Command.Commits _ _ _ _ from hc).effect
  cases ha
  cases hmoves with
  | resubmit _ at' =>
      have hlegal := (hsound.inv.reached hcase.before).legal_of_move
        ((hcase.inOrder hsound.inv hg).reached hcase.after)
      refine ⟨⟨x.row, caseFile?_row hcase.before, hxt,
        (hsound.inv.reached hcase.before).resubmission hlegal⟩, ?_⟩
      rw [hdb]
      exact ⟨_, caseFile?_row hcase.after, rfl⟩

/-- **In every committed state the three tables agree on every application**, and only what waits
for information is resubmitted: in every run, and by a resubmission that runs by itself exactly
then.  The table of transitions has a second way into document processing. -/
theorem stages_agree (I : Installation) {w : World anyHost}
    (h : Reachable postgres (I.start anyHost ()) w) :
    (∀ r ∈ w.db.applications, StagesAgree w.db r) ∧
    (∀ action w' i c ws, w.step postgres action = some w' →
      w'.log = w.log ++ [⟨i, .command (.resubmitApplication c), ws⟩] →
      ∃ row, w.db.application? c.applicationId = some row ∧ row.tenantId = c.tenantId ∧
        row.status = needsMoreInformation) ∧
    (∀ (σ : Type) (E : Environment Answer σ) (G : IdSource E) (s : σ) (c : ApplicationCommand),
      InUse (G.used s) w.db → 2 ≤ G.left s →
      ((∃ r, ((resubmitApplication c).alone postgres E s w.db []).result = .ok r) ↔
        w.db.has (.idempotencyKey c.tenantId resubmitApplicationOperation c.idempotencyKey) = false ∧
        ∃ row, w.db.application? c.applicationId = some row ∧ row.tenantId = c.tenantId ∧
          row.status = needsMoreInformation)) ∧
    isLegalTransition intakeValidation documentProcessing = true := by
  have hd := (I.sound h).inv
  refine ⟨fun r hr => hd.stagesAgree hr, ?_, ?_, by decide⟩
  · intro action w' i c ws hs hlog
    exact (I.resubmitted h hs hlog).1
  · intro σ E G s c hinUse hleft
    exact resubmit_succeeds_iff hd hinUse hleft c

/-- In a world with an application that was submitted. -/
theorem stages_agree_submitted :
    (Sample.submitted.db.applications.map ApplicationRow.status = [submitted]) ∧
    ∀ r ∈ Sample.submitted.db.applications, StagesAgree Sample.submitted.db r :=
  ⟨by decide +kernel, (stages_agree Sample.installation Sample.reachable_submitted).1⟩

end FinAssist
