/-
**Entering review, again and again.**

There are three ways into human review: out of the intake, when the catalog does not cover what was
asked for, out of the check for documents, when there are none, and after the verification.  All of
them insert a row into the review queue, whose primary key is the application.  A decision updates
that row and leaves it there.  So a case that was asked for more information and resubmitted has a
row already when it comes to review again, and the insert is refused.

Main definitions:

* `FinAssist.IntoReview` — a command that is on one of the three ways;
* `FinAssist.EntersReview` — **the case is in review, with an entry that is pending**.

Main results:

* `FinAssist.Installation.checkpointed` — a tenant with an application has a checkpoint;
* `FinAssist.enters_review_iff` — **a case enters review exactly if it has not been there before**;
* `FinAssist.second_review_refused` — a case that does not get into its second review.
-/

import FinAssist.CaseStages

set_option relaxedAutoImplicit false
set_option autoImplicit false

namespace FinAssist

open ReadCommitted ApplicationStatus

/-! ### Checkpoints -/

/-- Whoever has an audit row has a checkpoint. -/
def Checkpointed (d : Database) : Prop := ∀ r ∈ d.auditEvents, d.has (.auditHash r.tenantId) = true

/-- A recording that has recorded something leaves a checkpoint behind. -/
theorem has_auditHash_of_recorded {t : TenantId} {d : Database} {events : List DomainEvent}
    {recording : Recording} (hrec : Recorded events recording)
    (hg : postgres.Granted d (recordingWrites t recording)) (hne : recording.audits ≠ []) :
    (postgres.view d (recordingWrites t recording)).has (.auditHash t) = true := by
  cases hc : recording.checkpoint with
  | some c =>
      -- the update was granted, so the row was there
      have hsplit : recordingWrites t recording =
          recording.audits.map (fun r => ⟨t, .insert (.auditEvent r)⟩) ++
            ⟨t, .updateAuditHash c.1 c.2⟩ ::
              (recording.newHashes.map (fun r => ⟨t, .insert (.auditHash r)⟩) ++
                recording.outbox.map fun r => ⟨t, .insert (.outboxEvent r)⟩) := by
        simp [recordingWrites, hc]
      rw [hsplit] at hg ⊢
      have hgranted := ((postgres.granted_append _ _ d).1 hg).2.1
      have hpresent := (fault_eq_none_iff.1 hgranted).2.2 (.auditHash t) (List.mem_singleton.2 rfl)
      rw [postgres.view_append]
      exact has_view_of_has hpresent
  | none =>
      obtain ⟨hlength, -, -⟩ := hrec.begins hc
      have haudits : recording.audits.length = events.length := by
        simpa using congrArg List.length hrec.audits
      have hpos : 0 < recording.newHashes.length := by
        rw [hlength, ← haudits]
        exact List.length_pos_iff.2 hne
      obtain ⟨r, hr⟩ := List.exists_mem_of_length_pos hpos
      refine occupied_view_iff.2 (Or.inr ⟨⟨t, .insert (.auditHash r)⟩, ?_, _, rfl, ?_⟩)
      · simp [recordingWrites, hr]
      · simp [Row.keys, newHashes_tenantId hg r hr]

/-- What is neither a reservation nor a record inserts no audit row. -/
theorem auditEvent?_of_plain {w : Write} (h : w.isPlain = true) :
    w.statement.inserted?.bind Row.auditEvent? = none := by
  obtain ⟨t, st⟩ := w
  cases st with
  | insert row => cases row <;> first | rfl | cases h
  | _ => rfl

theorem Command.Commits.checkpointed {c : Command} {d₀ d : Database} {ws : List Write}
    (h : c.Commits d₀ d ws) (hg : postgres.Granted d ws) (hd : Checkpointed d) :
    Checkpointed (postgres.view d ws) := by
  obtain ⟨reservedAt, body, events, recording, rfl, hrec, hplain⟩ := h.shape
  intro r hr
  rw [Database.auditEvents, filterMap_view Row.auditEvent? change_auditEvent?] at hr
  rcases List.mem_append.1 hr with hr | hr
  · exact has_view_of_has (hd r hr)
  · obtain ⟨w, hw, hrow⟩ := List.mem_filterMap.1 hr
    rw [← List.cons_append] at hg hw ⊢
    rcases List.mem_append.1 hw with hw | hw
    · rcases List.mem_cons.1 hw with rfl | hw
      · cases hrow
      · rw [auditEvent?_of_plain (hplain w hw)] at hrow
        cases hrow
    · have hgranted := ((postgres.granted_append _ _ d).1 hg).2
      have hmem : r ∈ recording.audits := by
        simp only [recordingWrites, List.mem_append, List.mem_map, Option.mem_toList,
          Option.map_eq_some_iff] at hw
        rcases hw with ((⟨r', hr', rfl⟩ | ⟨x, hx, rfl⟩) | ⟨r', hr', rfl⟩) | ⟨r', hr', rfl⟩
        · cases hrow
          exact hr'
        · cases hrow
        · cases hrow
        · cases hrow
      rw [audits_tenantId hgranted r hmem, postgres.view_append]
      exact has_auditHash_of_recorded hrec hgranted (List.ne_nil_of_mem hmem)

/-- **A tenant with an application has a checkpoint.** -/
theorem Installation.checkpointed (I : Installation) {H : Host programs} {ext : H.Ext}
    {ok : World H → Action H → Prop} {w : World H} (h : Reaches postgres ok (I.start H ext) w)
    {a : ApplicationId} {x : CaseFile} (hx : w.db.caseFile? a = some x) :
    w.db.has (.auditHash x.row.tenantId) = true := by
  have hall : Checkpointed w.db := by
    refine I.invariant ?_ (fun c d₀ d ws _ hg hc hd => hc.checkpointed hg hd) h
    intro r hr
    have hnone : I.database.auditEvents = [] := I.filterMap_rows (fun _ => rfl) (fun _ => rfl)
    rw [hnone] at hr
    cases hr
  -- the first event of a case is its creation
  obtain ⟨events, htells⟩ := (I.sound h).inv.tells hx
  have hlength := htells.narrates.length_eq
  have hpos := List.length_pos_iff.2 htells.reached.consistent.history_ne_nil
  obtain ⟨r, hr⟩ : ∃ r, r ∈ (w.db.slice a).audits := by
    refine List.exists_mem_of_length_pos ?_
    have hsame := congrArg List.length htells.audits
    simp only [List.length_map] at hsame
    omega
  have hrecord : r.record ∈ events.map DomainEvent.record :=
    htells.audits ▸ List.mem_map_of_mem hr
  obtain ⟨event, hevent, heq⟩ := List.mem_map.1 hrecord
  have htenant : r.tenantId = x.row.tenantId :=
    (congrArg EventRecord.tenantId heq).symm.trans (htells.narrates.about event hevent).1
  rw [← htenant]
  exact hall r (List.mem_filter.1 hr).1

/-! ### The step into review -/

section Enter

variable {σ : Type} {E : Environment Answer σ} {G : IdSource E} {s : σ} {d : Database} {n : ℕ}
variable {ws : List Write} {t : TenantId}

/-- A key that no statement takes is taken when it was before. -/
theorem has_view_eq {ws : List Write} {d : Database} {k : Key}
    (h : ∀ w ∈ ws, ∀ row ∈ w.statement.inserted?, k ∉ row.keys) :
    (postgres.view d ws).has k = d.has k := by
  rw [Bool.eq_iff_iff, occupied_view_iff]
  refine ⟨?_, Or.inl⟩
  rintro (hd | ⟨w, hw, row, hrow, hk⟩)
  · exact hd
  · exact absurd hk (h w hw row hrow)

/-- An application without an entry has none of its tenant. -/
theorem reviewQueueEntryOf_free {d : Database} {t : TenantId} {a : ApplicationId}
    (h : d.has (.reviewQueueEntry a) = false) : d.has (.reviewQueueEntryOf t a) = false := by
  by_contra hyes
  rw [Bool.not_eq_false] at hyes
  obtain ⟨row, hrow, hk⟩ := Database.has_iff.1 hyes
  cases row with
  | reviewQueueEntry r =>
      simp only [Row.keys, List.mem_cons, reduceCtorEq, Key.reviewQueueEntryOf.injEq,
        List.not_mem_nil, or_false, false_or] at hk
      have htaken : d.has (.reviewQueueEntry a) = true :=
        Database.has_iff.2 ⟨_, hrow, by simp [Row.keys, hk.2]⟩
      rw [h] at htaken
      cases htaken
  | _ => simp [Row.keys] at hk

/-- The keys that a save takes. -/
theorem not_taken_by_save {t : TenantId} {row : ApplicationRow} {application : Application}
    {snapshotId : String} {k : Key} (hid : k ≠ .applicationVersionId snapshotId)
    (hk : k ≠ .applicationVersion application.applicationId application.version) :
    ∀ w ∈ saveWrites t row application snapshotId, ∀ r ∈ w.statement.inserted?, k ∉ r.keys := by
  intro w hw r hr hmem
  simp only [saveWrites, List.mem_cons, List.not_mem_nil, or_false] at hw
  rcases hw with rfl | rfl
  · cases hr
  · cases hr
    simp only [Row.keys, versionSnapshotRow, List.mem_cons, List.not_mem_nil, or_false] at hmem
    rcases hmem with h | h
    · exact hid h
    · exact hk h

/-- **What the step into review starts from**: the transaction sees the row of the aggregate, its
next version is free, and the transition is legal. -/
structure Enterable (t : TenantId) (v : Database) (row : ApplicationRow)
    (application : Application) : Prop where
  found : v.application? application.applicationId = some row
  rowTenant : row.tenantId = t
  tenant : application.tenantId = t
  version : application.version = row.version
  amount : application.requestedAmount = row.requestedAmount
  term : application.requestedTermMonths = row.requestedTermMonths
  legal : isLegalTransition application.status awaitingHumanReview = true
  free : v.has (.applicationVersion application.applicationId (row.version + 1)) = false

/-- The transition and the save go through; the entry is inserted if there is none. -/
theorem alone_enterHumanReview (hd : WellFormed d) (hfit : Fit G d (n + 1) s ws)
    {row : ApplicationRow} {application : Application} (reason : String)
    (h : Enterable t (postgres.view d ws) row application) :
    ∃ s' snapshotId enteredQueueAt,
      (enterHumanReview t row application reason).alone postgres E s d ws =
        (if (postgres.view d ws).has (.reviewQueueEntry application.applicationId) then
          ⟨d, ws ++ saveWrites t row
            (application.moved awaitingHumanReview reason (timeOf E s)) snapshotId, s',
            .error (.database .integrityError)⟩
        else
          ⟨d, ws ++ saveWrites t row
              (application.moved awaitingHumanReview reason (timeOf E s)) snapshotId ++
              [pendingWrite t application.applicationId enteredQueueAt], s',
            .ok (application.moved awaitingHumanReview reason (timeOf E s))⟩) ∧
      ((postgres.view d ws).has (.reviewQueueEntry application.applicationId) = false →
        Fit G d n s' (ws ++ saveWrites t row
            (application.moved awaitingHumanReview reason (timeOf E s)) snapshotId ++
            [pendingWrite t application.applicationId enteredQueueAt])) := by
  obtain rfl := h.tenant
  have hversion := h.version
  obtain ⟨s₁, snapshotId, hsave, hfit₁⟩ := alone_saveApplication (t := application.tenantId) hd
    (Fit.ask .now hfit) row (application.moved awaitingHumanReview reason (timeOf E s)) h.found
    h.rowTenant rfl (by rw [← hversion]; rfl) h.amount h.term
    (by rw [← h.free, ← hversion]; rfl)
  refine ⟨(E s₁ .now).2, snapshotId, timeOf E s₁, ?_⟩
  have hfit₂ := Fit.ask .now (n := n) hfit₁
  rw [enterHumanReview, Prog.alone_bind_ok (alone_transition application h.legal),
    Prog.alone_bind_ok hsave, Prog.alone_bind_ok alone_now]
  -- the save takes no key of the queue
  have hqueue : (postgres.view d (ws ++ saveWrites application.tenantId row
      (application.moved awaitingHumanReview reason (timeOf E s)) snapshotId)).has
        (.reviewQueueEntry application.applicationId) =
      (postgres.view d ws).has (.reviewQueueEntry application.applicationId) := by
    rw [postgres.view_append]
    exact has_view_eq (not_taken_by_save (by simp) (by simp))
  have htenant := (has_application (hd.view hfit.granted) h.found).2.2.1
  rw [h.rowTenant] at htenant
  cases htaken : (postgres.view d ws).has (.reviewQueueEntry application.applicationId) with
  | true =>
      rw [htaken] at hqueue
      have hfault : postgres.fault (postgres.view d (ws ++ saveWrites application.tenantId row
          (application.moved awaitingHumanReview reason (timeOf E s)) snapshotId))
          (pendingWrite application.tenantId application.applicationId (timeOf E s₁)) = some .integrityError := by
        refine fault_of_taken ?_ (k := .reviewQueueEntry application.applicationId) ?_ hqueue
        · simp [pendingWrite, Statement.staticFault, Row.visibleTo, Row.tenantId?, Row.check]
        · simp [pendingWrite, Statement.absent, Row.keys]
      refine ⟨?_, by simp⟩
      rw [if_pos rfl, addReviewQueueEntry]
      exact Prog.alone_bind_error (alone_execute_refused hfault)
  | false =>
      rw [htaken] at hqueue
      have hfault : postgres.fault (postgres.view d (ws ++ saveWrites application.tenantId row
          (application.moved awaitingHumanReview reason (timeOf E s)) snapshotId))
          (pendingWrite application.tenantId application.applicationId (timeOf E s₁)) = none := by
        refine Insertable.fault ⟨by simp [Row.visibleTo, Row.tenantId?], by simp [Row.check], ?_⟩ ?_
        · intro k hk
          rw [List.mem_singleton.1 hk, postgres.view_append]
          exact has_view_of_has htenant
        · intro k hk
          simp only [Row.keys, List.mem_cons, List.not_mem_nil, or_false] at hk
          rcases hk with rfl | rfl
          · exact hqueue
          · exact reviewQueueEntryOf_free hqueue
      refine ⟨?_, fun _ => hfit₂.exec hfault ?_⟩
      · rw [if_neg (by simp), addReviewQueueEntry]
        exact Prog.alone_bind_ok (alone_execute hfault)
      · rintro r hr k hk id hid
        cases hr
        simp only [Row.keys, List.mem_cons, List.not_mem_nil, or_false] at hk
        rcases hk with rfl | rfl <;> cases hid

/-- **The case is in review, with an entry that is pending**, after a run that returned. -/
structure EntersReview {α : Type} (a : ApplicationId) (o : Outcome Database Write σ Error α) :
    Prop where
  returned : ∃ r, o.result = .ok r
  status : ∃ row, o.db.application? a = some row ∧ row.status = awaitingHumanReview
  pending : ∃ e ∈ o.db.entriesOf a, e.status = "pending"

/-- What follows the step into review: the events are recorded, and all of it is committed. -/
theorem alone_enterAndCommit {α : Type} (hd : InOrder d) {row : ApplicationRow}
    {application : Application} (reason : String) {x : CaseFile}
    (hfit : Fit G d (application.pendingEvents.length + 1 + 1) s ws)
    (h : Enterable t (postgres.view d ws) row application)
    (htenants : ∀ event ∈ application.pendingEvents, event.tenantId = t)
    (hcheckpoint : d.has (.auditHash t) = true)
    (hqueue : (postgres.view d ws).has (.reviewQueueEntry application.applicationId) = false)
    (hmoves : ∀ snapshotId enteredQueueAt recording,
      Recorded (application.moved awaitingHumanReview reason (timeOf E s)).pendingEvents recording →
      ∃ x', MovesCase d (ws ++ saveWrites t row
          (application.moved awaitingHumanReview reason (timeOf E s)) snapshotId ++
          [pendingWrite t application.applicationId enteredQueueAt] ++ recordingWrites t recording)
        application.applicationId x x' ∧ x'.row.status = awaitingHumanReview ∧
        ∃ e, x'.review = some e ∧ e.status = "pending")
    (f : Application → α) :
    EntersReview application.applicationId
      ((enterHumanReview t row application reason >>= fun application =>
        recordAndCommit t application >>= fun _ => pure (f application)).alone postgres E s d ws) := by
  obtain ⟨s₁, snapshotId, enteredQueueAt, hrun, hfit₁⟩ :=
    alone_enterHumanReview hd.wellFormed hfit reason h
  rw [if_neg (by simp [hqueue])] at hrun
  have hfit₁ := hfit₁ hqueue
  have hevents : ∀ event ∈ (application.moved awaitingHumanReview reason
      (timeOf E s)).pullEvents.1, event.tenantId = t := by
    intro event hevent
    rcases List.mem_append.1 hevent with hevent | hevent
    · exact htenants event hevent
    · rw [List.mem_singleton.1 hevent]
      exact h.tenant
  have hhas : (postgres.view d (ws ++ saveWrites t row
      (application.moved awaitingHumanReview reason (timeOf E s)) snapshotId ++
      [pendingWrite t application.applicationId enteredQueueAt])).has (.auditHash t) = true :=
    has_view_of_has hcheckpoint
  have hlen : (application.moved awaitingHumanReview reason (timeOf E s)).pullEvents.1.length =
      application.pendingEvents.length + 1 := by
    simp [Application.pullEvents, Application.moved]
  obtain ⟨s₂, recording, hrecord, hrec, hfit₂⟩ := alone_recordDomainEvents (n := 0)
    (by rw [hlen, Nat.zero_add]; exact hfit₁) hevents (Or.inl hhas)
  obtain ⟨x', hcase, hstatus, e, he, hpending⟩ := hmoves snapshotId enteredQueueAt recording hrec
  have hall := (Prog.alone_bind_ok (f := fun application => recordAndCommit t application >>=
      fun _ => (pure (f application) : Handler α)) hrun).trans
    (Prog.alone_bind_ok ((Prog.alone_bind_ok hrecord).trans alone_commit))
  rw [hall]
  refine ⟨⟨_, rfl⟩, ⟨x'.row, caseFile?_row hcase.after, hstatus⟩, e, ?_, hpending⟩
  change e ∈ (postgres.view d _).entriesOf _
  rw [entriesOf_eq (hd.wellFormed.view hfit₂.granted), caseFile?_review hcase.after, he]
  exact List.mem_singleton.2 rfl

/-- With an entry in the queue the run fails, and commits nothing. -/
theorem alone_enterAndCommit_refused {α : Type} (hd : WellFormed d) {row : ApplicationRow}
    {application : Application} (reason : String) (hfit : Fit G d (n + 1) s ws)
    (h : Enterable t (postgres.view d ws) row application)
    (hqueue : (postgres.view d ws).has (.reviewQueueEntry application.applicationId) = true)
    (f : Application → α) :
    ∃ ws' s', (enterHumanReview t row application reason >>= fun application =>
        recordAndCommit t application >>= fun _ => pure (f application)).alone postgres E s d ws =
      ⟨d, ws', s', .error (.database .integrityError)⟩ := by
  obtain ⟨s₁, snapshotId, enteredQueueAt, hrun, -⟩ :=
    alone_enterHumanReview hd hfit reason h
  rw [if_pos hqueue] at hrun
  exact ⟨_, _, Prog.alone_bind_error hrun⟩

/-! ### The three ways -/

/-- The product of an application, as its tenant finds it. -/
def Database.productOf? (d : Database) (t : TenantId) (p : ProductId) : Option ProductRow :=
  (d.visible t).products.find? fun r => r.productId = p

/-- **A command that is on a way into review**: the intake of what the catalog does not cover, the
check for documents where there are none, and the activity after the verification. -/
inductive IntoReview (d : Database) (row : ApplicationRow) : Command → Prop
  | outOfBounds (c : ApplicationCommand) (hs : row.status = submitted) (productRow : ProductRow)
      (product : Product) (hr : d.productOf? c.tenantId row.productId = some productRow)
      (hp : rowToProduct productRow = .ok product)
      (hno : product.accepts row.requestedAmount row.requestedTermMonths = false) :
      IntoReview d row (.advanceIntakeValidation c)
  | noDocuments (c : ApplicationCommand) (hs : row.status = documentProcessing)
      (hno : d.documents.filter (isDocumentOf c.tenantId c.applicationId) = []) :
      IntoReview d row (.advanceDocumentProcessing c)
  | verified (c : EnterHumanReviewCommand) (hs : row.status ∈ canEscalateToHumanReview) :
      IntoReview d row (.enterHumanReview c)

/-- What is known where a command on its way into review begins. -/
structure Begins (G : IdSource E) (d : Database) (s : σ) (a : ApplicationId) (x : CaseFile)
    (t : TenantId) (operationName key : String) : Prop where
  inOrder : InOrder d
  caseFile : d.caseFile? a = some x
  tenant : x.row.tenantId = t
  free : d.has (.idempotencyKey t operationName key) = false
  checkpoint : d.has (.auditHash t) = true
  inUse : InUse (G.used s) d
  left : 4 ≤ G.left s

namespace Begins

variable {a : ApplicationId} {x : CaseFile} {operationName key : String}

theorem fit (h : Begins G d s a x t operationName key) :
    Fit G d 4 (E s .now).2 [reserveWrite t operationName key (timeOf E s)] :=
  Fit.begin h.inUse h.left h.free

theorem applicationId (h : Begins G d s a x t operationName key) : x.row.applicationId = a := by
  obtain ⟨events, htells⟩ := h.inOrder.tells h.caseFile
  exact htells.id

/-- A reservation takes no key but its own. -/
theorem has_reserved {reservedAt : DateTime} {k : Key} (hk : k ≠ .idempotencyKey t operationName key) :
    (postgres.view d [reserveWrite t operationName key reservedAt]).has k = d.has k := by
  refine has_view_eq fun w hw row hrow hmem => ?_
  rw [List.mem_singleton.1 hw] at hrow
  cases hrow
  exact hk (List.mem_singleton.1 hmem)

/-- The row is found right after the reservation, and its next version is free. -/
theorem row_found (h : Begins G d s a x t operationName key) :
    (postgres.view d [reserveWrite t operationName key (timeOf E s)]).application?
        x.row.applicationId = some x.row ∧
      (postgres.view d [reserveWrite t operationName key (timeOf E s)]).has
        (.applicationVersion x.row.applicationId (x.row.version + 1)) = false := by
  have haside : ∀ w ∈ [reserveWrite t operationName key (timeOf E s)], w.Aside :=
    fun w hw => List.mem_singleton.1 hw ▸ reserveWrite_aside _ _ _ _
  rw [application?_view_aside haside, has_reserved (by simp), h.applicationId]
  exact ⟨caseFile?_row h.caseFile, h.inOrder.no_version h.caseFile (Nat.lt_succ_self _)⟩

/-- The row can be moved into review right after the reservation. -/
theorem enterable (h : Begins G d s a x t operationName key)
    (hlegal : isLegalTransition x.row.status awaitingHumanReview = true) :
    Enterable t (postgres.view d [reserveWrite t operationName key (timeOf E s)]) x.row
      (rowToApplication x.row) :=
  ⟨h.row_found.1, h.tenant, h.tenant, rfl, rfl, rfl, hlegal, h.row_found.2⟩

/-- Whether the queue has an entry is what the case says. -/
theorem has_entry (h : Begins G d s a x t operationName key) :
    d.has (.reviewQueueEntry a) = false ↔ x.review = none := by
  refine ⟨review_none h.inOrder h.caseFile, fun hnone => ?_⟩
  by_contra hyes
  rw [Bool.not_eq_false] at hyes
  obtain ⟨row, hrow, hk⟩ := Database.has_iff.1 hyes
  cases row with
  | reviewQueueEntry r =>
      simp only [Row.keys, List.mem_cons, Key.reviewQueueEntry.injEq, reduceCtorEq,
        List.not_mem_nil, or_false] at hk
      have hfound := (reviewQueueEntry?_iff h.inOrder.wellFormed.keys).2 ⟨hrow, hk.symm⟩
      rw [caseFile?_review h.caseFile, hnone] at hfound
      cases hfound
  | _ => simp [Row.keys] at hk

/-- **Into review from the row as it is**: the case enters review exactly if it has no entry. -/
theorem enters_iff {α : Type} (h : Begins G d s a x t operationName key)
    (hlegal : isLegalTransition x.row.status awaitingHumanReview = true) (reason : String)
    (f : Application → α) :
    EntersReview a ((enterHumanReview t x.row (rowToApplication x.row) reason >>=
        fun application => recordAndCommit t application >>= fun _ => pure (f application)).alone
      postgres E (E s .now).2 d [reserveWrite t operationName key (timeOf E s)]) ↔
    x.review = none := by
  have henter := h.enterable hlegal
  have hqueue : (postgres.view d [reserveWrite t operationName key (timeOf E s)]).has
      (.reviewQueueEntry (rowToApplication x.row).applicationId) = d.has (.reviewQueueEntry a) := by
    rw [has_reserved (by simp)]
    exact congrArg (fun a => d.has (.reviewQueueEntry a)) h.applicationId
  constructor
  · intro hentered
    by_contra hne
    have htaken : d.has (.reviewQueueEntry a) = true := by
      rw [← Bool.not_eq_false]
      exact fun hno => hne (h.has_entry.1 hno)
    obtain ⟨ws', s', hrun⟩ := alone_enterAndCommit_refused h.inOrder.wellFormed (n := 3) reason
      h.fit henter (hqueue.trans htaken) f
    rw [hrun] at hentered
    obtain ⟨r, hr⟩ := hentered.returned
    cases hr
  · intro hnone
    have hfit : Fit G d 2 (E s .now).2 [reserveWrite t operationName key (timeOf E s)] :=
      ⟨h.fit.granted, h.fit.inUse, Nat.le_trans (by decide) h.fit.left⟩
    have hentered := alone_enterAndCommit (x := x) h.inOrder reason hfit henter
      (by simp [rowToApplication]) h.checkpoint (hqueue.trans (h.has_entry.2 hnone))
      (fun snapshotId enteredQueueAt recording hrec =>
        ⟨_, by
          have hmoves : MovesCase d (reserveWrite t operationName key (timeOf E s) ::
              (saveWrites t x.row (x.row.moved awaitingHumanReview reason (timeOf E (E s .now).2)
                x.row.activeWorkflowId) snapshotId ++ [pendingWrite t a enteredQueueAt] ++
                recordingWrites t recording)) a x _ :=
            movesCase_enter h.tenant h.inOrder h.caseFile
              (.enterReview (timeOf E (E s .now).2) enteredQueueAt hlegal hnone) hnone hrec
          rw [← h.applicationId] at hmoves
          exact hmoves, rfl, _, rfl, rfl⟩) f
    exact h.applicationId ▸ hentered

end Begins

/-- The product of the application is found. -/
theorem alone_requireProduct {p : ProductId} {productRow : ProductRow} {product : Product}
    (hr : (postgres.view d ws).productOf? t p = some productRow)
    (hp : rowToProduct productRow = .ok product) :
    (requireProduct t p).alone postgres E s d ws = ⟨d, ws, s, .ok product⟩ := by
  rw [Database.productOf?] at hr
  rw [requireProduct, Prog.alone_bind_ok (alone_select t _), hr]
  simp only [hp]
  rfl

/-- The application while its intake is under way. -/
def inIntake (row : ApplicationRow) (at' : DateTime) : Application :=
  (rowToApplication row).moved intakeValidation "entering automated intake validation" at'

/-- The transaction after the first hop of the intake. -/
def intakeWrites (t : TenantId) (row : ApplicationRow) (key : String) (reservedAt at' : DateTime)
    (snapshotId : String) : List Write :=
  [reserveWrite t advanceIntakeValidationOperation key reservedAt] ++
    saveWrites t row (inIntake row at') snapshotId

/-- **The run of an intake**, up to its second hop. -/
theorem Begins.alone_intake {x : CaseFile} {c : ApplicationCommand}
    (h : Begins G d s c.applicationId x c.tenantId advanceIntakeValidationOperation
      c.idempotencyKey) (hs : x.row.status = submitted) {productRow : ProductRow}
    {product : Product} (hr : d.productOf? c.tenantId x.row.productId = some productRow)
    (hp : rowToProduct productRow = .ok product) {accepted : Bool}
    (haccepts : product.accepts x.row.requestedAmount x.row.requestedTermMonths = accepted) :
    ∃ s₂ at' snapshotId, (advanceIntakeValidation c).alone postgres E s d [] =
      (finishIntake c.tenantId (saveColumns x.row (inIntake x.row at')) (inIntake x.row at')
        accepted >>=
        fun application => recordAndCommit c.tenantId application >>= fun _ =>
          pure (⟨application.applicationId, application.status, application.version, accepted⟩ :
            AdvanceIntakeValidationResult)).alone postgres E s₂ d
        (intakeWrites c.tenantId x.row c.idempotencyKey (timeOf E s) at' snapshotId) ∧
      Fit G d 3 s₂
        (intakeWrites c.tenantId x.row c.idempotencyKey (timeOf E s) at' snapshotId) := by
  have hlegal : isLegalTransition x.row.status intakeValidation = true :=
    legal_intakeValidation_iff.2 hs
  have hproduct : (postgres.view d [reserveWrite c.tenantId advanceIntakeValidationOperation
      c.idempotencyKey (timeOf E s)]).productOf? c.tenantId x.row.productId = some productRow := by
    rw [Database.productOf?, Database.products, filterMap_reserved _ fun _ => rfl]
    exact hr
  obtain ⟨hfound, hfree⟩ := h.row_found
  obtain ⟨s₂, snapshotId, hsave, hfit₂⟩ := alone_saveApplication (t := c.tenantId)
    h.inOrder.wellFormed (Fit.ask .now (n := 4) h.fit) x.row
    (inIntake x.row (timeOf E (E s .now).2)) hfound h.tenant h.tenant rfl rfl rfl hfree
  refine ⟨s₂, timeOf E (E s .now).2, snapshotId, ?_, hfit₂⟩
  rw [advanceIntakeValidation, alone_begin h.inOrder h.caseFile h.tenant h.free]
  rw [Prog.alone_bind_ok (alone_requireProduct hproduct hp)]
  have hmoved : (transition (rowToApplication x.row) .intakeValidation
      "entering automated intake validation").alone postgres E (E s .now).2 d
        [reserveWrite c.tenantId advanceIntakeValidationOperation c.idempotencyKey (timeOf E s)] =
      ⟨d, _, _, .ok (inIntake x.row (timeOf E (E s .now).2))⟩ :=
    alone_transition (rowToApplication x.row) hlegal
  rw [Prog.alone_bind_ok hmoved, Prog.alone_bind_ok hsave]
  have hsame : product.accepts (inIntake x.row (timeOf E (E s .now).2)).requestedAmount
      (inIntake x.row (timeOf E (E s .now).2)).requestedTermMonths = accepted := haccepts
  rw [← hsame]
  rfl

/-- What the transaction sees of its application after the first hop. -/
theorem Begins.intake_row {x : CaseFile} {c : ApplicationCommand}
    (h : Begins G d s c.applicationId x c.tenantId advanceIntakeValidationOperation
      c.idempotencyKey) (reservedAt at' : DateTime) (snapshotId : String) :
    (postgres.view d (intakeWrites c.tenantId x.row c.idempotencyKey reservedAt at'
      snapshotId)).application? (inIntake x.row at').applicationId =
        some (saveColumns x.row (inIntake x.row at')) := by
  rw [show (inIntake x.row at').applicationId = c.applicationId from h.applicationId]
  exact application?_saved (c := .advanceIntakeValidation c) h.inOrder h.caseFile h.tenant
    h.applicationId

/-- What it has taken by then. -/
theorem Begins.intake_has {x : CaseFile} {c : ApplicationCommand}
    (h : Begins G d s c.applicationId x c.tenantId advanceIntakeValidationOperation
      c.idempotencyKey) (reservedAt at' : DateTime) (snapshotId : String) {k : Key}
    (hid : ∀ id, k ≠ .applicationVersionId id) (hkey : ∀ t o i, k ≠ .idempotencyKey t o i)
    (hversion : k ≠ .applicationVersion c.applicationId (x.row.version + 1)) :
    (postgres.view d (intakeWrites c.tenantId x.row c.idempotencyKey reservedAt at'
      snapshotId)).has k = d.has k := by
  have hnot : k ≠ .applicationVersion (inIntake x.row at').applicationId
      (inIntake x.row at').version := by
    rw [show (inIntake x.row at').applicationId = c.applicationId from h.applicationId]
    exact hversion
  rw [intakeWrites, postgres.view_append, has_view_eq (not_taken_by_save (hid _) hnot),
    Begins.has_reserved (hkey _ _ _)]

/-- The version of the second hop is not there yet. -/
theorem Begins.intake_free {x : CaseFile} {c : ApplicationCommand}
    (h : Begins G d s c.applicationId x c.tenantId advanceIntakeValidationOperation
      c.idempotencyKey) (reservedAt at' : DateTime) (snapshotId : String) :
    (postgres.view d (intakeWrites c.tenantId x.row c.idempotencyKey reservedAt at'
      snapshotId)).has (.applicationVersion (inIntake x.row at').applicationId
        ((inIntake x.row at').version + 1)) = false := by
  rw [show (inIntake x.row at').applicationId = c.applicationId from h.applicationId,
    h.intake_has _ _ _ (by simp) (by simp) (by simp [inIntake, Application.moved, rowToApplication])]
  refine h.inOrder.no_version h.caseFile ?_
  exact Nat.lt_succ_of_lt (Nat.lt_succ_self _)

/-- **Out of the intake into review**: the case enters review exactly if it has no entry. -/
theorem Begins.flagged_iff {x : CaseFile} {c : ApplicationCommand}
    (h : Begins G d s c.applicationId x c.tenantId advanceIntakeValidationOperation
      c.idempotencyKey) (hs : x.row.status = submitted) {productRow : ProductRow}
    {product : Product} (hr : d.productOf? c.tenantId x.row.productId = some productRow)
    (hp : rowToProduct productRow = .ok product)
    (hno : product.accepts x.row.requestedAmount x.row.requestedTermMonths = false) :
    EntersReview c.applicationId ((advanceIntakeValidation c).alone postgres E s d []) ↔
      x.review = none := by
  obtain ⟨s₂, at', snapshotId, hrun, hfit⟩ := h.alone_intake hs hr hp hno
  have hflagged : finishIntake c.tenantId (saveColumns x.row (inIntake x.row at'))
      (inIntake x.row at') false = enterHumanReview c.tenantId
      (saveColumns x.row (inIntake x.row at')) (inIntake x.row at')
      (intakeFlaggedReason (inIntake x.row at')) := rfl
  rw [hrun, hflagged]
  have hid := h.applicationId
  have henter : Enterable c.tenantId (postgres.view d (intakeWrites c.tenantId x.row
      c.idempotencyKey (timeOf E s) at' snapshotId)) (saveColumns x.row (inIntake x.row at'))
      (inIntake x.row at') :=
    ⟨h.intake_row _ _ _, h.tenant, h.tenant, rfl, rfl, rfl, rfl, h.intake_free _ _ _⟩
  have hqueue : (postgres.view d (intakeWrites c.tenantId x.row c.idempotencyKey (timeOf E s) at'
      snapshotId)).has (.reviewQueueEntry (inIntake x.row at').applicationId) =
      d.has (.reviewQueueEntry c.applicationId) := by
    rw [show (inIntake x.row at').applicationId = c.applicationId from hid]
    exact h.intake_has _ _ _ (by simp) (by simp) (by simp)
  constructor
  · intro hentered
    by_contra hne
    have htaken : d.has (.reviewQueueEntry c.applicationId) = true := by
      rw [← Bool.not_eq_false]
      exact fun hnot => hne (h.has_entry.1 hnot)
    obtain ⟨ws', s', hend⟩ := alone_enterAndCommit_refused h.inOrder.wellFormed (n := 2)
      (intakeFlaggedReason (inIntake x.row at')) hfit henter (hqueue.trans htaken) fun application =>
        (⟨application.applicationId, application.status, application.version, false⟩ :
          AdvanceIntakeValidationResult)
    rw [hend] at hentered
    obtain ⟨r, hres⟩ := hentered.returned
    cases hres
  · intro hnone
    have hentered := alone_enterAndCommit (x := x) h.inOrder
      (intakeFlaggedReason (inIntake x.row at')) hfit henter
      (by
        intro event hevent
        obtain rfl := List.mem_singleton.1 hevent
        exact h.tenant)
      h.checkpoint (hqueue.trans (h.has_entry.2 hnone))
      (fun snapshotId₂ enteredQueueAt recording hrec => ⟨_, by
        have hmoves : MovesCase d (reserveWrite c.tenantId advanceIntakeValidationOperation
            c.idempotencyKey (timeOf E s) ::
            (saveWrites c.tenantId x.row (inIntake x.row at') snapshotId ++
              saveWrites c.tenantId (saveColumns x.row (inIntake x.row at'))
                ((inIntake x.row at').moved awaitingHumanReview
                  (intakeFlaggedReason (inIntake x.row at')) (timeOf E s₂)) snapshotId₂ ++
              [pendingWrite c.tenantId c.applicationId enteredQueueAt] ++
              recordingWrites c.tenantId recording)) c.applicationId x _ :=
          movesCase_saveTwiceEnter h.tenant h.inOrder h.caseFile rfl rfl
            (.flagIntake (timeOf E s₂) enteredQueueAt (legal_intakeValidation_iff.2 hs) hnone)
            hnone hrec
        rw [← hid] at hmoves
        exact hmoves, rfl, _, rfl, rfl⟩)
      fun application =>
        (⟨application.applicationId, application.status, application.version, false⟩ :
          AdvanceIntakeValidationResult)
    exact hid ▸ hentered

end Enter

/-- The case of a row, in a committed state. -/
theorem caseFile_of_row (I : Installation) {w : World anyHost}
    (h : Reachable postgres (I.start anyHost ()) w) {a : ApplicationId} {row : ApplicationRow}
    (hrow : w.db.application? a = some row) :
    ∃ x, w.db.caseFile? a = some x ∧ x.row = row ∧ w.db.has (.auditHash row.tenantId) = true ∧
      (x.review = none ↔ awaitingHumanReview ∉ w.db.statusesOf a) := by
  obtain ⟨x, hx, rfl⟩ := caseFile?_of_row hrow
  obtain ⟨events, htells⟩ := (I.sound h).inv.tells hx
  refine ⟨x, hx, rfl, I.checkpointed h hx, ?_⟩
  have hstatuses : w.db.statusesOf a = x.history := htells.statuses
  rw [hstatuses]
  exact htells.reached.consistent.reviewed

theorem visible_of_isDocumentOf {t : TenantId} {a : ApplicationId} (r : Row) (document : DocumentRow)
    (hr : r.document? = some document) (hp : isDocumentOf t a document = true) :
    r.visibleTo t = true := by
  cases r <;> simp only [Row.document?, Option.some.injEq, reduceCtorEq] at hr
  subst hr
  simp only [isDocumentOf, Bool.and_eq_true, decide_eq_true_eq] at hp
  simp [Row.visibleTo, Row.tenantId?, hp.1]

/-- **A case enters review exactly if it has not been there before**: a command on a way into
review, run from any committed state with a key that is not taken and new ids, returns and leaves
the case in review with a pending entry if and only if no version of it was ever in review. -/
theorem enters_review_iff (I : Installation) {w : World anyHost}
    (h : Reachable postgres (I.start anyHost ()) w) {σ : Type} {E : Environment Answer σ}
    (G : IdSource E) {s : σ} (hinUse : InUse (G.used s) w.db) (hleft : 4 ≤ G.left s)
    {c : Command} {a : ApplicationId} {row : ApplicationRow}
    (hrow : w.db.application? a = some row) (ha : c.applicationId? = some a)
    (ht : row.tenantId = c.tenantId) (hkey : w.db.has c.key = false)
    (hinto : IntoReview w.db row c) :
    EntersReview a (c.handle.alone postgres E s w.db []) ↔
      awaitingHumanReview ∉ w.db.statusesOf a := by
  obtain ⟨x, hx, rfl, hcheckpoint, hreview⟩ := caseFile_of_row I h hrow
  rw [← hreview]
  have hbegins : Begins G w.db s a x c.tenantId c.operationName c.idempotencyKey :=
    ⟨(I.sound h).inv, hx, ht, hkey, ht ▸ hcheckpoint, hinUse, hleft⟩
  cases hinto with
  | outOfBounds c hs productRow product hr hp hno =>
      cases ha
      exact Begins.flagged_iff (c := c) hbegins hs hr hp hno
  | noDocuments c hs hno =>
      cases ha
      have hlegal : isLegalTransition x.row.status awaitingHumanReview = true := by
        rw [hs]
        decide
      have hcount : (countDocuments c.tenantId c.applicationId).alone postgres E (E s .now).2 w.db
          [reserveWrite c.tenantId advanceDocumentProcessingOperation c.idempotencyKey
            (timeOf E s)] =
          ⟨w.db, [reserveWrite c.tenantId advanceDocumentProcessingOperation c.idempotencyKey
            (timeOf E s)], (E s .now).2, .ok 0⟩ := by
        rw [countDocuments, alone_select, Database.documents, filterMap_reserved _ fun _ => rfl,
          filter_visible Row.document? (isDocumentOf c.tenantId c.applicationId)]
        · rw [show w.db.rows.filterMap Row.document? = w.db.documents from rfl, hno]
          rfl
        · exact visible_of_isDocumentOf
      have hiff := hbegins.enters_iff hlegal "no documents uploaded -- requires human review"
        fun application =>
          (⟨application.applicationId, application.status, application.version, 0⟩ :
            AdvanceDocumentProcessingResult)
      have hrun : (advanceDocumentProcessing c).alone postgres E s w.db [] = _ :=
        (alone_begin hbegins.inOrder hbegins.caseFile hbegins.tenant hbegins.free _).trans
          (Prog.alone_bind_ok hcount)
      exact (iff_of_eq (congrArg (EntersReview c.applicationId) hrun)).trans hiff
  | verified c hs =>
      cases ha
      have hlegal : isLegalTransition x.row.status awaitingHumanReview = true :=
        legal_awaitingHumanReview_iff.2 (Or.inl hs)
      have hiff := hbegins.enters_iff hlegal c.reason statusResult
      have hrun : (enterHumanReviewCommand c).alone postgres E s w.db [] = _ :=
        alone_begin hbegins.inOrder hbegins.caseFile hbegins.tenant hbegins.free _
      exact (iff_of_eq (congrArg (EntersReview c.applicationId) hrun)).trans hiff

/-! ### A case that comes to review twice -/

namespace Sample

/-- It comes to the check for documents, and there are none. -/
def withoutDocuments : List Kind :=
  [.command (.createApplication create), .command (.submitApplication (command "submit-1")),
    .command (.advanceIntakeValidation (command "intake-1"))]

/-- It comes to review, and more information is asked for and given. -/
def reviewedOnce : List Kind :=
  withoutDocuments ++
    [.command (.advanceDocumentProcessing (command "documents-1")),
      .command (.applyReviewDecision
        ⟨tenantId, firstId, "decision-1", needsMoreInformation, "", none⟩),
      .command (.resubmitApplication (command "resubmit-1"))]

def secondCheck : Command := .advanceDocumentProcessing (command "documents-2")

end Sample

/-- Before its first review. -/
theorem enters_review_withoutDocuments :
    ∃ w, Reachable postgres (Sample.installation.start anyHost ()) w ∧
      EntersReview Sample.firstId (Sample.secondCheck.handle.alone postgres Sample.counter
        (Sample.after Sample.withoutDocuments).2 w.db []) := by
  obtain ⟨w, hw, hdb⟩ := Sample.reachable_after Sample.withoutDocuments
  refine ⟨w, hw, ?_⟩
  obtain ⟨row, hrow, ht, hs⟩ : ∃ row, w.db.application? Sample.firstId = some row ∧
      row.tenantId = Sample.tenantId ∧ row.status = documentProcessing := by
    rw [hdb]
    exact Sample.found (by decide +kernel)
  refine (enters_review_iff (c := Sample.secondCheck) Sample.installation hw Sample.source ?_ ?_
    hrow rfl ht ?_ (.noDocuments _ hs ?_)).2 ?_
  · rw [hdb]
    exact Sample.inUse_of_rows (by decide +kernel)
  · decide +kernel
  · rw [hdb]
    decide +kernel
  · rw [hdb]
    decide +kernel
  · rw [hdb]
    decide +kernel

/-- **A case does not get into its second review**: it waits for its documents again, has none, and
the step into review ends in a violated constraint. -/
theorem second_review_refused :
    ∃ w, Reachable postgres (Sample.installation.start anyHost ()) w ∧
      (∃ row, w.db.application? Sample.firstId = some row ∧ row.status = documentProcessing ∧
        IntoReview w.db row Sample.secondCheck) ∧
      w.db.has Sample.secondCheck.key = false ∧
      InUse (Sample.source.used (Sample.after Sample.reviewedOnce).2) w.db ∧
      (Sample.secondCheck.handle.alone postgres Sample.counter
        (Sample.after Sample.reviewedOnce).2 w.db []).result =
          .error (.database .integrityError) := by
  obtain ⟨w, hw, hdb⟩ := Sample.reachable_after Sample.reviewedOnce
  refine ⟨w, hw, ?_⟩
  rw [hdb]
  obtain ⟨row, hrow, -, hs⟩ : ∃ row,
      (Sample.after Sample.reviewedOnce).1.application? Sample.firstId = some row ∧
        row.tenantId = Sample.tenantId ∧ row.status = documentProcessing :=
    Sample.found (by decide +kernel)
  refine ⟨⟨row, hrow, hs, .noDocuments _ hs (by decide +kernel)⟩, by decide +kernel,
    Sample.inUse_of_rows (by decide +kernel), ?_⟩
  exact Sample.eq_error_of_fault (by decide +kernel)

end FinAssist
