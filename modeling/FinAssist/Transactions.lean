/-
**What a handler's transaction writes, and what it does to the cases.**

The statements a handler has sent when it commits are of a few shapes: a reservation, one or two
saves of an application, an entry of the review queue, rows that belong to no case, and at the end
what records the events.  This module says what each shape does to the slice of an application,
and puts them together: a transaction that saved what `Application.transitionTo` made of the
current row has moved its case by one step, recorded the step, and left every other case alone.

Main definitions:

* `FinAssist.saveWrites`, `FinAssist.recordingWrites` — what a save and the recording write;
* `FinAssist.Recorded` — the recordings that `recordDomainEvents` makes;
* `FinAssist.MovesCase`, `FinAssist.CreatesCase`, `FinAssist.LeavesCases` — **what a transaction
  does to the cases**.

Main results:

* `FinAssist.movesCase` — a transaction that saves a step and records it moves the case;
* `FinAssist.MovesCase.inOrder`, `FinAssist.MovesCase.onward` and their siblings — the rows stay in
  order, and cases go on.
-/

import FinAssist.Casework

set_option relaxedAutoImplicit false
set_option autoImplicit false

namespace FinAssist

open ReadCommitted ApplicationStatus

/-! ### The shapes -/

/-- What `reserveIdempotencyKey` writes. -/
def reserveWrite (t : TenantId) (operationName key : String) (reservedAt : DateTime) : Write :=
  ⟨t, .insert (.idempotencyKey ⟨t, operationName, key, reservedAt⟩)⟩

/-- What `saveApplication` writes. -/
def saveWrites (t : TenantId) (row : ApplicationRow) (application : Application)
    (snapshotId : String) : List Write :=
  [⟨t, .updateApplication row (saveColumns row application)⟩,
   ⟨t, .insert (.applicationVersion (versionSnapshotRow application snapshotId))⟩]

/-- What `flushRecording` writes. -/
def recordingWrites (t : TenantId) (recording : Recording) : List Write :=
  recording.audits.map (fun r => ⟨t, .insert (.auditEvent r)⟩) ++
  (recording.checkpoint.map fun c => ⟨t, .updateAuditHash c.1 c.2⟩).toList ++
  recording.newHashes.map (fun r => ⟨t, .insert (.auditHash r)⟩) ++
  recording.outbox.map (fun r => ⟨t, .insert (.outboxEvent r)⟩)

/-- **The recordings of `recordDomainEvents`**: the checkpoint is the one of the session, or one
that was read, or there was none. -/
inductive Recorded : List DomainEvent → Recording → Prop
  | empty : Recorded [] Recording.empty
  | again {events : List DomainEvent} {recording : Recording} (h : Recorded events recording)
      (event : DomainEvent) (eventId : String) (at' : DateTime) (c : AuditHashRow × AuditHashRow)
      (hc : recording.checkpoint = some c) :
      Recorded (events ++ [event]) (recording.add event eventId at' (some c))
  | load {events : List DomainEvent} {recording : Recording} (h : Recorded events recording)
      (event : DomainEvent) (eventId : String) (at' : DateTime) (row : AuditHashRow)
      (hc : recording.checkpoint = none) (hrow : row.tenantId = event.tenantId) :
      Recorded (events ++ [event]) (recording.add event eventId at' (some (row, row)))
  | first {events : List DomainEvent} {recording : Recording} (h : Recorded events recording)
      (event : DomainEvent) (eventId : String) (at' : DateTime)
      (hc : recording.checkpoint = none) :
      Recorded (events ++ [event]) (recording.add event eventId at' none)

theorem Recorded.outbox {events : List DomainEvent} {recording : Recording}
    (h : Recorded events recording) :
    recording.outbox.map OutboxEventRow.record = events.map DomainEvent.record := by
  induction h with
  | empty => rfl
  | again h event eventId at' c hc ih => simp [Recording.add, ih]
  | load h event eventId at' row hc hrow ih => simp [Recording.add, ih]
  | first h event eventId at' hc ih => simp [Recording.add, ih]

theorem Recorded.audits {events : List DomainEvent} {recording : Recording}
    (h : Recorded events recording) :
    recording.audits.map AuditEventRow.record = events.map DomainEvent.record := by
  induction h with
  | empty => rfl
  | again h event eventId at' c hc ih => simp [Recording.add, ih]
  | load h event eventId at' row hc hrow ih => simp [Recording.add, ih]
  | first h event eventId at' hc ih => simp [Recording.add, ih]

/-! ### What they do to a slice -/

/-- A statement that acts on no case. -/
def Write.Aside (w : Write) : Prop := ∀ a s, Slice.step a s w = s

/-- A statement that acts on no case but that of `a`. -/
def Write.About (a : ApplicationId) (w : Write) : Prop := ∀ b, b ≠ a → ∀ s, Slice.step b s w = s

theorem Write.Aside.about {w : Write} (h : w.Aside) (a : ApplicationId) : w.About a :=
  fun b _ s => h b s

theorem foldl_aside {ws : List Write} (h : ∀ w ∈ ws, w.Aside) (a : ApplicationId) (s : Slice) :
    ws.foldl (Slice.step a) s = s := by
  induction ws generalizing s with
  | nil => rfl
  | cons w ws ih =>
      rw [List.foldl_cons, h w List.mem_cons_self a s]
      exact ih (fun v hv => h v (List.mem_cons_of_mem _ hv)) s

theorem foldl_about {ws : List Write} {a : ApplicationId} (h : ∀ w ∈ ws, w.About a)
    {b : ApplicationId} (hb : b ≠ a) (s : Slice) : ws.foldl (Slice.step b) s = s := by
  induction ws generalizing s with
  | nil => rfl
  | cons w ws ih =>
      rw [List.foldl_cons, h w List.mem_cons_self b hb s]
      exact ih (fun v hv => h v (List.mem_cons_of_mem _ hv)) s

/-- A row that is no part of a case: neither an application nor a snapshot of one, nor an entry of
the queue, nor an event. -/
def Row.isAside : Row → Bool
  | .application _ => false
  | .applicationVersion _ => false
  | .reviewQueueEntry _ => false
  | .outboxEvent _ => false
  | .auditEvent _ => false
  | _ => true

theorem Row.isAside.aside {row : Row} (h : row.isAside = true) (t : TenantId) :
    Write.Aside ⟨t, .insert row⟩ := by
  intro a s
  cases row <;> simp_all [Row.isAside, Slice.step, Slice.insert, Row.application?,
    Row.applicationVersion?, Row.reviewQueueEntry?, Row.outboxEvent?, Row.auditEvent?]

theorem reserveWrite_aside (t : TenantId) (operationName key : String) (reservedAt : DateTime) :
    (reserveWrite t operationName key reservedAt).Aside :=
  Row.isAside.aside rfl t

theorem isVersionEvent_eq {a b : ApplicationId} {eventType : String}
    (h : isVersionEvent b eventType a.value = true) : b = a := by
  simp only [isVersionEvent, Bool.and_eq_true, decide_eq_true_eq] at h
  exact (ApplicationId.ext_value h.1).symm

@[simp] theorem setColumn_loaded {α : Type} [DecidableEq α] (loaded changed : α) :
    setColumn loaded changed loaded = changed := by
  unfold setColumn
  split
  next h => exact h.symm
  next => rfl

/-- An update of the row that was loaded makes it what it was changed to. -/
theorem update_saveColumns (row : ApplicationRow) (application : Application) :
    row.update row (saveColumns row application) = saveColumns row application := by
  simp [ApplicationRow.update, saveColumns]

theorem update_decidedColumns (entry : ReviewQueueEntryRow) (decision reason : String)
    (reviewerId : Option String) (decidedAt : DateTime) :
    entry.update entry (decidedColumns entry decision reason reviewerId decidedAt) =
      decidedColumns entry decision reason reviewerId decidedAt := by
  simp [ReviewQueueEntryRow.update, decidedColumns]

/-- **A save of the current row** makes it the new one, and adds the snapshot. -/
theorem foldl_saveWrites {t : TenantId} {row : ApplicationRow} {application : Application}
    {snapshotId : String} {a : ApplicationId} {s : Slice} (hs : s.row = some row)
    (hrow : row.applicationId = a) (ht : row.tenantId = t) (happ : application.applicationId = a) :
    (saveWrites t row application snapshotId).foldl (Slice.step a) s =
      { s with
        row := some (saveColumns row application)
        versions := s.versions ++ [versionSnapshotRow application snapshotId] } := by
  simp [saveWrites, Slice.step, Slice.insert, hs, hrow, ht, update_saveColumns,
    Row.application?, Row.applicationVersion?, Row.reviewQueueEntry?, Row.outboxEvent?,
    Row.auditEvent?, versionSnapshotRow, happ, Option.filter]

theorem saveWrites_about {t : TenantId} {row : ApplicationRow} {application : Application}
    {snapshotId : String} {a : ApplicationId} (hrow : row.applicationId = a)
    (happ : application.applicationId = a) :
    ∀ w ∈ saveWrites t row application snapshotId, w.About a := by
  intro w hw b hb s
  have hne : ¬ a = b := fun h => hb h.symm
  simp only [saveWrites, List.mem_cons, List.not_mem_nil, or_false] at hw
  rcases hw with rfl | rfl
  · simp [Slice.step, hrow, hne]
  · simp [Slice.step, Slice.insert, Row.application?, Row.applicationVersion?,
      Row.reviewQueueEntry?, Row.outboxEvent?, Row.auditEvent?, versionSnapshotRow, happ, hne,
      Option.filter]

/-- What records the events adds those of the application to its slice. -/
theorem foldl_recordingWrites (t : TenantId) (recording : Recording) (a : ApplicationId)
    (s : Slice) :
    (recordingWrites t recording).foldl (Slice.step a) s =
      { s with
        outbox := s.outbox ++
          recording.outbox.filter fun r => isVersionEvent a r.eventType r.aggregateId
        audits := s.audits ++
          recording.audits.filter fun r => isVersionEvent a r.eventType r.aggregateId } := by
  have haudits : ∀ (rows : List AuditEventRow) (s : Slice),
      (rows.map fun r => (⟨t, .insert (.auditEvent r)⟩ : Write)).foldl (Slice.step a) s =
        { s with audits := s.audits ++
          rows.filter fun r => isVersionEvent a r.eventType r.aggregateId } := by
    intro rows
    induction rows with
    | nil => intro s; simp
    | cons r rows ih =>
        intro s
        rw [List.map_cons, List.foldl_cons, ih]
        by_cases h : isVersionEvent a r.eventType r.aggregateId = true <;>
          simp [Slice.step, Slice.insert, Row.application?, Row.applicationVersion?,
            Row.reviewQueueEntry?, Row.outboxEvent?, Row.auditEvent?, Option.filter, h]
  have houtbox : ∀ (rows : List OutboxEventRow) (s : Slice),
      (rows.map fun r => (⟨t, .insert (.outboxEvent r)⟩ : Write)).foldl (Slice.step a) s =
        { s with outbox := s.outbox ++
          rows.filter fun r => isVersionEvent a r.eventType r.aggregateId } := by
    intro rows
    induction rows with
    | nil => intro s; simp
    | cons r rows ih =>
        intro s
        rw [List.map_cons, List.foldl_cons, ih]
        by_cases h : isVersionEvent a r.eventType r.aggregateId = true <;>
          simp [Slice.step, Slice.insert, Row.application?, Row.applicationVersion?,
            Row.reviewQueueEntry?, Row.outboxEvent?, Row.auditEvent?, Option.filter, h]
  have hcheckpoint : ∀ w ∈ (recording.checkpoint.map fun c =>
      (⟨t, .updateAuditHash c.1 c.2⟩ : Write)).toList, w.Aside := by
    intro w hw a s
    simp only [Option.mem_toList, Option.map_eq_some_iff] at hw
    obtain ⟨c, -, rfl⟩ := hw
    rfl
  have hhashes : ∀ w ∈ recording.newHashes.map fun r =>
      (⟨t, .insert (.auditHash r)⟩ : Write), w.Aside := by
    intro w hw
    obtain ⟨r, -, rfl⟩ := List.mem_map.1 hw
    exact Row.isAside.aside rfl t
  rw [recordingWrites, List.foldl_append, List.foldl_append, List.foldl_append, haudits,
    foldl_aside hcheckpoint, foldl_aside hhashes, houtbox]

/-! ### What a transaction does to the cases -/

/-- The transaction moves the case `c` of `a` to `c'`, and records the step. -/
structure MovesCase (d : Database) (ws : List Write) (a : ApplicationId) (c c' : CaseFile) :
    Prop where
  step : c.Step c'
  tells : ∃ events more, (d.slice a).Tells a c events ∧
    ((postgres.view d ws).slice a).Tells a c' (events ++ more)
  others : ∀ b, b ≠ a → (postgres.view d ws).slice b = d.slice b

/-- The transaction creates the case `c` of `a`, and records it. -/
structure CreatesCase (d : Database) (ws : List Write) (a : ApplicationId) (c : CaseFile) :
    Prop where
  before : d.slice a = Slice.empty
  draft : c.history = [draft]
  tells : ∃ events, ((postgres.view d ws).slice a).Tells a c events
  others : ∀ b, b ≠ a → (postgres.view d ws).slice b = d.slice b

/-- The transaction acts on no case. -/
def LeavesCases (d : Database) (ws : List Write) : Prop :=
  ∀ a, (postgres.view d ws).slice a = d.slice a

theorem InOrder.view {d : Database} {ws : List Write} (h : InOrder d)
    (hg : postgres.Granted d ws)
    (hs : ∀ a, (postgres.view d ws).slice a = d.slice a ∨
      ∃ c events, ((postgres.view d ws).slice a).Tells a c events) :
    InOrder (postgres.view d ws) := by
  refine ⟨h.wellFormed.view hg, fun a => ?_⟩
  rcases hs a with heq | htells
  · rw [heq]
    exact h.slices a
  · exact Or.inr htells

theorem Onward.view {d : Database} {ws : List Write}
    (hs : ∀ a c, d.caseFile? a = some c → (postgres.view d ws).slice a = d.slice a ∨
      ∃ c', (postgres.view d ws).caseFile? a = some c' ∧ c.Steps c') :
    Onward d (postgres.view d ws) := by
  refine ⟨fun k hk => has_view_of_has hk, ?_⟩
  intro a c hc
  rcases hs a c hc with heq | hstep
  · exact ⟨c, by rw [Database.caseFile?, heq]; exact hc, .refl⟩
  · exact hstep

namespace MovesCase

variable {d : Database} {ws : List Write} {a : ApplicationId} {c c' : CaseFile}

theorem before (h : MovesCase d ws a c c') : d.caseFile? a = some c := by
  obtain ⟨events, more, htells, -⟩ := h.tells
  exact htells.caseFile?

theorem after (h : MovesCase d ws a c c') : (postgres.view d ws).caseFile? a = some c' := by
  obtain ⟨events, more, -, htells⟩ := h.tells
  exact htells.caseFile?

theorem inOrder (h : MovesCase d ws a c c') (hd : InOrder d) (hg : postgres.Granted d ws) :
    InOrder (postgres.view d ws) := by
  refine hd.view hg fun b => ?_
  by_cases hb : b = a
  · obtain ⟨events, more, -, htells⟩ := h.tells
    exact hb ▸ Or.inr ⟨c', _, htells⟩
  · exact Or.inl (h.others b hb)

theorem onward (h : MovesCase d ws a c c') : Onward d (postgres.view d ws) := by
  refine Onward.view fun b x hx => ?_
  by_cases hb : b = a
  · subst hb
    rw [h.before] at hx
    cases hx
    exact Or.inr ⟨c', h.after, .single h.step⟩
  · exact Or.inl (h.others b hb)

end MovesCase

namespace CreatesCase

variable {d : Database} {ws : List Write} {a : ApplicationId} {c : CaseFile}

theorem after (h : CreatesCase d ws a c) : (postgres.view d ws).caseFile? a = some c := by
  obtain ⟨events, htells⟩ := h.tells
  exact htells.caseFile?

theorem inOrder (h : CreatesCase d ws a c) (hd : InOrder d) (hg : postgres.Granted d ws) :
    InOrder (postgres.view d ws) := by
  refine hd.view hg fun b => ?_
  by_cases hb : b = a
  · obtain ⟨events, htells⟩ := h.tells
    exact hb ▸ Or.inr ⟨c, _, htells⟩
  · exact Or.inl (h.others b hb)

theorem onward (h : CreatesCase d ws a c) : Onward d (postgres.view d ws) := by
  refine Onward.view fun b x hx => ?_
  by_cases hb : b = a
  · subst hb
    rw [Database.caseFile?, h.before] at hx
    cases hx
  · exact Or.inl (h.others b hb)

end CreatesCase

theorem LeavesCases.inOrder {d : Database} {ws : List Write} (h : LeavesCases d ws)
    (hd : InOrder d) (hg : postgres.Granted d ws) : InOrder (postgres.view d ws) :=
  hd.view hg fun a => Or.inl (h a)

theorem LeavesCases.onward {d : Database} {ws : List Write} (h : LeavesCases d ws) :
    Onward d (postgres.view d ws) :=
  Onward.view fun a _ _ => Or.inl (h a)

/-! ### Transactions that record what they did -/

/-- Whether an event tells of a version of `a`. -/
def DomainEvent.isVersionOf (a : ApplicationId) (e : DomainEvent) : Bool :=
  isVersionEvent a e.eventType e.applicationId.value

/-- What holds of the records of all events holds of the rows that record them. -/
theorem forall_of_records {α : Type} {rows : List α} {f : α → EventRecord}
    {events : List DomainEvent} (h : rows.map f = events.map DomainEvent.record)
    {a : ApplicationId} {b : Bool} (he : ∀ e ∈ events, e.isVersionOf a = b) :
    ∀ r ∈ rows, isVersionEvent a (f r).eventType (f r).aggregateId = b := by
  intro r hr
  have hmem : f r ∈ events.map DomainEvent.record := h ▸ List.mem_map_of_mem hr
  obtain ⟨e, hmem, heq⟩ := List.mem_map.1 hmem
  rw [← heq]
  exact he e hmem

/-- The slice of an application after a transaction that reserved a key and at the end recorded
events of this application. -/
theorem slice_transaction {d : Database} {t : TenantId} {operationName key : String}
    {reservedAt : DateTime} {body : List Write} {events : List DomainEvent}
    {recording : Recording} {a : ApplicationId} (hrec : Recorded events recording)
    (hevents : ∀ e ∈ events, e.isVersionOf a = true) :
    (postgres.view d (reserveWrite t operationName key reservedAt ::
        (body ++ recordingWrites t recording))).slice a =
      { body.foldl (Slice.step a) (d.slice a) with
        outbox := (body.foldl (Slice.step a) (d.slice a)).outbox ++ recording.outbox
        audits := (body.foldl (Slice.step a) (d.slice a)).audits ++ recording.audits } := by
  have houtbox := List.filter_eq_self.2 (forall_of_records hrec.outbox hevents)
  have haudits := List.filter_eq_self.2 (forall_of_records hrec.audits hevents)
  simp only [OutboxEventRow.record, AuditEventRow.record] at houtbox haudits
  rw [slice_view, List.foldl_cons, reserveWrite_aside, List.foldl_append, foldl_recordingWrites,
    houtbox, haudits]

/-- And the slice of any other application. -/
theorem slice_transaction_of_ne {d : Database} {t : TenantId} {operationName key : String}
    {reservedAt : DateTime} {body : List Write} {events : List DomainEvent}
    {recording : Recording} {b : ApplicationId} (hrec : Recorded events recording)
    (hevents : ∀ e ∈ events, e.isVersionOf b = false)
    (hbody : body.foldl (Slice.step b) (d.slice b) = d.slice b) :
    (postgres.view d (reserveWrite t operationName key reservedAt ::
        (body ++ recordingWrites t recording))).slice b = d.slice b := by
  have hno : ∀ {x : Bool}, x = false → ¬ x = true := by simp
  have houtbox := List.filter_eq_nil_iff.2 fun r hr =>
    hno (forall_of_records hrec.outbox hevents r hr)
  have haudits := List.filter_eq_nil_iff.2 fun r hr =>
    hno (forall_of_records hrec.audits hevents r hr)
  simp only [OutboxEventRow.record, AuditEventRow.record] at houtbox haudits
  rw [slice_view, List.foldl_cons, reserveWrite_aside, List.foldl_append, hbody,
    foldl_recordingWrites, houtbox, haudits]
  simp

/-- An event of `a` tells of no version of another application. -/
theorem DomainEvent.isVersionOf_of_ne {a b : ApplicationId} {e : DomainEvent}
    (ha : e.applicationId = a) (hb : b ≠ a) : e.isVersionOf b = false := by
  rw [← Bool.not_eq_true]
  intro h
  rw [DomainEvent.isVersionOf, ha] at h
  exact hb (isVersionEvent_eq h)

/-- **A transaction that saves a step of the current case and records it moves the case.** -/
theorem movesCase {d : Database} (hd : InOrder d) {t : TenantId} {operationName key : String}
    {reservedAt : DateTime} {body : List Write} {more : List DomainEvent} {recording : Recording}
    {a : ApplicationId} {c c' : CaseFile} (versions : List ApplicationVersionRow)
    (hc : d.caseFile? a = some c) (hs : c.Step c') (hrec : Recorded more recording)
    (hmore : ∀ e ∈ more, e.isVersionOf a = true ∧ e.applicationId = a)
    (habout : ∀ w ∈ body, w.About a)
    (hbody : ∀ s : Slice, s.row = some c.row → s.review = c.review →
      body.foldl (Slice.step a) s =
        { s with row := some c'.row, versions := s.versions ++ versions, review := c'.review })
    (hnumbers : versions.map ApplicationVersionRow.version =
      List.range' (c.history.length + 1) versions.length)
    (hhistory : c'.history = c.history ++ versions.map ApplicationVersionRow.status)
    (hnarrates : ∀ events, Narrates a c.row.tenantId c.history events →
      Narrates a c.row.tenantId c'.history (events ++ more)) :
    MovesCase d (reserveWrite t operationName key reservedAt ::
      (body ++ recordingWrites t recording)) a c c' := by
  obtain ⟨events, htells⟩ := hd.tells hc
  refine ⟨hs, ⟨events, more, htells, ?_⟩, ?_⟩
  · rw [slice_transaction hrec fun e he => (hmore e he).1, hbody _ htells.row htells.review]
    refine htells.step hs rfl rfl rfl hnumbers hhistory (hnarrates events htells.narrates) ?_ ?_
    · simp [hrec.outbox]
    · simp [hrec.audits]
  · intro b hb
    exact slice_transaction_of_ne hrec
      (fun e he => DomainEvent.isVersionOf_of_ne (hmore e he).2 hb) (foldl_about habout hb _)

/-! ### The steps of a case, as transactions -/

/-- What a legal transition makes of an application. -/
def Application.moved (application : Application) (newStatus : ApplicationStatus)
    (reason : String) (at' : DateTime) : Application :=
  { application with
    status := newStatus
    version := application.version + 1
    updatedAt := at'
    pendingEvents := application.pendingEvents ++
      [.applicationStateChanged application.applicationId application.tenantId at'
        application.status newStatus reason (application.version + 1)] }

/-- A change of status tells the next version. -/
theorem narrates_changed {a : ApplicationId} {c : CaseFile} (hc : c.Consistent)
    (s : ApplicationStatus) (at' : DateTime) (reason : String) (events : List DomainEvent)
    (h : Narrates a c.row.tenantId c.history events) :
    Narrates a c.row.tenantId (c.history ++ [s])
      (events ++ [.applicationStateChanged a c.row.tenantId at' c.row.status s reason
        (c.row.version + 1)]) := by
  rw [hc.version]
  exact h.changed hc.last s at' reason

/-- The application on the row, after a legal transition, with a workflow or none. -/
def ApplicationRow.moved (row : ApplicationRow) (newStatus : ApplicationStatus) (reason : String)
    (at' : DateTime) (workflowId : Option String) : Application :=
  { (rowToApplication row).moved newStatus reason at' with activeWorkflowId := workflowId }

/-- The entry with which an application enters the queue. -/
def pendingWrite (t : TenantId) (a : ApplicationId) (enteredQueueAt : DateTime) : Write :=
  ⟨t, .insert (.reviewQueueEntry ⟨a, t, enteredQueueAt, "pending", none, none, none, none⟩)⟩

theorem pendingWrite_about (t : TenantId) (a : ApplicationId) (enteredQueueAt : DateTime) :
    (pendingWrite t a enteredQueueAt).About a := by
  intro b hb s
  have hne : ¬ a = b := fun h => hb h.symm
  simp [pendingWrite, Slice.step, Slice.insert, Row.application?, Row.applicationVersion?,
    Row.reviewQueueEntry?, Row.outboxEvent?, Row.auditEvent?, Option.filter, hne]

theorem step_pendingWrite (t : TenantId) (a : ApplicationId) (enteredQueueAt : DateTime)
    (s : Slice) :
    Slice.step a s (pendingWrite t a enteredQueueAt) =
      { s with review :=
          s.review.or (some ⟨a, t, enteredQueueAt, "pending", none, none, none, none⟩) } := by
  simp [pendingWrite, Slice.step, Slice.insert, Row.application?, Row.applicationVersion?,
    Row.reviewQueueEntry?, Row.outboxEvent?, Row.auditEvent?, Option.filter]

/-- The decision, written on an entry of the queue. -/
def decidedWrite (t : TenantId) (entry : ReviewQueueEntryRow) (decision reason : String)
    (reviewerId : Option String) (decidedAt : DateTime) : Write :=
  ⟨t, .updateReviewQueueEntry entry (decidedColumns entry decision reason reviewerId decidedAt)⟩

section Steps

variable {d : Database} {operationName key reason snapshotId : String}
  {reservedAt at' : DateTime} {recording : Recording} {a : ApplicationId} {c : CaseFile}
  {workflowId : Option String} {review : Option ReviewQueueEntryRow} {body : List Write}
  {t : TenantId}

/-- **One status on.** -/
theorem movesCase_hop (snapshotId : String) (ht : c.row.tenantId = t) (hd : InOrder d)
    (hc : d.caseFile? a = some c) {s : ApplicationStatus}
    (hs : c.Step (c.move [s] at' workflowId review))
    (hrec : Recorded (c.row.moved s reason at' workflowId).pendingEvents recording)
    (habout : ∀ w ∈ body, w.About a)
    (hbody : ∀ sl : Slice, sl.row = some c.row → sl.review = c.review →
      body.foldl (Slice.step a) sl =
        { sl with
          row := some (saveColumns c.row (c.row.moved s reason at' workflowId))
          versions := sl.versions ++
            [versionSnapshotRow (c.row.moved s reason at' workflowId) snapshotId]
          review := review }) :
    MovesCase d (reserveWrite t operationName key reservedAt ::
      (body ++ recordingWrites t recording)) a c
      (c.move [s] at' workflowId review) := by
  subst ht
  obtain ⟨events, htells⟩ := hd.tells hc
  have hcons := htells.reached.consistent
  refine movesCase hd [versionSnapshotRow (c.row.moved s reason at' workflowId) snapshotId] hc hs
    hrec ?_ habout ?_ ?_ rfl ?_
  · intro e he
    obtain rfl := List.mem_singleton.1 he
    exact ⟨by simp [DomainEvent.isVersionOf, isVersionEvent, DomainEvent.eventType,
      DomainEvent.applicationId, rowToApplication, htells.id], htells.id⟩
  · intro sl hrow hreview
    rw [hbody sl hrow hreview]
    rfl
  · simp [versionSnapshotRow, ApplicationRow.moved, Application.moved, rowToApplication,
      hcons.version]
  · intro events h
    have := narrates_changed hcons s at' reason events h
    rw [← htells.id] at this ⊢
    exact this

/-- **Two statuses on**, in one transaction. -/
theorem movesCase_twoHops (snapshotId₁ snapshotId₂ : String) (ht : c.row.tenantId = t) (hd : InOrder d)
    (hc : d.caseFile? a = some c) {s₁ s₂ : ApplicationStatus} {reason₁ reason₂ : String}
    {at₁ at₂ : DateTime} {application₁ application₂ : Application}
    (h₁ : application₁ = (rowToApplication c.row).moved s₁ reason₁ at₁)
    (h₂ : application₂ = application₁.moved s₂ reason₂ at₂)
    (hs : c.Step (c.move [s₁, s₂] at₂ c.row.activeWorkflowId review))
    (hrec : Recorded application₂.pendingEvents recording)
    (habout : ∀ w ∈ body, w.About a)
    (hbody : ∀ sl : Slice, sl.row = some c.row → sl.review = c.review →
      body.foldl (Slice.step a) sl =
        { sl with
          row := some (saveColumns (saveColumns c.row application₁) application₂)
          versions := sl.versions ++
            [versionSnapshotRow application₁ snapshotId₁,
             versionSnapshotRow application₂ snapshotId₂]
          review := review }) :
    MovesCase d (reserveWrite t operationName key reservedAt ::
      (body ++ recordingWrites t recording)) a c
      (c.move [s₁, s₂] at₂ c.row.activeWorkflowId review) := by
  subst ht
  obtain ⟨events, htells⟩ := hd.tells hc
  have hcons := htells.reached.consistent
  refine movesCase hd [versionSnapshotRow application₁ snapshotId₁,
    versionSnapshotRow application₂ snapshotId₂] hc hs hrec ?_ habout ?_ ?_ ?_ ?_ <;> subst h₁ h₂
  · intro e he
    simp only [Application.moved, rowToApplication, List.nil_append, List.mem_append,
      List.mem_singleton] at he
    rcases he with rfl | rfl
    · exact ⟨by simp [DomainEvent.isVersionOf, isVersionEvent, DomainEvent.eventType,
        DomainEvent.applicationId, htells.id], htells.id⟩
    · exact ⟨by simp [DomainEvent.isVersionOf, isVersionEvent, DomainEvent.eventType,
        DomainEvent.applicationId, htells.id], htells.id⟩
  · intro sl hrow hreview
    exact hbody sl hrow hreview
  · simp [versionSnapshotRow, Application.moved, rowToApplication, hcons.version,
      List.range'_succ]
  · rfl
  · intro events h
    have hmid := narrates_changed hcons s₁ at₁ reason₁ events h
    have hlen : (c.history ++ [s₁]).length = c.row.version + 1 := by simp [hcons.version]
    have hend := hmid.changed (List.getLast?_concat) s₂ at₂ reason₂
    rw [hlen, ← htells.id] at hend
    simpa [Application.moved, rowToApplication, CaseFile.move, htells.id] using hend

/-- A save, with the queue left alone. -/
theorem movesCase_save (ht : c.row.tenantId = t) (hd : InOrder d) (hc : d.caseFile? a = some c) {s : ApplicationStatus}
    (hs : c.Step (c.move [s] at' workflowId c.review))
    (hrec : Recorded (c.row.moved s reason at' workflowId).pendingEvents recording) :
    MovesCase d (reserveWrite t operationName key reservedAt ::
      (saveWrites t c.row (c.row.moved s reason at' workflowId) snapshotId ++
        recordingWrites t recording)) a c (c.move [s] at' workflowId c.review) := by
  subst ht
  obtain ⟨events, htells⟩ := hd.tells hc
  refine movesCase_hop snapshotId rfl hd hc hs hrec (saveWrites_about htells.id htells.id) ?_
  intro sl hrow hreview
  rw [foldl_saveWrites hrow htells.id rfl htells.id, ← hreview]

/-- A save, and an entry of the queue. -/
theorem movesCase_enter (ht : c.row.tenantId = t) (hd : InOrder d) (hc : d.caseFile? a = some c)
    {enteredQueueAt : DateTime}
    (hs : c.Step (c.move [awaitingHumanReview] at' c.row.activeWorkflowId
      (some (c.pendingEntry enteredQueueAt)))) (hr : c.review = none)
    (hrec : Recorded (c.row.moved awaitingHumanReview reason at'
      c.row.activeWorkflowId).pendingEvents recording) :
    MovesCase d (reserveWrite t operationName key reservedAt ::
      (saveWrites t c.row
          (c.row.moved awaitingHumanReview reason at' c.row.activeWorkflowId) snapshotId ++
        [pendingWrite t a enteredQueueAt] ++
        recordingWrites t recording)) a c
      (c.move [awaitingHumanReview] at' c.row.activeWorkflowId
        (some (c.pendingEntry enteredQueueAt))) := by
  subst ht
  obtain ⟨events, htells⟩ := hd.tells hc
  refine movesCase_hop snapshotId rfl hd hc hs hrec ?_ ?_
  · intro w hw
    rcases List.mem_append.1 hw with hw | hw
    · exact saveWrites_about htells.id htells.id w hw
    · exact List.mem_singleton.1 hw ▸ pendingWrite_about _ _ _
  · intro sl hrow hreview
    rw [List.foldl_append, foldl_saveWrites hrow htells.id rfl htells.id, List.foldl_cons,
      step_pendingWrite, hreview, hr, CaseFile.pendingEntry, htells.id]
    rfl

/-- The decision on an entry of the queue, and a save. -/
theorem movesCase_decide (ht : c.row.tenantId = t) (hd : InOrder d) (hc : d.caseFile? a = some c)
    {decision : ApplicationStatus} {reviewerId : Option String} {decidedAt : DateTime}
    {entry : ReviewQueueEntryRow} (hr : c.review = some entry)
    (het : entry.tenantId = t) (ha : entry.applicationId = a)
    (hs : c.Step (c.move [decision] at' none
      (some (decidedColumns entry decision.value reason reviewerId decidedAt))))
    (hrec : Recorded (c.row.moved decision reason at' none).pendingEvents recording) :
    MovesCase d (reserveWrite t operationName key reservedAt ::
      ([decidedWrite t entry decision.value reason reviewerId decidedAt] ++
        saveWrites t c.row (c.row.moved decision reason at' none) snapshotId ++
        recordingWrites t recording)) a c
      (c.move [decision] at' none
        (some (decidedColumns entry decision.value reason reviewerId decidedAt))) := by
  subst ht
  obtain ⟨events, htells⟩ := hd.tells hc
  have hstep : ∀ b (sl : Slice), Slice.step b sl
      (decidedWrite c.row.tenantId entry decision.value reason reviewerId decidedAt) =
        if a = b then
          { sl with review := sl.review.map fun r =>
              if r.tenantId = c.row.tenantId then
                r.update entry (decidedColumns entry decision.value reason reviewerId decidedAt)
              else r }
        else sl := by
    intro b sl
    rw [← ha]
    rfl
  refine movesCase_hop snapshotId rfl hd hc hs hrec ?_ ?_
  · intro w hw
    rcases List.mem_append.1 hw with hw | hw
    · rw [List.mem_singleton.1 hw]
      intro b hb sl
      rw [hstep, if_neg fun h => hb h.symm]
    · exact saveWrites_about htells.id htells.id w hw
  · intro sl hrow hreview
    have hone : Slice.step a sl
        (decidedWrite c.row.tenantId entry decision.value reason reviewerId decidedAt) =
        { sl with
          review := some (decidedColumns entry decision.value reason reviewerId decidedAt) } := by
      rw [hstep, if_pos rfl, hreview, hr, Option.map_some, if_pos het, update_decidedColumns]
    rw [List.foldl_append, List.foldl_cons, hone, List.foldl_nil]
    exact foldl_saveWrites hrow htells.id rfl htells.id

/-- Two saves, with the queue left alone. -/
theorem movesCase_saveTwice (ht : c.row.tenantId = t) (hd : InOrder d) (hc : d.caseFile? a = some c)
    {s₁ s₂ : ApplicationStatus} {reason₁ reason₂ snapshotId₁ snapshotId₂ : String}
    {at₁ at₂ : DateTime} {application₁ application₂ : Application}
    (h₁ : application₁ = (rowToApplication c.row).moved s₁ reason₁ at₁)
    (h₂ : application₂ = application₁.moved s₂ reason₂ at₂)
    (hs : c.Step (c.move [s₁, s₂] at₂ c.row.activeWorkflowId c.review))
    (hrec : Recorded application₂.pendingEvents recording) :
    MovesCase d (reserveWrite t operationName key reservedAt ::
      (saveWrites t c.row application₁ snapshotId₁ ++
        saveWrites t (saveColumns c.row application₁) application₂ snapshotId₂ ++
        recordingWrites t recording)) a c
      (c.move [s₁, s₂] at₂ c.row.activeWorkflowId c.review) := by
  subst ht
  obtain ⟨events, htells⟩ := hd.tells hc
  have ha₁ : application₁.applicationId = a := h₁ ▸ htells.id
  have ha₂ : application₂.applicationId = a := h₂ ▸ ha₁
  have hrow₁ : (saveColumns c.row application₁).applicationId = a := htells.id
  have ht₁ : (saveColumns c.row application₁).tenantId = c.row.tenantId := rfl
  refine movesCase_twoHops snapshotId₁ snapshotId₂ rfl hd hc h₁ h₂ hs hrec ?_ ?_
  · intro w hw
    rcases List.mem_append.1 hw with hw | hw
    · exact saveWrites_about htells.id ha₁ w hw
    · exact saveWrites_about hrow₁ ha₂ w hw
  · intro sl hrow hreview
    rw [List.foldl_append, foldl_saveWrites hrow htells.id rfl ha₁,
      foldl_saveWrites rfl hrow₁ ht₁ ha₂, ← hreview, List.append_assoc]
    rfl

/-- Two saves, and an entry of the queue. -/
theorem movesCase_saveTwiceEnter (ht : c.row.tenantId = t) (hd : InOrder d) (hc : d.caseFile? a = some c)
    {s₁ : ApplicationStatus} {reason₁ reason₂ snapshotId₁ snapshotId₂ : String}
    {at₁ at₂ enteredQueueAt : DateTime} {application₁ application₂ : Application}
    (h₁ : application₁ = (rowToApplication c.row).moved s₁ reason₁ at₁)
    (h₂ : application₂ = application₁.moved awaitingHumanReview reason₂ at₂)
    (hs : c.Step (c.move [s₁, awaitingHumanReview] at₂ c.row.activeWorkflowId
      (some (c.pendingEntry enteredQueueAt)))) (hr : c.review = none)
    (hrec : Recorded application₂.pendingEvents recording) :
    MovesCase d (reserveWrite t operationName key reservedAt ::
      (saveWrites t c.row application₁ snapshotId₁ ++
        saveWrites t (saveColumns c.row application₁) application₂ snapshotId₂ ++
        [pendingWrite t a enteredQueueAt] ++
        recordingWrites t recording)) a c
      (c.move [s₁, awaitingHumanReview] at₂ c.row.activeWorkflowId
        (some (c.pendingEntry enteredQueueAt))) := by
  subst ht
  obtain ⟨events, htells⟩ := hd.tells hc
  have ha₁ : application₁.applicationId = a := h₁ ▸ htells.id
  have ha₂ : application₂.applicationId = a := h₂ ▸ ha₁
  have hrow₁ : (saveColumns c.row application₁).applicationId = a := htells.id
  have ht₁ : (saveColumns c.row application₁).tenantId = c.row.tenantId := rfl
  refine movesCase_twoHops snapshotId₁ snapshotId₂ rfl hd hc h₁ h₂ hs hrec ?_ ?_
  · intro w hw
    rcases List.mem_append.1 hw with hw | hw
    · rcases List.mem_append.1 hw with hw | hw
      · exact saveWrites_about htells.id ha₁ w hw
      · exact saveWrites_about hrow₁ ha₂ w hw
    · exact List.mem_singleton.1 hw ▸ pendingWrite_about _ _ _
  · intro sl hrow hreview
    rw [List.foldl_append, List.foldl_append, foldl_saveWrites hrow htells.id rfl ha₁,
      foldl_saveWrites rfl hrow₁ ht₁ ha₂, List.foldl_cons, step_pendingWrite, hreview, hr,
      CaseFile.pendingEntry, htells.id, List.append_assoc]
    rfl

end Steps

/-! ### Creation, and transactions about no case -/

/-- What `createApplication` writes between the reservation and the recording. -/
def createWrites (t : TenantId) (applicant : Applicant) (createdAt : DateTime)
    (application : Application) (snapshotId : String) : List Write :=
  [⟨t, .insert (.applicant
    ⟨applicant.applicantId, applicant.tenantId, applicant.givenName, applicant.familyName,
      applicant.dateOfBirth, applicant.email, createdAt⟩)⟩,
   ⟨t, .insert (.application (applicationToRow application))⟩,
   ⟨t, .insert (.applicationVersion (versionSnapshotRow application snapshotId))⟩]

/-- An application that has not been inserted yet has an empty slice. -/
theorem InOrder.slice_empty {d : Database} (hd : InOrder d) {a : ApplicationId}
    (h : d.has (.application a) = false) : d.slice a = Slice.empty := by
  rcases hd.slices a with hempty | ⟨c, events, htells⟩
  · exact hempty
  · have hrow := (application?_iff hd.wellFormed.keys).1 htells.row
    have hyes := Database.has_iff.2 ⟨_, hrow.1, show Key.application a ∈ _ by
      simp [Row.keys, hrow.2]⟩
    rw [h] at hyes
    cases hyes

/-- A new application is a draft. -/
theorem Application.create_ok {a : ApplicationId} {t : TenantId} {applicantId : ApplicantId}
    {product : Product} {amount : Money} {termMonths : ℤ} {at' : DateTime}
    {application : Application}
    (h : Application.create a t applicantId product amount termMonths at' = .ok application) :
    application.applicationId = a ∧ application.tenantId = t ∧ application.status = draft ∧
      application.version = 1 ∧ application.activeWorkflowId = none ∧
      application.pendingEvents = [.applicationCreated a t at' product.productId.value] := by
  unfold Application.create at h
  split at h
  · cases h
  · split at h <;> cases h
    exact ⟨rfl, rfl, rfl, rfl, rfl, rfl⟩

/-- **A transaction that adds a new application and records it creates the case.** -/
theorem createsCase {d : Database} (hd : InOrder d) {t : TenantId}
    {operationName key snapshotId : String} {reservedAt createdAt at' : DateTime}
    {recording : Recording} {applicant : Applicant} {application : Application} {product : Product} {amount : Money}
    {termMonths : ℤ} {a : ApplicationId} {applicantId : ApplicantId}
    (happ : Application.create a t applicantId product amount termMonths at' = .ok application)
    (hfree : ColonFree a.value) (hrec : Recorded application.pendingEvents recording)
    (hno : d.has (.application a) = false) :
    CreatesCase d (reserveWrite t operationName key reservedAt ::
      (createWrites t applicant createdAt application snapshotId ++ recordingWrites t recording)) a
      ⟨applicationToRow application, [draft], none⟩ := by
  obtain ⟨hid, ht, hstatus, hversion, hworkflow, hevents⟩ := Application.create_ok happ
  have hempty := hd.slice_empty hno
  have hmine : ∀ e ∈ application.pendingEvents, e.isVersionOf a = true ∧ e.applicationId = a := by
    intro e he
    rw [hevents] at he
    obtain rfl := List.mem_singleton.1 he
    simp [DomainEvent.isVersionOf, isVersionEvent, DomainEvent.eventType,
      DomainEvent.applicationId]
  have hbody : (createWrites t applicant createdAt application snapshotId).foldl (Slice.step a)
      (d.slice a) =
        { Slice.empty with
          row := some (applicationToRow application)
          versions := [versionSnapshotRow application snapshotId] } := by
    rw [hempty]
    simp [createWrites, Slice.step, Slice.insert, Slice.empty, Row.application?,
      Row.applicationVersion?, Row.reviewQueueEntry?, Row.outboxEvent?, Row.auditEvent?,
      Option.filter, applicationToRow, versionSnapshotRow, hid]
  refine ⟨hempty, rfl, ⟨application.pendingEvents, ?_⟩, ?_⟩
  · rw [slice_transaction hrec fun e he => (hmine e he).1, hbody]
    refine ⟨rfl, hid, ?_, ?_, rfl, .created _ hstatus hversion hworkflow, ?_, hrec.outbox,
      hrec.audits, hfree⟩
    · simp [versionSnapshotRow, hversion]
    · simp [versionSnapshotRow, hstatus]
    · rw [hevents]
      simp only [applicationToRow, ht]
      exact .created at' _
  · intro b hb
    have hne : ¬ a = b := fun h => hb h.symm
    refine slice_transaction_of_ne hrec
      (fun e he => DomainEvent.isVersionOf_of_ne (hmine e he).2 hb) ?_
    simp [createWrites, Slice.step, Slice.insert, Row.application?, Row.applicationVersion?,
      Row.reviewQueueEntry?, Row.outboxEvent?, Row.auditEvent?, Option.filter, applicationToRow,
      versionSnapshotRow, hid, hne]

/-- A transaction that writes nothing about a case, and records no version, leaves the cases. -/
theorem leavesCases {d : Database} {t : TenantId} {operationName key : String}
    {reservedAt : DateTime} {body : List Write} {events : List DomainEvent}
    {recording : Recording} (hrec : Recorded events recording)
    (hevents : ∀ e ∈ events, ∀ a, e.isVersionOf a = false) (hbody : ∀ w ∈ body, w.Aside) :
    LeavesCases d (reserveWrite t operationName key reservedAt ::
      (body ++ recordingWrites t recording)) :=
  fun a => slice_transaction_of_ne hrec (fun e he => hevents e he a) (foldl_aside hbody a _)

end FinAssist
