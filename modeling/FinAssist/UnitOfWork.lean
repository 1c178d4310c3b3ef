/-
**The unit of work and its repositories.**

`finassist.infrastructure.postgres`: one transaction of one tenant, the repositories that read
and write in it, the reservation of an idempotency key and the recording of domain events.  A
handler is a program in the sense of `FinAssist/ReadCommitted.lean`; everything it does not
compute itself — the time, a new identifier, an external system — it asks for.

A repository's `get` reads one row.  The session keeps an object it has loaded as long as
something refers to it, so whether a later read gives the object back as it was loaded or the row
as it is now depends on the garbage collector; `save` is given the object that may still be there
and asks (`Ask.identityMapHit`).

Main definitions:

* `FinAssist.Ask`, `FinAssist.Answer` — the questions and what may be answered;
* `FinAssist.Handler` — the programs;
* `FinAssist.reserveIdempotencyKey` — the reservation, an insert whose conflict is caught;
* `FinAssist.saveApplication` — **the save**, with its check of the version;
* `FinAssist.recordDomainEvents` — **the outbox rows, the audit rows and the checkpoint**.
-/

import FinAssist.Database

set_option relaxedAutoImplicit false
set_option autoImplicit false

namespace FinAssist

open ReadCommitted

/-! ### Questions -/

/-- What became of a request to Temporal. -/
inductive Ack
  | acknowledged
  | rejected (text : String)
  /-- The answer was lost; the request may have been carried out. -/
  | lost (delivered : Bool)
  deriving DecidableEq

/-- **What a handler asks for**: the clock, the id generator, the session's identity map, and the
ports. -/
inductive Ask
  | now
  | newId
  | identityMapHit
  | scan (data : List UInt8) (filename declaredContentType : String)
  | putObject (t : TenantId) (key : String) (data : List UInt8) (contentType : String)
  | getObjectMetadata (t : TenantId) (key : String)
  | getObject (t : TenantId) (key : String)
  | extractText (data : List UInt8) (contentType : String)
  | classify (pages : List PageText)
  | extractFacts (pages : List PageText) (classification : DocumentClassification)
      (sourceChecksum : String)
  | verifyIdentity (givenName familyName : String) (dateOfBirth : Date)
      (syntheticId streetAddress city : String)
  | verifyEmployment (givenName familyName syntheticId employerName : String)
      (declaredAnnualIncome : ℤ)
  | getCreditReport (givenName familyName : String) (dateOfBirth : Date) (syntheticId : String)
  | getTransactionHistory (givenName familyName syntheticId : String) (declaredAnnualIncome : ℤ)
  | startApplicationWorkflow (workflowId : String) (t : TenantId) (a : ApplicationId)
      (version : ℕ) (startingStatus : String)
  | signalReviewDecision (workflowId decision reason reviewerId : String)

/-- The answers to a question. -/
def Answer : Ask → Type
  | .now => DateTime
  | .newId => Uuid4
  | .identityMapHit => Bool
  | .scan .. => Except PortError FileSafetyReport
  | .putObject .. => Except PortError ObjectMetadata
  | .getObjectMetadata .. => Except PortError ObjectMetadata
  | .getObject .. => Except PortError (List UInt8)
  | .extractText .. => Except PortError (List PageText)
  | .classify .. => Except PortError DocumentClassification
  | .extractFacts .. => Except PortError (List ExtractedFact)
  | .verifyIdentity .. => Except PortError KycVerificationResult
  | .verifyEmployment .. => Except PortError EmploymentVerificationResult
  | .getCreditReport .. => Except PortError CreditReport
  | .getTransactionHistory .. => Except PortError TransactionHistory
  | .startApplicationWorkflow .. => Ack
  | .signalReviewDecision .. => Ack

/-- **The programs** that run against the database. -/
abbrev Handler : Type → Type := Prog Database Write Fault Answer Error

namespace Handler

variable {α : Type}

def raise (e : Error) : Handler α := Prog.raise e

def ofExcept : Except Error α → Handler α
  | .ok a => Prog.ret a
  | .error e => Prog.raise e

def ofPort : Except PortError α → Handler α
  | .ok a => Prog.ret a
  | .error e => Prog.raise e.val

def ask (q : Ask) : Handler (Answer q) := Prog.ask q Prog.ret

def commit : Handler Unit := Prog.commit (Prog.ret ())

def rollback : Handler Unit := Prog.rollback (Prog.ret ())

end Handler

/-- `Clock.now`. -/
def now : Handler DateTime := Handler.ask .now

/-- `IdGenerator.new_id`. -/
def newId : Handler Uuid4 := Handler.ask .newId

/-- A `SELECT` in a transaction of the tenant. -/
def select {α : Type} (t : TenantId) (f : Database → α) : Handler α :=
  .query fun d => .ret (f (d.visible t))

/-- A statement that writes; a fault is raised. -/
def execute (t : TenantId) (s : Statement) : Handler Unit :=
  .exec ⟨t, s⟩ fun
    | none => .ret ()
    | some f => .raise (.database f)

/-- Rows inserted one after the other. -/
def insertAll (t : TenantId) : List Row → Handler Unit
  | [] => pure ()
  | row :: rows => do
      execute t (.insert row)
      insertAll t rows

/-! ### Idempotency keys -/

/-- `reserve_idempotency_key`. -/
def reserveIdempotencyKey (t : TenantId) (key operationName : String) : Handler Bool := do
  let reservedAt ← now
  .exec ⟨t, .insert (.idempotencyKey ⟨t, operationName, key, reservedAt⟩)⟩ fun
    | none => .ret true
    | some .integrityError => .ret false
    | some f => .raise (.database f)

/-- How every command handler begins. -/
def requireReservation (t : TenantId) (key operationName : String) : Handler Unit := do
  let reserved ← reserveIdempotencyKey t key operationName
  if reserved then pure () else Handler.raise (.duplicateRequest operationName key)

/-! ### Applications -/

/-- `_application_to_row`. -/
def applicationToRow (application : Application) : ApplicationRow where
  applicationId := application.applicationId
  tenantId := application.tenantId
  applicantId := application.applicantId
  productId := application.productId
  requestedAmount := application.requestedAmount
  requestedTermMonths := application.requestedTermMonths
  status := application.status
  version := application.version
  createdAt := application.createdAt
  updatedAt := application.updatedAt
  activeWorkflowId := application.activeWorkflowId

/-- `_row_to_application`. -/
def rowToApplication (row : ApplicationRow) : Application where
  applicationId := row.applicationId
  tenantId := row.tenantId
  applicantId := row.applicantId
  productId := row.productId
  requestedAmount := row.requestedAmount
  requestedTermMonths := row.requestedTermMonths
  status := row.status
  version := row.version
  createdAt := row.createdAt
  updatedAt := row.updatedAt
  activeWorkflowId := row.activeWorkflowId
  pendingEvents := []

/-- `_version_snapshot_row`. -/
def versionSnapshotRow (application : Application) (snapshotId : String) :
    ApplicationVersionRow where
  id := snapshotId
  applicationId := application.applicationId
  tenantId := application.tenantId
  version := application.version
  status := application.status
  requestedAmount := application.requestedAmount
  requestedTermMonths := application.requestedTermMonths
  applicantId := application.applicantId
  productId := application.productId
  recordedAt := application.updatedAt

/-- `SqlAlchemyApplicationRepository.get`: the row, from which `rowToApplication` makes the
aggregate. -/
def getApplication (t : TenantId) (a : ApplicationId) : Handler (Option ApplicationRow) := do
  let row ← select t fun d => d.application? a
  pure (row.filter fun r => r.tenantId = t)

/-- `get`, where a handler raises when there is no such application. -/
def requireApplication (t : TenantId) (a : ApplicationId) : Handler ApplicationRow := do
  match ← getApplication t a with
  | some row => pure row
  | none => Handler.raise (.applicationNotFound a)

/-- `SqlAlchemyApplicationRepository.add`. -/
def addApplication (t : TenantId) (application : Application) : Handler Unit := do
  let snapshotId ← newId
  let exists' : Error :=
    .valueError ("application " ++ application.applicationId.value ++ " already exists")
  let reraise : Fault → Error
    | .integrityError => exists'
    | f => .database f
  .exec ⟨t, .insert (.application (applicationToRow application))⟩ fun
    | none =>
        .exec ⟨t, .insert (.applicationVersion (versionSnapshotRow application snapshotId.value))⟩
          fun
          | none => .ret ()
          | some f => .raise (reraise f)
    | some f => .raise (reraise f)

/-- What `save` sets on the row it has found: of the amount not the currency, which is a column of
its own. -/
def saveColumns (existing : ApplicationRow) (application : Application) : ApplicationRow :=
  { existing with
    status := application.status
    version := application.version
    updatedAt := application.updatedAt
    requestedAmount := { existing.requestedAmount with
      minorUnits := application.requestedAmount.minorUnits }
    requestedTermMonths := application.requestedTermMonths
    activeWorkflowId := application.activeWorkflowId }

/-- **`SqlAlchemyApplicationRepository.save`**; `cached` is the row as the session has loaded it
before.  It returns the row as the session has it afterwards. -/
def saveApplication (t : TenantId) (cached : ApplicationRow) (application : Application) :
    Handler ApplicationRow := do
  let found ← select t fun d => d.application? application.applicationId
  let hit ← Handler.ask .identityMapHit
  -- the query runs in either case, but it does not refresh an object the session still has
  match found.map fun row => cond hit cached row with
  | none =>
      Handler.raise (.concurrencyConflict application.applicationId (application.version - 1) 0)
  | some existing =>
      if existing.version + 1 ≠ application.version then
        Handler.raise (.concurrencyConflict application.applicationId (application.version - 1)
          existing.version)
      else do
        let snapshotId ← newId
        execute t (.updateApplication existing (saveColumns existing application))
        execute t (.insert (.applicationVersion (versionSnapshotRow application snapshotId.value)))
        pure (saveColumns existing application)

/-- `transition_to`, at the time the clock says. -/
def transition (application : Application) (newStatus : ApplicationStatus) (reason : String) :
    Handler Application := do
  let at' ← now
  Handler.ofExcept (application.transitionTo newStatus reason at')

/-! ### Applicants and products -/

/-- `SqlAlchemyApplicantRepository.add`. -/
def addApplicant (t : TenantId) (applicant : Applicant) : Handler Unit := do
  let createdAt ← now
  execute t (.insert (.applicant
    ⟨applicant.applicantId, applicant.tenantId, applicant.givenName, applicant.familyName,
      applicant.dateOfBirth, applicant.email, createdAt⟩))

/-- `SqlAlchemyApplicantRepository.get`. -/
def getApplicant (t : TenantId) (a : ApplicantId) : Handler (Option Applicant) := do
  let row ← select t fun d => d.applicants.find? fun r => r.applicantId = a
  match row.filter fun r => r.tenantId = t with
  | none => pure none
  | some r => do
      let applicant ← Handler.ofExcept
        (Applicant.of r.applicantId r.tenantId r.givenName r.familyName r.dateOfBirth r.email)
      pure (some applicant)

/-- `_row_to_product`: what the constructors of `Money` and `Product` check is a constraint of the
table, except that the currency is one of those supported. -/
def rowToProduct (row : ProductRow) : Except Error Product :=
  match Currency.ofCode? row.currency with
  | none => .error (.unsupportedCurrency row.currency)
  | some currency =>
      .ok ⟨row.productId, row.code, row.name, currency, ⟨row.minAmount, currency⟩,
        ⟨row.maxAmount, currency⟩, row.minTermMonths, row.maxTermMonths, row.isActive, ⟨rfl, rfl⟩,
        row.amount_bounds.2, row.term_bounds.1, row.term_bounds.2⟩

/-- `SqlAlchemyProductCatalog.get`, where a handler raises when there is no such product. -/
def requireProduct (t : TenantId) (p : ProductId) : Handler Product := do
  let row ← select t fun d => d.products.find? fun r => r.productId = p
  match row with
  | none => Handler.raise (.productNotFound p)
  | some row => Handler.ofExcept (rowToProduct row)

/-! ### Documents -/

/-- `SqlAlchemyDocumentRepository.add`. -/
def addDocument (t : TenantId) (document : UploadedDocument) : Handler Unit :=
  execute t (.insert (.document document))

def isDocumentOf (t : TenantId) (a : ApplicationId) (r : DocumentRow) : Bool :=
  r.tenantId = t && r.applicationId = a

/-- `SqlAlchemyDocumentRepository.count_for_application`. -/
def countDocuments (t : TenantId) (a : ApplicationId) : Handler ℕ :=
  select t fun d => (d.documents.filter (isDocumentOf t a)).length

/-- `SqlAlchemyDocumentRepository.list_for_application`. -/
def listDocuments (t : TenantId) (a : ApplicationId) : Handler (List UploadedDocument) :=
  select t fun d => (d.documents.filter (isDocumentOf t a)).mergeSort fun x y =>
    x.uploadedAt.ticks ≤ y.uploadedAt.ticks

/-! ### The review queue -/

/-- `SqlAlchemyReviewQueueRepository.add`. -/
def addReviewQueueEntry (t : TenantId) (entry : ReviewQueueEntryRow) : Handler Unit :=
  execute t (.insert (.reviewQueueEntry entry))

/-- What `mark_decided` sets. -/
def decidedColumns (entry : ReviewQueueEntryRow) (decision reason : String)
    (reviewerId : Option String) (decidedAt : DateTime) : ReviewQueueEntryRow :=
  { entry with
    status := "decided"
    decision := some decision
    reason := some reason
    reviewerId := reviewerId
    decidedAt := some decidedAt }

/-- `SqlAlchemyReviewQueueRepository.mark_decided`. -/
def markDecided (t : TenantId) (a : ApplicationId) (decision reason : String)
    (reviewerId : Option String) (decidedAt : DateTime) : Handler Unit := do
  let row ← select t fun d => d.reviewQueueEntry? a
  match row.filter fun r => r.tenantId = t with
  | none =>
      Handler.raise (.lookupError
        ("no review queue entry for application " ++ a.value ++ " to mark decided"))
  | some entry =>
      execute t (.updateReviewQueueEntry entry
        (decidedColumns entry decision reason reviewerId decidedAt))

/-! ### Extraction and verification runs -/

/-- `SqlAlchemyExtractionRepository.add_run`; `facts` come with their ids. -/
def addExtractionRun (t : TenantId) (a : ApplicationId) (runId documentId : String)
    (classification : DocumentClassification) (facts : List (String × ExtractedFact))
    (completedAt : DateTime) : Handler Unit := do
  execute t (.insert (.extractionRun
    ⟨runId, t, a, documentId, classification, facts.length, completedAt⟩))
  insertAll t (facts.map fun f =>
    .extractedFact ⟨f.1, runId, t, a, documentId, f.2, completedAt⟩)

/-- `SqlAlchemyExtractionRepository.get_facts_for_application`. -/
def getFacts (t : TenantId) (a : ApplicationId) : Handler (List ExtractedFact) :=
  select t fun d => (d.extractedFacts.filter fun r => r.tenantId = t && r.applicationId = a).map
    ExtractedFactRow.fact

/-- A new id for each element of a list. -/
def withIds {α : Type} : List α → Handler (List (String × α))
  | [] => pure []
  | x :: xs => do
      let id ← newId
      let rest ← withIds xs
      pure ((id.value, x) :: rest)

/-- `SqlAlchemyVerificationRepository.add_run`; checks and snapshots come with their ids.  A flush
goes through the classes in alphabetical order. -/
def addVerificationRun (t : TenantId) (a : ApplicationId) (runId : String)
    (checks : List (String × VerificationCheck))
    (snapshots : List (String × ExternalResponseSnapshot)) (completedAt : DateTime) :
    Handler Unit := do
  execute t (.insert (.verificationRun
    ⟨runId, t, a, checks.length, contradictionCount (checks.map Prod.snd), completedAt⟩))
  insertAll t (snapshots.map fun s =>
    .externalResponseSnapshot ⟨s.1, runId, t, a, s.2, completedAt⟩)
  insertAll t (checks.map fun c => .verificationCheck ⟨c.1, runId, t, a, c.2, completedAt⟩)
  let contradictions ← withIds (checks.filter fun c => c.2.verdict = .contradicted)
  insertAll t (contradictions.map fun c =>
    .contradiction ⟨c.1, c.2.1, t, a, c.2.2.sourceSystem, c.2.2.checkedFactType, c.2.2.detail,
      completedAt⟩)

/-- `SqlAlchemyVerificationRepository.get_checks_for_application`. -/
def getChecks (t : TenantId) (a : ApplicationId) : Handler (List VerificationCheck) :=
  select t fun d =>
    (d.verificationChecks.filter fun r => r.tenantId = t && r.applicationId = a).map
      VerificationCheckRow.check

/-! ### Domain events -/

/-- What `record_domain_events` has put into the session: rows to be inserted, and the checkpoint
as it was loaded and as it is now. -/
structure Recording where
  outbox : List OutboxEventRow
  audits : List AuditEventRow
  checkpoint : Option (AuditHashRow × AuditHashRow)
  newHashes : List AuditHashRow

def Recording.empty : Recording := ⟨[], [], none, []⟩

/-- `_SCHEMA_VERSION`. -/
def schemaVersion : ℕ := 1

/-- The outbox row of an event. -/
def outboxEventRow (event : DomainEvent) (eventId : String) (createdAt : DateTime) :
    OutboxEventRow where
  eventId := eventId
  tenantId := event.tenantId
  eventType := (eventToRecord event).1
  schemaVersion := schemaVersion
  occurredAt := event.occurredAt
  aggregateType := (eventToRecord event).2.1
  aggregateId := event.applicationId.value
  correlationId := none
  causationId := none
  payload := (eventToRecord event).2.2
  publishedAt := none
  createdAt := createdAt

/-- The hash of an event that follows a row with the hash `prevHash`. -/
def eventHash (prevHash : String) (event : DomainEvent) (eventId : String) : String :=
  computeAuditHash prevHash eventId (eventToRecord event).1 event.applicationId.value
    event.occurredAt (eventToRecord event).2.2

/-- The audit row of an event. -/
def auditEventRow (event : DomainEvent) (eventId prevHash : String) (createdAt : DateTime) :
    AuditEventRow where
  eventId := eventId
  tenantId := event.tenantId
  occurredAt := event.occurredAt
  eventType := (eventToRecord event).1
  aggregateType := (eventToRecord event).2.1
  aggregateId := event.applicationId.value
  payload := (eventToRecord event).2.2
  correlationId := none
  prevHash := prevHash
  hash := eventHash prevHash event eventId
  createdAt := createdAt

/-- What one event adds, when the session's `get` has returned `checkpoint`. -/
def Recording.add (recording : Recording) (event : DomainEvent) (eventId : String)
    (at' : DateTime) (checkpoint : Option (AuditHashRow × AuditHashRow)) : Recording :=
  let prevHash := match checkpoint with
    | some (_, current) => current.latestHash
    | none => genesisHash
  let newHash := eventHash prevHash event eventId
  { outbox := recording.outbox ++ [outboxEventRow event eventId at']
    audits := recording.audits ++ [auditEventRow event eventId prevHash at']
    checkpoint := checkpoint.map fun c =>
      (c.1, { c.2 with latestEventId := some eventId, latestHash := newHash, updatedAt := at' })
    newHashes := recording.newHashes ++ match checkpoint with
      | some _ => []
      | none => [⟨event.tenantId, some eventId, newHash, at'⟩] }

/-- One turn of the loop of `record_domain_events`.  A checkpoint the session has loaded and
changed is found in the session again; one it has only added is not, and the query runs again. -/
def recordEvent (t : TenantId) (recording : Recording) (event : DomainEvent) :
    Handler Recording := do
  let eventId ← newId
  let at' ← now
  match recording.checkpoint with
  | some c => pure (recording.add event eventId.value at' (some c))
  | none => do
      let row ← select t fun d => d.auditHash? event.tenantId
      pure (recording.add event eventId.value at' (row.map fun r => (r, r)))

def recordEvents (t : TenantId) : List DomainEvent → Recording → Handler Recording
  | [], recording => pure recording
  | event :: events, recording => do
      let recording ← recordEvent t recording event
      recordEvents t events recording

/-- The flush at the end of `record_domain_events`: audit rows, the checkpoint, outbox rows. -/
def flushRecording (t : TenantId) (recording : Recording) : Handler Unit := do
  insertAll t (recording.audits.map .auditEvent)
  match recording.checkpoint with
  | some (loaded, changed) => execute t (.updateAuditHash loaded changed)
  | none => pure ()
  insertAll t (recording.newHashes.map .auditHash)
  insertAll t (recording.outbox.map .outboxEvent)

/-- **`record_domain_events`.** -/
def recordDomainEvents (t : TenantId) (events : List DomainEvent) : Handler Unit := do
  let recording ← recordEvents t events Recording.empty
  flushRecording t recording

end FinAssist
