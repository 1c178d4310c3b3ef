/-
**The database: its rows, its constraints, and what a statement does.**

`orm_models.py` and the migrations.  The tables are kept in one list of rows, each under the name
of its table and in the order in which they were inserted; a table is what is left of the list
when the others are taken out.  Rows are inserted, never deleted, and three tables are updated.
An update changes the columns whose values differ from those the session had loaded, on the row
as it is when the statement runs, which may have changed since it was loaded.

Main definitions:

* `FinAssist.Row` — a row of any table;
* `FinAssist.Key` — what the primary keys and the unique constraints are about;
* `FinAssist.Database`, with one accessor for each table, and `Database.visible`, what row-level
  security leaves of it for a tenant;
* `FinAssist.Statement`, `FinAssist.Write` — a statement that writes, and the tenant it runs for;
* `FinAssist.postgres` — **the database as a `ReadCommitted.Schema`**.

Main results:

* `FinAssist.fault_eq_none_iff` — when a statement is granted;
* `FinAssist.occupied_view_iff` — which keys are taken after a list of statements;
* `FinAssist.filterMap_view` — **a table that is only inserted into grows by what is inserted**.
-/

import FinAssist.AuditHash
import FinAssist.Evidence
import FinAssist.ReadCommitted

set_option relaxedAutoImplicit false
set_option autoImplicit false

namespace FinAssist

open ReadCommitted

/-! ### Rows -/

structure TenantRow where
  tenantId : TenantId

/-- The columns of `products`, with the check constraints of the migration. -/
structure ProductRow where
  productId : ProductId
  tenantId : TenantId
  code : String
  name : String
  currency : String
  minAmount : ℤ
  maxAmount : ℤ
  minTermMonths : ℤ
  maxTermMonths : ℤ
  isActive : Bool
  amount_bounds : 0 < minAmount ∧ minAmount ≤ maxAmount
  term_bounds : 1 ≤ minTermMonths ∧ minTermMonths ≤ maxTermMonths

structure ApplicantRow where
  applicantId : ApplicantId
  tenantId : TenantId
  givenName : String
  familyName : String
  dateOfBirth : Date
  email : String
  createdAt : DateTime

structure ApplicationRow where
  applicationId : ApplicationId
  tenantId : TenantId
  applicantId : ApplicantId
  productId : ProductId
  requestedAmount : Money
  requestedTermMonths : ℤ
  status : ApplicationStatus
  version : ℕ
  createdAt : DateTime
  updatedAt : DateTime
  activeWorkflowId : Option String
  deriving DecidableEq

structure ApplicationVersionRow where
  id : String
  applicationId : ApplicationId
  tenantId : TenantId
  version : ℕ
  status : ApplicationStatus
  requestedAmount : Money
  requestedTermMonths : ℤ
  applicantId : ApplicantId
  productId : ProductId
  recordedAt : DateTime
  deriving DecidableEq

structure OutboxEventRow where
  eventId : String
  tenantId : TenantId
  eventType : String
  schemaVersion : ℕ
  occurredAt : DateTime
  aggregateType : String
  aggregateId : String
  correlationId : Option String
  causationId : Option String
  payload : Payload
  publishedAt : Option DateTime
  createdAt : DateTime
  deriving DecidableEq

structure IdempotencyKeyRow where
  tenantId : TenantId
  operationName : String
  idempotencyKey : String
  reservedAt : DateTime
  deriving DecidableEq

structure AuditEventRow where
  eventId : String
  tenantId : TenantId
  occurredAt : DateTime
  eventType : String
  aggregateType : String
  aggregateId : String
  payload : Payload
  correlationId : Option String
  prevHash : String
  hash : String
  createdAt : DateTime
  deriving DecidableEq

/-- The checkpoint of a tenant's audit chain. -/
structure AuditHashRow where
  tenantId : TenantId
  latestEventId : Option String
  latestHash : String
  updatedAt : DateTime
  deriving DecidableEq

abbrev DocumentRow := UploadedDocument

structure ReviewQueueEntryRow where
  applicationId : ApplicationId
  tenantId : TenantId
  enteredQueueAt : DateTime
  status : String
  decision : Option String
  reason : Option String
  reviewerId : Option String
  decidedAt : Option DateTime
  deriving DecidableEq

structure ExtractionRunRow where
  runId : String
  tenantId : TenantId
  applicationId : ApplicationId
  documentId : String
  classification : DocumentClassification
  factCount : ℕ
  completedAt : DateTime

/-- Its `status` column is always `extracted`. -/
structure ExtractedFactRow where
  factId : String
  runId : String
  tenantId : TenantId
  applicationId : ApplicationId
  documentId : String
  fact : ExtractedFact
  createdAt : DateTime

structure VerificationRunRow where
  runId : String
  tenantId : TenantId
  applicationId : ApplicationId
  checkCount : ℕ
  contradictionCount : ℕ
  completedAt : DateTime

structure VerificationCheckRow where
  checkId : String
  runId : String
  tenantId : TenantId
  applicationId : ApplicationId
  check : VerificationCheck
  createdAt : DateTime

structure ContradictionRow where
  contradictionId : String
  checkId : String
  tenantId : TenantId
  applicationId : ApplicationId
  sourceSystem : SourceSystem
  checkedFactType : String
  detail : String
  createdAt : DateTime

structure ExternalResponseSnapshotRow where
  snapshotId : String
  runId : String
  tenantId : TenantId
  applicationId : ApplicationId
  snapshot : ExternalResponseSnapshot
  capturedAt : DateTime

/-- **A row of any table.** -/
inductive Row
  | tenant (r : TenantRow)
  | product (r : ProductRow)
  | applicant (r : ApplicantRow)
  | application (r : ApplicationRow)
  | applicationVersion (r : ApplicationVersionRow)
  | outboxEvent (r : OutboxEventRow)
  | idempotencyKey (r : IdempotencyKeyRow)
  | auditEvent (r : AuditEventRow)
  | auditHash (r : AuditHashRow)
  | document (r : DocumentRow)
  | reviewQueueEntry (r : ReviewQueueEntryRow)
  | extractionRun (r : ExtractionRunRow)
  | extractedFact (r : ExtractedFactRow)
  | verificationRun (r : VerificationRunRow)
  | verificationCheck (r : VerificationCheckRow)
  | contradiction (r : ContradictionRow)
  | externalResponseSnapshot (r : ExternalResponseSnapshotRow)

/-! ### Constraints -/

/-- What primary keys and unique constraints are about.  `applicationOf` and
`reviewQueueEntryOf` name a row together with its tenant, as a statement under row-level security
finds it. -/
inductive Key
  | tenant (t : TenantId)
  | product (p : ProductId)
  | productCode (code : String)
  | applicant (a : ApplicantId)
  | application (a : ApplicationId)
  | applicationOf (t : TenantId) (a : ApplicationId)
  | applicationVersionId (id : String)
  | applicationVersion (a : ApplicationId) (version : ℕ)
  | outboxEvent (id : String)
  | idempotencyKey (t : TenantId) (operationName key : String)
  | auditEvent (id : String)
  | auditHash (t : TenantId)
  | document (id : String)
  | reviewQueueEntry (a : ApplicationId)
  | reviewQueueEntryOf (t : TenantId) (a : ApplicationId)
  | extractionRun (id : String)
  | extractedFact (id : String)
  | verificationRun (id : String)
  | verificationCheck (id : String)
  | contradiction (id : String)
  | contradictionOfCheck (id : String)
  | externalResponseSnapshot (id : String)
  deriving DecidableEq

namespace Row

/-- The keys a row takes. -/
def keys : Row → List Key
  | tenant r => [.tenant r.tenantId]
  | product r => [.product r.productId, .productCode r.code]
  | applicant r => [.applicant r.applicantId]
  | application r => [.application r.applicationId, .applicationOf r.tenantId r.applicationId]
  | applicationVersion r =>
      [.applicationVersionId r.id, .applicationVersion r.applicationId r.version]
  | outboxEvent r => [.outboxEvent r.eventId]
  | idempotencyKey r => [.idempotencyKey r.tenantId r.operationName r.idempotencyKey]
  | auditEvent r => [.auditEvent r.eventId]
  | auditHash r => [.auditHash r.tenantId]
  | document r => [.document r.documentId]
  | reviewQueueEntry r =>
      [.reviewQueueEntry r.applicationId, .reviewQueueEntryOf r.tenantId r.applicationId]
  | extractionRun r => [.extractionRun r.runId]
  | extractedFact r => [.extractedFact r.factId]
  | verificationRun r => [.verificationRun r.runId]
  | verificationCheck r => [.verificationCheck r.checkId]
  | contradiction r => [.contradiction r.contradictionId, .contradictionOfCheck r.checkId]
  | externalResponseSnapshot r => [.externalResponseSnapshot r.snapshotId]

/-- The keys its foreign keys point at. -/
def references : Row → List Key
  | tenant _ => []
  | product r => [.tenant r.tenantId]
  | applicant r => [.tenant r.tenantId]
  | application r => [.tenant r.tenantId, .applicant r.applicantId, .product r.productId]
  | applicationVersion r => [.application r.applicationId, .tenant r.tenantId]
  | outboxEvent _ => []
  | idempotencyKey _ => []
  | auditEvent _ => []
  | auditHash _ => []
  | document r => [.tenant r.tenantId, .application r.applicationId]
  | reviewQueueEntry r => [.tenant r.tenantId]
  | extractionRun r => [.tenant r.tenantId, .application r.applicationId, .document r.documentId]
  | extractedFact r =>
      [.extractionRun r.runId, .tenant r.tenantId, .application r.applicationId,
       .document r.documentId]
  | verificationRun r => [.tenant r.tenantId, .application r.applicationId]
  | verificationCheck r =>
      [.verificationRun r.runId, .tenant r.tenantId, .application r.applicationId]
  | contradiction r => [.verificationCheck r.checkId, .tenant r.tenantId,
      .application r.applicationId]
  | externalResponseSnapshot r =>
      [.verificationRun r.runId, .tenant r.tenantId, .application r.applicationId]

/-- The tenant the row belongs to, where row-level security is on. -/
def tenantId? : Row → Option TenantId
  | tenant _ => none
  | product r => some r.tenantId
  | applicant r => some r.tenantId
  | application r => some r.tenantId
  | applicationVersion r => some r.tenantId
  | outboxEvent r => some r.tenantId
  | idempotencyKey r => some r.tenantId
  | auditEvent r => some r.tenantId
  | auditHash r => some r.tenantId
  | document r => some r.tenantId
  | reviewQueueEntry r => some r.tenantId
  | extractionRun r => some r.tenantId
  | extractedFact r => some r.tenantId
  | verificationRun r => some r.tenantId
  | verificationCheck r => some r.tenantId
  | contradiction r => some r.tenantId
  | externalResponseSnapshot r => some r.tenantId

/-- `tenant_isolation`: whether the row can be seen and written under this tenant. -/
def visibleTo (t : TenantId) (r : Row) : Bool := r.tenantId?.all (· = t)

/-- The check constraints and the range of `NUMERIC(18, 2)`. -/
def check : Row → Option Fault
  | application r =>
      if 10 ^ 18 ≤ r.requestedAmount.minorUnits.natAbs then some .dataError
      else if 0 < r.requestedAmount.minorUnits ∧ 1 ≤ r.requestedTermMonths ∧ 1 ≤ r.version then none
      else some .integrityError
  | applicationVersion r =>
      if 10 ^ 18 ≤ r.requestedAmount.minorUnits.natAbs then some .dataError else none
  | document r => if 0 < r.sizeBytes then none else some .integrityError
  | reviewQueueEntry r =>
      if r.status = "pending" ∨ r.status = "decided" then none else some .integrityError
  | _ => none

end Row

/-! ### The tables -/

/-- **The database.** -/
structure Database where
  rows : List Row

namespace Row

def product? : Row → Option ProductRow
  | product r => some r
  | _ => none

def applicant? : Row → Option ApplicantRow
  | applicant r => some r
  | _ => none

def application? : Row → Option ApplicationRow
  | application r => some r
  | _ => none

def applicationVersion? : Row → Option ApplicationVersionRow
  | applicationVersion r => some r
  | _ => none

def outboxEvent? : Row → Option OutboxEventRow
  | outboxEvent r => some r
  | _ => none

def idempotencyKey? : Row → Option IdempotencyKeyRow
  | idempotencyKey r => some r
  | _ => none

def auditEvent? : Row → Option AuditEventRow
  | auditEvent r => some r
  | _ => none

def auditHash? : Row → Option AuditHashRow
  | auditHash r => some r
  | _ => none

def document? : Row → Option DocumentRow
  | document r => some r
  | _ => none

def reviewQueueEntry? : Row → Option ReviewQueueEntryRow
  | reviewQueueEntry r => some r
  | _ => none

def extractedFact? : Row → Option ExtractedFactRow
  | extractedFact r => some r
  | _ => none

def verificationRun? : Row → Option VerificationRunRow
  | verificationRun r => some r
  | _ => none

def verificationCheck? : Row → Option VerificationCheckRow
  | verificationCheck r => some r
  | _ => none

end Row

namespace Database

/-- What row-level security leaves for a tenant. -/
def visible (d : Database) (t : TenantId) : Database := ⟨d.rows.filter (Row.visibleTo t)⟩

def products (d : Database) : List ProductRow := d.rows.filterMap Row.product?
def applicants (d : Database) : List ApplicantRow := d.rows.filterMap Row.applicant?
def applications (d : Database) : List ApplicationRow := d.rows.filterMap Row.application?
def applicationVersions (d : Database) : List ApplicationVersionRow :=
  d.rows.filterMap Row.applicationVersion?
def outboxEvents (d : Database) : List OutboxEventRow := d.rows.filterMap Row.outboxEvent?
def idempotencyKeys (d : Database) : List IdempotencyKeyRow := d.rows.filterMap Row.idempotencyKey?
def auditEvents (d : Database) : List AuditEventRow := d.rows.filterMap Row.auditEvent?
def auditHashes (d : Database) : List AuditHashRow := d.rows.filterMap Row.auditHash?
def documents (d : Database) : List DocumentRow := d.rows.filterMap Row.document?
def reviewQueueEntries (d : Database) : List ReviewQueueEntryRow :=
  d.rows.filterMap Row.reviewQueueEntry?
def extractedFacts (d : Database) : List ExtractedFactRow := d.rows.filterMap Row.extractedFact?
def verificationRuns (d : Database) : List VerificationRunRow :=
  d.rows.filterMap Row.verificationRun?
def verificationChecks (d : Database) : List VerificationCheckRow :=
  d.rows.filterMap Row.verificationCheck?

/-- The row of an application. -/
def application? (d : Database) (a : ApplicationId) : Option ApplicationRow :=
  d.applications.find? fun r => r.applicationId = a

/-- The checkpoint of a tenant. -/
def auditHash? (d : Database) (t : TenantId) : Option AuditHashRow :=
  d.auditHashes.find? fun r => r.tenantId = t

/-- The review-queue entry of an application. -/
def reviewQueueEntry? (d : Database) (a : ApplicationId) : Option ReviewQueueEntryRow :=
  d.reviewQueueEntries.find? fun r => r.applicationId = a

/-- Whether a key is taken. -/
def has (d : Database) (k : Key) : Bool := d.rows.any fun r => r.keys.contains k

end Database

/-! ### Statements -/

/-- A statement that writes.  An update names the row as the session had loaded it and as it is
to be. -/
inductive Statement
  | insert (row : Row)
  | updateApplication (loaded changed : ApplicationRow)
  | updateAuditHash (loaded changed : AuditHashRow)
  | updateReviewQueueEntry (loaded changed : ReviewQueueEntryRow)

/-- A statement, and the tenant whose transaction it runs in. -/
structure Write where
  tenantId : TenantId
  statement : Statement

/-- The value of a column after an update: the current one where the session changed nothing. -/
def setColumn {α : Type} [DecidableEq α] (loaded changed current : α) : α :=
  if changed = loaded then current else changed

def ApplicationRow.update (current loaded changed : ApplicationRow) : ApplicationRow :=
  { current with
    status := setColumn loaded.status changed.status current.status
    version := setColumn loaded.version changed.version current.version
    updatedAt := setColumn loaded.updatedAt changed.updatedAt current.updatedAt
    requestedAmount := { current.requestedAmount with
      minorUnits := setColumn loaded.requestedAmount.minorUnits changed.requestedAmount.minorUnits
        current.requestedAmount.minorUnits }
    requestedTermMonths := setColumn loaded.requestedTermMonths changed.requestedTermMonths
      current.requestedTermMonths
    activeWorkflowId := setColumn loaded.activeWorkflowId changed.activeWorkflowId
      current.activeWorkflowId }

def AuditHashRow.update (current loaded changed : AuditHashRow) : AuditHashRow :=
  { current with
    latestEventId := setColumn loaded.latestEventId changed.latestEventId current.latestEventId
    latestHash := setColumn loaded.latestHash changed.latestHash current.latestHash
    updatedAt := setColumn loaded.updatedAt changed.updatedAt current.updatedAt }

def ReviewQueueEntryRow.update (current loaded changed : ReviewQueueEntryRow) :
    ReviewQueueEntryRow :=
  { current with
    status := setColumn loaded.status changed.status current.status
    decision := setColumn loaded.decision changed.decision current.decision
    reason := setColumn loaded.reason changed.reason current.reason
    reviewerId := setColumn loaded.reviewerId changed.reviewerId current.reviewerId
    decidedAt := setColumn loaded.decidedAt changed.decidedAt current.decidedAt }

namespace Statement

/-- What an update makes of a row: it changes the row with the primary key it names, if
row-level security lets it see that row. -/
def change (t : TenantId) : Statement → Row → Row
  | updateApplication loaded changed, .application r =>
      .application (if r.applicationId = loaded.applicationId ∧ r.tenantId = t
        then r.update loaded changed else r)
  | updateAuditHash loaded changed, .auditHash r =>
      .auditHash (if r.tenantId = loaded.tenantId ∧ r.tenantId = t
        then r.update loaded changed else r)
  | updateReviewQueueEntry loaded changed, .reviewQueueEntry r =>
      .reviewQueueEntry (if r.applicationId = loaded.applicationId ∧ r.tenantId = t
        then r.update loaded changed else r)
  | _, r => r

/-- The row an insert adds. -/
def inserted? : Statement → Option Row
  | insert row => some row
  | _ => none

/-- The keys a statement takes, or locks because it writes the row that has them. -/
def locks : Statement → List Key
  | insert row => row.keys
  | updateApplication loaded _ => [.application loaded.applicationId]
  | updateAuditHash loaded _ => [.auditHash loaded.tenantId]
  | updateReviewQueueEntry loaded _ => [.reviewQueueEntry loaded.applicationId]

/-- What must not be there yet. -/
def absent : Statement → List Key
  | insert row => row.keys
  | _ => []

/-- What must be there: the rows its foreign keys point at, or the row it updates. -/
def present (t : TenantId) : Statement → List Key
  | insert row => row.references
  | updateApplication loaded _ => [.applicationOf t loaded.applicationId]
  | updateAuditHash _ _ => [.auditHash t]
  | updateReviewQueueEntry loaded _ => [.reviewQueueEntryOf t loaded.applicationId]

/-- The fault a statement has whatever the rows are. -/
def staticFault (t : TenantId) : Statement → Option Fault
  | insert row => if row.visibleTo t then row.check else some .programmingError
  | updateApplication _ changed => (Row.application changed).check
  | updateAuditHash loaded _ => if loaded.tenantId = t then none else some .staleDataError
  | updateReviewQueueEntry _ changed => (Row.reviewQueueEntry changed).check

/-- The fault of a statement whose rows are not there: a foreign key, or an update of nothing. -/
def missingFault : Statement → Fault
  | insert _ => .integrityError
  | _ => .staleDataError

end Statement

namespace Database

/-- The effect of a statement. -/
def apply (d : Database) (w : Write) : Database :=
  ⟨d.rows.map (w.statement.change w.tenantId) ++ w.statement.inserted?.toList⟩

/-- Why a statement is refused. -/
def fault (d : Database) (w : Write) : Option Fault :=
  match w.statement.staticFault w.tenantId with
  | some f => some f
  | none =>
      if w.statement.absent.any d.has then some .integrityError
      else if (w.statement.present w.tenantId).all d.has then none
      else some w.statement.missingFault

end Database

@[simp] theorem Statement.change_keys (t : TenantId) (s : Statement) (r : Row) :
    (s.change t r).keys = r.keys := by
  cases s <;> cases r <;> simp only [Statement.change, Row.keys]
  all_goals split <;> rfl

@[simp] theorem Statement.change_tenantId? (t : TenantId) (s : Statement) (r : Row) :
    (s.change t r).tenantId? = r.tenantId? := by
  cases s <;> cases r <;> simp only [Statement.change, Row.tenantId?]
  all_goals split <;> rfl

theorem Database.has_iff {d : Database} {k : Key} :
    d.has k = true ↔ ∃ r ∈ d.rows, k ∈ r.keys := by
  simp [Database.has, List.any_eq_true]

/-- A key is taken after a statement when it was before or the statement inserted it. -/
theorem Database.has_apply {d : Database} {w : Write} {k : Key} :
    (d.apply w).has k = true ↔ d.has k = true ∨ ∃ r ∈ w.statement.inserted?, k ∈ r.keys := by
  simp only [Database.has_iff, Database.apply, List.mem_append, List.mem_map, Option.mem_toList]
  constructor
  · rintro ⟨r, ⟨r', hr', rfl⟩ | hr, hk⟩
    · exact Or.inl ⟨r', hr', by simpa using hk⟩
    · exact Or.inr ⟨r, hr, hk⟩
  · rintro (⟨r, hr, hk⟩ | ⟨r, hr, hk⟩)
    · exact ⟨_, Or.inl ⟨r, hr, rfl⟩, by simpa using hk⟩
    · exact ⟨r, Or.inr hr, hk⟩

/-- **PostgreSQL**, for the statements of this program. -/
def postgres : Schema Database Write Fault Key where
  apply := Database.apply
  fault := Database.fault
  locks w := w.statement.locks
  Occupied k d := d.has k = true
  occupied_apply := by
    intro d w k hk
    rw [Database.has_apply]
    constructor
    · rintro (h | ⟨r, hr, hkr⟩)
      · exact h
      · cases hs : w.statement <;> simp_all [Statement.inserted?, Statement.locks]
    · exact Or.inl

/-! ### Which statements are granted, and what keys they take -/

theorem fault_eq_none_iff {d : Database} {w : Write} :
    postgres.fault d w = none ↔
      w.statement.staticFault w.tenantId = none ∧
      (∀ k ∈ w.statement.absent, d.has k = false) ∧
      ∀ k ∈ w.statement.present w.tenantId, d.has k = true := by
  simp only [postgres, Database.fault]
  split
  next f hf => simp [hf]
  next hf =>
    simp only [hf, true_and]
    split
    next h =>
      simp only [reduceCtorEq, false_iff, not_and]
      intro hall
      obtain ⟨k, hk, hd⟩ := List.any_eq_true.1 h
      simp [hall k hk] at hd
    next h =>
      have habsent : ∀ k ∈ w.statement.absent, d.has k = false := by
        intro k hk
        by_contra hd
        exact h (List.any_eq_true.2 ⟨k, hk, by simpa using hd⟩)
      split
      next hall => exact ⟨fun _ => ⟨habsent, by simpa using hall⟩, fun _ => rfl⟩
      next hall =>
        simp only [reduceCtorEq, false_iff, not_and]
        intro _ hpresent
        exact hall (List.all_eq_true.2 hpresent)

/-- What is taken cannot be inserted. -/
theorem fault_of_taken {d : Database} {w : Write} {k : Key}
    (hstatic : w.statement.staticFault w.tenantId = none) (hk : k ∈ w.statement.absent)
    (h : d.has k = true) : postgres.fault d w = some .integrityError := by
  have hany : w.statement.absent.any d.has = true := List.any_eq_true.2 ⟨k, hk, h⟩
  simp only [postgres, Database.fault, hstatic, hany, if_true]

/-- **The keys taken after a list of statements.** -/
theorem occupied_view_iff {ws : List Write} {d : Database} {k : Key} :
    (postgres.view d ws).has k = true ↔
      d.has k = true ∨ ∃ w ∈ ws, ∃ r ∈ w.statement.inserted?, k ∈ r.keys := by
  induction ws generalizing d with
  | nil => simp
  | cons w ws ih =>
      rw [Schema.view_cons, ih, show postgres.apply d w = d.apply w from rfl, Database.has_apply]
      simp only [List.mem_cons, exists_eq_or_imp, or_assoc]

theorem has_view_of_has {ws : List Write} {d : Database} {k : Key} (h : d.has k = true) :
    (postgres.view d ws).has k = true :=
  occupied_view_iff.2 (Or.inl h)

/-! ### The tables after a list of statements -/

/-- **A table that is only inserted into grows by what is inserted**, in that order. -/
theorem filterMap_view {β : Type} (π : Row → Option β)
    (hπ : ∀ t s r, π (Statement.change t s r) = π r) (ws : List Write) (d : Database) :
    (postgres.view d ws).rows.filterMap π =
      d.rows.filterMap π ++ ws.filterMap fun w => w.statement.inserted?.bind π := by
  induction ws generalizing d with
  | nil => simp
  | cons w ws ih =>
      have hkeep : π ∘ w.statement.change w.tenantId = π := funext fun r => hπ _ _ r
      have happly : (d.apply w).rows.filterMap π =
          d.rows.filterMap π ++ (w.statement.inserted?.bind π).toList := by
        simp only [Database.apply, List.filterMap_append, List.filterMap_map, hkeep]
        cases w.statement.inserted? with
        | none => rfl
        | some r => cases h : π r <;> simp [h]
      rw [Schema.view_cons, ih, show postgres.apply d w = d.apply w from rfl, happly,
        List.filterMap_cons, List.append_assoc]
      cases w.statement.inserted?.bind π <;> rfl

end FinAssist
