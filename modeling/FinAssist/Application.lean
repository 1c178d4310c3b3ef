/-
**The application aggregate.**

`finassist.domain.applications`: money, products, applicants, the exceptions, the domain events
and the aggregate root itself.  A value whose constructor checks something carries what was
checked, so that only values the program can build are values here; the constructor is the
function that returns them or the exception.

Main definitions:

* `FinAssist.Error` — the exceptions of the program;
* `FinAssist.Money`, `FinAssist.Product`, `FinAssist.Applicant`;
* `FinAssist.DomainEvent` — what happened to an application;
* `FinAssist.Application` — **the aggregate**, with `Application.create` and
  `Application.transitionTo`, the only function that changes its status.

Main results:

* `FinAssist.Application.transitionTo_ok` — what a transition that succeeds leaves behind;
* `FinAssist.Application.transitionTo_error` — the only exception it raises.
-/

import FinAssist.ApplicationStatus
import FinAssist.Identifiers
import Mathlib.Data.Int.Notation

set_option relaxedAutoImplicit false
set_option autoImplicit false

namespace FinAssist

/-! ### Exceptions -/

/-- Why the database refuses a statement, as SQLAlchemy reports it. -/
inductive Fault
  | integrityError
  | programmingError
  | dataError
  | staleDataError
  deriving DecidableEq

/-- **The exceptions**, with the data they carry. -/
inductive Error
  | illegalStateTransition (source target : ApplicationStatus)
  | concurrencyConflict (applicationId : ApplicationId) (expectedVersion actualVersion : ℕ)
  | invalidApplicationData (text : String)
  | applicationNotFound (applicationId : ApplicationId)
  | productNotFound (productId : ProductId)
  | productRejectedRequest (productId : ProductId) (amount : String) (termMonths : ℤ)
  | noActiveWorkflow (applicationId : ApplicationId)
  | duplicateRequest (operationName key : String)
  | unsupportedCurrency (currency : String)
  | valueError (text : String)
  | lookupError (text : String)
  | overflowError (text : String)
  | documentNotFound (documentId : String)
  | unsupportedDocumentType (contentType : String)
  | extractionFailed (documentId reason : String)
  | documentTooLarge (sizeBytes maxSizeBytes : ℕ)
  | pageLimitExceeded (pageCount maxPages : ℕ)
  | malwareDetected (key : String)
  | database (fault : Fault)
  /-- Any other exception of an external system. -/
  | external (text : String)
  /-- The process died. -/
  | crashed
  deriving DecidableEq

/-- The exceptions an external system raises: none of the aggregate, of a handler or of the unit
of work. -/
def Error.isExternal : Error → Bool
  | valueError _ => true
  | overflowError _ => true
  | unsupportedDocumentType _ => true
  | extractionFailed _ _ => true
  | documentTooLarge _ _ => true
  | pageLimitExceeded _ _ => true
  | malwareDetected _ => true
  | external _ => true
  | _ => false

/-- An exception of an external system. -/
abbrev PortError := { e : Error // e.isExternal = true }

/-- `repr(s)` of a string whose characters above ASCII are printable. -/
def pyRepr (s : String) : String :=
  let cs := s.toList
  let quote : Char := if cs.contains '\'' && !cs.contains '"' then '"' else '\''
  let hex (n : ℕ) : List Char := "0123456789abcdef".toList.drop n |>.take 1
  let escape (c : Char) : List Char :=
    if c = quote ∨ c = '\\' then ['\\', c]
    else if c = '\n' then ['\\', 'n']
    else if c = '\r' then ['\\', 'r']
    else if c = '\t' then ['\\', 't']
    else if c.toNat < 32 ∨ c.toNat = 127 then
      ['\\', 'x'] ++ hex (c.toNat / 16) ++ hex (c.toNat % 16)
    else [c]
  String.ofList (quote :: cs.flatMap escape ++ [quote])

/-! ### Money -/

/-- `_SUPPORTED_CURRENCIES`. -/
inductive Currency
  | usd
  | eur
  deriving DecidableEq

def Currency.code : Currency → String
  | usd => "USD"
  | eur => "EUR"

def Currency.ofCode? (code : String) : Option Currency :=
  if code = "USD" then some usd else if code = "EUR" then some eur else none

/-- An amount, quantized to the minor unit of its currency (both currencies have two digits), in
that unit. -/
structure Money where
  minorUnits : ℤ
  currency : Currency
  deriving DecidableEq

namespace Money

def isNegative (m : Money) : Bool := m.minorUnits < 0

def isZero (m : Money) : Bool := m.minorUnits = 0

/-- `str(money.amount)`. -/
def amountText (m : Money) : String :=
  (if m.minorUnits < 0 then "-" else "") ++ toString (m.minorUnits.natAbs / 100) ++ "." ++
    zeroPad 2 (m.minorUnits.natAbs % 100)

end Money

/-! ### Products -/

/-- The catalog bounds of a lending product. -/
structure Product where
  productId : ProductId
  code : String
  name : String
  currency : Currency
  minAmount : Money
  maxAmount : Money
  minTermMonths : ℤ
  maxTermMonths : ℤ
  isActive : Bool
  currency_eq : minAmount.currency = currency ∧ maxAmount.currency = currency
  amount_le : minAmount.minorUnits ≤ maxAmount.minorUnits
  term_pos : 1 ≤ minTermMonths
  term_le : minTermMonths ≤ maxTermMonths

/-- `Product.accepts`.  The currencies are compared before the amounts are, so the comparison of
amounts raises nothing. -/
def Product.accepts (p : Product) (amount : Money) (termMonths : ℤ) : Bool :=
  if !p.isActive then false
  else if amount.currency ≠ p.currency then false
  else (p.minAmount.minorUnits ≤ amount.minorUnits ∧ amount.minorUnits ≤ p.maxAmount.minorUnits) &&
    (p.minTermMonths ≤ termMonths ∧ termMonths ≤ p.maxTermMonths)

/-! ### Applicants -/

/-- Whether `s.strip()` is empty. -/
def isBlankText (s : String) : Bool :=
  s.toList.all fun c => c.toNat = 32 || (9 ≤ c.toNat && c.toNat ≤ 13) ||
    (28 ≤ c.toNat && c.toNat ≤ 31) || Uuid.wideSpaces.contains c.toNat

structure Applicant where
  applicantId : ApplicantId
  tenantId : TenantId
  givenName : String
  familyName : String
  dateOfBirth : Date
  email : String
  givenName_nonblank : isBlankText givenName = false
  familyName_nonblank : isBlankText familyName = false
  email_at : email.toList.contains '@' = true

/-- `Applicant(…)`. -/
def Applicant.of (applicantId : ApplicantId) (tenantId : TenantId)
    (givenName familyName : String) (dateOfBirth : Date) (email : String) :
    Except Error Applicant :=
  if hg : isBlankText givenName = false then
    if hf : isBlankText familyName = false then
      if he : email.toList.contains '@' = true then
        .ok ⟨applicantId, tenantId, givenName, familyName, dateOfBirth, email, hg, hf, he⟩
      else .error (.valueError ("applicant email " ++ pyRepr email ++ " is not a valid address"))
    else .error (.valueError "applicant family_name must not be blank")
  else .error (.valueError "applicant given_name must not be blank")

/-! ### Domain events -/

/-- `DomainEvent` and its subclasses. -/
inductive DomainEvent
  | applicationCreated (applicationId : ApplicationId) (tenantId : TenantId)
      (occurredAt : DateTime) (productId : String)
  | applicationStateChanged (applicationId : ApplicationId) (tenantId : TenantId)
      (occurredAt : DateTime) (previousStatus newStatus : ApplicationStatus) (reason : String)
      (version : ℕ)
  | documentUploaded (applicationId : ApplicationId) (tenantId : TenantId)
      (occurredAt : DateTime) (documentId documentType objectKey : String)
  deriving DecidableEq

namespace DomainEvent

def applicationId : DomainEvent → ApplicationId
  | applicationCreated a _ _ _ => a
  | applicationStateChanged a _ _ _ _ _ _ => a
  | documentUploaded a _ _ _ _ _ => a

def tenantId : DomainEvent → TenantId
  | applicationCreated _ t _ _ => t
  | applicationStateChanged _ t _ _ _ _ _ => t
  | documentUploaded _ t _ _ _ _ => t

def occurredAt : DomainEvent → DateTime
  | applicationCreated _ _ at' _ => at'
  | applicationStateChanged _ _ at' _ _ _ _ => at'
  | documentUploaded _ _ at' _ _ _ => at'

end DomainEvent

/-! ### The aggregate -/

/-- **`Application`.** -/
structure Application where
  applicationId : ApplicationId
  tenantId : TenantId
  applicantId : ApplicantId
  productId : ProductId
  requestedAmount : Money
  requestedTermMonths : ℤ
  status : ApplicationStatus
  version : ℕ
  createdAt : DateTime
  updatedAt : DateTime
  activeWorkflowId : Option String
  pendingEvents : List DomainEvent
  deriving DecidableEq

namespace Application

/-- `Application.create`; `now` is what the clock says. -/
def create (applicationId : ApplicationId) (tenantId : TenantId) (applicantId : ApplicantId)
    (product : Product) (requestedAmount : Money) (requestedTermMonths : ℤ) (now : DateTime) :
    Except Error Application :=
  if requestedAmount.isNegative || requestedAmount.isZero then
    .error (.valueError "requested_amount must be positive")
  else if requestedTermMonths < 1 then
    .error (.valueError "requested_term_months must be at least 1")
  else
    .ok {
      applicationId, tenantId, applicantId
      productId := product.productId
      requestedAmount, requestedTermMonths
      status := .draft
      version := 1
      createdAt := now
      updatedAt := now
      activeWorkflowId := none
      pendingEvents := [.applicationCreated applicationId tenantId now product.productId.value] }

/-- **`Application.transition_to`**: `now` is what the clock says. -/
def transitionTo (application : Application) (newStatus : ApplicationStatus) (reason : String)
    (now : DateTime) : Except Error Application :=
  if isLegalTransition application.status newStatus then
    .ok { application with
      status := newStatus
      version := application.version + 1
      updatedAt := now
      pendingEvents := application.pendingEvents ++
        [.applicationStateChanged application.applicationId application.tenantId now
          application.status newStatus reason (application.version + 1)] }
  else .error (.illegalStateTransition application.status newStatus)

/-- `Application.submit`. -/
def submit (application : Application) (now : DateTime) : Except Error Application :=
  application.transitionTo .submitted "applicant submitted" now

/-- `Application.attach_workflow`. -/
def attachWorkflow (application : Application) (workflowId : String) : Application :=
  { application with activeWorkflowId := some workflowId }

/-- `Application.detach_workflow`. -/
def detachWorkflow (application : Application) : Application :=
  { application with activeWorkflowId := none }

/-- `Application.pull_events`: the events, and the aggregate without them. -/
def pullEvents (application : Application) : List DomainEvent × Application :=
  (application.pendingEvents, { application with pendingEvents := [] })

theorem transitionTo_ok {application moved : Application} {newStatus : ApplicationStatus}
    {reason : String} {now : DateTime}
    (h : application.transitionTo newStatus reason now = .ok moved) :
    isLegalTransition application.status newStatus = true ∧
      moved = { application with
        status := newStatus
        version := application.version + 1
        updatedAt := now
        pendingEvents := application.pendingEvents ++
          [.applicationStateChanged application.applicationId application.tenantId now
            application.status newStatus reason (application.version + 1)] } := by
  unfold transitionTo at h
  split at h
  · exact ⟨‹_›, (Except.ok.inj h).symm⟩
  · cases h

theorem transitionTo_error {application : Application} {newStatus : ApplicationStatus}
    {reason : String} {now : DateTime} {e : Error}
    (h : application.transitionTo newStatus reason now = .error e) :
    isLegalTransition application.status newStatus = false ∧
      e = .illegalStateTransition application.status newStatus := by
  unfold transitionTo at h
  split at h
  · cases h
  · exact ⟨eq_false_of_ne_true ‹¬ _›, (Except.error.inj h).symm⟩

end Application

end FinAssist
