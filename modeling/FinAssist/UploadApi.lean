/-
**Uploading a document over HTTP.**

`POST /applications/{application_id}/documents` runs `UploadDocumentHandler`, and an exception that
leaves the handler is mapped to a problem response by a table of exceptions.  The exceptions of the
documents are not in the table: every rejection of a file, by the scanner or by the store of
objects, is answered as an internal server error.  So is a text that the database cannot store, and
then the object is already in the store of objects.  What the upload changes in the database is
changed by its commit, so a rejected upload changes nothing there.

Main definitions:

* `FinAssist.domainException` — the table of exceptions;
* `FinAssist.prepareUpload`, `storeUpload`, `finishUpload` — the handler, piece by piece;
* `FinAssist.upload` — **a request, with nothing else running**.

Main results:

* `FinAssist.domainException_of_isExternal` — no exception of an adapter is in the table;
* `FinAssist.alone_uploadDocument_accepted`, `alone_uploadDocument_rejected` — **what becomes of an
  upload**;
* `FinAssist.upload_proper_iff` — which uploads get a proper response.
-/

import FinAssist.Adapters
import FinAssist.StoredTexts
import FinAssist.UuidSpellings

set_option relaxedAutoImplicit false
set_option autoImplicit false

namespace FinAssist

open ReadCommitted

/-! ### Problem details -/

/-- `ProblemDetail`, as far as it depends on the exception. -/
structure ProblemDetail where
  title : String
  detail : String
  code : String
  deriving DecidableEq

structure Response where
  status : ℕ
  problem : Option ProblemDetail
  deriving DecidableEq

/-- `_DOMAIN_EXCEPTION_STATUS`, with the name and the text of the exception; nothing for an
exception that is not in the table. -/
def domainException : Error → Option (ℕ × ProblemDetail)
  | .applicationNotFound a => some (404, ⟨"ApplicationNotFoundError",
      "application " ++ a.value ++ " does not exist", "application_not_found"⟩)
  | .productNotFound p => some (404, ⟨"ProductNotFoundError",
      "product " ++ p.value ++ " does not exist", "product_not_found"⟩)
  | .duplicateRequest operationName key => some (409, ⟨"DuplicateRequestError",
      "operation " ++ pyRepr operationName ++ " already processed for idempotency key " ++
        pyRepr key, "duplicate_request"⟩)
  | .concurrencyConflict a expectedVersion actualVersion => some (409, ⟨"ConcurrencyConflictError",
      "application " ++ a.value ++ " version conflict: expected " ++ toString expectedVersion ++
        ", found " ++ toString actualVersion, "concurrency_conflict"⟩)
  | .illegalStateTransition source target => some (409, ⟨"IllegalStateTransitionError",
      "cannot transition application from " ++ source.value ++ " to " ++ target.value,
      "illegal_state_transition"⟩)
  | .noActiveWorkflow a => some (409, ⟨"NoActiveWorkflowError",
      "application " ++ a.value ++ " has no active workflow to signal", "no_active_workflow"⟩)
  | .productRejectedRequest p amount termMonths => some (422, ⟨"ProductRejectedRequestError",
      "product " ++ p.value ++ " does not accept amount=" ++ amount ++ " term_months=" ++
        toString termMonths, "product_rejected_request"⟩)
  | .invalidApplicationData text => some (422, ⟨"InvalidApplicationDataError", text,
      "invalid_application_data"⟩)
  | _ => none

/-- `_handle_unexpected_error`. -/
def internalServerError : Response :=
  ⟨500, some ⟨"Internal Server Error",
    "An unexpected error occurred. This has been logged for investigation.",
    "internal_server_error"⟩⟩

/-- The response to an exception. -/
def problemResponse (e : Error) : Response :=
  match domainException e with
  | some (status, problem) => ⟨status, some problem⟩
  | none => internalServerError

/-- The response of a route that returns. -/
def respond {α : Type} (created : ℕ) : Except Error α → Response
  | .ok _ => ⟨created, none⟩
  | .error e => problemResponse e

/-- A response of success, or of a problem of the client, with its code. -/
def Response.IsProper (r : Response) : Prop :=
  r.status = 201 ∨ 400 ≤ r.status ∧ r.status < 500 ∧
    ∃ problem, r.problem = some problem ∧ problem.code ≠ "internal_server_error"

/-- **The codes of the table are those of the client's problems.** -/
theorem domainException_proper {e : Error} {status : ℕ} {problem : ProblemDetail}
    (h : domainException e = some (status, problem)) :
    400 ≤ status ∧ status < 500 ∧ problem.code ≠ "internal_server_error" := by
  cases e <;> simp only [domainException, Option.some.injEq, Prod.mk.injEq, reduceCtorEq] at h <;>
    obtain ⟨rfl, rfl⟩ := h <;> exact ⟨by norm_num, by norm_num, by simp⟩

/-- **No exception of an adapter is in the table.** -/
theorem domainException_of_isExternal {e : Error} (h : e.isExternal = true) :
    domainException e = none := by
  cases e <;> first | rfl | cases h

theorem not_isProper_internalServerError : ¬ internalServerError.IsProper := by
  rintro (h | ⟨-, h, -⟩)
  · cases h
  · exact absurd h (by decide)

/-- **The exceptions of the table have a proper response**, and no others. -/
theorem isProper_problemResponse_iff {e : Error} :
    (problemResponse e).IsProper ↔ domainException e ≠ none := by
  rw [problemResponse]
  cases h : domainException e with
  | none =>
      exact ⟨fun hproper => absurd hproper not_isProper_internalServerError,
        fun hne => absurd rfl hne⟩
  | some answer =>
      obtain ⟨hlow, hhigh, hcode⟩ := domainException_proper h
      exact ⟨fun _ => Option.some_ne_none _, fun _ => Or.inr ⟨hlow, hhigh, _, rfl, hcode⟩⟩

/-! ### The route -/

/-- A request to upload a document; `contentLength` is the header, if it is a number. -/
structure UploadRequest where
  tenantId : TenantId
  applicationId : ApplicationId
  idempotencyKey : String
  documentType : String
  filename : String
  contentType : Option String
  data : List UInt8
  contentLength : Option ℤ

namespace UploadRequest

/-- `file.filename or "document"`. -/
def name (request : UploadRequest) : String :=
  if request.filename = "" then "document" else request.filename

/-- `file.content_type or "application/octet-stream"`. -/
def declaredContentType (request : UploadRequest) : String :=
  match request.contentType with
  | none => "application/octet-stream"
  | some contentType => if contentType = "" then "application/octet-stream" else contentType

/-- The command of the route. -/
def command (request : UploadRequest) : UploadDocumentCommand :=
  ⟨request.tenantId, request.applicationId, request.idempotencyKey, request.documentType,
    request.name, request.declaredContentType, request.data⟩

/-- `RequestSizeLimitMiddleware`: whether the request is refused for its size. -/
def isTooLarge (maxBytes : ℕ) (request : UploadRequest) : Bool :=
  decide ((maxBytes : ℤ) < request.contentLength.getD 0)

end UploadRequest

def requestBodyTooLarge (maxBytes : ℕ) : Response :=
  ⟨413, some ⟨"Payload Too Large", "Request body exceeds the " ++ toString maxBytes ++
    "-byte limit.", "request_body_too_large"⟩⟩

/-- `_handle_validation_error`. -/
def requestValidationFailed : Response :=
  ⟨422, some ⟨"Request Validation Failed", "One or more request fields failed validation.",
    "request_validation_failed"⟩⟩

theorem isProper_requestBodyTooLarge (maxBytes : ℕ) : (requestBodyTooLarge maxBytes).IsProper :=
  Or.inr ⟨by norm_num [requestBodyTooLarge], by norm_num [requestBodyTooLarge], _, rfl, by simp⟩

theorem isProper_requestValidationFailed : requestValidationFailed.IsProper :=
  Or.inr ⟨by norm_num [requestValidationFailed], by norm_num [requestValidationFailed], _, rfl,
    by simp⟩

/-- What the framework refuses by itself before the route runs: a body that it does not parse, as
one with a field that is too long, and parts or headers that fail the validation. -/
inductive Refusal
  | malformed
  | invalid
  deriving DecidableEq

/-- The response to a refusal: there is no handler for `HTTPException`, so its response is no
problem response. -/
def Refusal.response : Refusal → Response
  | malformed => ⟨400, none⟩
  | invalid => requestValidationFailed

theorem not_isProper_malformed : ¬ Refusal.malformed.response.IsProper := by
  rintro (h | ⟨-, -, problem, h, -⟩) <;> cases h

/-- What there is after a request. -/
structure Served where
  response : Response
  db : Database
  objects : Objects

/-- **A request to upload a document**, with nothing else running; `refuses` is the framework. -/
def upload {σ : Type} (maxBytes : ℕ) (refuses : UploadRequest → Option Refusal)
    (S : FileSafetyScanner) (O : ObjectStore) (E : Environment Answer σ) (request : UploadRequest)
    (s : σ) (objects : Objects) (d : Database) : Served :=
  if request.isTooLarge maxBytes then ⟨requestBodyTooLarge maxBytes, d, objects⟩
  else
    match refuses request with
    | some refusal => ⟨refusal.response, d, objects⟩
    | none =>
        let outcome := (uploadDocument request.command).alone postgresTexts (adapters S O E)
          (s, objects) d []
        ⟨respond 201 outcome.result, outcome.db, outcome.env.2⟩

/-! ### The handler, piece by piece -/

/-- What an upload does before it stores the object. -/
def prepareUpload (command : UploadDocumentCommand) : Handler (FileSafetyReport × Uuid4) := do
  requireReservation command.tenantId command.idempotencyKey uploadDocumentOperation
  let _ ← requireApplication command.tenantId command.applicationId
  let scanned ← Handler.ask (.scan command.data command.filename command.contentType)
  let safetyReport ← Handler.ofPort scanned
  let documentId ← newId
  pure (safetyReport, documentId)

/-- And after it has stored the object. -/
def finishUpload (command : UploadDocumentCommand) (documentId : Uuid4)
    (metadata : ObjectMetadata) : Handler UploadDocumentResult := do
  let objectKey := objectKeyOf command.applicationId documentId.value command.filename
  let at' ← now
  addDocument command.tenantId
    ⟨documentId.value, command.tenantId, command.applicationId, command.documentType, objectKey,
      metadata.checksumSha256, metadata.sizeBytes, at'⟩
  recordDomainEvents command.tenantId
    [.documentUploaded command.applicationId command.tenantId at' documentId.value
      command.documentType objectKey]
  Handler.commit
  pure ⟨documentId.value, command.applicationId, objectKey, metadata.checksumSha256⟩

/-- The object is stored in between. -/
def storeUpload (command : UploadDocumentCommand) (safetyReport : FileSafetyReport)
    (documentId : Uuid4) : Handler UploadDocumentResult := do
  let stored ← Handler.ask (.putObject command.tenantId
    (objectKeyOf command.applicationId documentId.value command.filename) command.data
    safetyReport.detectedContentType)
  let metadata ← Handler.ofPort stored
  finishUpload command documentId metadata

theorem uploadDocument_eq (command : UploadDocumentCommand) :
    uploadDocument command = prepareUpload command >>= fun prepared =>
      storeUpload command prepared.1 prepared.2 := by
  simp only [uploadDocument, prepareUpload, storeUpload, finishUpload, bind_assoc, pure_bind]

/-- Whether the row of an upload can be stored: its type and its name have no NUL character, and its
size is the number of an `INTEGER` column. -/
def UploadDocumentCommand.isStorable (command : UploadDocumentCommand) : Bool :=
  FinAssist.isStorable command.documentType && FinAssist.isStorable command.filename &&
    command.data.length < 2 ^ 31

theorem isStorable_of_accepts {s : String} (h : Uuid.accepts s = true) : isStorable s = true := by
  have hnul := Uuid.not_mem_of_accepts h (c := Char.ofNat 0) (by decide) (by decide) (by decide)
  simp [isStorable, hnul]

/-- The ids in the key of an object have no NUL character. -/
theorem isStorable_objectKeyOf (a : ApplicationId) (documentId : Uuid4) (filename : String) :
    isStorable (objectKeyOf a documentId.value filename) = isStorable filename := by
  have hdirectory : isStorable "applications/" = true := by decide
  have hslash : isStorable "/" = true := by decide
  delta objectKeyOf
  simp only [isStorable_append, hdirectory, hslash, isStorable_of_accepts a.isUuid,
    isStorable_of_accepts (Uuid.accepts_of_isCanonical documentId), Bool.true_and]

section Upload

variable {σ : Type} {S : FileSafetyScanner} {O : ObjectStore} {E : Environment Answer σ} {s : σ}
  {objects : Objects} {d : Database} {ws : List Write} {command : UploadDocumentCommand}

/-- The row of an upload. -/
def documentWrite (command : UploadDocumentCommand) (documentId : Uuid4) (metadata : ObjectMetadata)
    (at' : DateTime) : Write :=
  ⟨command.tenantId, .insert (.document ⟨documentId.value, command.tenantId, command.applicationId,
    command.documentType, objectKeyOf command.applicationId documentId.value command.filename,
    metadata.checksumSha256, metadata.sizeBytes, at'⟩)⟩

theorem isStorable_documentWrite {metadata : ObjectMetadata} (documentId : Uuid4) (at' : DateTime)
    (hsize : metadata.sizeBytes = command.data.length) :
    (documentWrite command documentId metadata at').isStorable = command.isStorable := by
  simp [Write.isStorable, documentWrite, Statement.inserted?, Row.clientTexts, Row.clientSizes,
    isStorable_objectKeyOf, UploadDocumentCommand.isStorable, hsize]

/-! ### The handler, by itself -/

/-- What a command to upload needs of the state: the application is there. -/
structure Ready (d : Database) (command : UploadDocumentCommand) : Prop where
  wellFormed : WellFormed d
  application : ∃ row, d.application? command.applicationId = some row ∧
    row.tenantId = command.tenantId

theorem Ready.applicationRow? (h : Ready d command) :
    ∃ row, FinAssist.applicationRow? command.tenantId command.applicationId d = some row := by
  obtain ⟨row, hrow, ht⟩ := h.application
  refine ⟨row, ?_⟩
  rw [FinAssist.applicationRow?, (application?_visible h.wellFormed.keys).2 ⟨hrow, ht⟩]
  simp [Option.filter, ht]

theorem Ready.has (h : Ready d command) : d.has (.application command.applicationId) = true ∧
    d.has (.tenant command.tenantId) = true := by
  obtain ⟨row, hrow, ht⟩ := h.application
  obtain ⟨happlication, -, htenant, -⟩ := has_application h.wellFormed hrow
  exact ⟨happlication, ht ▸ htenant⟩

/-- A command whose key can be stored, and is not taken. -/
structure Unreserved (d : Database) (command : UploadDocumentCommand) : Prop where
  storable : isStorable command.idempotencyKey = true
  free : d.has (.idempotencyKey command.tenantId uploadDocumentOperation
    command.idempotencyKey) = false

/-- The reservation of an upload. -/
def reservation (E : Environment Answer σ) (s : σ) (command : UploadDocumentCommand) : Write :=
  reserveWrite command.tenantId uploadDocumentOperation command.idempotencyKey (timeOf E s)

/-- A key that cannot be stored. -/
theorem alone_uploadDocument_key (objects : Objects)
    (h : isStorable command.idempotencyKey = false) :
    (uploadDocument command).alone postgresTexts (adapters S O E) (s, objects) d [] =
      ⟨d, [], ((E s .now).2, objects), .error (.database .dataError)⟩ := by
  have hreserve := alone_requireReservation_refused (E := adapters S O E) (s := (s, objects))
    (d := d) (t := command.tenantId) uploadDocumentOperation h
  rw [uploadDocument, Prog.alone_bind_error hreserve]
  rfl

/-- A key that is taken. -/
theorem alone_uploadDocument_duplicate (objects : Objects)
    (hkey : isStorable command.idempotencyKey = true)
    (htaken : d.has (.idempotencyKey command.tenantId uploadDocumentOperation
      command.idempotencyKey) = true) :
    (uploadDocument command).alone postgresTexts (adapters S O E) (s, objects) d [] =
      ⟨d, [], ((E s .now).2, objects),
        .error (.duplicateRequest uploadDocumentOperation command.idempotencyKey)⟩ := by
  have hreserve := alone_postgresTexts (E := adapters S O E) (d := d) (inside_requireReservation
    (t := command.tenantId) uploadDocumentOperation hkey) (s, objects) []
  rw [alone_requireReservation, if_pos htaken] at hreserve
  rw [uploadDocument, Prog.alone_bind_error hreserve]
  rfl

/-- **How an upload begins**: the key is reserved, and the application is there. -/
theorem alone_uploadDocument_begin (objects : Objects) (h : Ready d command)
    (hfree : Unreserved d command) {α : Type} (f : ApplicationRow → Handler α) : ∃ row,
    (requireReservation command.tenantId command.idempotencyKey uploadDocumentOperation >>= fun _ =>
        requireApplication command.tenantId command.applicationId >>= f).alone postgresTexts
        (adapters S O E) (s, objects) d [] =
      (f row).alone postgresTexts (adapters S O E) ((E s .now).2, objects) d
        [reservation E s command] := by
  have hreserve := alone_postgresTexts (E := adapters S O E) (d := d) (inside_requireReservation
    (t := command.tenantId) uploadDocumentOperation hfree.storable) (s, objects) []
  rw [alone_requireReservation, if_neg (by simp [hfree.free])] at hreserve
  obtain ⟨row, hrow⟩ := h.applicationRow?
  have hinside : (requireApplication command.tenantId command.applicationId).Inside
      (fun _ => True) (fun _ => True) fun w => w.isStorable = true :=
    Prog.Inside.bind (fun _ => trivial) fun row => by cases row <;> trivial
  have hread : (requireApplication command.tenantId command.applicationId).alone postgresTexts
      (adapters S O E) ((E s .now).2, objects) d [reservation E s command] =
        ⟨d, [reservation E s command], ((E s .now).2, objects), .ok row⟩ := by
    rw [alone_postgresTexts hinside, alone_requireApplication, reservation,
      applicationRow?_reserved, hrow]
  exact ⟨row, by rw [Prog.alone_bind_ok hreserve]; exact Prog.alone_bind_ok hread⟩

/-- A file that the scanner rejects. -/
theorem alone_uploadDocument_rejected (h : Ready d command) (hfree : Unreserved d command)
    {e : Error} (hscan : S.scan command.data command.filename command.contentType = .error e) :
    (uploadDocument command).alone postgresTexts (adapters S O E) (s, objects) d [] =
      ⟨d, [reservation E s command], ((E s .now).2, objects), .error e⟩ := by
  have hanswer : asPort (S.scan command.data command.filename command.contentType) =
      .error ⟨e, FileSafetyScanner.isExternal_of_scan hscan⟩ := by
    rw [hscan, asPort_error]
  rw [uploadDocument]
  obtain ⟨row, hbegin⟩ := alone_uploadDocument_begin (S := S) (O := O) (E := E) (s := s)
    objects h hfree _
  rw [hbegin, Prog.alone_bind_ok rfl]
  simp only [adapters, hanswer]
  rfl

/-- A file that the scanner accepts is given a new id. -/
theorem alone_uploadDocument_scanned (h : Ready d command) (hfree : Unreserved d command)
    {report : FileSafetyReport}
    (hscan : S.scan command.data command.filename command.contentType = .ok report) :
    (uploadDocument command).alone postgresTexts (adapters S O E) (s, objects) d [] =
      (storeUpload command report (idOf E (E s .now).2)).alone postgresTexts (adapters S O E)
        ((E (E s .now).2 .newId).2, objects) d [reservation E s command] := by
  have hanswer : asPort (S.scan command.data command.filename command.contentType) =
      .ok report := by rw [hscan, asPort]
  have hprepare : (prepareUpload command).alone postgresTexts (adapters S O E) (s, objects) d [] =
      ⟨d, [reservation E s command], ((E (E s .now).2 .newId).2, objects),
        .ok (report, idOf E (E s .now).2)⟩ := by
    rw [prepareUpload]
    obtain ⟨row, hbegin⟩ := alone_uploadDocument_begin (S := S) (O := O) (E := E) (s := s)
      objects h hfree _
    rw [hbegin, Prog.alone_bind_ok rfl]
    simp only [adapters, hanswer]
    rfl
  rw [uploadDocument_eq, Prog.alone_bind_ok hprepare]

/-- The key of the object of an upload: it has the new id in it. -/
def uploadKey (E : Environment Answer σ) (s : σ) (command : UploadDocumentCommand) : String :=
  objectKeyOf command.applicationId (idOf E (E s .now).2).value command.filename

/-- A file that the store does not take. -/
theorem alone_storeUpload_refused (ws : List Write) {report : FileSafetyReport} {documentId : Uuid4} {e : Error}
    (hput : O.putObject objects command.tenantId
      (objectKeyOf command.applicationId documentId.value command.filename) command.data
      report.detectedContentType = (.error e, objects)) :
    e.isExternal = true ∧
    (storeUpload command report documentId).alone postgresTexts (adapters S O E) (s, objects) d ws =
      ⟨d, ws, (s, objects), .error e⟩ := by
  have hexternal : e.isExternal = true := by
    have hadapter := isAdapter_putObject O objects command.tenantId
      (objectKeyOf command.applicationId documentId.value command.filename) command.data
      report.detectedContentType
    rw [hput] at hadapter
    exact hadapter e rfl
  refine ⟨hexternal, ?_⟩
  rw [storeUpload, Prog.alone_bind_ok rfl]
  simp only [adapters, hput, asPort_error hexternal]
  rfl

/-- The object of an upload. -/
def storedObject (command : UploadDocumentCommand) (report : FileSafetyReport) : StoredObject :=
  ⟨command.data, report.detectedContentType, sha256Hexdigest command.data⟩

/-- What the store says of it. -/
def storedMetadata (command : UploadDocumentCommand) (documentId : Uuid4)
    (report : FileSafetyReport) : ObjectMetadata :=
  ⟨objectKeyOf command.applicationId documentId.value command.filename,
    sha256Hexdigest command.data, command.data.length, report.detectedContentType⟩

/-- A file that the store takes. -/
theorem alone_storeUpload {report : FileSafetyReport} {documentId : Uuid4} {name : String}
    (hname : scopedKey command.tenantId
      (objectKeyOf command.applicationId documentId.value command.filename) = .ok name)
    (htakes : O.takes name = true) :
    (storeUpload command report documentId).alone postgresTexts (adapters S O E) (s, objects) d ws =
      (finishUpload command documentId (storedMetadata command documentId report)).alone
        postgresTexts (adapters S O E) (s, (name, storedObject command report) :: objects) d
        ws := by
  have hput : O.putObject objects command.tenantId
      (objectKeyOf command.applicationId documentId.value command.filename) command.data
      report.detectedContentType = (.ok (storedMetadata command documentId report),
        (name, storedObject command report) :: objects) := by
    rw [ObjectStore.putObject, hname]
    simp only [htakes, if_true]
    rfl
  rw [storeUpload, Prog.alone_bind_ok rfl]
  simp only [adapters, hput, asPort]
  rfl

/-- **A row that cannot be stored** ends the upload, with the object in the store. -/
theorem alone_finishUpload_refused {E : Environment Answer σ} {documentId : Uuid4}
    {metadata : ObjectMetadata} (hsize : metadata.sizeBytes = command.data.length)
    (h : command.isStorable = false) :
    (finishUpload command documentId metadata).alone postgresTexts E s d ws =
      ⟨d, ws, (E s .now).2, .error (.database .dataError)⟩ := by
  have hfault : postgresTexts.fault (postgresTexts.view d ws)
      (documentWrite command documentId metadata (timeOf E s)) = some .dataError :=
    fault_postgresTexts_refused ((isStorable_documentWrite documentId _ hsize).trans h) _
  rw [finishUpload, Prog.alone_bind]
  simp only [now, Handler.ask, Prog.alone]
  rw [Prog.alone_bind, addDocument, execute, Prog.alone]
  simp only [documentWrite, timeOf] at hfault
  rw [hfault]
  rfl

/-- **A row that can be stored** is committed as it is without the refusals. -/
theorem alone_finishUpload_texts {E : Environment Answer σ} {documentId : Uuid4}
    {metadata : ObjectMetadata} (hsize : metadata.sizeBytes = command.data.length)
    (h : command.isStorable = true) :
    (finishUpload command documentId metadata).alone postgresTexts E s d ws =
      (finishUpload command documentId metadata).alone postgres E s d ws := by
  have hadd : ∀ at', (addDocument command.tenantId ⟨documentId.value, command.tenantId,
      command.applicationId, command.documentType,
      objectKeyOf command.applicationId documentId.value command.filename,
      metadata.checksumSha256, metadata.sizeBytes, at'⟩).Inside (fun _ => True) (fun _ => True)
        fun w => w.isStorable = true := by
    intro at'
    refine ⟨(isStorable_documentWrite documentId at' hsize).trans h, fun o => ?_⟩
    cases o <;> trivial
  have hrecord : ∀ events, (recordDomainEvents command.tenantId events).Inside (fun _ => True)
      (fun _ => True) fun w => w.isStorable = true := fun events =>
    (inside_recordDomainEvents events).mono (fun _ _ => trivial) (fun _ _ => trivial)
      fun _ hw => hw.isStorable
  exact Prog.alone_bind_congr rfl fun at' s d ws =>
    Prog.alone_bind_congr (alone_postgresTexts (hadd at') s ws) fun _ s d ws =>
      Prog.alone_bind_congr (alone_postgresTexts (hrecord _) s ws) fun _ _ _ _ => rfl

/-- The row of an upload with a new id goes through, and its event is recorded. -/
theorem alone_finishUpload {G : IdSource E} (h : Ready d command) {documentId : Uuid4}
    {metadata : ObjectMetadata} (hfit : Fit G d 1 s ws) (hused : G.used s documentId.value)
    (hfree : (postgres.view d ws).has (.document documentId.value) = false)
    (hsize : 0 < metadata.sizeBytes) : ∃ d' s' result,
    (finishUpload command documentId metadata).alone postgres E s d ws =
      ⟨d', [], s', .ok result⟩ := by
  obtain ⟨happlication, htenant⟩ := h.has
  have hinsert : postgres.fault (postgres.view d ws)
      (documentWrite command documentId metadata (timeOf E s)) = none := by
    refine Insertable.fault ⟨by simp [Row.visibleTo, Row.tenantId?], by simp [Row.check, hsize],
      ?_⟩ ?_
    · intro k hk
      simp only [Row.references, List.mem_cons, List.not_mem_nil, or_false] at hk
      rcases hk with rfl | rfl
      · exact has_view_of_has htenant
      · exact has_view_of_has happlication
    · intro k hk
      rw [Row.keys, List.mem_singleton] at hk
      rw [hk]
      exact hfree
  have hadded := (hfit.ask (n := 1) .now).exec hinsert (by
    rintro row' hrow' k hk id hid
    cases hrow'
    rw [List.mem_singleton.1 hk] at hid
    exact Option.some.inj hid ▸ G.kept _ _ _ hused)
  have htenants : ∀ event ∈ [DomainEvent.documentUploaded command.applicationId command.tenantId
      (timeOf E s) documentId.value command.documentType
      (objectKeyOf command.applicationId documentId.value command.filename)],
      event.tenantId = command.tenantId := by simp [DomainEvent.tenantId]
  obtain ⟨s', recording, hrun, -, -⟩ :=
    alone_recordDomainEvents (n := 0) hadded htenants (Or.inr le_rfl)
  rw [finishUpload, Prog.alone_bind_ok alone_now, addDocument,
    Prog.alone_bind_ok (alone_execute hinsert)]
  exact ⟨_, _, _, Prog.alone_bind_ok hrun⟩

/-- A scanned file is not empty. -/
theorem length_pos_of_passes {data : List UInt8} {filename contentType : String} {pages : ℕ}
    (h : S.Passes data filename contentType pages) : 0 < data.length := by
  cases data with
  | nil =>
      have hbytes := h.bytes
      simp [sniffContentType, magicBytesByContentType] at hbytes
  | cons b data => exact Nat.succ_pos _

/-- **A file that is accepted** is stored, and the upload is committed. -/
theorem alone_uploadDocument_accepted {G : IdSource E} (h : Ready d command)
    (hfree : Unreserved d command) (hinUse : InUse (G.used s) d) (hleft : 2 ≤ G.left s)
    {report : FileSafetyReport} {name : String}
    (hscan : S.scan command.data command.filename command.contentType = .ok report)
    (hname : scopedKey command.tenantId (uploadKey E s command) = .ok name)
    (htakes : O.takes name = true) (hstorable : command.isStorable = true) : ∃ d' env result,
    (uploadDocument command).alone postgresTexts (adapters S O E) (s, objects) d [] =
      ⟨d', [], env, .ok result⟩ := by
  have hbegun : Fit (G.adapters (S := S) (O := O)) d 2 ((E s .now).2, objects)
      [reservation E s command] :=
    Fit.begin (s := (s, objects)) hinUse hleft hfree.free
  -- the new id is in use nowhere, and from now on in use
  have hnew := hbegun.free (k := .document (idOf E (E s .now).2).value) rfl hbegun.new
  have hasked := hbegun.ask (n := 1) .newId
  have hstored : Fit (G.adapters (S := S) (O := O)) d 1 ((E (E s .now).2 .newId).2,
      (name, storedObject command report) :: objects) [reservation E s command] :=
    ⟨hasked.granted, hasked.inUse, hasked.left⟩
  have hsize : 0 < (storedMetadata command (idOf E (E s .now).2) report).sizeBytes :=
    length_pos_of_passes (FileSafetyScanner.scan_eq_ok_iff.1 hscan)
  obtain ⟨d', env, result, hfinish⟩ := alone_finishUpload h hstored (G.noted _) hnew hsize
  refine ⟨d', env, result, ?_⟩
  rw [alone_uploadDocument_scanned h hfree hscan, alone_storeUpload hname htakes,
    alone_finishUpload_texts rfl hstorable, hfinish]

/-- **What is needed of a file**: it passes the checks of the scanner, its key has no segment that
leads upwards, and the store takes it. -/
def Storable (S : FileSafetyScanner) (O : ObjectStore) (E : Environment Answer σ) (s : σ)
    (command : UploadDocumentCommand) : Prop :=
  ∃ contentType pages name, S.Passes command.data command.filename contentType pages ∧
    scopedKey command.tenantId (uploadKey E s command) = .ok name ∧ O.takes name = true

/-- A file that cannot be stored, or whose row cannot, ends the upload with an exception that is not
in the table. -/
theorem alone_uploadDocument_failed (objects : Objects) (h : Ready d command)
    (hfree : Unreserved d command)
    (hfile : ¬ (command.isStorable = true ∧ Storable S O E s command)) : ∃ env e,
    domainException e = none ∧
    (uploadDocument command).alone postgresTexts (adapters S O E) (s, objects) d [] =
      ⟨d, [reservation E s command], env, .error e⟩ := by
  cases hscan : S.scan command.data command.filename command.contentType with
  | error e =>
      exact ⟨_, e, domainException_of_isExternal (FileSafetyScanner.isExternal_of_scan hscan),
        alone_uploadDocument_rejected h hfree hscan⟩
  | ok report =>
      rw [alone_uploadDocument_scanned h hfree hscan]
      have hrefused : ∀ {e : Error}, O.putObject objects command.tenantId (uploadKey E s command)
          command.data report.detectedContentType = (.error e, objects) → ∃ env e,
            domainException e = none ∧ (storeUpload command report (idOf E (E s .now).2)).alone
              postgresTexts (adapters S O E) ((E (E s .now).2 .newId).2, objects) d
              [reservation E s command] = ⟨d, [reservation E s command], env, .error e⟩ := by
        intro e hput
        obtain ⟨he, hrun⟩ := alone_storeUpload_refused (S := S) (E := E) (d := d)
          (s := (E (E s .now).2 .newId).2) [reservation E s command] hput
        exact ⟨_, e, domainException_of_isExternal he, hrun⟩
      cases hname : scopedKey command.tenantId (uploadKey E s command) with
      | error e => exact hrefused (by rw [ObjectStore.putObject, hname])
      | ok name =>
          by_cases htakes : O.takes name = true
          · -- the file is stored, so it is the row that cannot be
            have hrow : command.isStorable = false := Bool.eq_false_iff.2 fun hrow =>
              hfile ⟨hrow, _, _, name, FileSafetyScanner.scan_eq_ok_iff.1 hscan, hname, htakes⟩
            rw [alone_storeUpload hname htakes]
            exact ⟨_, _, rfl, alone_finishUpload_refused rfl hrow⟩
          · exact hrefused (e := .external "ClientError") (by
              rw [ObjectStore.putObject, hname]
              exact if_neg htakes)

/-! ### The response -/

variable {maxBytes : ℕ} {refuses : UploadRequest → Option Refusal} {request : UploadRequest}

theorem upload_tooLarge (hlarge : request.isTooLarge maxBytes = true) :
    upload maxBytes refuses S O E request s objects d =
      ⟨requestBodyTooLarge maxBytes, d, objects⟩ := by
  rw [upload, if_pos hlarge]

theorem upload_refused (objects : Objects) {refusal : Refusal}
    (hsmall : request.isTooLarge maxBytes = false) (hrefused : refuses request = some refusal) :
    upload maxBytes refuses S O E request s objects d = ⟨refusal.response, d, objects⟩ := by
  simp [upload, hsmall, hrefused]

/-- A request that reaches the handler. -/
structure Admitted (maxBytes : ℕ) (refuses : UploadRequest → Option Refusal)
    (request : UploadRequest) : Prop where
  small : request.isTooLarge maxBytes = false
  accepted : refuses request = none

theorem upload_handled (hadmitted : Admitted maxBytes refuses request)
    {outcome : Outcome Database Write (σ × Objects) Error UploadDocumentResult}
    (hrun : (uploadDocument request.command).alone postgresTexts (adapters S O E) (s, objects) d
      [] = outcome) :
    upload maxBytes refuses S O E request s objects d =
      ⟨respond 201 outcome.result, outcome.db, outcome.env.2⟩ := by
  simp [upload, hadmitted.small, hadmitted.accepted, hrun]

theorem upload_key (hadmitted : Admitted maxBytes refuses request)
    (hkey : isStorable request.idempotencyKey = false) :
    upload maxBytes refuses S O E request s objects d = ⟨internalServerError, d, objects⟩ := by
  have hkey' : isStorable request.command.idempotencyKey = false := hkey
  have hrun := alone_uploadDocument_key (S := S) (O := O) (E := E) (s := s) (d := d) objects hkey'
  rw [upload_handled hadmitted hrun]
  rfl

theorem upload_duplicate (hadmitted : Admitted maxBytes refuses request)
    (hkey : isStorable request.idempotencyKey = true)
    (htaken : d.has (.idempotencyKey request.tenantId uploadDocumentOperation
      request.idempotencyKey) = true) :
    upload maxBytes refuses S O E request s objects d =
      ⟨problemResponse (.duplicateRequest uploadDocumentOperation request.idempotencyKey), d,
        objects⟩ := by
  have hkey' : isStorable request.command.idempotencyKey = true := hkey
  have hrun := alone_uploadDocument_duplicate (S := S) (O := O) (E := E) (s := s) objects hkey'
    htaken
  rw [upload_handled hadmitted hrun]
  rfl

theorem upload_storable {G : IdSource E} (objects : Objects)
    (hadmitted : Admitted maxBytes refuses request) (h : Ready d request.command)
    (hfree : Unreserved d request.command) (hinUse : InUse (G.used s) d) (hleft : 2 ≤ G.left s)
    (hrow : request.command.isStorable = true) (hfile : Storable S O E s request.command) :
    ∃ d' objects', upload maxBytes refuses S O E request s objects d =
      ⟨⟨201, none⟩, d', objects'⟩ := by
  obtain ⟨contentType, pages, name, hpasses, hname, htakes⟩ := hfile
  have hscan : S.scan request.command.data request.command.filename request.command.contentType =
      .ok ⟨contentType, pages⟩ := FileSafetyScanner.scan_eq_ok_iff.2 hpasses
  obtain ⟨d', env, result, hrun⟩ :=
    alone_uploadDocument_accepted (G := G) h hfree hinUse hleft hscan hname htakes hrow
  exact ⟨d', env.2, by rw [upload_handled hadmitted hrun]; rfl⟩

theorem upload_failed (objects : Objects) (hadmitted : Admitted maxBytes refuses request)
    (h : Ready d request.command) (hfree : Unreserved d request.command)
    (hfile : ¬ (request.command.isStorable = true ∧ Storable S O E s request.command)) :
    ∃ objects', upload maxBytes refuses S O E request s objects d =
      ⟨internalServerError, d, objects'⟩ := by
  obtain ⟨env, e, he, hrun⟩ := alone_uploadDocument_failed objects h hfree hfile
  refine ⟨env.2, ?_⟩
  rw [upload_handled hadmitted hrun]
  simp only [respond, problemResponse, he]

/-- A proper response that goes with no change. -/
theorem proper_of_eq {served : Served} {response : Response}
    (hserved : served = ⟨response, d, objects⟩) (hproper : response.IsProper) :
    served.response.IsProper ∧
      (served.response.status ≠ 201 → served.db = d ∧ served.objects = objects) := by
  rw [hserved]
  exact ⟨hproper, fun _ => ⟨rfl, rfl⟩⟩

/-- **Which uploads get a proper response**: those that the middleware refuses for their size, those
that fail the validation, and those whose key can be stored and is taken, or is not taken and the
file and what is written of it can be stored.  Any other that is parsed is an internal server error.
None with a proper rejection changes anything. -/
theorem upload_proper_iff (S : FileSafetyScanner) (O : ObjectStore) {G : IdSource E} (maxBytes : ℕ)
    (refuses : UploadRequest → Option Refusal) {request : UploadRequest}
    (h : Ready d request.command) (hinUse : InUse (G.used s) d) (hleft : 2 ≤ G.left s) (objects : Objects) :
    ((upload maxBytes refuses S O E request s objects d).response.IsProper ∧
      ((upload maxBytes refuses S O E request s objects d).response.status ≠ 201 →
        (upload maxBytes refuses S O E request s objects d).db = d ∧
        (upload maxBytes refuses S O E request s objects d).objects = objects)) ↔
    request.isTooLarge maxBytes = true ∨ refuses request = some .invalid ∨
      refuses request = none ∧ isStorable request.idempotencyKey = true ∧
        (d.has (.idempotencyKey request.tenantId uploadDocumentOperation
            request.idempotencyKey) = true ∨
          request.command.isStorable = true ∧ Storable S O E s request.command) := by
  cases hlarge : request.isTooLarge maxBytes with
  | true =>
      exact iff_of_true (proper_of_eq (upload_tooLarge hlarge) (isProper_requestBodyTooLarge _))
        (Or.inl rfl)
  | false =>
  cases hrefuses : refuses request with
  | some refusal =>
      have hrefused := upload_refused (S := S) (O := O) (E := E) (s := s) (d := d) objects
        hlarge hrefuses
      cases refusal with
      | malformed =>
          rw [hrefused]
          exact iff_of_false (fun hproper => not_isProper_malformed hproper.1) (by simp)
      | invalid =>
          exact iff_of_true (proper_of_eq hrefused isProper_requestValidationFailed)
            (Or.inr (Or.inl rfl))
  | none =>
  have hadmitted : Admitted maxBytes refuses request := ⟨hlarge, hrefuses⟩
  cases hkey : isStorable request.idempotencyKey with
  | false =>
      rw [upload_key hadmitted hkey]
      exact iff_of_false (fun hproper => not_isProper_internalServerError hproper.1) (by simp)
  | true =>
  cases htaken : d.has (.idempotencyKey request.tenantId uploadDocumentOperation
      request.idempotencyKey) with
  | true =>
      exact iff_of_true (proper_of_eq (upload_duplicate hadmitted hkey htaken)
        (isProper_problemResponse_iff.2 (Option.some_ne_none _)))
        (Or.inr (Or.inr ⟨rfl, rfl, Or.inl rfl⟩))
  | false =>
  have hfree : Unreserved d request.command := ⟨hkey, htaken⟩
  by_cases hfile : request.command.isStorable = true ∧ Storable S O E s request.command
  · obtain ⟨d', objects', hrun⟩ := upload_storable (G := G) objects hadmitted h hfree hinUse hleft
      hfile.1 hfile.2
    rw [hrun]
    exact iff_of_true ⟨Or.inl rfl, fun hstatus => absurd rfl hstatus⟩
      (Or.inr (Or.inr ⟨rfl, rfl, Or.inr hfile⟩))
  · obtain ⟨objects', hrun⟩ := upload_failed objects hadmitted h hfree hfile
    rw [hrun]
    exact iff_of_false (fun hproper => not_isProper_internalServerError hproper.1)
      (by simpa using hfile)

end Upload

/-! ### Two pictures and a text -/

namespace Sample

/-- A store that takes the names that are not too long. -/
def objectStore : ObjectStore := ⟨fun name => decide (name.utf8ByteSize ≤ 1024)⟩

/-- The framework takes an empty field of a form for a missing one, and parses none of more than a
mebibyte. -/
def refuses (request : UploadRequest) : Option Refusal :=
  if request.documentType = "" then some .invalid
  else if 2 ^ 20 < request.documentType.utf8ByteSize then some .malformed
  else none

/-- A file for the first application. -/
def uploadOf (documentType filename : String) (data : List UInt8) : UploadRequest :=
  ⟨tenantId, firstId, "upload-1", documentType, filename, some "image/png", data,
    some data.length⟩

/-- The answer to its upload, in the state that the first commands leave behind. -/
def uploadedTo (d : Database) (documentType filename : String) (data : List UInt8) : Served :=
  upload 2048 refuses scanner objectStore counter (uploadOf documentType filename data)
    (after creation).2 [] d

theorem ready_after {w : World anyHost} (h : Reachable postgres (installation.start anyHost ()) w)
    (hdb : w.db = (after creation).1) (documentType filename : String) (data : List UInt8) :
    Ready w.db (uploadOf documentType filename data).command := by
  obtain ⟨row, hrow, ht, -⟩ : ∃ row, w.db.application? firstId = some row ∧
      row.tenantId = tenantId ∧ row.status = ApplicationStatus.draft := by
    rw [hdb]
    exact found (by decide +kernel)
  exact ⟨(installation.sound h).inv.wellFormed, row, hrow, ht⟩

end Sample

/-- A picture is accepted. -/
theorem upload_proper_png :
    ∃ w, Reachable postgres (Sample.installation.start anyHost ()) w ∧
      (Sample.uploadedTo w.db "IDENTITY" "photo.png" Sample.png).response.status = 201 ∧
      (Sample.uploadedTo w.db "IDENTITY" "photo.png" Sample.png).response.IsProper := by
  obtain ⟨w, hw, hdb⟩ := Sample.reachable_after Sample.creation
  refine ⟨w, hw, by rw [hdb]; decide +kernel, ((upload_proper_iff Sample.scanner Sample.objectStore
    (G := Sample.source) 2048 Sample.refuses
    (Sample.ready_after hw hdb "IDENTITY" "photo.png" Sample.png) ?_ ?_ []).2
    (Or.inr (Or.inr ⟨by decide +kernel, by decide, Or.inr ⟨by decide +kernel, ?_⟩⟩))).1⟩
  · rw [hdb]
    exact Sample.inUse_of_rows (by decide +kernel)
  · decide +kernel
  · have hscan : Sample.scanner.scan Sample.png "photo.png" "image/png" = .ok ⟨"image/png", 1⟩ :=
      Sample.scan_png (by decide +kernel) _
    have hpasses := FileSafetyScanner.scan_eq_ok_iff.1 hscan
    exact ⟨_, _, _, hpasses, scopedKey_eq_ok (by decide +kernel), by decide +kernel⟩

/-- **A file that is rejected is an internal server error**: a text, a picture that is too large, a
picture whose name leads upwards, and a picture with a NUL character in its type, which is in the
store all the same. -/
theorem upload_rejected :
    ∃ w, Reachable postgres (Sample.installation.start anyHost ()) w ∧
      (w.db.application? Sample.firstId).isSome = true ∧
      (Sample.uploadedTo w.db "IDENTITY" "notes.txt" [72, 105]).response = internalServerError ∧
      (Sample.uploadedTo w.db "IDENTITY" "photo.png"
        (Sample.png ++ List.replicate 1024 0)).response = internalServerError ∧
      (Sample.uploadedTo w.db "IDENTITY" "../photo.png" Sample.png).response =
        internalServerError ∧
      (Sample.uploadedTo w.db "\x00" "photo.png" Sample.png).response = internalServerError ∧
      (Sample.uploadedTo w.db "\x00" "photo.png" Sample.png).objects.length = 1 ∧
      ¬ internalServerError.IsProper := by
  obtain ⟨w, hw, hdb⟩ := Sample.reachable_after Sample.creation
  refine ⟨w, hw, ?_⟩
  rw [hdb]
  exact ⟨by decide +kernel, by decide +kernel, by decide +kernel, by decide +kernel,
    by decide +kernel, by decide +kernel, not_isProper_internalServerError⟩

end FinAssist
