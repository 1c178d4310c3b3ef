/-
**Documents that cannot be parsed.**

A document that cannot be parsed is to be recorded as one without facts, and the others are to be
processed all the same.  Three layers decide: the parser translates what the PDF library raises, the
handler reports what the parser translates, and the loop of the activity goes on after a
`DuplicateRequestError` only.  The parser translates `PdfReadError`; any other exception of the
library ends the handler, its transaction and the loop.

Main definitions:

* `FinAssist.extractionOf` — **what the handler makes of an object**;
* `FinAssist.Recoverable` — the library reads the object, or raises a `PdfReadError`;
* `FinAssist.ProcessesAll` — the loop goes through all documents.

Main results:

* `FinAssist.alone_processDocument`, `alone_processDocument_fatal` — the handler;
* `FinAssist.alone_extractEach` — the loop;
* `FinAssist.unparseable_recorded_iff` — **when a document that cannot be parsed does no harm**.
-/

import FinAssist.Adapters
import FinAssist.ExtractionRetries

set_option relaxedAutoImplicit false
set_option autoImplicit false

namespace FinAssist

open ReadCommitted

/-! ### One object -/

/-- The text under which an exception is reported, if it is. -/
def Error.reported? : Error → Option String
  | .unsupportedDocumentType contentType =>
      some ("no document parser registered for content type " ++ pyRepr contentType)
  | .extractionFailed documentId reason =>
      some ("extraction failed for document " ++ documentId ++ ": " ++ reason)
  | _ => none

/-- **What the handler makes of an object**: an extraction, or the exception that it ends with. -/
def extractionOf (S : FileSafetyScanner) (object : StoredObject) (checksumSha256 : String) :
    Except Error Extraction :=
  match extractText S.pdf object.data object.contentType with
  | .error e =>
      match e.reported? with
      | some text => .ok ⟨.unknown, [], some text⟩
      | none => .error e
  | .ok pages =>
      (extractFacts S.unicode pages (classify pages) checksumSha256).map fun facts =>
        ⟨classify pages, facts, none⟩

/-- An object that the parser gets no pages of. -/
def Unparseable (S : FileSafetyScanner) (object : StoredObject) : Prop :=
  ∃ e, extractText S.pdf object.data object.contentType = .error e

/-- The library reads the object, or raises a `PdfReadError`. -/
def Recoverable (S : FileSafetyScanner) (object : StoredObject) : Prop :=
  object.contentType = "application/pdf" → ∀ text, S.pdf.pageTexts object.data ≠ .error (.other text)

section Extraction

variable {S : FileSafetyScanner} {object : StoredObject}

/-- The pages of a document have numbers. -/
theorem page_pos_of_extractText {P : PdfLibrary} {data : List UInt8} {contentType : String}
    {pages : List PageText} (h : extractText P data contentType = .ok pages) :
    ∀ page ∈ pages, 1 ≤ page.page := by
  rw [extractText] at h
  split at h
  · split at h
    · cases h
    · obtain rfl := Except.ok.inj h
      intro page hpage
      obtain ⟨⟨text, n⟩, hmem, rfl⟩ := List.mem_map.1 hpage
      exact (List.mem_zipIdx hmem).1
  · cases h

theorem Unparseable.extractionOf (h : Unparseable S object) (checksumSha256 : String) :
    (Recoverable S object ∧ ∃ text, extractionOf S object checksumSha256 =
      .ok ⟨.unknown, [], some text⟩) ∨
    (¬ Recoverable S object ∧ ∃ text, FinAssist.extractionOf S object checksumSha256 =
      .error (.external text)) := by
  obtain ⟨e, he⟩ := h
  rw [FinAssist.extractionOf, he]
  rw [extractText] at he
  split at he
  next hpdf =>
    split at he
    next readError hread =>
      obtain rfl := Except.error.inj he
      cases readError with
      | pdfReadError text =>
          refine Or.inl ⟨fun _ text' heq => ?_, _, rfl⟩
          rw [hread] at heq
          cases heq
      | other text => exact Or.inr ⟨fun hrec => hrec hpdf text hread, _, rfl⟩
    · cases he
  next hpdf =>
    obtain rfl := Except.error.inj he
    exact Or.inl ⟨fun h => absurd h hpdf, _, rfl⟩

/-- What is read can be extracted from, and there are at most six facts in it. -/
theorem extractionOf_parsed (h : ¬ Unparseable S object) (checksumSha256 : String) :
    Recoverable S object ∧ ∃ x, extractionOf S object checksumSha256 = .ok x ∧
      x.error = none ∧ x.facts.length ≤ 6 := by
  cases hpages : extractText S.pdf object.data object.contentType with
  | error e => exact absurd ⟨e, hpages⟩ h
  | ok pages =>
      obtain ⟨facts, hfacts, hfound⟩ := extractFacts_ok S.unicode (page_pos_of_extractText hpages)
        (classify pages) checksumSha256
      refine ⟨fun hpdf text hread => ?_, ⟨classify pages, facts.flatten, none⟩, ?_, rfl, ?_⟩
      · rw [extractText, if_pos hpdf, hread] at hpages
        cases hpages
      · rw [extractionOf, hpages]
        simp only [hfacts]
        rfl
      · have hlength := (types_sublist hfound).length_le
        rw [List.length_map] at hlength
        refine hlength.trans ?_
        cases classify pages <;> simp [searches, nameSearch, dateOfBirthSearch, addressSearch,
          syntheticIdSearch, employerSearch, grossPaySearch, tenureSearch]

/-- **What is made of an object**, in short: an extraction if the object is recoverable, and an
exception that is not reported otherwise. -/
theorem extractionOf_cases (S : FileSafetyScanner) (object : StoredObject) (checksumSha256 : String) :
    (Recoverable S object ∧ ∃ x, extractionOf S object checksumSha256 = .ok x ∧
      x.facts.length ≤ 6) ∨
    (¬ Recoverable S object ∧ Unparseable S object ∧ ∃ text,
      extractionOf S object checksumSha256 = .error (.external text)) := by
  by_cases hun : Unparseable S object
  · rcases hun.extractionOf checksumSha256 with ⟨hrec, text, hx⟩ | ⟨hno, hx⟩
    · exact Or.inl ⟨hrec, _, hx, Nat.zero_le _⟩
    · exact Or.inr ⟨hno, hun, hx⟩
  · obtain ⟨hrec, x, hx, -, hlength⟩ := extractionOf_parsed hun checksumSha256
    exact Or.inl ⟨hrec, x, hx, hlength⟩

end Extraction

/-! ### The ids of the facts -/

section Ids

variable {σ α : Type} {E : Environment Answer σ} {G : IdSource E} {d : Database} {ws : List Write}

/-- Where the generator stands after `n` ids, and the ids. -/
def afterIds (E : Environment Answer σ) : ℕ → σ → σ
  | 0, s => s
  | n + 1, s => afterIds E n (E s .newId).2

def idsFrom (E : Environment Answer σ) : ℕ → σ → List String
  | 0, _ => []
  | n + 1, s => (idOf E s).value :: idsFrom E n (E s .newId).2

theorem length_idsFrom : ∀ (n : ℕ) (s : σ), (idsFrom E n s).length = n
  | 0, _ => rfl
  | n + 1, _ => congrArg Nat.succ (length_idsFrom n _)

theorem alone_withIds : ∀ (xs : List α) (s : σ), (withIds xs).alone postgres E s d ws =
    ⟨d, ws, afterIds E xs.length s, .ok ((idsFrom E xs.length s).zip xs)⟩
  | [], _ => rfl
  | x :: xs, s => by
      rw [withIds, Prog.alone_bind_ok alone_newId, Prog.alone_bind_ok (alone_withIds xs _)]
      rfl

theorem used_afterIds : ∀ (n : ℕ) (s : σ) {id : String}, G.used s id → G.used (afterIds E n s) id
  | 0, _, _, h => h
  | n + 1, _, _, h => used_afterIds n _ (G.kept _ .newId _ h)

theorem used_of_idsFrom : ∀ (n : ℕ) (s : σ), ∀ id ∈ idsFrom E n s, G.used (afterIds E n s) id
  | 0, _, _, h => by cases h
  | n + 1, _, id, h => by
      rcases List.mem_cons.1 h with rfl | h
      · exact used_afterIds n _ (G.noted _)
      · exact used_of_idsFrom n _ id h

/-- **The ids are new**, and no two of them are the same. -/
theorem idsFrom_new : ∀ (n m : ℕ) (s : σ), n + m ≤ G.left s →
    (∀ id ∈ idsFrom E n s, ¬ G.used s id) ∧ (idsFrom E n s).Nodup ∧ m ≤ G.left (afterIds E n s)
  | 0, m, s, h => ⟨by simp [idsFrom], List.nodup_nil, by simpa [afterIds] using h⟩
  | n + 1, m, s, h => by
      have hspent := G.spent s .newId
      simp only [Ask.ids] at hspent
      obtain ⟨hnew, hnodup, hleft⟩ := idsFrom_new n m (E s .newId).2 (by omega)
      refine ⟨fun id hid => ?_, List.nodup_cons.2 ⟨fun hid => hnew _ hid (G.noted s), hnodup⟩, hleft⟩
      rcases List.mem_cons.1 hid with rfl | hid
      · exact G.new s (by omega)
      · exact fun hused => hnew id hid (G.kept s .newId id hused)

theorem Fit.withIds {n m : ℕ} {s : σ} (h : Fit G d (n + m) s ws) : Fit G d m (afterIds E n s) ws :=
  ⟨h.granted, fun k id hk hid => used_afterIds n s (h.inUse k id hk hid),
    (idsFrom_new n m s h.left).2.2⟩

end Ids

/-! ### One document -/

/-- The documents of an application, as the constraints keep them. -/
structure Held (ctx : ActivityContext) (d : Database) : Prop where
  nodup : ((d.documentsOf ctx).map UploadedDocument.documentId).Nodup
  has : ∀ document ∈ d.documentsOf ctx, d.has (.tenant ctx.tenantId) = true ∧
    d.has (.application ctx.applicationId) = true ∧
      d.has (.document document.documentId) = true

theorem mem_documentsOf {ctx : ActivityContext} {d : Database} {document : UploadedDocument} :
    document ∈ d.documentsOf ctx ↔ Row.document document ∈ d.rows ∧
      document.tenantId = ctx.tenantId ∧ document.applicationId = ctx.applicationId := by
  rw [Database.documentsOf, List.mem_mergeSort, List.mem_filterMap]
  constructor
  · rintro ⟨r, hr, hdocument⟩
    obtain ⟨hrow, hmine⟩ := Option.filter_eq_some_iff.1 hdocument
    cases r <;> cases hrow
    simp only [isDocumentOf, Bool.and_eq_true, decide_eq_true_eq] at hmine
    exact ⟨hr, hmine⟩
  · rintro ⟨hr, ht, ha⟩
    exact ⟨_, hr, by simp [documentOf?, Row.document?, isDocumentOf, ht, ha]⟩

theorem WellFormed.held {d : Database} (h : WellFormed d) (ctx : ActivityContext) : Held ctx d := by
  constructor
  · have hnodup := h.nodup_ids (documentOf? ctx) UploadedDocument.documentId Key.document
      fun r document hdocument => by
        obtain ⟨hrow, -⟩ := Option.filter_eq_some_iff.1 hdocument
        cases r <;> cases hrow
        exact List.mem_singleton_self _
    exact ((List.mergeSort_perm _ _).map _).nodup_iff.2 hnodup
  · intro document hmem
    obtain ⟨hrow, ht, ha⟩ := mem_documentsOf.1 hmem
    have hrefs := h.references _ hrow
    simp only [Row.references, List.forall_mem_cons, ht, ha] at hrefs
    exact ⟨hrefs.1, hrefs.2.1, Database.has_iff.2 ⟨_, hrow, List.mem_singleton_self _⟩⟩

/-- The run and the facts are those of the extraction. -/
structure StoredExtraction.Records (e : StoredExtraction) (x : Extraction) : Prop where
  classification : e.run.classification = x.classification
  facts : e.facts.map ExtractedFactRow.fact = x.facts

section Processing

variable {σ : Type} {E : Environment Answer σ} {G : IdSource E} {S : FileSafetyScanner}
  {O : ObjectStore} {objects : Objects} {info : ActivityInfo} {ctx : ActivityContext} {s : σ}
  {d : Database} {n : ℕ}

/-- The command of the activity for a document. -/
def documentCommand (info : ActivityInfo) (ctx : ActivityContext) (documentId : String) :
    ProcessDocumentCommand :=
  ⟨ctx.tenantId, ctx.applicationId, documentId, documentKey info documentId⟩

/-- What the store has of a document. -/
def objectOf (objects : Objects) (ctx : ActivityContext) (document : UploadedDocument) :
    Except Error StoredObject :=
  ObjectStore.latest objects ctx.tenantId document.objectKey

theorem alone_extractDocument {document : UploadedDocument} {object : StoredObject}
    {ws : List Write} (h : objectOf objects ctx document = .ok object) :
    (extractDocument ctx.tenantId document object.contentType).alone postgres (adapters S O E)
        (s, objects) d ws =
      ⟨d, ws, (s, objects), extractionOf S object document.checksumSha256⟩ := by
  have hget : ObjectStore.getObject objects ctx.tenantId document.objectKey = .ok object.data := by
    rw [ObjectStore.getObject, show ObjectStore.latest _ _ _ = _ from h]
    rfl
  rw [extractDocument, Prog.alone_bind_ok (alone_ask _)]
  simp only [adapters, hget, asPort]
  rw [Prog.alone_bind_ok (alone_ask _), extractionOf]
  simp only [adapters]
  cases hpages : extractText S.pdf object.data object.contentType with
  | error e =>
      rw [asPort_error (isAdapter_extractText _ _ _ e hpages)]
      cases e <;> rfl
  | ok pages =>
      obtain ⟨facts, hfacts, -⟩ := extractFacts_ok S.unicode (page_pos_of_extractText hpages)
        (classify pages) document.checksumSha256
      simp only [asPort]
      rw [Prog.alone_bind_ok (alone_ask _)]
      simp only [adapters]
      rw [Prog.alone_bind_ok (alone_ask _)]
      simp only [adapters, hfacts, asPort]
      rfl

/-- What is done with an extraction: the rest of the handler. -/
def storeExtraction (ctx : ActivityContext) (documentId : String) (extraction : Extraction) :
    Handler ProcessDocumentResult := do
  let facts ← withIds extraction.facts
  let runId ← newId
  let completedAt ← now
  addExtractionRun ctx.tenantId ctx.applicationId runId.value documentId extraction.classification
    facts completedAt
  Handler.commit
  pure ⟨documentId, extraction.classification, extraction.facts.length, extraction.error⟩

/-- The reservation of a document. -/
def documentReservation (info : ActivityInfo) (ctx : ActivityContext) (documentId : String)
    (reservedAt : DateTime) : Write :=
  reserveWrite ctx.tenantId processDocumentOperation (documentKey info documentId) reservedAt

theorem find_document (hheld : Held ctx d) {document : UploadedDocument}
    (hmem : document ∈ d.documentsOf ctx) :
    (d.documentsOf ctx).find? (fun x => x.documentId = document.documentId) = some document := by
  cases hfind : (d.documentsOf ctx).find? fun x => x.documentId = document.documentId with
  | none =>
      have hno := List.find?_eq_none.1 hfind document hmem
      simp at hno
  | some found =>
      have hid : found.documentId = document.documentId := by simpa using List.find?_some hfind
      rw [List.inj_on_of_nodup_map hheld.nodup (List.mem_of_find?_eq_some hfind) hmem hid]

/-- **How the processing of a document begins**: the key is reserved, the document and its object
are found, and something is made of it. -/
theorem alone_processDocument (hheld : Held ctx d) {document : UploadedDocument}
    (hmem : document ∈ d.documentsOf ctx) {object : StoredObject}
    (hobject : objectOf objects ctx document = .ok object)
    (hkey : d.has (info.documentKeyOf ctx document.documentId) = false) :
    (processDocument (documentCommand info ctx document.documentId)).alone postgres
        (adapters S O E) (s, objects) d [] =
      (Handler.ofExcept (extractionOf S object document.checksumSha256) >>=
        storeExtraction ctx document.documentId).alone postgres (adapters S O E)
        ((E s .now).2, objects) d [documentReservation info ctx document.documentId (timeOf E s)] := by
  have hreserve : (requireReservation ctx.tenantId (documentKey info document.documentId)
      processDocumentOperation).alone postgres (adapters S O E) (s, objects) d [] =
        ⟨d, [documentReservation info ctx document.documentId (timeOf E s)],
          ((E s .now).2, objects), .ok ()⟩ := by
    have hfree : d.has (.idempotencyKey ctx.tenantId processDocumentOperation
      (documentKey info document.documentId)) = false := hkey
    rw [alone_requireReservation, hfree]
    rfl
  have hlist : (listDocuments ctx.tenantId ctx.applicationId).alone postgres (adapters S O E)
      ((E s .now).2, objects) d [documentReservation info ctx document.documentId (timeOf E s)] =
        ⟨d, [documentReservation info ctx document.documentId (timeOf E s)],
          ((E s .now).2, objects), .ok (d.documentsOf ctx)⟩ := by
    rw [listDocuments, alone_select, documentReservation, Database.documents,
      filterMap_reserved _ fun _ => rfl, ← documentsOf_visible d ctx]
    rfl
  have hdescribed : ObjectStore.getObjectMetadata objects ctx.tenantId document.objectKey =
      .ok ⟨document.objectKey, object.checksumSha256, object.data.length, object.contentType⟩ := by
    rw [ObjectStore.getObjectMetadata, show ObjectStore.latest _ _ _ = _ from hobject]
    rfl
  rw [processDocument, documentCommand, Prog.alone_bind_ok hreserve, Prog.alone_bind_ok hlist,
    find_document hheld hmem]
  simp only
  rw [Prog.alone_bind_ok (alone_ask _)]
  simp only [adapters, hdescribed, asPort]
  rw [show ∀ x, Handler.ofPort (.ok x : Except PortError ObjectMetadata) = pure x from fun _ => rfl,
    pure_bind, Prog.alone_bind, Prog.alone_bind, alone_extractDocument hobject]
  cases extractionOf S object document.checksumSha256 <;> rfl

theorem afterIds_adapters : ∀ (n : ℕ) (s : σ),
    afterIds (adapters S O E) n (s, objects) = (afterIds E n s, objects)
  | 0, _ => rfl
  | n + 1, _ => afterIds_adapters n _

/-- What a run and its facts are stored as. -/
def storedExtraction (ctx : ActivityContext) (runId documentId : String)
    (classification : DocumentClassification) (facts : List (String × ExtractedFact))
    (completedAt : DateTime) : StoredExtraction :=
  ⟨⟨runId, ctx.tenantId, ctx.applicationId, documentId, classification, facts.length, completedAt⟩,
    facts.map fun f =>
      ⟨f.1, runId, ctx.tenantId, ctx.applicationId, documentId, f.2, completedAt⟩⟩

def StoredExtraction.rows (e : StoredExtraction) : List Row :=
  .extractionRun e.run :: e.facts.map .extractedFact

/-- **The insertion of a run and its facts.** -/
theorem alone_addExtractionRun {σ : Type} {E : Environment Answer σ} {G : IdSource E} {s : σ}
    {ws : List Write} (hfit : Fit G d n s ws) {runId documentId : String}
    (hpresent : d.has (.tenant ctx.tenantId) = true ∧
      d.has (.application ctx.applicationId) = true ∧ d.has (.document documentId) = true)
    (hrun : (postgres.view d ws).has (.extractionRun runId) = false) (hrunUsed : G.used s runId)
    {facts : List (String × ExtractedFact)}
    (hfacts : ∀ f ∈ facts, (postgres.view d ws).has (.extractedFact f.1) = false)
    (hnodup : (facts.map Prod.fst).Nodup) (hfactsUsed : ∀ f ∈ facts, G.used s f.1)
    (classification : DocumentClassification) (completedAt : DateTime) :
    (addExtractionRun ctx.tenantId ctx.applicationId runId documentId classification facts
        completedAt).alone postgres E s d ws =
      ⟨d, ws ++ inserts ctx.tenantId
        (storedExtraction ctx runId documentId classification facts completedAt).rows, s, .ok ()⟩ ∧
    Fit G d n s (ws ++ inserts ctx.tenantId
      (storedExtraction ctx runId documentId classification facts completedAt).rows) := by
  obtain ⟨htenant, happlication, hdocument⟩ := hpresent
  have hadd : addExtractionRun ctx.tenantId ctx.applicationId runId documentId classification facts
      completedAt = insertAll ctx.tenantId
        (storedExtraction ctx runId documentId classification facts completedAt).rows := by
    rw [StoredExtraction.rows, storedExtraction, List.map_map]
    rfl
  rw [hadd, StoredExtraction.rows]
  set run := (storedExtraction ctx runId documentId classification facts completedAt).run with hr
  have hkeys : ((storedExtraction ctx runId documentId classification facts completedAt).facts.map
      Row.extractedFact).flatMap Row.keys = (facts.map Prod.fst).map Key.extractedFact := by
    rw [storedExtraction, List.map_map, List.flatMap_map, List.map_map]
    exact List.map_eq_flatMap.symm
  have hinsert : postgres.fault (postgres.view d ws) ⟨ctx.tenantId, .insert (.extractionRun run)⟩ =
      none := by
    refine Insertable.fault ⟨by simp [hr, storedExtraction, Row.visibleTo, Row.tenantId?], rfl, ?_⟩ ?_
    · simp only [Row.references, List.forall_mem_cons]
      exact ⟨has_view_of_has htenant, has_view_of_has happlication, has_view_of_has hdocument,
        by simp⟩
    · simpa [Row.keys, hr, storedExtraction] using hrun
  have hone : Fit G d n s _ := hfit.exec hinsert (by
    rintro row hrow k hk id hid
    cases hrow
    rw [List.mem_singleton.1 hk] at hid
    exact Option.some.inj hid ▸ hrunUsed)
  have hview : postgres.view d (ws ++ [⟨ctx.tenantId, .insert (.extractionRun run)⟩]) =
      (postgres.view d ws).apply ⟨ctx.tenantId, .insert (.extractionRun run)⟩ :=
    postgres.view_append d ws _
  -- the facts name the run, so they are inserted after it
  obtain ⟨hall, hdone⟩ := alone_insertAll (t := ctx.tenantId)
    ((storedExtraction ctx runId documentId classification facts completedAt).facts.map
      Row.extractedFact) hone
    (by
      intro row hrow
      obtain ⟨r, hr, rfl⟩ := List.mem_map.1 hrow
      obtain ⟨f, -, rfl⟩ := List.mem_map.1 hr
      refine ⟨by simp [Row.visibleTo, Row.tenantId?], rfl, ?_⟩
      simp only [Row.references, List.forall_mem_cons]
      refine ⟨?_, has_view_of_has htenant, has_view_of_has happlication, has_view_of_has hdocument,
        by simp⟩
      rw [hview]
      exact Database.has_apply.2 (Or.inr ⟨_, rfl, List.mem_singleton_self _⟩))
    (by
      intro row hrow k hk
      obtain ⟨r, hr, rfl⟩ := List.mem_map.1 hrow
      obtain ⟨f, hf, rfl⟩ := List.mem_map.1 hr
      rw [Row.keys, List.mem_singleton] at hk
      rw [hview, ← Bool.not_eq_true, Database.has_apply, hk]
      rintro (hold | ⟨row, hrow, hmem⟩)
      · rw [hfacts f hf] at hold
        cases hold
      · cases hrow
        simp [Row.keys] at hmem)
    (by
      rw [hkeys]
      exact hnodup.map fun x y h => by simpa using h)
    (by
      intro row hrow k hk id hid
      obtain ⟨r, hr, rfl⟩ := List.mem_map.1 hrow
      obtain ⟨f, hf, rfl⟩ := List.mem_map.1 hr
      rw [Row.keys, List.mem_singleton] at hk
      rw [hk] at hid
      exact Option.some.inj hid ▸ hfactsUsed f hf)
  rw [insertAll, Prog.alone_bind_ok (alone_execute hinsert), hall]
  rw [List.append_assoc] at hdone ⊢
  exact ⟨rfl, hdone⟩

/-- **What is stored of an extraction**: a run, with its facts. -/
theorem alone_storeExtraction (hheld : Held ctx d) {document : UploadedDocument}
    (hmem : document ∈ d.documentsOf ctx) {x : Extraction} {reservedAt : DateTime}
    (hfit : Fit (G.adapters (S := S) (O := O)) d (x.facts.length + (n + 1)) (s, objects)
      [documentReservation info ctx document.documentId reservedAt]) : ∃ s' e,
    (storeExtraction ctx document.documentId x).alone postgres (adapters S O E) (s, objects) d
        [documentReservation info ctx document.documentId reservedAt] =
      ⟨postgres.view d (extractionWrites info ctx reservedAt e), [], (s', objects),
        .ok ⟨document.documentId, x.classification, x.facts.length, x.error⟩⟩ ∧
    e.Of ctx document.documentId ∧ e.Consistent ∧ e.Records x ∧
    InUse (G.used s') (postgres.view d (extractionWrites info ctx reservedAt e)) ∧
    n ≤ G.left s' := by
  have hids := hfit.withIds
  obtain ⟨hnew, hnodup, -⟩ := idsFrom_new _ _ _ hfit.left
  have hasked := Fit.ask (n := n) .newId hids
  have hclock := Fit.ask (n := n) .now hasked
  have hlength := length_idsFrom (E := adapters S O E) x.facts.length (s, objects)
  have hfst : ((idsFrom (adapters S O E) x.facts.length (s, objects)).zip x.facts).map Prod.fst =
      idsFrom (adapters S O E) x.facts.length (s, objects) := List.map_fst_zip hlength.le
  have hmemId : ∀ f ∈ (idsFrom (adapters S O E) x.facts.length (s, objects)).zip x.facts,
      f.1 ∈ idsFrom (adapters S O E) x.facts.length (s, objects) :=
    fun f hf => hfst ▸ List.mem_map_of_mem hf
  have hadd := alone_addExtractionRun hclock (hheld.has document hmem)
    (hids.free (k := .extractionRun _) rfl hids.new)
    (IdSource.kept _ _ _ _ (IdSource.noted _ _))
    (fun f hf => hfit.free (k := .extractedFact f.1) rfl (hnew _ (hmemId f hf)))
    (by rw [hfst]; exact hnodup)
    (fun f hf => IdSource.kept _ _ _ _ (IdSource.kept _ _ _ _
      (used_of_idsFrom _ _ _ (hmemId f hf))))
    x.classification (timeOf (adapters S O E) (adapters S O E (afterIds (adapters S O E)
      x.facts.length (s, objects)) .newId).2)
  have hrun := Prog.alone_bind_ok (f := fun _ => do
    Handler.commit
    pure (⟨document.documentId, x.classification, x.facts.length, x.error⟩ :
      ProcessDocumentResult)) hadd.1
  have hend := hadd.2
  set e := storedExtraction ctx (idOf (adapters S O E) (afterIds (adapters S O E) x.facts.length
    (s, objects))).value document.documentId x.classification
    ((idsFrom (adapters S O E) x.facts.length (s, objects)).zip x.facts)
    (timeOf (adapters S O E) (adapters S O E (afterIds (adapters S O E)
      x.facts.length (s, objects)) .newId).2) with he
  have hwrites : [documentReservation info ctx document.documentId reservedAt] ++
      inserts ctx.tenantId e.rows = extractionWrites info ctx reservedAt e := by
    rw [inserts, StoredExtraction.rows, List.map_cons, List.map_map]
    rfl
  rw [hwrites] at hrun hend
  refine ⟨(E (E (afterIds E x.facts.length s) .newId).2 .now).2, e, ?_, ?_, ?_, ?_, ?_, ?_⟩
  · rw [storeExtraction, Prog.alone_bind_ok (alone_withIds _ _), Prog.alone_bind_ok alone_newId,
      Prog.alone_bind_ok alone_now]
    refine hrun.trans ?_
    rw [afterIds_adapters]
    rfl
  · refine ⟨rfl, ⟨rfl, rfl⟩, fun f hf => ?_⟩
    obtain ⟨y, -, rfl⟩ := List.mem_map.1 hf
    exact ⟨rfl, rfl⟩
  · refine ⟨(List.length_map _).symm, fun f hf => ?_⟩
    obtain ⟨y, -, rfl⟩ := List.mem_map.1 hf
    exact ⟨rfl, rfl⟩
  · refine ⟨rfl, ?_⟩
    rw [he, storedExtraction, List.map_map]
    exact List.map_snd_zip hlength.ge
  · have hinUse := hend.inUse
    rw [afterIds_adapters] at hinUse
    exact hinUse
  · have hleft := hend.left
    rw [afterIds_adapters] at hleft
    exact hleft

/-! ### The loop -/

/-- One turn of the loop. -/
def extractOne (info : ActivityInfo) (ctx : ActivityContext) (documentId : String)
    (factCount : ℕ) : Handler ℕ :=
  orIfDuplicate
    (do
      let result ← processDocument (documentCommand info ctx documentId)
      pure (factCount + result.factCount))
    (pure factCount)

theorem extractEach_cons (document : UploadedDocument) (documents : List UploadedDocument)
    (factCount : ℕ) : extractEach info ctx (document :: documents) factCount =
      extractOne info ctx document.documentId factCount >>= extractEach info ctx documents := rfl

/-- A document whose key is taken is passed over. -/
theorem alone_extractOne_taken {documentId : String}
    (hkey : d.has (info.documentKeyOf ctx documentId) = true) (factCount : ℕ) :
    (extractOne info ctx documentId factCount).alone postgres (adapters S O E) (s, objects) d [] =
      ⟨d, [], ((E s .now).2, objects), .ok factCount⟩ := by
  have htaken : d.has (.idempotencyKey ctx.tenantId processDocumentOperation
    (documentKey info documentId)) = true := hkey
  have hreserve := alone_requireReservation (E := adapters S O E) (s := (s, objects)) (d := d)
    ctx.tenantId (documentKey info documentId) processDocumentOperation
  rw [if_pos htaken] at hreserve
  have hrun : (processDocument (documentCommand info ctx documentId)).alone postgres
      (adapters S O E) (s, objects) d [] = ⟨d, [], ((E s .now).2, objects),
        .error (.duplicateRequest processDocumentOperation (documentKey info documentId))⟩ := by
    rw [processDocument, documentCommand, Prog.alone_bind_error hreserve]
    rfl
  rw [extractOne, orIfDuplicate, Prog.alone_tryCatch, Prog.alone_bind_error hrun]
  rfl

/-- A document that something can be made of is stored. -/
theorem alone_extractOne_stored (hheld : Held ctx d) {document : UploadedDocument}
    (hmem : document ∈ d.documentsOf ctx) {object : StoredObject}
    (hobject : objectOf objects ctx document = .ok object)
    (hkey : d.has (info.documentKeyOf ctx document.documentId) = false) {x : Extraction}
    (hx : extractionOf S object document.checksumSha256 = .ok x) (hsix : x.facts.length ≤ 6)
    (hinUse : InUse (G.used s) d) (hleft : n + 7 ≤ G.left s) :
    ∃ s' e reservedAt,
      ((processDocument (documentCommand info ctx document.documentId)).alone postgres
        (adapters S O E) (s, objects) d [] =
          ⟨postgres.view d (extractionWrites info ctx reservedAt e), [], (s', objects),
            .ok ⟨document.documentId, x.classification, x.facts.length, x.error⟩⟩ ∧
        ∀ factCount, (extractOne info ctx document.documentId factCount).alone postgres
          (adapters S O E) (s, objects) d [] =
            ⟨postgres.view d (extractionWrites info ctx reservedAt e), [], (s', objects),
              .ok (factCount + x.facts.length)⟩) ∧
      e.Of ctx document.documentId ∧ e.Consistent ∧ e.Records x ∧
      InUse (G.used s') (postgres.view d (extractionWrites info ctx reservedAt e)) ∧
      n ≤ G.left s' := by
  have hfit : Fit (G.adapters (S := S) (O := O)) d (x.facts.length + (n + 1))
      ((E s .now).2, objects)
      [documentReservation info ctx document.documentId (timeOf E s)] :=
    Fit.begin (s := (s, objects)) hinUse (by
      refine le_trans ?_ hleft
      omega) hkey
  obtain ⟨s', e, hstore, hof, hconsistent, hrecords, hinUse', hleft'⟩ :=
    alone_storeExtraction hheld hmem hfit
  have hrun := alone_processDocument (S := S) (O := O) (E := E) (s := s) hheld hmem hobject hkey
  rw [hx] at hrun
  have hrun' := hrun.trans hstore
  refine ⟨s', e, timeOf E s, ⟨hrun', fun factCount => ?_⟩, hof, hconsistent, hrecords, hinUse',
    hleft'⟩
  rw [extractOne, orIfDuplicate, Prog.alone_tryCatch, Prog.alone_bind_ok hrun']
  rfl

/-- A document that nothing can be made of ends the loop. -/
theorem alone_extractOne_fatal (hheld : Held ctx d) {document : UploadedDocument}
    (hmem : document ∈ d.documentsOf ctx) {object : StoredObject}
    (hobject : objectOf objects ctx document = .ok object)
    (hkey : d.has (info.documentKeyOf ctx document.documentId) = false) {text : String}
    (hx : extractionOf S object document.checksumSha256 = .error (.external text))
    (factCount : ℕ) :
    ((processDocument (documentCommand info ctx document.documentId)).alone postgres
        (adapters S O E) (s, objects) d []).result = .error (.external text) ∧
    ((extractOne info ctx document.documentId factCount).alone postgres (adapters S O E)
        (s, objects) d []).result = .error (.external text) := by
  have hrun := alone_processDocument (S := S) (O := O) (E := E) (s := s) hheld hmem hobject hkey
  rw [hx] at hrun
  refine ⟨congrArg Outcome.result hrun, ?_⟩
  rw [extractOne, orIfDuplicate, Prog.alone_tryCatch, Prog.alone_bind_error hrun]

/-- What is stored is what was made of a document. -/
def Made (S : FileSafetyScanner) (objects : Objects) (ctx : ActivityContext) (d₀ : Database)
    (e : StoredExtraction) : Prop :=
  ∃ document ∈ d₀.documentsOf ctx, ∃ object x, objectOf objects ctx document = .ok object ∧
    document.documentId = e.run.documentId ∧
      extractionOf S object document.checksumSha256 = .ok x ∧ e.Records x

/-- **Where the loop stands.** -/
structure Underway (S : FileSafetyScanner) (objects : Objects) (info : ActivityInfo)
    (ctx : ActivityContext) (d₀ : Database) (done : List StoredExtraction) (d : Database) :
    Prop where
  extracted : Extracted info ctx d₀ done d
  held : Held ctx d
  made : ∀ e ∈ done, Made S objects ctx d₀ e

variable {d₀ : Database} {done : List StoredExtraction}

theorem Underway.start (h : Held ctx d₀) : Underway S objects info ctx d₀ [] d₀ :=
  ⟨extracted_start info ctx d₀, h, by simp⟩

/-- A document more. -/
theorem Underway.step (h : Underway S objects info ctx d₀ done d) {document : UploadedDocument}
    (hmem : document ∈ d₀.documentsOf ctx) {object : StoredObject}
    (hobject : objectOf objects ctx document = .ok object)
    (hkey : d.has (info.documentKeyOf ctx document.documentId) = false) {x : Extraction}
    (hx : extractionOf S object document.checksumSha256 = .ok x) {e : StoredExtraction}
    (hof : e.Of ctx document.documentId) (hconsistent : e.Consistent) (hrecords : e.Records x)
    (reservedAt : DateTime) :
    Underway S objects info ctx d₀ (done ++ [e])
      (postgres.view d (extractionWrites info ctx reservedAt e)) := by
  have hstep := h.extracted.step hof hconsistent (List.mem_map_of_mem hmem) hkey reservedAt
  refine ⟨hstep, ?_, ?_⟩
  · have hsame := hstep.documents.trans h.extracted.documents.symm
    refine ⟨hsame ▸ h.held.nodup, fun document' hmem' => ?_⟩
    rw [hsame] at hmem'
    obtain ⟨htenant, happlication, hdocument⟩ := h.held.has document' hmem'
    exact ⟨has_view_of_has htenant, has_view_of_has happlication, has_view_of_has hdocument⟩
  · intro e' he'
    rcases List.mem_append.1 he' with he' | he'
    · exact h.made e' he'
    · rw [List.mem_singleton.1 he']
      exact ⟨document, hmem, object, x, hobject, hof.document.symm, hx, hrecords⟩

/-- The documents whose objects are in the store. -/
def Stored (objects : Objects) (ctx : ActivityContext) (d : Database) : Prop :=
  ∀ document ∈ d.documentsOf ctx, ∃ object, objectOf objects ctx document = .ok object

/-- The documents that are left to be processed, as far as the library reads them or says in its
own way that it does not. -/
def AllRecoverable (S : FileSafetyScanner) (objects : Objects) (info : ActivityInfo)
    (ctx : ActivityContext) (d : Database) (documents : List UploadedDocument) : Prop :=
  ∀ document ∈ documents, d.has (info.documentKeyOf ctx document.documentId) = false →
    ∀ object, objectOf objects ctx document = .ok object → Recoverable S object

/-- **The loop**: it goes through all documents. -/
theorem alone_extractEach (info : ActivityInfo) (hstored : Stored objects ctx d₀) (documents : List UploadedDocument) :
    ∀ {d : Database} {s : σ} {done : List StoredExtraction} (factCount : ℕ),
      Underway S objects info ctx d₀ done d → documents ⊆ d₀.documentsOf ctx →
      AllRecoverable S objects info ctx d₀ documents → InUse (G.used s) d →
      7 * documents.length ≤ G.left s → ∃ d' s' new result,
        (extractEach info ctx documents factCount).alone postgres (adapters S O E) (s, objects) d [] =
          ⟨d', [], (s', objects), .ok result⟩ ∧
        Underway S objects info ctx d₀ (done ++ new) d' ∧
        ∀ document ∈ documents, d'.has (info.documentKeyOf ctx document.documentId) = true := by
  induction documents with
  | nil =>
      intro d s done factCount h _ _ _ _
      exact ⟨d, s, [], factCount, rfl, by rwa [List.append_nil], by simp⟩
  | cons document documents ih =>
      intro d s done factCount h hsub hall hinUse hleft
      rw [List.length_cons, Nat.mul_succ] at hleft
      obtain ⟨hmem, hsub⟩ := List.cons_subset.1 hsub
      have hall' : AllRecoverable S objects info ctx d₀ documents := fun document' hmem' =>
        hall document' (List.mem_cons_of_mem _ hmem')
      obtain ⟨d₁, s₁, new₁, factCount₁, hone, h₁, hkey₁, hinUse₁, hleft₁⟩ : ∃ d₁ s₁ new₁ factCount₁,
          (extractOne info ctx document.documentId factCount).alone postgres (adapters S O E)
            (s, objects) d [] = ⟨d₁, [], (s₁, objects), .ok factCount₁⟩ ∧
          Underway S objects info ctx d₀ (done ++ new₁) d₁ ∧
          d₁.has (info.documentKeyOf ctx document.documentId) = true ∧ InUse (G.used s₁) d₁ ∧
          7 * documents.length ≤ G.left s₁ := by
        cases hkey : d.has (info.documentKeyOf ctx document.documentId) with
        | true =>
            have hspent := G.spent s .now
            refine ⟨d, (E s .now).2, [], factCount, alone_extractOne_taken hkey factCount,
              by rwa [List.append_nil], hkey, fun k id hk hid => G.kept s .now id (hinUse k id hk hid),
              ?_⟩
            simp only [Ask.ids] at hspent
            omega
        | false =>
            obtain ⟨object, hobject⟩ := hstored document hmem
            have hfree : d₀.has (info.documentKeyOf ctx document.documentId) = false := by
              rw [← Bool.not_eq_true] at hkey ⊢
              exact fun htaken => hkey ((h.extracted.keys _).2 (Or.inl htaken))
            have hrec := hall document List.mem_cons_self hfree object hobject
            rcases extractionOf_cases S object document.checksumSha256 with
              ⟨-, x, hx, hsix⟩ | ⟨hno, -⟩
            · obtain ⟨s₁, e, reservedAt, ⟨-, hone⟩, hof, hconsistent, hrecords, hinUse₁, hleft₁⟩ :=
                alone_extractOne_stored (S := S) (O := O) (E := E) (G := G) h.held
                  (h.extracted.documents.symm ▸ hmem) hobject hkey hx hsix hinUse hleft
              have hstep := h.step hmem hobject hkey hx hof hconsistent hrecords reservedAt
              refine ⟨_, s₁, [e], _, hone factCount, hstep, ?_, hinUse₁, hleft₁⟩
              refine (hstep.extracted.keys _).2 (Or.inr ?_)
              simp [processed, hof.document]
            · exact absurd hrec hno
      obtain ⟨d', s', new, result, hrun, h', hkeys⟩ := ih factCount₁ h₁ hsub hall' hinUse₁ hleft₁
      refine ⟨d', s', new₁ ++ new, result, ?_, by rwa [← List.append_assoc], ?_⟩
      · rw [extractEach_cons, Prog.alone_bind_ok hone, hrun]
      · intro document' hmem'
        rcases List.mem_cons.1 hmem' with rfl | hmem'
        · refine (h'.extracted.keys _).2 ?_
          rcases (h₁.extracted.keys _).1 hkey₁ with hold | hnew
          · exact Or.inl hold
          · rw [processed_append]
            exact Or.inr (List.mem_append_left _ hnew)
        · exact hkeys document' hmem'

/-- **The loop that comes to a document that nothing can be made of** ends with its exception. -/
theorem alone_extractEach_fatal (info : ActivityInfo) (hstored : Stored objects ctx d₀)
    (documents : List UploadedDocument) :
    ∀ {d : Database} {s : σ} {done : List StoredExtraction} (factCount : ℕ),
      Underway S objects info ctx d₀ done d → documents ⊆ d₀.documentsOf ctx →
      (documents.map UploadedDocument.documentId).Nodup →
      ¬ AllRecoverable S objects info ctx d documents → InUse (G.used s) d →
      7 * documents.length ≤ G.left s → ∃ text,
        ((extractEach info ctx documents factCount).alone postgres (adapters S O E)
          (s, objects) d []).result = .error (.external text) := by
  induction documents with
  | nil =>
      intro d s done factCount _ _ _ hno _ _
      exact absurd (by simp [AllRecoverable]) hno
  | cons document documents ih =>
      intro d s done factCount h hsub hnodup hno hinUse hleft
      rw [List.length_cons, Nat.mul_succ] at hleft
      obtain ⟨hmem, hsub⟩ := List.cons_subset.1 hsub
      rw [List.map_cons, List.nodup_cons] at hnodup
      rw [extractEach_cons]
      cases hkey : d.has (info.documentKeyOf ctx document.documentId) with
      | true =>
          have hspent := G.spent s .now
          simp only [Ask.ids] at hspent
          rw [Prog.alone_bind_ok (alone_extractOne_taken hkey factCount)]
          refine ih factCount h hsub hnodup.2 (fun hall => hno ?_)
            (fun k id hk hid => G.kept s .now id (hinUse k id hk hid)) (by omega)
          intro document' hmem' hfree
          rcases List.mem_cons.1 hmem' with rfl | hmem'
          · rw [hkey] at hfree
            cases hfree
          · exact hall document' hmem' hfree
      | false =>
          obtain ⟨object, hobject⟩ := hstored document hmem
          have hhere := h.extracted.documents.symm ▸ hmem
          rcases extractionOf_cases S object document.checksumSha256 with
            ⟨hrec, x, hx, hsix⟩ | ⟨-, -, text, hx⟩
          · obtain ⟨s₁, e, reservedAt, ⟨-, hone⟩, hof, hconsistent, hrecords, hinUse₁, hleft₁⟩ :=
              alone_extractOne_stored (S := S) (O := O) (E := E) (G := G) h.held hhere hobject hkey
                hx hsix hinUse hleft
            have hstep := h.step hmem hobject hkey hx hof hconsistent hrecords reservedAt
            rw [Prog.alone_bind_ok (hone factCount)]
            refine ih _ hstep hsub hnodup.2 (fun hall => hno ?_) hinUse₁ hleft₁
            intro document' hmem' hfree object' hobject'
            rcases List.mem_cons.1 hmem' with rfl | hmem'
            · rw [hobject] at hobject'
              exact Except.ok.inj hobject' ▸ hrec
            · refine hall document' hmem' ?_ object' hobject'
              have hne : document'.documentId ≠ document.documentId := fun heq =>
                hnodup.1 (heq ▸ List.mem_map_of_mem hmem')
              rw [← Bool.not_eq_true] at hfree ⊢
              intro htaken
              refine hfree ((h.extracted.keys _).2 ?_)
              rw [hstep.extracted.keys, processed_append, List.mem_append] at htaken
              rcases htaken with hold | hdone | hnew
              · exact Or.inl hold
              · exact Or.inr hdone
              · rw [show processed [e] = [e.run.documentId] from rfl, List.mem_singleton,
                  hof.document] at hnew
                exact absurd hnew hne
          · have hfatal := (alone_extractOne_fatal (S := S) (O := O) (E := E) (s := s) h.held hhere
              hobject hkey hx factCount).2
            refine ⟨text, ?_⟩
            rw [Prog.alone_bind]
            cases hrun : (extractOne info ctx document.documentId factCount).alone postgres
              (adapters S O E) (s, objects) d [] with
            | mk d' ws' s' result =>
                rw [hrun] at hfatal
                cases result with
                | ok r => cases hfatal
                | error e => exact hfatal

/-! ### The activity -/

/-- **The activity goes through all documents**: it returns, each document was processed now or
before, and what is stored is what was made of the documents. -/
def ProcessesAll (S : FileSafetyScanner) (objects : Objects) (info : ActivityInfo)
    (ctx : ActivityContext) (d : Database)
    (o : Outcome Database Write (σ × Objects) Error ExtractDocumentFactsActivityResult) : Prop :=
  (∃ result, o.result = .ok result) ∧ (∃ done, Underway S objects info ctx d done o.db) ∧
    ∀ document ∈ d.documentsOf ctx, o.db.has (info.documentKeyOf ctx document.documentId) = true

/-- **A document is recorded as one without facts**: a run is committed that found nothing, and the
result says why. -/
def RecordedEmpty (info : ActivityInfo) (ctx : ActivityContext) (d : Database) (documentId : String)
    (o : Outcome Database Write (σ × Objects) Error ProcessDocumentResult) : Prop :=
  (∃ text, o.result = .ok ⟨documentId, .unknown, 0, some text⟩) ∧ o.writes = [] ∧
    ∃ reservedAt e, o.db = postgres.view d (extractionWrites info ctx reservedAt e) ∧
      e.Of ctx documentId ∧ e.Consistent ∧ e.run.classification = .unknown ∧ e.facts = []

theorem alone_extractDocumentFacts (info : ActivityInfo) (ctx : ActivityContext) :
    (extractDocumentFactsActivity info ctx).alone postgres (adapters S O E) (s, objects) d [] =
      (extractEach info ctx (d.documentsOf ctx) 0 >>= fun factCount =>
        pure ⟨(d.documentsOf ctx).length, factCount⟩).alone postgres (adapters S O E)
          (s, objects) d [] := by
  have hlist : (listDocuments ctx.tenantId ctx.applicationId).alone postgres (adapters S O E)
      (s, objects) d [] = ⟨d, [], (s, objects), .ok (d.documentsOf ctx)⟩ := by
    rw [listDocuments, alone_select, ← documentsOf_visible d ctx]
    rfl
  rw [extractDocumentFactsActivity, Prog.alone_bind_ok hlist]

/-- **When the activity goes through all documents.** -/
theorem processesAll_iff (hheld : Held ctx d) (hstored : Stored objects ctx d)
    (hinUse : InUse (G.used s) d) (hleft : 7 * (d.documentsOf ctx).length ≤ G.left s) :
    ProcessesAll S objects info ctx d ((extractDocumentFactsActivity info ctx).alone postgres
      (adapters S O E) (s, objects) d []) ↔
    AllRecoverable S objects info ctx d (d.documentsOf ctx) := by
  rw [alone_extractDocumentFacts]
  constructor
  · rintro ⟨⟨result, hresult⟩, -⟩
    by_contra hno
    obtain ⟨text, htext⟩ := alone_extractEach_fatal (S := S) (O := O) (G := G) info hstored
      (d.documentsOf ctx) 0 (.start hheld) (fun _ h => h) hheld.nodup hno hinUse hleft
    rw [Prog.alone_bind] at hresult
    cases hrun : (extractEach info ctx (d.documentsOf ctx) 0).alone postgres (adapters S O E)
        (s, objects) d [] with
    | mk d' ws' s' result' =>
        rw [hrun] at hresult htext
        obtain rfl : result' = _ := htext
        cases hresult
  · intro hall
    obtain ⟨d', s', new, result, hrun, hunderway, hkeys⟩ := alone_extractEach (S := S) (O := O)
      (G := G) info hstored (d.documentsOf ctx) 0 (.start hheld)
      (fun _ h => h) hall hinUse hleft
    rw [Prog.alone_bind_ok hrun]
    exact ⟨⟨_, rfl⟩, ⟨_, hunderway⟩, hkeys⟩

/-- **When a document that cannot be parsed does no harm**: for every list of documents, each one
that cannot be parsed is recorded as one without facts and the activity goes through all of them if
and only if the PDF library raises nothing but a `PdfReadError` on the PDF documents among those
that are left to be processed. -/
theorem unparseable_recorded_iff (S : FileSafetyScanner) (O : ObjectStore) {G : IdSource E}
    (info : ActivityInfo) {ctx : ActivityContext} (hd : WellFormed d)
    (hstored : Stored objects ctx d) (hinUse : InUse (G.used s) d)
    (hleft : 7 * (d.documentsOf ctx).length ≤ G.left s) :
    ((∀ document ∈ d.documentsOf ctx,
        d.has (info.documentKeyOf ctx document.documentId) = false →
        ∀ object, objectOf objects ctx document = .ok object → Unparseable S object →
          RecordedEmpty info ctx d document.documentId
            ((processDocument (documentCommand info ctx document.documentId)).alone postgres
              (adapters S O E) (s, objects) d [])) ∧
      ProcessesAll S objects info ctx d ((extractDocumentFactsActivity info ctx).alone postgres
        (adapters S O E) (s, objects) d [])) ↔
    ∀ document ∈ d.documentsOf ctx, d.has (info.documentKeyOf ctx document.documentId) = false →
      ∀ object, objectOf objects ctx document = .ok object →
        object.contentType = "application/pdf" →
          ∀ text, S.pdf.pageTexts object.data ≠ .error (.other text) := by
  have hheld := hd.held ctx
  refine Iff.trans ⟨And.right, fun hall => ⟨?_, hall⟩⟩ (processesAll_iff hheld hstored hinUse hleft)
  have hrecoverable := (processesAll_iff hheld hstored hinUse hleft).1 hall
  intro document hmem hkey object hobject hun
  have hrec := hrecoverable document hmem hkey object hobject
  rcases hun.extractionOf document.checksumSha256 with
    ⟨-, text, hx⟩ | ⟨hno, -⟩
  · have hone : 7 ≤ 7 * (d.documentsOf ctx).length :=
      Nat.le_mul_of_pos_right 7 (List.length_pos_of_mem hmem)
    obtain ⟨s', e, reservedAt, ⟨hrun, -⟩, hof, hconsistent, hrecords, -, -⟩ :=
      alone_extractOne_stored (S := S) (O := O) (E := E) (G := G) (n := 0) hheld hmem hobject hkey hx
        (Nat.zero_le _) hinUse (by omega)
    rw [hrun]
    exact ⟨⟨text, rfl⟩, rfl, reservedAt, e, rfl, hof, hconsistent, hrecords.classification,
      List.map_eq_nil_iff.1 hrecords.facts⟩
  · exact absurd hrec hno

end Processing

/-! ### Two documents -/

deriving instance DecidableEq for UploadedDocument

namespace Sample

def pdfDocument (n : ℕ) (objectKey : String) : UploadedDocument :=
  ⟨(newId n).value, tenantId, firstId, "INCOME_PROOF", objectKey, "", 1, noon⟩

/-- The first application has two documents. -/
def withDocuments : Database :=
  ⟨(after creation).1.rows ++
    [.document (pdfDocument 20 "a.pdf"), .document (pdfDocument 21 "b.pdf")]⟩

def documentObjects : Objects :=
  [(tenantId.value ++ "/a.pdf", ⟨[1], "application/pdf", ""⟩),
    (tenantId.value ++ "/b.pdf", ⟨[2], "application/pdf", ""⟩)]

/-- A library that fails on the first of them. -/
def failingPdf : PdfLibrary :=
  { noPdf with
    pageTexts := fun data =>
      if data = [1] then .error (.other "maximum recursion depth exceeded")
      else .error (.pdfReadError "EOF marker not found") }

def documentContext : ActivityContext := ⟨tenantId, firstId⟩

theorem documentsOf_withDocuments : withDocuments.documentsOf documentContext =
    [pdfDocument 20 "a.pdf", pdfDocument 21 "b.pdf"] := by
  have hrows : withDocuments.rows.filterMap (documentOf? documentContext) =
      [pdfDocument 20 "a.pdf", pdfDocument 21 "b.pdf"] := by decide +kernel
  rw [Database.documentsOf, hrows]
  exact List.mergeSort_of_pairwise (by simp [pdfDocument])

theorem withDocuments_wellFormed : WellFormed withDocuments :=
  ⟨by decide +kernel, by decide +kernel, by decide +kernel⟩

theorem withDocuments_stored : Stored documentObjects documentContext withDocuments := by
  intro document hmem
  rw [documentsOf_withDocuments] at hmem
  rcases List.mem_cons.1 hmem with rfl | hmem
  · exact ⟨⟨[1], "application/pdf", ""⟩, by decide +kernel⟩
  · obtain rfl := List.mem_singleton.1 hmem
    exact ⟨⟨[2], "application/pdf", ""⟩, by decide +kernel⟩

theorem withDocuments_inUse : InUse (source.used 30) withDocuments :=
  inUse_of_rows (by decide +kernel)

theorem withDocuments_left :
    7 * (withDocuments.documentsOf documentContext).length ≤ source.left 30 := by
  rw [documentsOf_withDocuments]
  decide

end Sample

/-- Two documents that the library does not read, in its own words. -/
theorem unparseable_recorded_noPdf :
    ProcessesAll Sample.scanner Sample.documentObjects Sample.extractInfo Sample.documentContext
      Sample.withDocuments ((extractDocumentFactsActivity Sample.extractInfo
        Sample.documentContext).alone postgres (adapters Sample.scanner ⟨fun _ => true⟩
          Sample.counter) (30, Sample.documentObjects) Sample.withDocuments []) :=
  ((unparseable_recorded_iff Sample.scanner ⟨fun _ => true⟩ (G := Sample.source) Sample.extractInfo
    Sample.withDocuments_wellFormed Sample.withDocuments_stored Sample.withDocuments_inUse
    Sample.withDocuments_left).2 fun _ _ _ _ _ _ _ h => by cases h).2

/-- **One document stops the others**: the library raises something else on the first one, and the
activity does not go through both. -/
theorem unparseable_aborts :
    Unparseable { Sample.scanner with pdf := Sample.failingPdf } ⟨[1], "application/pdf", ""⟩ ∧
    ¬ ProcessesAll { Sample.scanner with pdf := Sample.failingPdf } Sample.documentObjects
      Sample.extractInfo Sample.documentContext Sample.withDocuments
      ((extractDocumentFactsActivity Sample.extractInfo Sample.documentContext).alone postgres
        (adapters { Sample.scanner with pdf := Sample.failingPdf } ⟨fun _ => true⟩ Sample.counter)
        (30, Sample.documentObjects) Sample.withDocuments []) := by
  refine ⟨⟨_, rfl⟩, fun hall => ?_⟩
  have hrecoverable := (processesAll_iff (G := Sample.source)
    (Sample.withDocuments_wellFormed.held _) Sample.withDocuments_stored Sample.withDocuments_inUse
    Sample.withDocuments_left).1 hall
  refine hrecoverable (Sample.pdfDocument 20 "a.pdf") ?_ (by decide +kernel)
    ⟨[1], "application/pdf", ""⟩ (by decide +kernel) rfl "maximum recursion depth exceeded" rfl
  rw [Sample.documentsOf_withDocuments]
  exact List.mem_cons_self

end FinAssist
