/-
**The extraction of facts, tried again.**

`extract_document_facts_activity` processes the documents of an application one after the other,
each in a transaction and under a key of its own.  An attempt may stop after any of them; the next
one skips what is done already, because the keys are taken.  However the work is split over the
attempts, a successful one leaves one extraction run for each document.  The number of facts it
returns, though, is that of the documents it has processed itself.

Main definitions:

* `FinAssist.StoredExtraction` — an extraction run and the facts stored with it;
* `FinAssist.Extracted` — **what the attempts have done so far**;
* `FinAssist.Attempts` — the databases that attempts at the activity lead to.

Main results:

* `FinAssist.steady_extractEach` — what one attempt adds;
* `FinAssist.Attempts.extracted` — what any number of attempts has done;
* `FinAssist.extraction_retried_iff` — **one run for each document, and when the number of facts is
  right**.
-/

import FinAssist.ActivityRetries

set_option relaxedAutoImplicit false
set_option autoImplicit false

namespace FinAssist

open ReadCommitted Discipline

/-! ### What is stored for an application -/

def Row.extractionRun? : Row → Option ExtractionRunRow
  | .extractionRun r => some r
  | _ => none

/-- The extraction run in a row, if it is one of the application. -/
def runOf? (ctx : ActivityContext) (r : Row) : Option ExtractionRunRow :=
  r.extractionRun?.filter fun x => x.tenantId = ctx.tenantId && x.applicationId = ctx.applicationId

/-- The fact in a row, if it is one of the application. -/
def factOf? (ctx : ActivityContext) (r : Row) : Option ExtractedFactRow :=
  r.extractedFact?.filter fun x => x.tenantId = ctx.tenantId && x.applicationId = ctx.applicationId

/-- The document in a row, if it is one of the application. -/
def documentOf? (ctx : ActivityContext) (r : Row) : Option DocumentRow :=
  r.document?.filter (isDocumentOf ctx.tenantId ctx.applicationId)

namespace Database

def runsOf (d : Database) (ctx : ActivityContext) : List ExtractionRunRow :=
  d.rows.filterMap (runOf? ctx)

def factsStored (d : Database) (ctx : ActivityContext) : List ExtractedFactRow :=
  d.rows.filterMap (factOf? ctx)

/-- The documents, in the order in which they are listed. -/
def documentsOf (d : Database) (ctx : ActivityContext) : List UploadedDocument :=
  (d.rows.filterMap (documentOf? ctx)).mergeSort fun x y => x.uploadedAt.ticks ≤ y.uploadedAt.ticks

end Database

/-- The key under which a document is processed. -/
def ActivityInfo.documentKeyOf (info : ActivityInfo) (ctx : ActivityContext)
    (documentId : String) : Key :=
  .idempotencyKey ctx.tenantId processDocumentOperation (documentKey info documentId)

/-- **An extraction run and the facts stored with it.** -/
structure StoredExtraction where
  run : ExtractionRunRow
  facts : List ExtractedFactRow

/-- The run says how many facts there are, and they name it. -/
structure StoredExtraction.Consistent (e : StoredExtraction) : Prop where
  count : e.run.factCount = e.facts.length
  facts : ∀ f ∈ e.facts, f.runId = e.run.runId ∧ f.documentId = e.run.documentId

/-- The documents that have been processed. -/
def processed (done : List StoredExtraction) : List String := done.map fun e => e.run.documentId

/-- The number of facts stored for them. -/
def factTotal (done : List StoredExtraction) : ℕ := (done.map fun e => e.facts.length).sum

@[simp] theorem processed_append (done new : List StoredExtraction) :
    processed (done ++ new) = processed done ++ processed new := by
  simp [processed]

@[simp] theorem factTotal_append (done new : List StoredExtraction) :
    factTotal (done ++ new) = factTotal done + factTotal new := by
  simp [factTotal]

/-- **What the attempts have done since `d₀`**: each run is new, no document has two, and the key of
a document is taken when its run is there. -/
structure Extracted (info : ActivityInfo) (ctx : ActivityContext) (d₀ : Database)
    (done : List StoredExtraction) (d : Database) : Prop where
  documents : d.documentsOf ctx = d₀.documentsOf ctx
  runs : d.runsOf ctx = d₀.runsOf ctx ++ done.map StoredExtraction.run
  facts : d.factsStored ctx = d₀.factsStored ctx ++ done.flatMap StoredExtraction.facts
  keys : ∀ documentId, d.has (info.documentKeyOf ctx documentId) = true ↔
    d₀.has (info.documentKeyOf ctx documentId) = true ∨ documentId ∈ processed done
  listed : ∀ documentId ∈ processed done,
    documentId ∈ (d₀.documentsOf ctx).map UploadedDocument.documentId
  nodup : (processed done).Nodup
  consistent : ∀ e ∈ done, e.Consistent

theorem extracted_start (info : ActivityInfo) (ctx : ActivityContext) (d₀ : Database) :
    Extracted info ctx d₀ [] d₀ where
  documents := rfl
  runs := (List.append_nil _).symm
  facts := (List.append_nil _).symm
  keys := by simp [processed]
  listed := by simp [processed]
  nodup := by simp [processed]
  consistent := by simp

/-! ### One document -/

/-- What the processing of a document writes. -/
def extractionWrites (info : ActivityInfo) (ctx : ActivityContext) (reservedAt : DateTime)
    (e : StoredExtraction) : List Write :=
  reserveWrite ctx.tenantId processDocumentOperation (documentKey info e.run.documentId) reservedAt ::
    ⟨ctx.tenantId, .insert (.extractionRun e.run)⟩ ::
      e.facts.map fun f => ⟨ctx.tenantId, .insert (.extractedFact f)⟩

/-- The list of the documents is read. -/
theorem documentsOf_visible (d : Database) (ctx : ActivityContext) :
    ((d.visible ctx.tenantId).documents.filter (isDocumentOf ctx.tenantId ctx.applicationId)).mergeSort
      (fun x y => x.uploadedAt.ticks ≤ y.uploadedAt.ticks) = d.documentsOf ctx := by
  have hfilter := filter_visible Row.document? (isDocumentOf ctx.tenantId ctx.applicationId)
    ctx.tenantId (fun r x hx hmine => by
      cases r <;> cases hx
      simpa [Row.visibleTo, Row.tenantId?] using (Bool.and_eq_true_iff.1 hmine).1) d
  rw [Database.documentsOf, Database.documents, hfilter, List.filter_filterMap]
  rfl

/-- A run and facts of the application. -/
structure StoredExtraction.Of (e : StoredExtraction) (ctx : ActivityContext) (documentId : String) :
    Prop where
  document : e.run.documentId = documentId
  run : e.run.tenantId = ctx.tenantId ∧ e.run.applicationId = ctx.applicationId
  facts : ∀ f ∈ e.facts, f.tenantId = ctx.tenantId ∧ f.applicationId = ctx.applicationId

theorem documentKeyOf_inj {info : ActivityInfo} {ctx : ActivityContext} {x y : String}
    (h : info.documentKeyOf ctx x = info.documentKeyOf ctx y) : x = y := by
  simp only [ActivityInfo.documentKeyOf, documentKey, Key.idempotencyKey.injEq, true_and] at h
  have hlist := congrArg String.toList h
  simp only [String.toList_append] at hlist
  exact String.ext (List.append_cancel_left hlist)

/-- What it inserts into a table. -/
theorem inserted_extractionWrites {β : Type} (π : Row → Option β)
    (hπ : ∀ r, π (.idempotencyKey r) = none) (info : ActivityInfo) (ctx : ActivityContext)
    (reservedAt : DateTime) (e : StoredExtraction) :
    (extractionWrites info ctx reservedAt e).filterMap (fun w => w.statement.inserted?.bind π) =
      (π (.extractionRun e.run)).toList ++ e.facts.filterMap fun f => π (.extractedFact f) := by
  have hrows : extractionWrites info ctx reservedAt e =
      (.idempotencyKey ⟨ctx.tenantId, processDocumentOperation, documentKey info e.run.documentId,
        reservedAt⟩ :: .extractionRun e.run :: e.facts.map Row.extractedFact).map
          fun r => ⟨ctx.tenantId, .insert r⟩ := by
    simp [extractionWrites, reserveWrite]
  rw [hrows, List.filterMap_map]
  change List.filterMap π _ = _
  rw [List.filterMap_cons_none (hπ _)]
  cases hrun : π (.extractionRun e.run) with
  | none =>
      rw [List.filterMap_cons_none hrun, List.filterMap_map]
      rfl
  | some b =>
      rw [List.filterMap_cons_some hrun, List.filterMap_map]
      rfl

/-- **One document more.** -/
theorem Extracted.step {info : ActivityInfo} {ctx : ActivityContext} {d₀ d : Database}
    {done : List StoredExtraction} (h : Extracted info ctx d₀ done d) {e : StoredExtraction}
    {documentId : String} (he : e.Of ctx documentId) (hconsistent : e.Consistent)
    (hlisted : documentId ∈ (d₀.documentsOf ctx).map UploadedDocument.documentId)
    (hfree : d.has (info.documentKeyOf ctx documentId) = false) (reservedAt : DateTime) :
    Extracted info ctx d₀ (done ++ [e]) (postgres.view d (extractionWrites info ctx reservedAt e)) := by
  have hnew : documentId ∉ processed done := fun hmem => by
    rw [(h.keys documentId).2 (Or.inr hmem)] at hfree
    cases hfree
  have hdocument := he.document
  subst hdocument
  refine ⟨?_, ?_, ?_, fun documentId => ?_, ?_, ?_, ?_⟩
  · rw [← h.documents, Database.documentsOf, Database.documentsOf, filterMap_view (documentOf? ctx)
      fun _ s r => by cases s <;> cases r <;> rfl]
    rw [inserted_extractionWrites _ fun _ => rfl]
    simp [documentOf?, Row.document?]
  · rw [Database.runsOf, filterMap_view (runOf? ctx) fun _ s r => by cases s <;> cases r <;> rfl,
      inserted_extractionWrites _ fun _ => rfl, show d.rows.filterMap (runOf? ctx) = _ from h.runs]
    simp [runOf?, Row.extractionRun?, he.run.1, he.run.2]
  · have hall : (e.facts.filterMap fun f => factOf? ctx (.extractedFact f)) = e.facts := by
      refine (List.filterMap_congr fun f hf => ?_).trans List.filterMap_some
      simp [factOf?, Row.extractedFact?, (he.facts f hf).1, (he.facts f hf).2]
    rw [Database.factsStored, filterMap_view (factOf? ctx) fun _ s r => by
        cases s <;> cases r <;> rfl, inserted_extractionWrites _ fun _ => rfl, hall,
      show d.rows.filterMap (factOf? ctx) = _ from h.facts]
    simp [factOf?, Row.extractedFact?]
  · rw [occupied_view_iff, h.keys, or_assoc]
    refine or_congr_right ?_
    rw [processed_append, List.mem_append]
    refine or_congr_right ?_
    constructor
    · rintro ⟨w, hw, r, hr, hk⟩
      simp only [extractionWrites, List.mem_cons, List.mem_map] at hw
      rcases hw with rfl | rfl | ⟨f, -, rfl⟩
      · obtain rfl := Option.some.inj hr
        have hkey : info.documentKeyOf ctx documentId = info.documentKeyOf ctx e.run.documentId := by
          simpa [Row.keys, ActivityInfo.documentKeyOf] using hk
        rw [documentKeyOf_inj hkey]
        exact List.mem_singleton.2 rfl
      · obtain rfl := Option.some.inj hr
        simp [Row.keys, ActivityInfo.documentKeyOf] at hk
      · obtain rfl := Option.some.inj hr
        simp [Row.keys, ActivityInfo.documentKeyOf] at hk
    · intro hmem
      rw [List.mem_singleton.1 hmem]
      exact ⟨_, List.mem_cons_self, _, rfl, List.mem_singleton.2 rfl⟩
  · intro x hx
    rw [processed_append, List.mem_append] at hx
    rcases hx with hx | hx
    · exact h.listed x hx
    · rw [List.mem_singleton.1 hx]
      exact hlisted
  · rw [processed_append, List.nodup_append]
    refine ⟨h.nodup, List.nodup_singleton _, fun x hx y hy hxy => ?_⟩
    rw [hxy, List.mem_singleton.1 hy] at hx
    exact hnew hx
  · intro x hx
    rcases List.mem_append.1 hx with hx | hx
    · exact h.consistent x hx
    · rw [List.mem_singleton.1 hx]
      exact hconsistent

section Processing

variable {I : Database → Prop} {R : Error → Database → Prop} {d : Database}
variable {info : ActivityInfo} {ctx : ActivityContext}

/-- **The processing of a document**: one run, with its facts, if the key was free. -/
theorem steady_processDocument (hR : ∀ e d, e.isOrdinary = true → R e d) {documentId : String}
    {Q : ProcessDocumentResult → List Write → Database → Prop}
    (hdup : d.has (info.documentKeyOf ctx documentId) = true →
      R (.duplicateRequest processDocumentOperation (documentKey info documentId)) d)
    (h : ∀ reservedAt (e : StoredExtraction) (r : ProcessDocumentResult),
      d.has (info.documentKeyOf ctx documentId) = false → e.Of ctx documentId → e.Consistent →
      r.factCount = e.facts.length →
      I (postgres.view d (extractionWrites info ctx reservedAt e)) ∧
        Q r [] (postgres.view d (extractionWrites info ctx reservedAt e))) :
    (steady postgres I).wp (keeping I R)
      (processDocument ⟨ctx.tenantId, ctx.applicationId, documentId, documentKey info documentId⟩)
      Q [] d := by
  refine wp_seq _ (steady_requireReservation hdup fun reservedAt hfree => ?_)
  refine wp_seq _ (steady_select ?_)
  cases List.find? (fun document : UploadedDocument => document.documentId = documentId) _ with
  | none => exact hR _ _ rfl
  | some document =>
      refine wp_seq _ (steady_ask fun described => ?_)
      refine wp_seq _ (steady_ofPort hR fun metadata _ => ?_)
      refine wp_seq _ (steady_reads hR (quiet_extractDocument _ _ _) fun extraction => ?_)
      refine wp_seq _ (steady_withIds _ fun facts hfacts => ?_)
      refine wp_seq _ (steady_ask fun runId => ?_)
      refine wp_seq _ (steady_ask fun completedAt => ?_)
      refine wp_seq _ (wp_seq _ (steady_execute hR fun _ => steady_insertAll hR _ ?_))
      obtain ⟨hi, hq⟩ := h reservedAt
        ⟨⟨Uuid4.value runId, ctx.tenantId, ctx.applicationId, documentId, extraction.classification,
          facts.length, completedAt⟩, facts.map fun f => ⟨f.1, Uuid4.value runId, ctx.tenantId,
            ctx.applicationId, documentId, f.2, completedAt⟩⟩
        ⟨documentId, extraction.classification, extraction.facts.length, extraction.error⟩ hfree
        ⟨rfl, ⟨rfl, rfl⟩, fun f hf => by obtain ⟨g, -, rfl⟩ := List.mem_map.1 hf; exact ⟨rfl, rfl⟩⟩
        ⟨(List.length_map _).symm, fun f hf => by
          obtain ⟨g, -, rfl⟩ := List.mem_map.1 hf; exact ⟨rfl, rfl⟩⟩
        (by rw [← hfacts, List.length_map, List.length_map])
      simp only [extractionWrites, List.map_map] at hi hq
      simp only [List.map_map, List.cons_append, List.nil_append]
      exact wp_seq _ (steady_commit hi hq)

variable {d₀ : Database}

/-- The databases in which some documents have been processed. -/
def InProgress (info : ActivityInfo) (ctx : ActivityContext) (d₀ d : Database) : Prop :=
  ∃ done, Extracted info ctx d₀ done d

/-- What part of an attempt leaves that has come from `done` and `factCount` so far. -/
structure GoneOn (info : ActivityInfo) (ctx : ActivityContext) (d₀ : Database)
    (done : List StoredExtraction) (factCount : ℕ) (documentIds : List String)
    (result : ℕ) (ws : List Write) (d : Database) : Prop where
  writes : ws = []
  progress : ∃ new, Extracted info ctx d₀ (done ++ new) d ∧ result = factCount + factTotal new ∧
    ∀ documentId ∈ documentIds, documentId ∈ processed (done ++ new)

/-- **One turn of the loop**: the document is processed, or it was processed before. -/
theorem steady_extractOne (hR : ∀ e d, e.isOrdinary = true → R e d)
    {done : List StoredExtraction} (h : Extracted info ctx d₀ done d) {documentId : String}
    (hlisted : documentId ∈ (d₀.documentsOf ctx).map UploadedDocument.documentId)
    (hfresh : d₀.has (info.documentKeyOf ctx documentId) = false) (factCount : ℕ) :
    (steady postgres (InProgress info ctx d₀)).wp (keeping (InProgress info ctx d₀) R)
      (orIfDuplicate
        (do
          let result ← processDocument ⟨ctx.tenantId, ctx.applicationId, documentId,
            documentKey info documentId⟩
          pure (factCount + result.factCount))
        (pure factCount))
      (GoneOn info ctx d₀ done factCount [documentId]) [] d := by
  -- a key that is taken says that the document was processed before
  let R' : Error → Database → Prop := fun e d' => e.isOrdinary = true ∨
    (∃ op key, e = .duplicateRequest op key) ∧
      GoneOn info ctx d₀ done factCount [documentId] factCount [] d'
  have hbody : (steady postgres (InProgress info ctx d₀)).wp (keeping (InProgress info ctx d₀) R')
      (do
        let result ← processDocument ⟨ctx.tenantId, ctx.applicationId, documentId,
          documentKey info documentId⟩
        pure (factCount + result.factCount))
      (GoneOn info ctx d₀ done factCount [documentId]) [] d := by
    refine wp_seq _ (steady_processDocument (fun _ _ => Or.inl) (fun htaken =>
      Or.inr ⟨⟨_, _, rfl⟩, rfl, [], ?_⟩)
      fun reservedAt e r hfree he hconsistent hcount => ?_)
    · rw [List.append_nil]
      refine ⟨h, rfl, fun x hx => ?_⟩
      rw [List.mem_singleton.1 hx]
      exact ((h.keys documentId).1 htaken).resolve_left (by rw [hfresh]; exact Bool.false_ne_true)
    · have hstep := h.step he hconsistent hlisted hfree reservedAt
      refine ⟨⟨_, hstep⟩, rfl, [e], hstep, by rw [hcount]; simp [factTotal], fun x hx => ?_⟩
      rw [List.mem_singleton.1 hx, processed_append, List.mem_append]
      exact Or.inr (List.mem_singleton.2 he.document.symm)
  refine wp_tryCatch _ _ _ (R := R') (fun e p' ws' d' he hp' => ?_) (fun e d' he hp' => ?_) [] d
    hbody
  · rcases he with he | ⟨⟨op, key, rfl⟩, hgone⟩
    · cases e <;> first | (cases hp'; done) | cases he
    · obtain rfl : pure factCount = p' := Option.some.inj hp'
      exact steady_now hgone
  · rcases he with he | ⟨⟨op, key, rfl⟩, -⟩
    · exact hR e d' he
    · cases hp'

/-- **What one attempt adds**, going through documents. -/
theorem steady_extractEach (hR : ∀ e d, e.isOrdinary = true → R e d)
    (documents : List UploadedDocument)
    (hlisted : ∀ document ∈ documents,
      document.documentId ∈ (d₀.documentsOf ctx).map UploadedDocument.documentId)
    (hfresh : ∀ document ∈ documents,
      d₀.has (info.documentKeyOf ctx document.documentId) = false) :
    ∀ {done : List StoredExtraction} {d : Database} (factCount : ℕ),
      Extracted info ctx d₀ done d →
      (steady postgres (InProgress info ctx d₀)).wp (keeping (InProgress info ctx d₀) R)
        (extractEach info ctx documents factCount)
        (GoneOn info ctx d₀ done factCount (documents.map UploadedDocument.documentId)) [] d := by
  induction documents with
  | nil =>
      intro done d factCount h
      exact ⟨rfl, [], by rw [List.append_nil]; exact h, rfl, by simp⟩
  | cons document documents ih =>
      intro done d factCount h
      refine wp_seq _ (wp_mono _ ?_ (steady_extractOne hR h
        (hlisted document List.mem_cons_self) (hfresh document List.mem_cons_self) factCount))
      rintro n ws d' ⟨rfl, new, hnew, rfl, hdone⟩
      refine wp_mono _ ?_ (ih (fun x hx => hlisted x (List.mem_cons_of_mem _ hx))
        (fun x hx => hfresh x (List.mem_cons_of_mem _ hx)) _ hnew)
      rintro n ws d'' ⟨rfl, later, hlater, rfl, hall⟩
      refine ⟨rfl, new ++ later, by rwa [← List.append_assoc], by rw [factTotal_append]; omega,
        fun x hx => ?_⟩
      rw [← List.append_assoc]
      rcases List.mem_cons.1 hx with rfl | hx
      · rw [processed_append, List.mem_append]
        exact Or.inl (hdone _ (List.mem_singleton.2 rfl))
      · exact hall x hx

/-- **An attempt at the activity.** -/
theorem steady_extractDocumentFacts (hR : ∀ e d, e.isOrdinary = true → R e d)
    (hfresh : ∀ document ∈ d₀.documentsOf ctx,
      d₀.has (info.documentKeyOf ctx document.documentId) = false)
    {done : List StoredExtraction} (h : Extracted info ctx d₀ done d) :
    (steady postgres (InProgress info ctx d₀)).wp (keeping (InProgress info ctx d₀) R)
      (extractDocumentFactsActivity info ctx) (fun r ws d' =>
        r.documentCount = (d₀.documentsOf ctx).length ∧
        GoneOn info ctx d₀ done 0 ((d₀.documentsOf ctx).map UploadedDocument.documentId)
          r.factCount ws d') [] d := by
  refine wp_seq _ (steady_select ?_)
  rw [postgres.view_nil, documentsOf_visible, h.documents]
  refine wp_seq _ (wp_mono _ (fun n ws d' hgone => ⟨rfl, hgone⟩) (steady_extractEach hR _
    (fun document hdocument => List.mem_map_of_mem hdocument) hfresh 0 h))

end Processing

/-! ### Attempts -/

/-- What others write between two attempts: nothing about the documents of the application, and
none of the keys of the activity. -/
def Apart (info : ActivityInfo) (ctx : ActivityContext) (w : Write) : Prop :=
  ∀ row ∈ w.statement.inserted?, documentOf? ctx row = none ∧ runOf? ctx row = none ∧
    factOf? ctx row = none ∧ ∀ documentId, info.documentKeyOf ctx documentId ∉ row.keys

/-- **The databases that attempts at the activity lead to.**  Each attempt runs until it is killed,
which may be after it has returned. -/
inductive Attempts (info : ActivityInfo) (ctx : ActivityContext) (d₀ : Database) : Database → Prop
  | start : Attempts info ctx d₀ d₀
  | attempt {d : Database} (h : Attempts info ctx d₀ d) {σ : Type} (E : Environment Answer σ) (s : σ)
      (n : ℕ) : Attempts info ctx d₀
        (((extractDocumentFactsActivity info ctx).cut .crashed n).alone postgres E s d []).db
  | others {d : Database} (h : Attempts info ctx d₀ d) (ws : List Write)
      (hws : ∀ w ∈ ws, Apart info ctx w) : Attempts info ctx d₀ (postgres.view d ws)

section Attempts

variable {info : ActivityInfo} {ctx : ActivityContext} {d₀ d : Database}

theorem Extracted.others {done : List StoredExtraction} (h : Extracted info ctx d₀ done d)
    {ws : List Write} (hws : ∀ w ∈ ws, Apart info ctx w) :
    Extracted info ctx d₀ done (postgres.view d ws) := by
  have hnone : ∀ {β : Type} (π : Row → Option β), (∀ w ∈ ws, ∀ row ∈ w.statement.inserted?,
      π row = none) → ws.filterMap (fun w => w.statement.inserted?.bind π) = [] := by
    intro β π hπ
    refine List.filterMap_eq_nil_iff.2 fun w hw => ?_
    cases hrow : w.statement.inserted? with
    | none => rfl
    | some row => exact hπ w hw row hrow
  refine ⟨?_, ?_, ?_, fun documentId => ?_, h.listed, h.nodup, h.consistent⟩
  · rw [← h.documents, Database.documentsOf, Database.documentsOf, filterMap_view (documentOf? ctx)
      fun _ s r => by cases s <;> cases r <;> rfl]
    rw [hnone _ fun w hw row hrow => (hws w hw row hrow).1, List.append_nil]
  · rw [← h.runs, Database.runsOf, Database.runsOf, filterMap_view (runOf? ctx) fun _ s r => by
      cases s <;> cases r <;> rfl, hnone _ fun w hw row hrow => (hws w hw row hrow).2.1,
      List.append_nil]
  · rw [← h.facts, Database.factsStored, Database.factsStored, filterMap_view (factOf? ctx)
      fun _ s r => by cases s <;> cases r <;> rfl,
      hnone _ fun w hw row hrow => (hws w hw row hrow).2.2.1, List.append_nil]
  · rw [occupied_view_iff, ← h.keys]
    refine or_iff_left ?_
    rintro ⟨w, hw, row, hrow, hk⟩
    exact (hws w hw row hrow).2.2.2 documentId hk

/-- **What any number of attempts has done.** -/
theorem Attempts.extracted (hfresh : ∀ document ∈ d₀.documentsOf ctx,
      d₀.has (info.documentKeyOf ctx document.documentId) = false)
    (h : Attempts info ctx d₀ d) : InProgress info ctx d₀ d := by
  induction h with
  | start => exact ⟨[], extracted_start info ctx d₀⟩
  | @attempt d _ σ E s n ih =>
      obtain ⟨done, hdone⟩ := ih
      have hwp : (steady postgres (InProgress info ctx d₀)).wp
          (keeping (InProgress info ctx d₀) fun _ _ => True) (extractDocumentFactsActivity info ctx)
          _ [] d := steady_extractDocumentFacts (fun _ _ _ => trivial) hfresh hdone
      exact cut_of_wp (D := steady postgres (InProgress info ctx d₀)) (fun _ _ _ _ hc => hc) n
        ⟨done, hdone⟩ (postgres.granted_nil d) hwp
  | others _ ws hws ih =>
      obtain ⟨done, hdone⟩ := ih
      exact ⟨done, hdone.others hws⟩

/-- **One run for each document, and when the number of facts is right.**  A successful attempt,
after any number of attempts that were killed or whose answer was lost, leaves one extraction run
for each document, and says how many documents there are.  It says how many facts these runs have
stored exactly when the earlier attempts have stored none. -/
theorem extraction_retried_iff (info : ActivityInfo) (ctx : ActivityContext) (d₀ d : Database)
    (hfresh : ∀ document ∈ d₀.documentsOf ctx,
      d₀.has (info.documentKeyOf ctx document.documentId) = false)
    (hattempts : Attempts info ctx d₀ d) {σ : Type} (E : Environment Answer σ) (s : σ)
    (r : ExtractDocumentFactsActivityResult)
    (hr : ((extractDocumentFactsActivity info ctx).alone postgres E s d []).result = .ok r) :
    ∃ all : List StoredExtraction,
      (((extractDocumentFactsActivity info ctx).alone postgres E s d []).db.runsOf ctx =
          d₀.runsOf ctx ++ all.map StoredExtraction.run ∧
        ((extractDocumentFactsActivity info ctx).alone postgres E s d []).db.factsStored ctx =
          d₀.factsStored ctx ++ all.flatMap StoredExtraction.facts ∧
        ∀ e ∈ all, e.Consistent) ∧
      ((processed all).Nodup ∧ ∀ documentId, documentId ∈ processed all ↔
        documentId ∈ (d₀.documentsOf ctx).map UploadedDocument.documentId) ∧
      r.documentCount = (d₀.documentsOf ctx).length ∧
      (r.factCount = factTotal all ↔ d.factsStored ctx = d₀.factsStored ctx) := by
  obtain ⟨done, hdone⟩ := hattempts.extracted hfresh
  obtain ⟨⟨hcount, -, new, hall, hfacts, hcovered⟩, -⟩ :=
    (alone_of_wp (D := steady postgres (InProgress info ctx d₀)) (fun _ _ _ _ hc => hc)
      ⟨done, hdone⟩ (postgres.granted_nil d)
      (steady_extractDocumentFacts (R := fun _ _ => True) (fun _ _ _ => trivial) hfresh hdone)).1 r hr
  refine ⟨done ++ new, ⟨hall.runs, hall.facts, hall.consistent⟩,
    ⟨hall.nodup, fun x => ⟨hall.listed x, hcovered x⟩⟩, hcount, ?_⟩
  have htotal : factTotal done = (done.flatMap StoredExtraction.facts).length := by
    rw [List.length_flatMap, factTotal]
  rw [hdone.facts, hfacts, factTotal_append, List.append_right_eq_self, ← List.length_eq_zero_iff,
    ← htotal]
  omega

end Attempts

namespace Sample

/-- External systems that find one fact in every document. -/
def extracting (n : ℕ) : (q : Ask) → Answer q
  | .getObjectMetadata _ key => .ok ⟨key, "", 1, "application/pdf"⟩
  | .getObject .. => .ok [0]
  | .extractText .. => .ok [⟨1, "Synthetic ID: 111"⟩]
  | .classify _ => .ok .identityDocument
  | .extractFacts _ _ sourceChecksum => .ok [⟨.syntheticId, "111", "111", 1, 1, "regex", "1",
      sourceChecksum, certain, firstPage⟩]
  | q => answers n q

def extracted : Environment Answer ℕ := fun n q => (extracting n q, n + 1)

/-- An application with one document. -/
def uploaded : Database :=
  ⟨unverified.rows ++ [.document ⟨"document", tenantId, graceId, "identity", "key", "", 1, noon⟩]⟩

def extractInfo : ActivityInfo := ⟨"application-workflow", 3⟩

/-- An attempt at the extraction. -/
def extractOnce (n : ℕ) (d : Database) :
    Outcome Database Write ℕ Error ExtractDocumentFactsActivityResult :=
  (extractDocumentFactsActivity extractInfo verifyContext).alone postgres extracted n d []

/-- An attempt that is killed after its fourteenth step. -/
def killed : Outcome Database Write ℕ Error ExtractDocumentFactsActivityResult :=
  ((extractDocumentFactsActivity extractInfo verifyContext).cut .crashed 14).alone postgres
    extracted 0 uploaded []

theorem uploaded_fresh : ∀ document ∈ uploaded.documentsOf verifyContext,
    uploaded.has (extractInfo.documentKeyOf verifyContext document.documentId) = false := by
  decide +kernel

end Sample

/-- If the answer of the first attempt is lost, the second one counts no facts. -/
theorem extraction_retried_undercounts :
    ¬ ∀ (info : ActivityInfo) (ctx : ActivityContext) (d₀ d : Database),
      (∀ document ∈ d₀.documentsOf ctx,
        d₀.has (info.documentKeyOf ctx document.documentId) = false) →
      Attempts info ctx d₀ d → ∀ (σ : Type) (E : Environment Answer σ) (s : σ)
        (r : ExtractDocumentFactsActivityResult),
        ((extractDocumentFactsActivity info ctx).alone postgres E s d []).result = .ok r →
        (((extractDocumentFactsActivity info ctx).alone postgres E s d []).db.factsStored ctx).length =
          (d₀.factsStored ctx).length + r.factCount := by
  intro h
  obtain ⟨n, hn⟩ := Prog.exists_cut_eq .crashed
    (extractDocumentFactsActivity Sample.extractInfo Sample.verifyContext) 0 Sample.uploaded []
    (S := postgres) (E := Sample.extracted)
  have hattempts : Attempts Sample.extractInfo Sample.verifyContext Sample.uploaded
      (Sample.extractOnce 0 Sample.uploaded).db := by
    have hcut : Attempts Sample.extractInfo Sample.verifyContext Sample.uploaded _ :=
      Attempts.start.attempt Sample.extracted 0 n
    rwa [hn] at hcut
  have hresult : ((Sample.extractOnce 100 (Sample.extractOnce 0 Sample.uploaded).db).result.map
      ExtractDocumentFactsActivityResult.factCount).toOption = some 0 := by decide +kernel
  have hstored : ((Sample.extractOnce 100 (Sample.extractOnce 0 Sample.uploaded).db).db.factsStored
      Sample.verifyContext).length = 1 ∧ (Sample.uploaded.factsStored Sample.verifyContext).length = 0 := by
    decide +kernel
  cases hr : (Sample.extractOnce 100 (Sample.extractOnce 0 Sample.uploaded).db).result with
  | error e => rw [hr] at hresult; cases hresult
  | ok r =>
      have hcount := h _ _ _ _ Sample.uploaded_fresh hattempts _ Sample.extracted 100 r hr
      rw [hr] at hresult
      have hzero : r.factCount = 0 := Option.some.inj hresult
      have hlengths : 1 = 0 + r.factCount := by
        rw [← hstored.1, ← hstored.2]
        exact hcount
      omega

/-- An attempt after one that was killed right before its commit, with a run and a fact among its
statements. -/
theorem extraction_retried_iff_killed : Sample.killed.writes.length = 3 ∧
    ∃ r, (Sample.extractOnce 100 Sample.killed.db).result = .ok r ∧ r.documentCount = 1 ∧
      r.factCount = 1 ∧ ∃ all, (Sample.extractOnce 100 Sample.killed.db).db.runsOf
        Sample.verifyContext = all.map StoredExtraction.run ∧ r.factCount = factTotal all := by
  have hresult : ((Sample.extractOnce 100 Sample.killed.db).result.map
      ExtractDocumentFactsActivityResult.factCount).toOption = some 1 := by decide +kernel
  refine ⟨by decide +kernel, ?_⟩
  cases hr : (Sample.extractOnce 100 Sample.killed.db).result with
  | error e => rw [hr] at hresult; cases hresult
  | ok r =>
      obtain ⟨all, ⟨hruns, -, -⟩, -, hcount, hfacts⟩ := extraction_retried_iff Sample.extractInfo
        Sample.verifyContext Sample.uploaded Sample.killed.db Sample.uploaded_fresh
        (Attempts.start.attempt Sample.extracted 0 14) Sample.extracted 100 r hr
      have hone : (Sample.uploaded.documentsOf Sample.verifyContext).length = 1 := by decide +kernel
      have hnone : Sample.killed.db.factsStored Sample.verifyContext =
          Sample.uploaded.factsStored Sample.verifyContext :=
        (List.eq_nil_of_length_eq_zero (by decide +kernel)).trans
          (List.eq_nil_of_length_eq_zero (by decide +kernel)).symm
      rw [hr] at hresult
      exact ⟨r, rfl, hcount.trans hone, Option.some.inj hresult, all, hruns, hfacts.2 hnone⟩

end FinAssist
