/-
**What the handlers name.**

Every statement of a handler names rows its transaction has seen or inserted, and ids drawn for its
tenant.  This module says so of each repository method, of each handler, and of the attempts at
activities, from their text alone.

Main results:

* `FinAssist.confined_saveApplication`, `FinAssist.confined_recordDomainEvents` — the pieces that
  most handlers share;
* `FinAssist.Command.confined` — **a handler keeps to its tenant**;
* `FinAssist.Kind.confined` — **every program does**, attempts at activities included.
-/

import FinAssist.IntakeAgreement
import FinAssist.Tenants

set_option relaxedAutoImplicit false
set_option autoImplicit false

namespace FinAssist

open ReadCommitted ApplicationStatus

/-- **What a piece of a handler may name.** -/
abbrev Handler.Confined {α : Type} (t : TenantId) (p : Handler α) (Q : α → Known Key → Prop)
    (K : Known Key) : Prop :=
  tenancy.confined t p Q K

section Pieces

variable {t : TenantId} {K : Known Key} {α β : Type}

/-! ### Statements -/

theorem confined_bind {p : Handler α} {f : α → Handler β} {Q : β → Known Key → Prop}
    (h : p.Confined t (fun a J => (f a).Confined t Q J) K) : (p >>= f).Confined t Q K :=
  Partition.confined_bind h

theorem confined_ask {q : Ask} {Q : Answer q → Known Key → Prop}
    (h : ∀ a K', K.Le K' → Q a K') : (Handler.ask q).Confined t Q K :=
  fun a => h a _ (Known.le_issue _ _)

theorem confined_now {Q : DateTime → Known Key → Prop} (h : ∀ a K', K.Le K' → Q a K') :
    now.Confined t Q K :=
  confined_ask h

/-- An id that is drawn is the tenant's. -/
theorem confined_newId {Q : Uuid4 → Known Key → Prop}
    (h : ∀ id K', K.Le K' → (∀ k : Key, k.id? = some id.value → K'.new k) → Q id K') :
    newId.Confined t Q K :=
  fun id => h id _ (Known.le_issue _ _) fun _ hk => Or.inr hk

theorem confined_ofExcept {r : Except Error α} {Q : α → Known Key → Prop}
    (h : ∀ a, r = .ok a → Q a K) : (Handler.ofExcept r).Confined t Q K := by
  cases r with
  | ok a => exact h a rfl
  | error e => trivial

theorem confined_ofPort {r : Except PortError α} {Q : α → Known Key → Prop} (h : ∀ a, Q a K) :
    (Handler.ofPort r).Confined t Q K := by
  cases r with
  | ok a => exact h a
  | error e => trivial

/-- What a tenant reads are rows that it can see. -/
theorem confined_select {f : Database → α} {Q : α → Known Key → Prop}
    (h : ∀ d K', Separate d → K.Le K' → (∀ k, (d.visible t).has k = true → K'.seen k) →
      Q (f (d.visible t)) K') : (select t f).Confined t Q K := by
  refine ⟨fun d d' hd => ?_, fun d hd hK => ?_⟩
  · change d.visible t = d'.visible t at hd
    simp only [hd]
  · exact h d _ hd (Known.le_look hK) fun _ hk => hk

theorem confined_execute {s : Statement} {Q : Unit → Known Key → Prop}
    (hsafe : tenancy.Safe t K ⟨t, s⟩) (h : Q () (K.take s.absent)) :
    (execute t s).Confined t Q K :=
  ⟨hsafe, h, fun _ => trivial⟩

theorem confined_insert {row : Row} {Q : Unit → Known Key → Prop} (hfits : Fits t K row)
    (h : ∀ K', K.Le K' → (∀ k ∈ row.keys, K'.seen k) → Q () K') :
    (execute t (.insert row)).Confined t Q K :=
  confined_execute hfits.safe (h _ (Known.le_take _ _) fun _ hk => Or.inr hk)

theorem confined_insertAll {Q : Unit → Known Key → Prop} : ∀ {rows : List Row} {K : Known Key},
    (∀ row ∈ rows, Fits t K row) →
    (∀ K', K.Le K' → (∀ row ∈ rows, ∀ k ∈ row.keys, K'.seen k) → Q () K') →
    (insertAll t rows).Confined t Q K := by
  intro rows
  induction rows with
  | nil => exact fun _ h => h _ (Known.Le.refl _) (by simp)
  | cons row rows ih =>
      intro K hfits h
      refine confined_bind (confined_insert (hfits row List.mem_cons_self) fun K₁ hK₁ hrow => ?_)
      refine ih (fun r hr => (hfits r (List.mem_cons_of_mem _ hr)).mono hK₁) fun K₂ hK₂ hrows => ?_
      exact h K₂ (hK₁.trans hK₂)
        (List.forall_mem_cons.2 ⟨fun k hk => hK₂.seen k (hrow k hk), hrows⟩)

/-- An update of a row that is found under the tenant. -/
theorem safe_update {s : Statement} (hinserted : s.inserted? = none) (habsent : s.absent = [])
    (h : ∀ k ∈ s.present t, tenancy.Owns t K k) : tenancy.Safe t K ⟨t, s⟩ := by
  refine ⟨rfl, fun row hrow => ?_, fun _ => h, fun _ k hk => ?_, fun _ k hk => ?_, fun _ k hk => ?_⟩
  · change s = .insert row at hrow
    rw [hrow] at hinserted
    cases hinserted
  · change k ∈ (s.inserted?.map Row.anchors).getD [] at hk
    rw [hinserted] at hk
    cases hk
  all_goals
    change k ∈ s.absent at hk
    rw [habsent] at hk
    cases hk

theorem confined_update {s : Statement} {Q : Unit → Known Key → Prop}
    (hinserted : s.inserted? = none) (habsent : s.absent = [])
    (hpresent : ∀ k ∈ s.present t, tenancy.Owns t K k) (h : ∀ K', K.Le K' → Q () K') :
    (execute t s).Confined t Q K :=
  confined_execute (safe_update hinserted habsent hpresent) (h _ (Known.le_take _ _))

theorem confined_withIds {xs : List α} {Q : List (String × α) → Known Key → Prop} :
    ∀ {K : Known Key}, (∀ ys K', K.Le K' → ys.map Prod.snd = xs →
      (∀ y ∈ ys, ∀ k : Key, k.id? = some y.1 → K'.new k) → Q ys K') →
      (withIds xs).Confined t Q K := by
  induction xs generalizing Q with
  | nil => exact fun h => h [] _ (Known.Le.refl _) rfl (by simp)
  | cons x xs ih =>
      intro K h
      refine confined_bind (confined_newId fun id K₁ hK₁ hid =>
        confined_bind (ih fun ys K₂ hK₂ hys hnew => ?_))
      refine h _ K₂ (hK₁.trans hK₂) (by rw [List.map_cons, hys]) ?_
      exact List.forall_mem_cons.2 ⟨fun k hk => hK₂.new k (hid k hk), hnew⟩

/-! ### Repositories -/

theorem confined_requireReservation {key operationName : String} {Q : Unit → Known Key → Prop}
    (h : ∀ K', K.Le K' → Q () K') : (requireReservation t key operationName).Confined t Q K := by
  refine confined_bind (confined_bind (confined_now fun at' K₁ hK₁ =>
    ⟨Fits.safe ?_, ?_, fun f => ?_⟩))
  · -- the client chose the key, so nothing was drawn for it
    refine ⟨by simp [Row.tenantId?], rfl, by simp [Row.references], by simp [Row.anchors], ?_⟩
    intro k hk hid
    rw [List.mem_singleton.1 hk] at hid
    exact (hid rfl).elim
  · exact h _ (hK₁.trans (Known.le_take _ _))
  · cases f <;> trivial

/-- What is found of an application is a row of the tenant. -/
theorem seen_application {d : Database} (hd : Separate d) {a : ApplicationId} {r : ApplicationRow}
    (h : (d.visible t).application? a = some r) : (d.visible t).has (.application a) = true := by
  obtain ⟨hmem, rfl⟩ := (application?_iff (visible_keys hd.wellFormed.keys t)).1 h
  exact Database.has_iff.2 ⟨_, hmem, List.mem_cons_self⟩

theorem confined_requireApplication {a : ApplicationId} {Q : ApplicationRow → Known Key → Prop}
    (h : ∀ row K', K.Le K' → K'.seen (.application a) → Q row K') :
    (requireApplication t a).Confined t Q K := by
  refine confined_bind (confined_bind (confined_select fun d K₁ hd hK₁ hseen => ?_))
  cases hrow : (d.visible t).application? a with
  | none => trivial
  | some row =>
      have ha := hseen _ (seen_application hd hrow)
      generalize Option.filter (fun r : ApplicationRow => r.tenantId = t) (some row) = found
      cases found with
      | none => trivial
      | some row' => exact h row' K₁ hK₁ ha

theorem fits_snapshot {application : Application} {id : String}
    (ha : K.seen (.application application.applicationId))
    (hid : ∀ k : Key, k.id? = some id → K.new k) :
    Fits t K (.applicationVersion (versionSnapshotRow application id)) := by
  refine ⟨by simp [Row.tenantId?], rfl, ?_, by simp [Row.anchors], ?_⟩
  · intro k hk
    rcases List.mem_pair.1 hk with rfl | rfl
    · exact Or.inl ha
    · exact Or.inr ⟨_, rfl⟩
  · intro k hk hne
    rcases List.mem_pair.1 hk with rfl | rfl
    · exact hid _ rfl
    · exact (hne rfl).elim

/-- A save names the application it has found, and no other. -/
theorem confined_saveApplication {cached : ApplicationRow} {application : Application}
    {Q : ApplicationRow → Known Key → Prop}
    (h : ∀ row K', K.Le K' → K'.seen (.application application.applicationId) → Q row K') :
    (saveApplication t cached application).Confined t Q K := by
  refine confined_bind (confined_select fun d K₁ hd hK₁ hseen =>
    confined_bind (confined_ask fun hit K₂ hK₂ => ?_))
  cases hfound : (d.visible t).application? application.applicationId with
  | none => trivial
  | some found =>
      have ha := hK₂.seen _ (hseen _ (seen_application hd hfound))
      simp only [Option.map_some]
      split
      next => trivial
      next =>
        refine confined_bind (confined_newId fun id K₃ hK₃ hid => confined_bind ?_)
        refine confined_update rfl rfl ?_ fun K₄ hK₄ => confined_bind ?_
        · -- the update finds the row by tenant and id, which only rows of the tenant have
          intro k hk
          rw [List.mem_singleton.1 hk]
          exact owns_applicationOf _
        · refine confined_insert (fits_snapshot (hK₄.seen _ (hK₃.seen _ ha))
            fun k hk => hK₄.new k (hid k hk)) fun K₅ hK₅ _ => ?_
          exact h _ K₅ (hK₁.trans (hK₂.trans (hK₃.trans (hK₄.trans hK₅))))
            (hK₅.seen _ (hK₄.seen _ (hK₃.seen _ ha)))

theorem confined_transition {application : Application} {s : ApplicationStatus} {reason : String}
    {Q : Application → Known Key → Prop}
    (h : ∀ application' K', K.Le K' → application'.applicationId = application.applicationId →
      Q application' K') : (transition application s reason).Confined t Q K := by
  refine confined_bind (confined_now fun at' K₁ hK₁ => confined_ofExcept fun application' hok => ?_)
  refine h application' K₁ hK₁ ?_
  rw [Application.transitionTo] at hok
  split at hok <;> cases hok
  rfl

theorem confined_addApplicant {applicant : Applicant} {Q : Unit → Known Key → Prop}
    (hid : K.new (.applicant applicant.applicantId))
    (h : ∀ K', K.Le K' → K'.seen (.applicant applicant.applicantId) → Q () K') :
    (addApplicant t applicant).Confined t Q K := by
  refine confined_bind (confined_now fun at' K₁ hK₁ => confined_insert ?_ fun K₂ hK₂ hkeys => ?_)
  · refine ⟨by simp [Row.tenantId?], rfl, fun k hk => Or.inr ⟨_, List.mem_singleton.1 hk⟩,
      by simp [Row.anchors], fun k hk _ => ?_⟩
    rw [List.mem_singleton.1 hk]
    exact hK₁.new _ hid
  · exact h K₂ (hK₁.trans hK₂) (hkeys _ List.mem_cons_self)

theorem confined_addApplication {application : Application} {Q : Unit → Known Key → Prop}
    (hid : K.new (.application application.applicationId))
    (happlicant : K.seen (.applicant application.applicantId))
    (hproduct : K.seen (.product application.productId))
    (h : ∀ K', K.Le K' → Q () K') : (addApplication t application).Confined t Q K := by
  refine confined_bind (confined_newId fun id K₁ hK₁ hnew =>
    ⟨Fits.safe ?_, ⟨Fits.safe ?_, ?_, ?_⟩, ?_⟩)
  · refine ⟨by simp [Row.tenantId?], rfl, fun k hk => ?_, by simp [Row.anchors], fun k hk hne => ?_⟩
    · simp only [Row.references, applicationToRow, List.mem_cons, List.not_mem_nil, or_false] at hk
      rcases hk with rfl | rfl | rfl
      · exact Or.inr ⟨_, rfl⟩
      · exact Or.inl (hK₁.seen _ happlicant)
      · exact Or.inl (hK₁.seen _ hproduct)
    · rcases List.mem_pair.1 hk with rfl | rfl
      · exact hK₁.new _ hid
      · exact (hne rfl).elim
  · exact fits_snapshot (Or.inr List.mem_cons_self) hnew
  · exact h _ (hK₁.trans ((Known.le_take _ _).trans (Known.le_take _ _)))
  · exact fun f => by cases f <;> trivial
  · exact fun f => by cases f <;> trivial

/-- A product that is found is one the tenant can see. -/
theorem confined_requireProduct {p : ProductId} {Q : Product → Known Key → Prop}
    (h : ∀ product K', K.Le K' → K'.seen (.product product.productId) → Q product K') :
    (requireProduct t p).Confined t Q K := by
  refine confined_bind (confined_select fun d K₁ hd hK₁ hseen => ?_)
  cases hrow : (d.visible t).products.find? fun r => r.productId = p with
  | none => trivial
  | some row =>
      refine confined_ofExcept fun product hproduct => h product K₁ hK₁ (hseen _ ?_)
      rw [rowToProduct_productId hproduct]
      obtain ⟨r, hr, hrp⟩ := List.mem_filterMap.1 (List.mem_of_find?_eq_some hrow)
      refine Database.has_iff.2 ⟨r, hr, ?_⟩
      cases r <;> cases hrp
      exact List.mem_cons_self

theorem confined_markDecided {a : ApplicationId} {decision reason : String}
    {reviewerId : Option String} {decidedAt : DateTime} {Q : Unit → Known Key → Prop}
    (h : ∀ K', K.Le K' → Q () K') :
    (markDecided t a decision reason reviewerId decidedAt).Confined t Q K := by
  refine confined_bind (confined_select fun d K₁ hd hK₁ hseen => ?_)
  generalize Option.filter (fun r : ReviewQueueEntryRow => r.tenantId = t)
    (Database.reviewQueueEntry? (d.visible t) a) = found
  cases found with
  | none => trivial
  | some entry =>
      refine confined_update rfl rfl (fun k hk => ?_) fun K₂ hK₂ => h K₂ (hK₁.trans hK₂)
      rw [List.mem_singleton.1 hk]
      exact owns_reviewQueueEntryOf _

/-- A document that is listed belongs to an application of the tenant. -/
theorem confined_listDocuments {a : ApplicationId} {Q : List UploadedDocument → Known Key → Prop}
    (h : ∀ documents K', K.Le K' → (∀ x ∈ documents, K'.seen (.document x.documentId) ∧
      K'.seen (.application a)) → Q documents K') : (listDocuments t a).Confined t Q K := by
  refine confined_select fun d K₁ hd hK₁ hseen => h _ K₁ hK₁ fun x hx => ?_
  rw [List.mem_mergeSort, List.mem_filter] at hx
  obtain ⟨r, hr, hrx⟩ := List.mem_filterMap.1 hx.1
  obtain ⟨ht, ha⟩ := Bool.and_eq_true_iff.1 hx.2
  cases r <;> cases hrx
  refine ⟨hseen _ (Database.has_iff.2 ⟨_, hr, List.mem_cons_self⟩), hseen _ ?_⟩
  -- the document refers to its application, which is therefore the tenant's too
  obtain ⟨hmem, -⟩ := List.mem_filter.1 hr
  refine hd.apart _ hmem t (congrArg some (of_decide_eq_true ht)) _ ?_
  rw [← of_decide_eq_true ha]
  exact List.mem_append_left _ (List.mem_cons_of_mem _ List.mem_cons_self)

theorem confined_addExtractionRun {a : ApplicationId} {runId documentId : String}
    {classification : DocumentClassification} {facts : List (String × ExtractedFact)}
    {completedAt : DateTime} {Q : Unit → Known Key → Prop} (ha : K.seen (.application a))
    (hdocument : K.seen (.document documentId)) (hrun : K.new (.extractionRun runId))
    (hfacts : ∀ f ∈ facts, K.new (.extractedFact f.1)) (h : ∀ K', K.Le K' → Q () K') :
    (addExtractionRun t a runId documentId classification facts completedAt).Confined t Q K := by
  refine confined_bind (confined_insert ?_ fun K₁ hK₁ hkeys => confined_insertAll ?_ fun K₂ hK₂ _ =>
    h K₂ (hK₁.trans hK₂))
  · refine ⟨by simp [Row.tenantId?], rfl, fun k hk => ?_, by simp [Row.anchors], fun k hk _ => ?_⟩
    · simp only [Row.references, List.mem_cons, List.not_mem_nil, or_false] at hk
      rcases hk with rfl | rfl | rfl
      · exact Or.inr ⟨_, rfl⟩
      · exact Or.inl ha
      · exact Or.inl hdocument
    · rw [List.mem_singleton.1 hk]
      exact hrun
  · intro row hrow
    obtain ⟨f, hf, rfl⟩ := List.mem_map.1 hrow
    refine ⟨by simp [Row.tenantId?], rfl, fun k hk => ?_, by simp [Row.anchors], fun k hk _ => ?_⟩
    · simp only [Row.references, List.mem_cons, List.not_mem_nil, or_false] at hk
      rcases hk with rfl | rfl | rfl | rfl
      · exact Or.inl (hkeys _ List.mem_cons_self)
      · exact Or.inr ⟨_, rfl⟩
      · exact Or.inl (hK₁.seen _ ha)
      · exact Or.inl (hK₁.seen _ hdocument)
    · rw [List.mem_singleton.1 hk]
      exact hK₁.new _ (hfacts f hf)

/-- The rows of a verification run refer to the run, and contradictions to the checks. -/
theorem confined_addVerificationRun {a : ApplicationId} {runId : String}
    {checks : List (String × VerificationCheck)}
    {snapshots : List (String × ExternalResponseSnapshot)} {completedAt : DateTime}
    {Q : Unit → Known Key → Prop} (ha : K.seen (.application a))
    (hrun : K.new (.verificationRun runId)) (hchecks : ∀ c ∈ checks, K.new (.verificationCheck c.1))
    (hsnapshots : ∀ x ∈ snapshots, K.new (.externalResponseSnapshot x.1))
    (h : ∀ K', K.Le K' → Q () K') :
    (addVerificationRun t a runId checks snapshots completedAt).Confined t Q K := by
  refine confined_bind (confined_insert ?_ fun K₁ hK₁ hkeys => ?_)
  · refine ⟨by simp [Row.tenantId?], rfl, fun k hk => ?_, by simp [Row.anchors], fun k hk _ => ?_⟩
    · rcases List.mem_pair.1 hk with rfl | rfl
      · exact Or.inr ⟨_, rfl⟩
      · exact Or.inl ha
    · rw [List.mem_singleton.1 hk]
      exact hrun
  have hrun₁ := hkeys _ List.mem_cons_self
  refine confined_bind (confined_insertAll ?_ fun K₂ hK₂ _ => ?_)
  · intro row hrow
    obtain ⟨x, hx, rfl⟩ := List.mem_map.1 hrow
    refine ⟨by simp [Row.tenantId?], rfl, fun k hk => ?_, by simp [Row.anchors], fun k hk _ => ?_⟩
    · simp only [Row.references, List.mem_cons, List.not_mem_nil, or_false] at hk
      rcases hk with rfl | rfl | rfl
      · exact Or.inl hrun₁
      · exact Or.inr ⟨_, rfl⟩
      · exact Or.inl (hK₁.seen _ ha)
    · rw [List.mem_singleton.1 hk]
      exact hK₁.new _ (hsnapshots x hx)
  refine confined_bind (confined_insertAll ?_ fun K₃ hK₃ hcheckKeys => ?_)
  · intro row hrow
    obtain ⟨c, hc, rfl⟩ := List.mem_map.1 hrow
    refine ⟨by simp [Row.tenantId?], rfl, fun k hk => ?_, by simp [Row.anchors], fun k hk _ => ?_⟩
    · simp only [Row.references, List.mem_cons, List.not_mem_nil, or_false] at hk
      rcases hk with rfl | rfl | rfl
      · exact Or.inl (hK₂.seen _ hrun₁)
      · exact Or.inr ⟨_, rfl⟩
      · exact Or.inl (hK₂.seen _ (hK₁.seen _ ha))
    · rw [List.mem_singleton.1 hk]
      exact hK₂.new _ (hK₁.new _ (hchecks c hc))
  refine confined_bind (confined_withIds fun ys K₄ hK₄ hys hnew => ?_)
  refine confined_insertAll ?_ fun K₅ hK₅ _ =>
    h K₅ (hK₁.trans (hK₂.trans (hK₃.trans (hK₄.trans hK₅))))
  intro row hrow
  obtain ⟨y, hy, rfl⟩ := List.mem_map.1 hrow
  -- the check of a contradiction is one that was inserted
  have hcheck : y.2 ∈ checks := by
    have hmem : y.2 ∈ ys.map Prod.snd := List.mem_map.2 ⟨y, hy, rfl⟩
    rw [hys] at hmem
    exact (List.mem_filter.1 hmem).1
  have hseen : K₃.seen (.verificationCheck y.2.1) :=
    hcheckKeys _ (List.mem_map.2 ⟨y.2, hcheck, rfl⟩) _ List.mem_cons_self
  refine ⟨by simp [Row.tenantId?], rfl, fun k hk => ?_, by simp [Row.anchors], fun k hk hne => ?_⟩
  · simp only [Row.references, List.mem_cons, List.not_mem_nil, or_false] at hk
    rcases hk with rfl | rfl | rfl
    · exact Or.inl (hK₄.seen _ hseen)
    · exact Or.inr ⟨_, rfl⟩
    · exact Or.inl (hK₄.seen _ (hK₃.seen _ (hK₂.seen _ (hK₁.seen _ ha))))
  · rcases List.mem_pair.1 hk with rfl | rfl
    · exact hnew y hy _ rfl
    · exact (hne rfl).elim

/-! ### Events -/

/-- The ids of the rows of a recording were drawn. -/
structure Recording.Drawn (recording : Recording) (K : Known Key) : Prop where
  audits : ∀ r ∈ recording.audits, K.new (.auditEvent r.eventId)
  outbox : ∀ r ∈ recording.outbox, K.new (.outboxEvent r.eventId)

theorem Recording.Drawn.add {recording : Recording} {K' : Known Key} (h : recording.Drawn K)
    (hK : K.Le K') {event : DomainEvent} {eventId : String} {at' : DateTime}
    {checkpoint : Option (AuditHashRow × AuditHashRow)}
    (hid : ∀ k : Key, k.id? = some eventId → K'.new k) :
    (recording.add event eventId at' checkpoint).Drawn K' := by
  refine ⟨fun r hr => ?_, fun r hr => ?_⟩
  · rcases List.mem_append.1 hr with hr | hr
    · exact hK.new _ (h.audits r hr)
    · rw [List.mem_singleton.1 hr]
      exact hid _ rfl
  · rcases List.mem_append.1 hr with hr | hr
    · exact hK.new _ (h.outbox r hr)
    · rw [List.mem_singleton.1 hr]
      exact hid _ rfl

theorem confined_recordEvent {recording : Recording} {event : DomainEvent}
    (hdrawn : recording.Drawn K) {Q : Recording → Known Key → Prop}
    (h : ∀ recording' K', K.Le K' → recording'.Drawn K' → Q recording' K') :
    (recordEvent t recording event).Confined t Q K := by
  refine confined_bind (confined_newId fun id K₁ hK₁ hid =>
    confined_bind (confined_now fun at' K₂ hK₂ => ?_))
  have hid₂ : ∀ k : Key, k.id? = some id.value → K₂.new k := fun k hk => hK₂.new k (hid k hk)
  cases recording.checkpoint with
  | some c => exact h _ K₂ (hK₁.trans hK₂) (hdrawn.add (hK₁.trans hK₂) hid₂)
  | none =>
      refine confined_bind (confined_select fun d K₃ hd hK₃ hseen => ?_)
      exact h _ K₃ (hK₁.trans (hK₂.trans hK₃)) (hdrawn.add (hK₁.trans (hK₂.trans hK₃))
        fun k hk => hK₃.new k (hid₂ k hk))

theorem confined_recordEvents (events : List DomainEvent) : ∀ {recording : Recording}
    {K : Known Key} {Q : Recording → Known Key → Prop}, recording.Drawn K →
    (∀ recording' K', K.Le K' → recording'.Drawn K' → Q recording' K') →
    (recordEvents t events recording).Confined t Q K := by
  induction events with
  | nil => exact fun hdrawn h => h _ _ (Known.Le.refl _) hdrawn
  | cons event events ih =>
      intro recording K Q hdrawn h
      refine confined_bind (confined_recordEvent hdrawn fun recording₁ K₁ hK₁ hdrawn₁ => ?_)
      exact ih hdrawn₁ fun recording' K' hK' => h recording' K' (hK₁.trans hK')

theorem confined_flushRecording {recording : Recording} (hdrawn : recording.Drawn K)
    {Q : Unit → Known Key → Prop} (h : ∀ K', K.Le K' → Q () K') :
    (flushRecording t recording).Confined t Q K := by
  rw [flushRecording_eq]
  refine confined_bind (confined_insertAll ?_ fun K₁ hK₁ _ => confined_bind ?_)
  · -- the ids were drawn when the events were recorded, before anything was flushed
    intro row hrow
    obtain ⟨r, hr, rfl⟩ := List.mem_map.1 hrow
    refine ⟨by simp [Row.tenantId?], rfl, by simp [Row.references], by simp [Row.anchors], ?_⟩
    intro k hk _
    rw [List.mem_singleton.1 hk]
    exact hdrawn.audits r hr
  -- what comes after the checkpoint, whether it was there before or not
  have hrest : ∀ {K' : Known Key}, K₁.Le K' →
      (insertAll t (recording.newHashes.map .auditHash) >>= fun _ =>
        insertAll t (recording.outbox.map .outboxEvent)).Confined t Q K' := by
    intro K₂ hK₂
    refine confined_bind (confined_insertAll ?_ fun K₃ hK₃ _ =>
      confined_insertAll ?_ fun K₄ hK₄ _ => h K₄ (hK₁.trans (hK₂.trans (hK₃.trans hK₄))))
    · intro row hrow
      obtain ⟨r, hr, rfl⟩ := List.mem_map.1 hrow
      refine ⟨by simp [Row.tenantId?], rfl, by simp [Row.references], by simp [Row.anchors], ?_⟩
      intro k hk hne
      rw [List.mem_singleton.1 hk] at hne
      exact (hne rfl).elim
    · intro row hrow
      obtain ⟨r, hr, rfl⟩ := List.mem_map.1 hrow
      refine ⟨by simp [Row.tenantId?], rfl, by simp [Row.references], by simp [Row.anchors], ?_⟩
      intro k hk _
      rw [List.mem_singleton.1 hk]
      exact hK₃.new _ (hK₂.new _ (hK₁.new _ (hdrawn.outbox r hr)))
  cases recording.checkpoint with
  | none => exact hrest (Known.Le.refl _)
  | some c =>
      refine confined_update rfl rfl (fun k hk => ?_) fun K₂ hK₂ => hrest hK₂
      rw [List.mem_singleton.1 hk]
      exact owns_auditHash

theorem confined_recordDomainEvents {events : List DomainEvent} {Q : Unit → Known Key → Prop}
    (h : ∀ K', K.Le K' → Q () K') : (recordDomainEvents t events).Confined t Q K := by
  have hempty : Recording.empty.Drawn K := ⟨by simp [Recording.empty], by simp [Recording.empty]⟩
  exact confined_bind (confined_recordEvents events hempty fun recording K₁ hK₁ hdrawn =>
    confined_flushRecording hdrawn fun K₂ hK₂ => h K₂ (hK₁.trans hK₂))

theorem confined_recordAndCommit {application : Application} {Q : Unit → Known Key → Prop}
    (h : ∀ K', K.Le K' → Q () K') : (recordAndCommit t application).Confined t Q K :=
  confined_bind (confined_recordDomainEvents fun K₁ hK₁ => h K₁ hK₁)

end Pieces

/-! ### Pieces of the handlers -/

section Handlers

variable {t : TenantId} {K : Known Key} {α : Type}

theorem confined_enterHumanReview {cached : ApplicationRow} {application : Application}
    {reason : String} {Q : Application → Known Key → Prop}
    (h : ∀ application' K', K.Le K' → Q application' K') :
    (enterHumanReview t cached application reason).Confined t Q K := by
  refine confined_bind (confined_transition fun application₁ K₁ hK₁ _ =>
    confined_bind (confined_saveApplication fun row K₂ hK₂ ha =>
      confined_bind (confined_now fun at' K₃ hK₃ => confined_bind
        (confined_insert ?_ fun K₄ hK₄ _ => h _ K₄ (hK₁.trans (hK₂.trans (hK₃.trans hK₄)))))))
  refine ⟨by simp [Row.tenantId?], rfl, fun k hk => Or.inr ⟨_, List.mem_singleton.1 hk⟩, ?_, ?_⟩
  · -- the queue entry belongs to the application that was just saved
    intro k hk
    rw [List.mem_singleton.1 hk]
    exact hK₃.seen _ ha
  · intro k hk hne
    rcases List.mem_pair.1 hk with rfl | rfl <;> exact (hne rfl).elim

theorem confined_finishIntake {row : ApplicationRow} {application : Application} {accepted : Bool}
    {Q : Application → Known Key → Prop} (h : ∀ application' K', K.Le K' → Q application' K') :
    (finishIntake t row application accepted).Confined t Q K := by
  cases accepted with
  | true =>
      exact confined_bind (confined_transition fun application₁ K₁ hK₁ _ =>
        confined_bind (confined_saveApplication fun _ K₂ hK₂ _ => h _ K₂ (hK₁.trans hK₂)))
  | false => exact confined_enterHumanReview h

theorem confined_finishDocuments {row : ApplicationRow} {documentCount : ℕ}
    {Q : Application → Known Key → Prop} (h : ∀ application' K', K.Le K' → Q application' K') :
    (finishDocuments t row documentCount).Confined t Q K := by
  rw [finishDocuments]
  split
  next =>
    exact confined_bind (confined_transition fun application₁ K₁ hK₁ _ =>
      confined_bind (confined_saveApplication fun _ K₂ hK₂ _ => h _ K₂ (hK₁.trans hK₂)))
  next => exact confined_enterHumanReview h

theorem asking_ask (q : Ask) : (Handler.ask q).Asking := fun _ => trivial

theorem asking_ofExcept (r : Except Error α) : (Handler.ofExcept r).Asking := by
  cases r <;> trivial

theorem asking_ofPort (r : Except PortError α) : (Handler.ofPort r).Asking := by
  cases r <;> trivial

theorem asking_extractionFailed (classification : DocumentClassification) (e : PortError) :
    (extractionFailed classification e.val).Asking := by
  obtain ⟨e, he⟩ := e
  cases e <;> trivial

theorem asking_extractDocument (document : UploadedDocument) (contentType : String) :
    (extractDocument t document contentType).Asking := by
  refine Prog.Asking.bind (asking_ask _) fun data => ?_
  cases data with
  | error e => exact asking_extractionFailed _ e
  | ok data =>
    refine Prog.Asking.bind (asking_ask _) fun pages => ?_
    cases pages with
    | error e => exact asking_extractionFailed _ e
    | ok pages =>
      refine Prog.Asking.bind (asking_ask _) fun classification => ?_
      cases classification with
      | error e => exact asking_extractionFailed _ e
      | ok classification =>
        refine Prog.Asking.bind (asking_ask _) fun facts => ?_
        cases facts with
        | error e => exact asking_extractionFailed _ e
        | ok facts => trivial

theorem asking_checkIdentity (applicant : Applicant) (facts : List ExtractedFact) :
    (checkIdentity applicant facts).Asking := by
  unfold checkIdentity
  split
  · exact Prog.Asking.bind (asking_ask _) fun answered =>
      Prog.Asking.bind (asking_ofPort answered) fun result =>
        Prog.Asking.bind (asking_ofExcept _) fun check => trivial
  · exact Prog.Asking.bind (asking_ofExcept _) fun check => trivial

theorem asking_declaredIncome (facts : List ExtractedFact) : (declaredIncome facts).Asking := by
  unfold declaredIncome
  split
  · trivial
  · rename_i fact _
    generalize annualIncome fact.normalizedValue = income
    exact Prog.Asking.bind (asking_ofExcept _) fun income => trivial

theorem asking_checkEmployment (applicant : Applicant) (facts : List ExtractedFact)
    (income : Option ℤ) : (checkEmployment applicant facts income).Asking := by
  unfold checkEmployment
  split
  · exact Prog.Asking.bind (asking_ask _) fun answered =>
      Prog.Asking.bind (asking_ofPort answered) fun result =>
        Prog.Asking.bind (asking_ofExcept _) fun deviation =>
          Prog.Asking.bind (asking_ofExcept _) fun check => trivial
  · exact Prog.Asking.bind (asking_ofExcept _) fun check => trivial

theorem asking_captureCreditReport (applicant : Applicant) (facts : List ExtractedFact) :
    (captureCreditReport applicant facts).Asking := by
  unfold captureCreditReport
  split
  · trivial
  · exact Prog.Asking.bind (asking_ask _) fun answered =>
      Prog.Asking.bind (asking_ofPort answered) fun report => trivial

theorem asking_captureTransactionHistory (applicant : Applicant) (facts : List ExtractedFact)
    (income : Option ℤ) : (captureTransactionHistory applicant facts income).Asking := by
  unfold captureTransactionHistory
  split
  · exact Prog.Asking.bind (asking_ask _) fun answered =>
      Prog.Asking.bind (asking_ofPort answered) fun history => trivial
  · trivial

theorem confined_requireApplicant {a : ApplicationId} {applicantId : ApplicantId}
    {Q : Applicant → Known Key → Prop} (h : ∀ applicant K', K.Le K' → Q applicant K') :
    (requireApplicant t a applicantId).Confined t Q K := by
  refine confined_bind (confined_bind (confined_select fun d K₁ hd hK₁ _ => ?_))
  generalize Option.filter (fun r : ApplicantRow => r.tenantId = t)
    ((d.visible t).applicants.find? fun r => r.applicantId = applicantId) = found
  cases found with
  | none => trivial
  | some r => exact confined_bind (confined_ofExcept fun applicant _ => h applicant K₁ hK₁)

/-- An id that is drawn for an applicant, and one for an application. -/
theorem confined_newApplicantId {Q : ApplicantId → Known Key → Prop}
    (h : ∀ id K', K.Le K' → K'.new (.applicant id) → Q id K') :
    newApplicantId.Confined t Q K := by
  refine confined_bind (confined_newId fun id K₁ hK₁ hnew => ?_)
  cases hid : ApplicantId.of? id.value with
  | none => trivial
  | some a =>
      refine h a K₁ hK₁ (hnew _ ?_)
      rw [ApplicantId.of?] at hid
      split at hid <;> cases hid
      rfl

theorem confined_newApplicationId {Q : ApplicationId → Known Key → Prop}
    (h : ∀ id K', K.Le K' → K'.new (.application id) → Q id K') :
    newApplicationId.Confined t Q K := by
  refine confined_bind (confined_newId fun id K₁ hK₁ hnew => ?_)
  cases hid : ApplicationId.of? id.value with
  | none => trivial
  | some a =>
      refine h a K₁ hK₁ (hnew _ ?_)
      rw [ApplicationId.of?] at hid
      split at hid <;> cases hid
      rfl

end Handlers

/-! ### Handlers -/

/-- A handler, with whatever is done with its result. -/
abbrev Handler.Keeps {α : Type} (t : TenantId) (p : Handler α) : Prop :=
  ∀ {Q : α → Known Key → Prop} {K : Known Key}, (∀ a K', K.Le K' → Q a K') → p.Confined t Q K

theorem createApplication_keeps (c : CreateApplicationCommand) :
    (createApplication c).Keeps c.tenantId := by
  intro Q K h
  refine confined_bind (confined_requireReservation fun K₁ hK₁ =>
    confined_bind (confined_requireProduct fun product K₂ hK₂ hproduct => ?_))
  split
  next => trivial
  next =>
    refine confined_bind (confined_newApplicantId fun applicantId K₃ hK₃ hnew =>
      confined_bind (confined_ofExcept fun applicant happlicant => ?_))
    have happlicantId : applicant.applicantId = applicantId := by
      unfold Applicant.of at happlicant
      split at happlicant
      · split at happlicant
        · split at happlicant <;> cases happlicant
          rfl
        · cases happlicant
      · cases happlicant
    refine confined_bind (confined_addApplicant (happlicantId ▸ hnew) fun K₄ hK₄ hseen =>
      confined_bind (confined_newApplicationId fun applicationId K₅ hK₅ hnew' =>
        confined_bind (confined_now fun at' K₆ hK₆ =>
          confined_bind (confined_ofExcept fun application happlication => ?_))))
    obtain ⟨hid, -⟩ := Application.create_ok happlication
    obtain ⟨-, hproductId, -⟩ := Application.create_terms happlication
    have happlicantId : application.applicantId = applicant.applicantId := by
      unfold Application.create at happlication
      split at happlication
      · cases happlication
      · split at happlication <;> cases happlication
        rfl
    refine confined_bind (confined_addApplication ?_ ?_ ?_ fun K₇ hK₇ =>
      confined_bind (confined_recordAndCommit fun K₈ hK₈ => h _ K₈ ?_))
    · rw [hid]
      exact hK₆.new _ hnew'
    · rw [happlicantId]
      exact hK₆.seen _ (hK₅.seen _ hseen)
    · rw [hproductId]
      exact hK₆.seen _ (hK₅.seen _ (hK₄.seen _ (hK₃.seen _ hproduct)))
    · exact hK₁.trans (hK₂.trans (hK₃.trans (hK₄.trans (hK₅.trans (hK₆.trans (hK₇.trans hK₈))))))

theorem saveSubmission_keeps (c : ApplicationCommand) (row : ApplicationRow)
    (application : Application) : (saveSubmission c row application).Keeps c.tenantId := by
  intro Q K h
  exact confined_bind (confined_saveApplication fun _ K₁ hK₁ _ =>
    confined_bind (confined_recordAndCommit fun K₂ hK₂ => h _ K₂ (hK₁.trans hK₂)))

theorem startWorkflow_keeps {t : TenantId} (c : ApplicationCommand) (application : Application)
    (s : ApplicationStatus) : (startWorkflow c application s).Keeps t := by
  intro Q K h
  exact confined_bind (confined_ask fun _ K₁ hK₁ => h _ K₁ hK₁)

theorem submitApplication_keeps (c : ApplicationCommand) :
    (submitApplication c).Keeps c.tenantId := by
  intro Q K h
  exact confined_bind (confined_requireReservation fun K₁ hK₁ =>
    confined_bind (confined_requireApplication fun row K₂ hK₂ _ =>
    confined_bind (confined_now fun at' K₃ hK₃ =>
    confined_bind (confined_ofExcept fun application _ =>
    confined_bind (saveSubmission_keeps c row application fun application' K₄ hK₄ =>
      startWorkflow_keeps c application' _ fun r K₅ hK₅ =>
        h r K₅ (hK₁.trans (hK₂.trans (hK₃.trans (hK₄.trans hK₅)))))))))

theorem resubmitApplication_keeps (c : ApplicationCommand) :
    (resubmitApplication c).Keeps c.tenantId := by
  intro Q K h
  exact confined_bind (confined_requireReservation fun K₁ hK₁ =>
    confined_bind (confined_requireApplication fun row K₂ hK₂ _ =>
    confined_bind (confined_transition fun application K₃ hK₃ _ =>
    confined_bind (saveSubmission_keeps c row application fun application' K₄ hK₄ =>
      startWorkflow_keeps c application' _ fun r K₅ hK₅ =>
        h r K₅ (hK₁.trans (hK₂.trans (hK₃.trans (hK₄.trans hK₅))))))))

theorem uploadDocument_keeps (c : UploadDocumentCommand) :
    (uploadDocument c).Keeps c.tenantId := by
  intro Q K h
  refine confined_bind (confined_requireReservation fun K₁ hK₁ =>
    confined_bind (confined_requireApplication fun row K₂ hK₂ ha =>
    confined_bind (confined_ask fun scanned K₃ hK₃ =>
    confined_bind (confined_ofPort fun safetyReport =>
    confined_bind (confined_newId fun documentId K₄ hK₄ hnew =>
    confined_bind (confined_ask fun stored K₅ hK₅ =>
    confined_bind (confined_ofPort fun metadata =>
    confined_bind (confined_now fun at' K₆ hK₆ =>
    confined_bind (confined_insert ?_ fun K₇ hK₇ _ =>
    confined_bind (confined_recordDomainEvents fun K₈ hK₈ => h _ K₈ ?_))))))))))
  · refine ⟨by simp [Row.tenantId?], rfl, fun k hk => ?_, by simp [Row.anchors], fun k hk _ => ?_⟩
    · rcases List.mem_pair.1 hk with rfl | rfl
      · exact Or.inr ⟨_, rfl⟩
      · exact Or.inl (hK₆.seen _ (hK₅.seen _ (hK₄.seen _ (hK₃.seen _ ha))))
    · rw [List.mem_singleton.1 hk]
      exact hK₆.new _ (hK₅.new _ (hnew _ rfl))
  · exact hK₁.trans (hK₂.trans (hK₃.trans (hK₄.trans (hK₅.trans (hK₆.trans (hK₇.trans hK₈))))))

theorem advanceIntakeValidation_keeps (c : ApplicationCommand) :
    (advanceIntakeValidation c).Keeps c.tenantId := by
  intro Q K h
  exact confined_bind (confined_requireReservation fun K₁ hK₁ =>
    confined_bind (confined_requireApplication fun row K₂ hK₂ _ =>
    confined_bind (confined_requireProduct fun product K₃ hK₃ _ =>
    confined_bind (confined_transition fun application K₄ hK₄ _ =>
    confined_bind (confined_saveApplication fun row' K₅ hK₅ _ =>
    confined_bind (confined_finishIntake fun application' K₆ hK₆ =>
    confined_bind (confined_recordAndCommit fun K₇ hK₇ => h _ K₇
      (hK₁.trans (hK₂.trans (hK₃.trans (hK₄.trans (hK₅.trans (hK₆.trans hK₇)))))))))))))

theorem advanceDocumentProcessing_keeps (c : ApplicationCommand) :
    (advanceDocumentProcessing c).Keeps c.tenantId := by
  intro Q K h
  exact confined_bind (confined_requireReservation fun K₁ hK₁ =>
    confined_bind (confined_requireApplication fun row K₂ hK₂ _ =>
    confined_bind (confined_select fun d K₃ _ hK₃ _ =>
    confined_bind (confined_finishDocuments fun application K₄ hK₄ =>
    confined_bind (confined_recordAndCommit fun K₅ hK₅ => h _ K₅
      (hK₁.trans (hK₂.trans (hK₃.trans (hK₄.trans hK₅)))))))))

theorem processDocument_keeps (c : ProcessDocumentCommand) :
    (processDocument c).Keeps c.tenantId := by
  intro Q K h
  refine confined_bind (confined_requireReservation fun K₁ hK₁ =>
    confined_bind (confined_listDocuments fun documents K₂ hK₂ hdocuments => ?_))
  cases hfound : documents.find? fun document => document.documentId = c.documentId with
  | none => trivial
  | some document =>
      obtain ⟨hdocument, ha⟩ := hdocuments document (List.mem_of_find?_eq_some hfound)
      have hid : document.documentId = c.documentId := by simpa using List.find?_some hfound
      rw [hid] at hdocument
      exact confined_bind (confined_ask fun described K₃ hK₃ =>
        confined_bind (confined_ofPort fun metadata =>
        confined_bind (Partition.confined_asking (asking_extractDocument _ _)
          fun extraction K₄ hK₄ =>
        confined_bind (confined_withIds fun facts K₅ hK₅ _ hfacts =>
        confined_bind (confined_newId fun runId K₆ hK₆ hrun =>
        confined_bind (confined_now fun completedAt K₇ hK₇ =>
        confined_bind (confined_addExtractionRun
          (hK₇.seen _ (hK₆.seen _ (hK₅.seen _ (hK₄.seen _ (hK₃.seen _ ha)))))
          (hK₇.seen _ (hK₆.seen _ (hK₅.seen _ (hK₄.seen _ (hK₃.seen _ hdocument)))))
          (hK₇.new _ (hrun _ rfl))
          (fun f hf => hK₇.new _ (hK₆.new _ (hfacts f hf _ rfl)))
          fun K₈ hK₈ => h _ K₈ (hK₁.trans (hK₂.trans (hK₃.trans (hK₄.trans (hK₅.trans
            (hK₆.trans (hK₇.trans hK₈))))))))))))))

theorem verifyApplicationFacts_keeps (c : ApplicationCommand) :
    (verifyApplicationFacts c).Keeps c.tenantId := by
  intro Q K h
  refine confined_bind (confined_requireReservation fun K₁ hK₁ =>
    confined_bind (confined_requireApplication fun row K₂ hK₂ ha =>
    confined_bind (confined_requireApplicant fun applicant K₃ hK₃ =>
    confined_bind (confined_select fun d K₄ _ hK₄ _ =>
    confined_bind (Partition.confined_asking (asking_checkIdentity _ _) fun identity K₅ hK₅ =>
    confined_bind (Partition.confined_asking (asking_declaredIncome _) fun income K₆ hK₆ =>
    confined_bind (Partition.confined_asking (asking_checkEmployment _ _ _)
      fun employment K₇ hK₇ => ?_)))))))
  refine confined_bind (Partition.confined_asking (asking_captureCreditReport _ _)
      fun creditReport K₈ hK₈ =>
    confined_bind (Partition.confined_asking (asking_captureTransactionHistory _ _ _)
      fun history K₉ hK₉ =>
    confined_bind (confined_newId fun runId J₁ hJ₁ hrun =>
    confined_bind (confined_withIds fun identified J₂ hJ₂ _ hidentified =>
    confined_bind (confined_withIds fun captured J₃ hJ₃ _ hcaptured =>
    confined_bind (confined_now fun completedAt J₄ hJ₄ => ?_))))))
  have hK₄₉ : K₂.Le K₉ := hK₃.trans (hK₄.trans (hK₅.trans (hK₆.trans (hK₇.trans (hK₈.trans hK₉)))))
  have hJ : K₉.Le J₄ := hJ₁.trans (hJ₂.trans (hJ₃.trans hJ₄))
  refine confined_bind (confined_addVerificationRun (hJ.seen _ (hK₄₉.seen _ ha))
    (hJ₄.new _ (hJ₃.new _ (hJ₂.new _ (hrun _ rfl))))
    (fun x hx => hJ₄.new _ (hJ₃.new _ (hidentified x hx _ rfl)))
    (fun x hx => hJ₄.new _ (hcaptured x hx _ rfl)) fun J₅ hJ₅ => h _ J₅ ?_)
  exact hK₁.trans (hK₂.trans (hK₄₉.trans (hJ.trans hJ₅)))

theorem enterHumanReviewCommand_keeps (c : EnterHumanReviewCommand) :
    (enterHumanReviewCommand c).Keeps c.tenantId := by
  intro Q K h
  exact confined_bind (confined_requireReservation fun K₁ hK₁ =>
    confined_bind (confined_requireApplication fun row K₂ hK₂ _ =>
    confined_bind (confined_enterHumanReview fun application K₃ hK₃ =>
    confined_bind (confined_recordAndCommit fun K₄ hK₄ => h _ K₄
      (hK₁.trans (hK₂.trans (hK₃.trans hK₄)))))))

theorem applyReviewDecision_keeps (c : ApplyReviewDecisionCommand) :
    (applyReviewDecision c).Keeps c.tenantId := by
  intro Q K h
  rw [applyReviewDecision]
  split
  next => trivial
  next =>
    exact confined_bind (confined_requireReservation fun K₁ hK₁ =>
      confined_bind (confined_requireApplication fun row K₂ hK₂ _ =>
      confined_bind (confined_transition fun application K₃ hK₃ _ =>
      confined_bind (confined_now fun decidedAt K₄ hK₄ =>
      confined_bind (confined_markDecided fun K₅ hK₅ =>
      confined_bind (confined_saveApplication fun row' K₆ hK₆ _ =>
      confined_bind (confined_recordAndCommit fun K₇ hK₇ => h _ K₇
        (hK₁.trans (hK₂.trans (hK₃.trans (hK₄.trans (hK₅.trans (hK₆.trans hK₇)))))))))))))

/-- **A handler keeps to its tenant.** -/
theorem Command.confined (c : Command) : c.handle.Keeps c.tenantId := by
  cases c with
  | createApplication c => exact createApplication_keeps c
  | submitApplication c => exact submitApplication_keeps c
  | resubmitApplication c => exact resubmitApplication_keeps c
  | uploadDocument c => exact uploadDocument_keeps c
  | advanceIntakeValidation c => exact advanceIntakeValidation_keeps c
  | advanceDocumentProcessing c => exact advanceDocumentProcessing_keeps c
  | processDocument c => exact processDocument_keeps c
  | verifyApplicationFacts c => exact verifyApplicationFacts_keeps c
  | enterHumanReview c => exact enterHumanReviewCommand_keeps c
  | applyReviewDecision c => exact applyReviewDecision_keeps c

/-! ### Every program -/

theorem getApplicationStatus_keeps (query : GetApplicationStatusQuery) :
    (getApplicationStatus query).Keeps query.tenantId := by
  intro Q K h
  exact confined_bind (confined_requireApplication fun row K₁ hK₁ _ => h _ K₁ hK₁)

theorem currentStatus_keeps (t : TenantId) (a : ApplicationId) : (currentStatus t a).Keeps t := by
  intro Q K h
  exact confined_bind (getApplicationStatus_keeps ⟨t, a⟩ fun result K₁ hK₁ => h _ K₁ hK₁)

theorem submitReviewDecision_keeps (request : ReviewDecisionRequest) :
    (submitReviewDecision request).Keeps request.tenantId := by
  intro Q K h
  rw [submitReviewDecision]
  split
  next => trivial
  next =>
    refine confined_bind (getApplicationStatus_keeps ⟨request.tenantId, request.applicationId⟩
      fun current K₁ hK₁ => ?_)
    cases current.activeWorkflowId with
    | none => trivial
    | some workflowId =>
        refine confined_bind (confined_bind (confined_ask fun answer K₂ hK₂ => ?_))
        cases answer with
        | acknowledged => exact h _ K₂ (hK₁.trans hK₂)
        | _ => trivial

/-- A handler whose result is passed on in another form. -/
theorem keeps_map {t : TenantId} {α β : Type} {p : Handler α} (hp : p.Keeps t)
    (f : α → β) : (p >>= fun a => pure (f a) : Handler β).Keeps t := by
  intro Q K h
  exact confined_bind (hp fun a K₁ hK₁ => h (f a) K₁ hK₁)

/-- A handler that is skipped when its request has been recorded. -/
theorem orIfDuplicate_keeps {t : TenantId} {α : Type} {body recover : Handler α}
    (hbody : body.Keeps t) (hrecover : recover.Keeps t) {Q : α → Known Key → Prop}
    (h : ∀ a K', Q a K') {K : Known Key} : (orIfDuplicate body recover).Confined t Q K := by
  -- the rollback leaves nothing known, and the recovery needs nothing
  refine Partition.confined_tryCatch (fun e p' J he => ?_) (hbody fun a K' _ => h a K')
  cases e <;> cases he
  exact hrecover fun a K' _ => h a K'

theorem extractEach_keeps (info : ActivityInfo) (ctx : ActivityContext)
    {Q : ℕ → Known Key → Prop} (h : ∀ n K', Q n K') : ∀ (documents : List UploadedDocument) (n : ℕ)
    {K : Known Key}, (extractEach info ctx documents n).Confined ctx.tenantId Q K
  | [], n, K => h n K
  | document :: documents, n, K => by
      refine confined_bind (orIfDuplicate_keeps (fun hQ => ?_) (fun hQ => ?_) fun factCount K' =>
        extractEach_keeps info ctx h documents factCount)
      · exact confined_bind (processDocument_keeps ⟨ctx.tenantId, ctx.applicationId,
          document.documentId, documentKey info document.documentId⟩ fun result K₁ hK₁ =>
            hQ _ K₁ hK₁)
      · exact hQ _ _ (Known.Le.refl _)

/-- **The tenant a program works for.** -/
def Kind.tenantId : Kind → TenantId
  | .command c => c.tenantId
  | .applicationStatus query => query.tenantId
  | .reviewDecision request => request.tenantId
  | .activity _ call => call.tenantId

theorem ActivityCall.confined (info : ActivityInfo) (call : ActivityCall) :
    (call.run info).Confined call.tenantId (fun _ _ => True) .nothing := by
  cases call with
  | validateIntake ctx =>
      refine orIfDuplicate_keeps ?_ (currentStatus_keeps _ _) fun _ _ => trivial
      exact keeps_map (advanceIntakeValidation_keeps ⟨ctx.tenantId, ctx.applicationId, _⟩) _
  | checkRequiredDocuments ctx =>
      refine orIfDuplicate_keeps ?_ (currentStatus_keeps _ _) fun _ _ => trivial
      exact keeps_map (advanceDocumentProcessing_keeps ⟨ctx.tenantId, ctx.applicationId, _⟩) _
  | extractDocumentFacts ctx =>
      exact confined_bind (confined_listDocuments fun documents K₁ _ _ =>
        confined_bind (extractEach_keeps info ctx (fun _ _ => trivial) documents 0))
  | verifyFacts ctx =>
      refine orIfDuplicate_keeps ?_ (fun hQ => ?_) fun _ _ => trivial
      · exact keeps_map (verifyApplicationFacts_keeps ⟨ctx.tenantId, ctx.applicationId, _⟩) _
      · exact confined_bind (confined_select fun d K₁ _ hK₁ _ => hQ _ K₁ hK₁)
  | enterHumanReview input =>
      refine orIfDuplicate_keeps ?_ (currentStatus_keeps _ _) fun _ _ => trivial
      exact keeps_map (enterHumanReviewCommand_keeps ⟨input.tenantId, input.applicationId, _, _⟩) _
  | applyReviewDecision input =>
      refine orIfDuplicate_keeps (fun hQ => ?_) (currentStatus_keeps _ _) fun _ _ => trivial
      exact confined_bind (confined_ofExcept fun decision _ =>
        keeps_map (applyReviewDecision_keeps
          ⟨input.tenantId, input.applicationId, _, _, _, _⟩) _ hQ)

/-- **Every program keeps to its tenant.** -/
theorem Kind.confined (κ : Kind) :
    tenancy.confined κ.tenantId κ.prog (fun _ _ => True) .nothing := by
  cases κ with
  | command c => exact c.confined fun _ _ _ => trivial
  | applicationStatus query => exact getApplicationStatus_keeps query fun _ _ _ => trivial
  | reviewDecision request => exact submitReviewDecision_keeps request fun _ _ _ => trivial
  | activity info call => exact call.confined info

end FinAssist
