/-
**What the handlers of documents and facts promise.**

`uploadDocument`, `processDocument` and `verifyApplicationFacts` talk to external systems between
their reservation and their commit, and write rows that belong to no case.  Nothing of what they
do in between matters to the cases, so most of it is passed by with one rule.

Main definitions:

* `FinAssist.Write.IsRecord` — an insert of a row that belongs to no case.

Main results:

* `FinAssist.uploadDocument_verified`, `FinAssist.processDocument_verified`,
  `FinAssist.verifyApplicationFacts_verified`;
* `FinAssist.Command.verified` — **every command meets its contract**;
* `FinAssist.Command.Commits.keeps` — **a commit keeps the rows in order, and cases go on**.
-/

import FinAssist.CommandSpecs

set_option relaxedAutoImplicit false
set_option autoImplicit false

namespace FinAssist

open ReadCommitted ApplicationStatus Discipline

/-! ### Rows that belong to no case -/

/-- An insert of a row that belongs to no case, reserves no key and is no part of the audit
chain. -/
def Write.IsRecord (w : Write) : Prop :=
  ∃ t row, w = ⟨t, .insert row⟩ ∧ row.isAside = true ∧ w.isPlain = true

theorem Write.IsRecord.aside {w : Write} (h : w.IsRecord) : w.Aside := by
  obtain ⟨t, row, rfl, hrow, -⟩ := h
  exact Row.isAside.aside hrow t

theorem Write.IsRecord.plain {w : Write} (h : w.IsRecord) : w.isPlain = true := by
  obtain ⟨t, row, -, -, h⟩ := h
  exact h

@[simp] theorem recordingWrites_empty (t : TenantId) :
    recordingWrites t Recording.empty = [] := rfl

/-- A transaction that wrote nothing but such rows, and recorded no event. -/
theorem Command.commits_of_records {c : Command} {d₀ d : Database} {reservedAt : DateTime}
    {body : List Write} (hi : casework.Interf (c.reservation reservedAt :: body) d₀ d)
    (hbody : ∀ w ∈ body, w.IsRecord)
    (heffect : LeavesCases d (c.reservation reservedAt :: body) →
      c.Effect d (c.reservation reservedAt :: body)) :
    c.Commits d₀ d (c.reservation reservedAt :: body) ∧ d₀.has c.key = false ∧
      (postgres.view d (c.reservation reservedAt :: body)).has c.key = true := by
  have hleaves : LeavesCases d (c.reservation reservedAt ::
      (body ++ recordingWrites c.tenantId Recording.empty)) :=
    leavesCases .empty (by simp) fun w hw => (hbody w hw).aside
  rw [recordingWrites_empty, List.append_nil] at hleaves
  refine ⟨⟨hi.rely, ⟨reservedAt, body, [], Recording.empty, ?_, .empty,
    fun w hw => (hbody w hw).plain⟩, heffect hleaves⟩, Command.key_free hi, Command.has_key⟩
  rw [recordingWrites_empty, List.append_nil]
  rfl

/-! ### Documents -/

theorem wp_addDocument {C : HandlerContract} {k : Key} (hC : Running C k) {ws : List Write}
    (hr : Reserved k ws) {d : Database} {t : TenantId} {document : UploadedDocument}
    {Q : Unit → List Write → Database → Prop}
    (h : ∀ w d', w.IsRecord → casework.Interf (ws ++ [w]) d d' → Q () (ws ++ [w]) d') :
    casework.wp C (addDocument t document) Q ws d :=
  wp_execute hC hr fun d' hi => h _ d' ⟨t, _, rfl, rfl, rfl⟩ hi

theorem uploadDocument_verified (c : UploadDocumentCommand) (d₀ : Database) :
    casework.wp ((Command.uploadDocument c).contract d₀) (uploadDocument c)
      (fun r _ d => (Command.uploadDocument c).Returns d₀ r d) [] d₀ := by
  have hC := (Command.uploadDocument c).running d₀
  refine wp_begin (c := .uploadDocument c) fun reservedAt x d₁ hi₁ _ _ => ?_
  have hr := (Command.uploadDocument c).reserved reservedAt []
  refine wp_seq _ (wp_ask hC rfl fun scanned d₂ hi₂ => ?_)
  refine wp_seq _ (wp_ofPort hC hr hi₂.now fun report _ => ?_)
  refine wp_seq _ (wp_newId hC fun documentId d₃ hi₃ => ?_)
  refine wp_seq _ (wp_ask hC rfl fun stored d₄ hi₄ => ?_)
  refine wp_seq _ (wp_ofPort hC hr hi₄.now fun metadata _ => ?_)
  refine wp_seq _ (wp_now hC fun at' d₅ hi₅ => ?_)
  refine wp_seq _ (wp_addDocument hC hr fun w d₆ hw hi₆ => ?_)
  refine wp_seq _ (wp_recordDomainEvents hC (hr.append _) hi₆.now
    fun recording d₇ hi₇ hrec => ?_)
  have hsince := hi₁.rely.trans (hi₂.rely.trans (hi₃.rely.trans (hi₄.rely.trans
    (hi₅.rely.trans (hi₆.rely.trans hi₇.rely)))))
  intro d₈ hi₈
  simp only [List.cons_append, List.nil_append] at hi₈ ⊢
  have hone : ∀ v ∈ [w], v.IsRecord := fun v hv => List.mem_singleton.1 hv ▸ hw
  have hleaves : LeavesCases d₈ ((Command.uploadDocument c).reservation reservedAt ::
      ([w] ++ recordingWrites c.tenantId recording)) := by
    refine leavesCases hrec ?_ fun v hv => (hone v hv).aside
    intro e he a
    obtain rfl := List.mem_singleton.1 he
    simp [DomainEvent.isVersionOf, isVersionEvent, DomainEvent.eventType]
  exact ⟨⟨hsince.trans hi₈.rely, ⟨reservedAt, [w], _, recording, rfl, hrec,
    fun v hv => (hone v hv).plain⟩, hleaves⟩, Command.key_free (hi₈.trans hsince),
    Command.has_key, trivial⟩

theorem quiet_extractionFailed {writes : Write → Prop} (classification : DocumentClassification)
    (e : PortError) : (extractionFailed classification e.val).Quiet writes := by
  obtain ⟨e, he⟩ := e
  cases e <;> trivial

theorem quiet_extractDocument {writes : Write → Prop} (t : TenantId)
    (document : UploadedDocument) (contentType : String) :
    (extractDocument t document contentType).Quiet writes := by
  refine Prog.Inside.bind (quiet_ask rfl) fun data => ?_
  cases data with
  | error e => exact quiet_extractionFailed _ e
  | ok data =>
    refine Prog.Inside.bind (quiet_ask rfl) fun pages => ?_
    cases pages with
    | error e => exact quiet_extractionFailed _ e
    | ok pages =>
      refine Prog.Inside.bind (quiet_ask rfl) fun classification => ?_
      cases classification with
      | error e => exact quiet_extractionFailed _ e
      | ok classification =>
        refine Prog.Inside.bind (quiet_ask rfl) fun facts => ?_
        cases facts with
        | error e => exact quiet_extractionFailed _ e
        | ok facts => trivial

theorem quiet_addExtractionRun (t : TenantId) (a : ApplicationId) (runId documentId : String)
    (classification : DocumentClassification) (facts : List (String × ExtractedFact))
    (completedAt : DateTime) :
    (addExtractionRun t a runId documentId classification facts completedAt).Quiet
      Write.IsRecord := by
  refine Prog.Inside.bind (quiet_execute ⟨t, _, rfl, rfl, rfl⟩) fun _ => ?_
  refine quiet_insertAll fun row hrow => ?_
  obtain ⟨f, -, rfl⟩ := List.mem_map.1 hrow
  exact ⟨t, _, rfl, rfl, rfl⟩

theorem processDocument_verified (c : ProcessDocumentCommand) (d₀ : Database) :
    casework.wp ((Command.processDocument c).contract d₀) (processDocument c)
      (fun r ws d => ws = [] ∧ (Command.processDocument c).Returns d₀ r d) [] d₀ := by
  have hC := (Command.processDocument c).running d₀
  refine wp_reserve (c := .processDocument c) fun reservedAt d₁ hi₁ => ?_
  have hr := (Command.processDocument c).reserved reservedAt []
  refine wp_seq _ (wp_select fun d₂ hi₂ => ?_)
  cases List.find? (fun document : UploadedDocument => document.documentId = c.documentId) _ with
  | none => exact wp_raise hC hr hi₂.now rfl
  | some document =>
      refine wp_seq _ (wp_ask hC rfl fun described d₃ hi₃ => ?_)
      refine wp_seq _ (wp_ofPort hC hr hi₃.now fun metadata _ => ?_)
      refine wp_seq _ (wp_reads hC hr hi₃.now (quiet_extractDocument _ _ _)
        fun extraction d₄ hi₄ => ?_)
      refine wp_seq _ (wp_reads hC hr hi₄.now (quiet_withIds _) fun facts d₅ hi₅ => ?_)
      refine wp_seq _ (wp_newId hC fun runId d₆ hi₆ => ?_)
      refine wp_seq _ (wp_now hC fun completedAt d₇ hi₇ => ?_)
      refine wp_seq _ (wp_quiet hC hr hi₇.now (quiet_addExtractionRun _ _ _ _ _ _ _)
        fun _ vs d₈ hvs hi₈ => ?_)
      intro d₉ hi₉
      simp only [List.cons_append, List.nil_append] at hi₉ ⊢
      obtain ⟨hcommits, hfree, hkey⟩ := Command.commits_of_records
        (hi₉.trans (hi₁.rely.trans (hi₂.rely.trans (hi₃.rely.trans (hi₄.rely.trans
          (hi₅.rely.trans (hi₆.rely.trans (hi₇.rely.trans hi₈.rely)))))))) hvs id
      exact ⟨hcommits, rfl, hfree, hkey, trivial⟩

/-! ### Facts -/

theorem VerificationCheck.of_error {sourceSystem : SourceSystem} {checkedFactType : String}
    {declaredValue externalValue : Option String} {verdict : VerificationVerdict}
    {confidence : ℚ} {detail : String} {e : Error}
    (h : VerificationCheck.of sourceSystem checkedFactType declaredValue externalValue verdict
      confidence detail = .error e) : e.isOrdinary = true := by
  unfold VerificationCheck.of at h
  split at h <;> cases h
  rfl

theorem annualIncome_error {text : String} {e : Error} (h : annualIncome text = .error e) :
    e.isOrdinary = true := by
  unfold annualIncome at h
  split at h
  · cases h; rfl
  · cases h; rfl
  · cases h; rfl
  · split at h <;> cases h
    rfl

theorem quiet_checkIdentity {writes : Write → Prop} (applicant : Applicant)
    (facts : List ExtractedFact) : (checkIdentity applicant facts).Quiet writes := by
  unfold checkIdentity
  split
  · refine Prog.Inside.bind (quiet_ask rfl) fun answered => ?_
    refine Prog.Inside.bind (quiet_ofPort answered) fun result => ?_
    refine Prog.Inside.bind (quiet_ofExcept fun _ => VerificationCheck.of_error) fun check => ?_
    trivial
  · refine Prog.Inside.bind (quiet_ofExcept fun _ => VerificationCheck.of_error) fun check => ?_
    trivial

theorem quiet_declaredIncome {writes : Write → Prop} (facts : List ExtractedFact) :
    (declaredIncome facts).Quiet writes := by
  unfold declaredIncome
  split
  · trivial
  · rename_i fact _
    have herror : ∀ e, annualIncome fact.normalizedValue = .error e → e.isOrdinary = true :=
      fun _ => annualIncome_error
    -- nothing of the arithmetic matters but how it fails
    generalize annualIncome fact.normalizedValue = income at herror ⊢
    exact Prog.Inside.bind (quiet_ofExcept herror) fun income => trivial

theorem quiet_checkEmployment {writes : Write → Prop} (applicant : Applicant)
    (facts : List ExtractedFact) (income : Option ℤ) :
    (checkEmployment applicant facts income).Quiet writes := by
  unfold checkEmployment
  split
  · refine Prog.Inside.bind (quiet_ask rfl) fun answered => ?_
    refine Prog.Inside.bind (quiet_ofPort answered) fun result => ?_
    refine Prog.Inside.bind (quiet_ofExcept fun e he => ?_) fun deviation => ?_
    · split at he <;> cases he
      rfl
    refine Prog.Inside.bind (quiet_ofExcept fun _ => VerificationCheck.of_error) fun check => ?_
    trivial
  · refine Prog.Inside.bind (quiet_ofExcept fun _ => VerificationCheck.of_error) fun check => ?_
    trivial

theorem quiet_captureCreditReport {writes : Write → Prop} (applicant : Applicant)
    (facts : List ExtractedFact) : (captureCreditReport applicant facts).Quiet writes := by
  unfold captureCreditReport
  split
  · trivial
  · refine Prog.Inside.bind (quiet_ask rfl) fun answered => ?_
    exact Prog.Inside.bind (quiet_ofPort answered) fun report => trivial

theorem quiet_captureTransactionHistory {writes : Write → Prop} (applicant : Applicant)
    (facts : List ExtractedFact) (income : Option ℤ) :
    (captureTransactionHistory applicant facts income).Quiet writes := by
  unfold captureTransactionHistory
  split
  · refine Prog.Inside.bind (quiet_ask rfl) fun answered => ?_
    exact Prog.Inside.bind (quiet_ofPort answered) fun history => trivial
  · trivial

theorem quiet_requireApplicant {writes : Write → Prop} (t : TenantId) (a : ApplicationId)
    (applicantId : ApplicantId) : (requireApplicant t a applicantId).Quiet writes := by
  have hget : (getApplicant t applicantId).Quiet writes := by
    refine Prog.Inside.bind (quiet_select t _) fun row => ?_
    split
    · trivial
    · exact Prog.Inside.bind (quiet_ofExcept fun _ => Applicant.of_error) fun applicant => trivial
  refine Prog.Inside.bind hget fun applicant => ?_
  cases applicant with
  | none => rfl
  | some applicant => trivial

/-- The run itself is written first, and the rest are rows that go with it. -/
theorem wp_addVerificationRun {C : HandlerContract} {k : Key} (hC : Running C k)
    {ws : List Write} (hr : Reserved k ws) {d : Database} {t : TenantId} {a : ApplicationId}
    {runId : String} {checks : List (String × VerificationCheck)}
    {snapshots : List (String × ExternalResponseSnapshot)} {completedAt : DateTime}
    {Q : Unit → List Write → Database → Prop}
    (h : ∀ run vs d', run.applicationId = a → (∀ w ∈ vs, w.IsRecord) →
      casework.Interf (ws ++ ⟨t, .insert (.verificationRun run)⟩ :: vs) d d' →
      Q () (ws ++ ⟨t, .insert (.verificationRun run)⟩ :: vs) d') :
    casework.wp C (addVerificationRun t a runId checks snapshots completedAt) Q ws d := by
  refine wp_seq _ (wp_execute hC hr fun d₁ hi₁ => ?_)
  have hrest : (do
      insertAll t (snapshots.map fun s =>
        .externalResponseSnapshot ⟨s.1, runId, t, a, s.2, completedAt⟩)
      insertAll t (checks.map fun c => .verificationCheck ⟨c.1, runId, t, a, c.2, completedAt⟩)
      let contradictions ← withIds (checks.filter fun c => c.2.verdict = .contradicted)
      insertAll t (contradictions.map fun c =>
        .contradiction ⟨c.1, c.2.1, t, a, c.2.2.sourceSystem, c.2.2.checkedFactType, c.2.2.detail,
          completedAt⟩) : Handler Unit).Quiet Write.IsRecord := by
    refine Prog.Inside.bind (quiet_insertAll fun row hrow => ?_) fun _ => ?_
    · obtain ⟨s, -, rfl⟩ := List.mem_map.1 hrow
      exact ⟨t, _, rfl, rfl, rfl⟩
    refine Prog.Inside.bind (quiet_insertAll fun row hrow => ?_) fun _ => ?_
    · obtain ⟨s, -, rfl⟩ := List.mem_map.1 hrow
      exact ⟨t, _, rfl, rfl, rfl⟩
    refine Prog.Inside.bind (quiet_withIds _) fun contradictions => ?_
    refine quiet_insertAll fun row hrow => ?_
    obtain ⟨s, -, rfl⟩ := List.mem_map.1 hrow
    exact ⟨t, _, rfl, rfl, rfl⟩
  refine wp_quiet hC (hr.append _) hi₁.now hrest fun _ vs d₂ hvs hi₂ => ?_
  rw [List.append_assoc] at hi₂ ⊢
  exact h _ vs d₂ rfl hvs (hi₂.trans hi₁.rely)

theorem verifyApplicationFacts_verified (c : ApplicationCommand) (d₀ : Database) :
    casework.wp ((Command.verifyApplicationFacts c).contract d₀) (verifyApplicationFacts c)
      (fun r _ d => (Command.verifyApplicationFacts c).Returns d₀ r d) [] d₀ := by
  have hC := (Command.verifyApplicationFacts c).running d₀
  refine wp_begin (c := .verifyApplicationFacts c) fun reservedAt x d₁ hi₁ _ _ => ?_
  have hr := (Command.verifyApplicationFacts c).reserved reservedAt []
  refine wp_seq _ (wp_reads hC hr hi₁.now (quiet_requireApplicant _ _ _)
    fun applicant d₂ hi₂ => ?_)
  refine wp_seq _ (wp_select fun d₃ hi₃ => ?_)
  refine wp_seq _ (wp_reads hC hr hi₃.now (quiet_checkIdentity _ _) fun identity d₄ hi₄ => ?_)
  refine wp_seq _ (wp_reads hC hr hi₄.now (quiet_declaredIncome _) fun income d₅ hi₅ => ?_)
  refine wp_seq _ (wp_reads hC hr hi₅.now (quiet_checkEmployment _ _ _)
    fun employment d₆ hi₆ => ?_)
  refine wp_seq _ (wp_reads hC hr hi₆.now (quiet_captureCreditReport _ _)
    fun creditReport d₇ hi₇ => ?_)
  refine wp_seq _ (wp_reads hC hr hi₇.now (quiet_captureTransactionHistory _ _ _)
    fun history d₈ hi₈ => ?_)
  refine wp_seq _ (wp_newId hC fun runId d₉ hi₉ => ?_)
  refine wp_seq _ (wp_reads hC hr hi₉.now (quiet_withIds _) fun identified d₁₀ hi₁₀ => ?_)
  refine wp_seq _ (wp_reads hC hr hi₁₀.now (quiet_withIds _) fun captured d₁₁ hi₁₁ => ?_)
  refine wp_seq _ (wp_now hC fun completedAt d₁₂ hi₁₂ => ?_)
  refine wp_seq _ (wp_addVerificationRun hC hr fun run vs d₁₃ hrun hvs hi₁₃ => ?_)
  intro d₁₄ hi₁₄
  have hsince := hi₁.rely.trans (hi₂.rely.trans (hi₃.rely.trans (hi₄.rely.trans
    (hi₅.rely.trans (hi₆.rely.trans (hi₇.rely.trans (hi₈.rely.trans (hi₉.rely.trans
      (hi₁₀.rely.trans (hi₁₁.rely.trans (hi₁₂.rely.trans hi₁₃.rely)))))))))))
  simp only [List.cons_append, List.nil_append] at hi₁₄ ⊢
  have hbody : ∀ w ∈ (⟨c.tenantId, .insert (.verificationRun run)⟩ : Write) :: vs,
      w.IsRecord := by
    intro w hw
    rcases List.mem_cons.1 hw with rfl | hw
    · exact ⟨c.tenantId, _, rfl, rfl, rfl⟩
    · exact hvs w hw
  obtain ⟨hcommits, hfree, hkey⟩ := Command.commits_of_records (hi₁₄.trans hsince) hbody
    fun hleaves => ⟨hleaves, _, List.mem_cons_of_mem _ List.mem_cons_self, run, rfl, hrun⟩
  exact ⟨hcommits, hfree, hkey, trivial⟩

/-! ### All commands -/

/-- **Every command meets its contract.** -/
theorem Command.verified (c : Command) (d₀ : Database) :
    casework.wp (c.contract d₀) c.handle (fun r _ d => c.Returns d₀ r d) [] d₀ := by
  cases c with
  | createApplication c => exact createApplication_verified c d₀
  | submitApplication c => exact submitApplication_verified c d₀
  | resubmitApplication c => exact resubmitApplication_verified c d₀
  | uploadDocument c => exact uploadDocument_verified c d₀
  | advanceIntakeValidation c => exact advanceIntakeValidation_verified c d₀
  | advanceDocumentProcessing c => exact advanceDocumentProcessing_verified c d₀
  | processDocument c =>
      exact wp_mono _ (fun _ _ _ h => h.2) (processDocument_verified c d₀)
  | verifyApplicationFacts c => exact verifyApplicationFacts_verified c d₀
  | enterHumanReview c => exact enterHumanReview_verified c d₀
  | applyReviewDecision c => exact applyReviewDecision_verified c d₀

/-- What a commit does to the cases. -/
theorem Command.Effect.cases {c : Command} {d : Database} {ws : List Write} (h : c.Effect d ws) :
    (∃ a x, CreatesCase d ws a x) ∨ (∃ a x x', c.applicationId? = some a ∧
      x.row.tenantId = c.tenantId ∧ c.Moves x x' ∧ MovesCase d ws a x x') ∨ LeavesCases d ws := by
  cases c with
  | createApplication c =>
      obtain ⟨a, x, h, -⟩ := h
      exact Or.inl ⟨a, x, h⟩
  | uploadDocument c => exact Or.inr (Or.inr h)
  | processDocument c => exact Or.inr (Or.inr h)
  | verifyApplicationFacts c => exact Or.inr (Or.inr h.1)
  | submitApplication c => exact Or.inr (Or.inl h)
  | resubmitApplication c => exact Or.inr (Or.inl h)
  | advanceIntakeValidation c => exact Or.inr (Or.inl h)
  | advanceDocumentProcessing c => exact Or.inr (Or.inl h)
  | enterHumanReview c => exact Or.inr (Or.inl h)
  | applyReviewDecision c => exact Or.inr (Or.inl h)

/-- **A commit keeps the rows in order, and cases go on.** -/
theorem Command.Commits.keeps {c : Command} {d₀ d : Database} {ws : List Write}
    (h : c.Commits d₀ d ws) (hd : InOrder d) (hg : postgres.Granted d ws) :
    InOrder (postgres.view d ws) ∧ Onward d (postgres.view d ws) := by
  rcases h.effect.cases with ⟨a, x, h⟩ | ⟨a, x, x', -, -, -, h⟩ | h
  · exact ⟨h.inOrder hd hg, h.onward⟩
  · exact ⟨h.inOrder hd hg, h.onward⟩
  · exact ⟨h.inOrder hd hg, h.onward⟩

end FinAssist
