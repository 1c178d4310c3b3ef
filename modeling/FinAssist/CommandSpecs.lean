/-
**What the command handlers promise.**

Each command has a contract: what it has written when it commits and what this does to the cases,
what it raises and when, and what is so when it returns.  The contracts are proved handler by
handler with the rules of `FinAssist/UnitOfWorkSpecs.lean`, whatever other transactions commit
between two of its statements.

Main definitions:

* `FinAssist.Command.Moves` — the step of a case each command makes;
* `FinAssist.Command.Commits`, `FinAssist.Command.Raises`, `FinAssist.Command.Returns`;
* `FinAssist.Command.contract` — **the contract of a command**.

Main results:

* `FinAssist.Command.verified` — **every command meets its contract**;
* `FinAssist.Command.Commits.keeps` — a commit keeps the rows in order and moves cases on.
-/

import FinAssist.UnitOfWorkSpecs

set_option relaxedAutoImplicit false
set_option autoImplicit false

namespace FinAssist

open ReadCommitted ApplicationStatus Discipline

/-! ### The contract of a command -/

/-- Whether a statement neither reserves a key nor records an event. -/
def Write.isPlain (w : Write) : Bool :=
  match w.statement with
  | .insert (.idempotencyKey _) => false
  | .insert (.outboxEvent _) => false
  | .insert (.auditEvent _) => false
  | .insert (.auditHash _) => false
  | .updateAuditHash _ _ => false
  | _ => true

namespace Command

/-- The application a command is about; one that is created is not known before. -/
def applicationId? : Command → Option ApplicationId
  | createApplication _ => none
  | submitApplication c => some c.applicationId
  | resubmitApplication c => some c.applicationId
  | uploadDocument c => some c.applicationId
  | advanceIntakeValidation c => some c.applicationId
  | advanceDocumentProcessing c => some c.applicationId
  | processDocument c => some c.applicationId
  | verifyApplicationFacts c => some c.applicationId
  | enterHumanReview c => some c.applicationId
  | applyReviewDecision c => some c.applicationId

/-- **The step of a case a command makes.** -/
inductive Moves : Command → CaseFile → CaseFile → Prop
  | submit (c : ApplicationCommand) (x : CaseFile) (at' : DateTime) :
      Moves (submitApplication c) x (x.move [submitted] at' (some x.nextWorkflowId) x.review)
  | resubmit (c : ApplicationCommand) (x : CaseFile) (at' : DateTime) :
      Moves (resubmitApplication c) x
        (x.move [documentProcessing] at' (some x.nextWorkflowId) x.review)
  | acceptIntake (c : ApplicationCommand) (x : CaseFile) (at' : DateTime) :
      Moves (advanceIntakeValidation c) x
        (x.move [intakeValidation, documentProcessing] at' x.row.activeWorkflowId x.review)
  | flagIntake (c : ApplicationCommand) (x : CaseFile) (at' enteredQueueAt : DateTime) :
      Moves (advanceIntakeValidation c) x
        (x.move [intakeValidation, awaitingHumanReview] at' x.row.activeWorkflowId
          (some (x.pendingEntry enteredQueueAt)))
  | startVerification (c : ApplicationCommand) (x : CaseFile) (at' : DateTime) :
      Moves (advanceDocumentProcessing c) x
        (x.move [verification] at' x.row.activeWorkflowId x.review)
  | flagDocuments (c : ApplicationCommand) (x : CaseFile) (at' enteredQueueAt : DateTime) :
      Moves (advanceDocumentProcessing c) x
        (x.move [awaitingHumanReview] at' x.row.activeWorkflowId
          (some (x.pendingEntry enteredQueueAt)))
  | enterReview (c : EnterHumanReviewCommand) (x : CaseFile) (at' enteredQueueAt : DateTime) :
      Moves (enterHumanReview c) x
        (x.move [awaitingHumanReview] at' x.row.activeWorkflowId
          (some (x.pendingEntry enteredQueueAt)))
  | decide (c : ApplyReviewDecisionCommand) (x : CaseFile) (at' decidedAt : DateTime)
      (entry : ReviewQueueEntryRow) (hd : c.decision ∈ reviewOutcomes)
      (hr : x.review = some entry) :
      Moves (applyReviewDecision c) x (x.move [c.decision] at' none
        (some (decidedColumns entry c.decision.value c.reason c.reviewerId decidedAt)))

/-- What a command's transaction does to the cases. -/
def Effect (c : Command) (d : Database) (ws : List Write) : Prop :=
  match c with
  | createApplication c => ∃ a x, CreatesCase d ws a x ∧ x.row.tenantId = c.tenantId
  | uploadDocument _ => LeavesCases d ws
  | processDocument _ => LeavesCases d ws
  | verifyApplicationFacts c => LeavesCases d ws ∧ ∃ w ∈ ws, ∃ run : VerificationRunRow,
      w.statement = .insert (.verificationRun run) ∧ run.applicationId = c.applicationId
  | c => ∃ a x x', c.applicationId? = some a ∧ x.row.tenantId = c.tenantId ∧ c.Moves x x' ∧
      MovesCase d ws a x x'

/-- **What is known of a command's transaction when it commits**, on rows `d` that have come from
the rows `d₀` it started from. -/
structure Commits (c : Command) (d₀ d : Database) (ws : List Write) : Prop where
  since : Onward d₀ d
  shape : ∃ reservedAt body events recording,
    ws = reserveWrite c.tenantId c.operationName c.idempotencyKey reservedAt ::
      (body ++ recordingWrites c.tenantId recording) ∧
    Recorded events recording ∧ ∀ w ∈ body, w.isPlain = true
  effect : c.Effect d ws

/-- The statuses a command may try to move an application to, from the one it has read. -/
def targets : Command → List ApplicationStatus
  | submitApplication _ => [submitted]
  | resubmitApplication _ => [documentProcessing]
  | advanceIntakeValidation _ => [intakeValidation]
  | advanceDocumentProcessing _ => [verification, awaitingHumanReview]
  | enterHumanReview _ => [awaitingHumanReview]
  | applyReviewDecision c => if c.decision ∈ reviewOutcomes then [c.decision] else []
  | _ => []

/-- **What a command raises, and when.** -/
def Raises (c : Command) (d₀ : Database) (e : Error) (d : Database) : Prop :=
  match e with
  | .duplicateRequest operationName key =>
      operationName = c.operationName ∧ key = c.idempotencyKey ∧ d.has c.key = true
  | .invalidApplicationData _ =>
      ∃ x, c = applyReviewDecision x ∧ x.decision ∉ reviewOutcomes
  | .illegalStateTransition source target => d.has c.key = false ∧ target ∈ c.targets ∧
      isLegalTransition source target = false ∧
      ∃ a x, c.applicationId? = some a ∧ Seen d₀ d a x ∧ x.row.tenantId = c.tenantId ∧
        x.row.status = source
  | _ => d.has c.key = false

/-- The application has this status. -/
def StatusIs (d : Database) (a : ApplicationId) (s : ApplicationStatus) : Prop :=
  ∃ row, d.application? a = some row ∧ row.status = s

/-- What a result says of the rows. -/
def Reports (d : Database) : (c : Command) → c.Result → Prop
  | advanceIntakeValidation c, r => StatusIs d c.applicationId r.status
  | advanceDocumentProcessing c, r => StatusIs d c.applicationId r.status
  | enterHumanReview c, r => StatusIs d c.applicationId r.status
  | applyReviewDecision c, r => StatusIs d c.applicationId r.status
  | _, _ => True

/-- A command returns when its key is taken, by itself. -/
def Returns (c : Command) (d₀ : Database) (r : c.Result) (d : Database) : Prop :=
  d₀.has c.key = false ∧ d.has c.key = true ∧ c.Reports d r

end Command

/-- **A submission was committed**, with the version `v`, and the workflow is about to be
started. -/
def Submitted (d : Database) (t : TenantId) (a : ApplicationId) (v : ℕ) (s : ApplicationStatus) :
    Prop :=
  ∃ (x : CaseFile) (at' : DateTime), x.Reached ∧ x.row.tenantId = t ∧ x.row.applicationId = a ∧
    v = x.row.version + 1 ∧ isSubmission (some x.row.status) s = true ∧
    ∃ x', d.caseFile? a = some x' ∧
      (x.move [s] at' (some x.nextWorkflowId) x.review).Steps x'

/-- **When a command asks**: only a submission starts a workflow, and no command signals one. -/
def Ask.Justified (q : Ask) (d : Database) : Prop :=
  match q with
  | .startApplicationWorkflow workflowId t a v status =>
      workflowId = applicationWorkflowId t a v ∧ ∃ s, status = s.value ∧ Submitted d t a v s
  | .signalReviewDecision .. => False
  | _ => True

/-- **The contract of a command.** -/
def Command.contract (c : Command) (d₀ : Database) : HandlerContract where
  asks := Ask.Justified
  commits := c.Commits d₀
  raises := c.Raises d₀

theorem Command.running (c : Command) (d₀ : Database) : Running (c.contract d₀) c.key := by
  refine ⟨?_, ?_⟩
  · intro q d hq
    cases q <;> trivial
  · intro e d he hk
    cases e <;> first | exact hk | cases he

/-! ### Steps the handlers share -/

section Rules

variable {C : HandlerContract} {k : Key} {ws : List Write} {d d₀ : Database}

/-- A transition from the status that was read, or the exception. -/
theorem wp_transitionTo {application : Application} {s : ApplicationStatus} {reason : String}
    {at' : DateTime} {Q : Application → List Write → Database → Prop}
    (hillegal : isLegalTransition application.status s = false →
      C.raises (.illegalStateTransition application.status s) d)
    (h : isLegalTransition application.status s = true →
      Q (application.moved s reason at') ws d) :
    casework.wp C (Handler.ofExcept (application.transitionTo s reason at')) Q ws d := by
  cases hm : application.transitionTo s reason at' with
  | ok moved =>
      obtain ⟨hlegal, rfl⟩ := Application.transitionTo_ok hm
      exact h hlegal
  | error e =>
      obtain ⟨hno, rfl⟩ := Application.transitionTo_error hm
      exact hillegal hno

theorem wp_transition (hC : Running C k) {application : Application} {s : ApplicationStatus}
    {reason : String} {Q : Application → List Write → Database → Prop}
    (hillegal : ∀ d', casework.Interf ws d d' → isLegalTransition application.status s = false →
      C.raises (.illegalStateTransition application.status s) d')
    (h : ∀ at' d', casework.Interf ws d d' → isLegalTransition application.status s = true →
      Q (application.moved s reason at') ws d') :
    casework.wp C (transition application s reason) Q ws d :=
  wp_seq _ (wp_now hC fun at' d' hi => wp_transitionTo (hillegal d' hi) (h at' d' hi))

/-- What a save finds of an application that nobody has moved is the row that was read. -/
theorem Seen.sameRow {a : ApplicationId} {x : CaseFile} (hx : Seen d₀ d a x)
    (hview : ∀ d', (postgres.view d' ws).application? a = d'.application? a) {t : TenantId}
    {d' : Database} (hi : casework.Interf ws d d') {b : ApplicationId} (hb : b = a)
    {row : ApplicationRow} (hrow : ((postgres.view d' ws).visible t).application? b = some row)
    (hv : row.version + 1 = x.row.version + 1) : row = x.row := by
  subst hb
  have hkeys := (hi.inv.wellFormed.view hi.granted).keys
  obtain ⟨hfound, -⟩ := (application?_visible hkeys).1 hrow
  rw [hview] at hfound
  obtain ⟨x', hx', hs⟩ := (hx.mono hi.rely).until'
  have hrow' := caseFile?_row hx'
  rw [hfound] at hrow'
  obtain rfl := Option.some.inj hrow'
  have hlen := hx.reached.consistent.version
  have hlen' := (hi.inv.reached hx').consistent.version
  have hle : x'.history.length ≤ x.history.length := by omega
  rw [hs.eq_of_length hle]

/-- A case that is current when its save goes through is the one that was read. -/
theorem Seen.saved {a : ApplicationId} {x : CaseFile} (hx : Seen d₀ d a x) (hd : InOrder d)
    {t : TenantId} {row : ApplicationRow} {application : Application} {snapshotId : String}
    (hg : postgres.Granted d ws) (hw : saveWrites t row application snapshotId ⊆ ws)
    (ha : application.applicationId = a) (hv : application.version = x.row.version + 1) :
    d.caseFile? a = some x := by
  refine hx.current hd (absent_of_granted hg (hw (List.mem_cons_of_mem _ List.mem_cons_self)) ?_)
  simp [Statement.absent, Row.keys, versionSnapshotRow, ha, hv]

/-- The events are recorded, and the transaction commits. -/
theorem wp_recordAndCommit (hC : Running C k) (hr : Reserved k ws)
    (hi : casework.Interf ws d d) {t : TenantId} {application : Application}
    {Q : Unit → List Write → Database → Prop}
    (h : ∀ recording d', casework.Interf (ws ++ recordingWrites t recording) d d' →
      Recorded application.pendingEvents recording →
      C.commits d' (ws ++ recordingWrites t recording) ∧
        Q () [] (postgres.view d' (ws ++ recordingWrites t recording))) :
    casework.wp C (recordAndCommit t application) Q ws d := by
  refine wp_seq _ (wp_recordDomainEvents hC hr hi fun recording d₁ hi₁ hrec => ?_)
  exact fun d₂ hi₂ => h recording d₂ (hi₂.trans hi₁.rely) hrec

/-- The step into review. -/
theorem wp_enterHumanReview (hC : Running C k) (hr : Reserved k ws) {t : TenantId}
    {cached : ApplicationRow} {application : Application} {reason : String}
    {Q : Application → List Write → Database → Prop} (ht : application.tenantId = t)
    (hillegal : ∀ d', casework.Interf ws d d' →
      isLegalTransition application.status awaitingHumanReview = false →
      C.raises (.illegalStateTransition application.status awaitingHumanReview) d')
    (hsame : ∀ d' row, casework.Interf ws d d' →
      ((postgres.view d' ws).visible t).application? application.applicationId = some row →
      row.version + 1 = application.version + 1 → row = cached)
    (h : ∀ at' snapshotId enteredQueueAt d',
      isLegalTransition application.status awaitingHumanReview = true →
      casework.Interf (ws ++ (saveWrites t cached
          (application.moved awaitingHumanReview reason at') snapshotId ++
        [pendingWrite t application.applicationId enteredQueueAt])) d d' →
      Q (application.moved awaitingHumanReview reason at') (ws ++ (saveWrites t cached
          (application.moved awaitingHumanReview reason at') snapshotId ++
        [pendingWrite t application.applicationId enteredQueueAt])) d') :
    casework.wp C (enterHumanReview t cached application reason) Q ws d := by
  refine wp_seq _ (wp_transition hC hillegal fun at' d₁ hi₁ hlegal => ?_)
  refine wp_seq _ (wp_saveApplication hC hr ?_ fun snapshotId d₂ hi₂ => ?_)
  · intro d' row hi hrow hv
    exact hsame d' row (hi.trans hi₁.rely) hrow hv
  refine wp_seq _ (wp_now hC fun enteredQueueAt d₃ hi₃ => ?_)
  refine wp_seq _ (wp_execute hC (hr.append _) fun d₄ hi₄ => ?_)
  subst ht
  rw [List.append_assoc] at hi₄ ⊢
  exact h at' snapshotId enteredQueueAt d₄ hlegal
    (hi₄.trans (hi₁.rely.trans (hi₂.rely.trans hi₃.rely)))

end Rules

/-! ### The handlers -/

/-- The statement that reserves the key of a command. -/
def Command.reservation (c : Command) (reservedAt : DateTime) : Write :=
  reserveWrite c.tenantId c.operationName c.idempotencyKey reservedAt

theorem Command.reserved (c : Command) (reservedAt : DateTime) (rest : List Write) :
    Reserved c.key (c.reservation reservedAt :: rest) :=
  reserved_reserveWrite _ _ _ _ _

theorem Command.reservation_aside (c : Command) (reservedAt : DateTime) :
    ∀ w ∈ [c.reservation reservedAt], w.Aside := by
  intro w hw
  obtain rfl := List.mem_singleton.1 hw
  exact reserveWrite_aside _ _ _ _

/-- **How a handler begins**: its key is reserved, or it was taken. -/
theorem wp_reserve {c : Command} {d₀ : Database} {α : Type} {f : Handler α}
    {Q : α → List Write → Database → Prop}
    (h : ∀ reservedAt d, casework.Interf [c.reservation reservedAt] d₀ d →
      casework.wp (c.contract d₀) f Q [c.reservation reservedAt] d) :
    casework.wp (c.contract d₀)
      (requireReservation c.tenantId c.idempotencyKey c.operationName >>= fun _ => f) Q [] d₀ :=
  wp_seq _ (wp_requireReservation (c.running d₀) (fun _ hk => ⟨rfl, rfl, hk⟩) h)

/-- How a handler goes on that is about an application: the row is that of a case. -/
theorem wp_begin {c : Command} {d₀ : Database} {α : Type} {a : ApplicationId}
    {f : ApplicationRow → Handler α} {Q : α → List Write → Database → Prop}
    (h : ∀ reservedAt x d, casework.Interf [c.reservation reservedAt] d₀ d → Seen d₀ d a x →
      x.row.tenantId = c.tenantId →
      casework.wp (c.contract d₀) (f x.row) Q [c.reservation reservedAt] d) :
    casework.wp (c.contract d₀)
      (requireReservation c.tenantId c.idempotencyKey c.operationName >>= fun _ =>
        requireApplication c.tenantId a >>= f) Q [] d₀ := by
  refine wp_reserve fun reservedAt d₁ hi₁ => wp_seq _ ?_
  refine wp_requireApplication (c.running d₀) (c.reserved reservedAt [])
    (c.reservation_aside reservedAt) fun x d₂ hi₂ hx ht => ?_
  exact h reservedAt x d₂ (hi₂.trans hi₁.rely) (.now (hi₁.rely.trans hi₂.rely) hi₂.inv hx) ht

/-- The transition from the status that was read may be illegal. -/
theorem Command.raises_illegal {c : Command} {d₀ d : Database} {a : ApplicationId} {x : CaseFile}
    {reservedAt : DateTime} {ws : List Write} {s : ApplicationStatus}
    (hg : postgres.Granted d (c.reservation reservedAt :: ws)) (ha : c.applicationId? = some a)
    (hx : Seen d₀ d a x) (ht : x.row.tenantId = c.tenantId) (hs : s ∈ c.targets)
    (hno : isLegalTransition x.row.status s = false) :
    (c.contract d₀).raises (.illegalStateTransition x.row.status s) d :=
  ⟨(c.reserved reservedAt ws).free hg, hs, hno, a, x, ha, hx, ht, rfl⟩

/-- After its transaction has committed, the key of a command is taken. -/
theorem Command.has_key {c : Command} {d : Database} {reservedAt : DateTime} {ws : List Write} :
    (postgres.view d (c.reservation reservedAt :: ws)).has c.key = true := by
  refine occupied_view_iff.2 (Or.inr ⟨_, List.mem_cons_self, _, rfl, ?_⟩)
  exact List.mem_singleton.2 rfl

/-- A key that a transaction could reserve was not taken when it started. -/
theorem Command.key_free {c : Command} {d₀ d : Database} {reservedAt : DateTime}
    {ws : List Write} (hi : casework.Interf (c.reservation reservedAt :: ws) d₀ d) :
    d₀.has c.key = false := by
  have hfree := (c.reserved reservedAt ws).free hi.granted
  by_contra hyes
  rw [Bool.not_eq_false] at hyes
  rw [hi.rely.keys _ hyes] at hfree
  cases hfree

/-- **What is known of a command's transaction that moves a case**, when it commits and right
after. -/
theorem Command.commits_of_moves {c : Command} {d₀ d : Database} {a : ApplicationId}
    {x x' : CaseFile} {reservedAt : DateTime} {body : List Write} {events : List DomainEvent}
    {recording : Recording}
    (hi : casework.Interf (c.reservation reservedAt ::
      (body ++ recordingWrites c.tenantId recording)) d₀ d)
    (hrec : Recorded events recording) (hplain : ∀ w ∈ body, w.isPlain = true)
    (ha : c.applicationId? = some a) (ht : x.row.tenantId = c.tenantId) (hmoves : c.Moves x x')
    (hcase : MovesCase d (c.reservation reservedAt ::
      (body ++ recordingWrites c.tenantId recording)) a x x') :
    c.Commits d₀ d (c.reservation reservedAt ::
      (body ++ recordingWrites c.tenantId recording)) ∧
    d₀.has c.key = false ∧
    (postgres.view d (c.reservation reservedAt ::
      (body ++ recordingWrites c.tenantId recording))).has c.key = true ∧
    Command.StatusIs (postgres.view d (c.reservation reservedAt ::
      (body ++ recordingWrites c.tenantId recording))) a x'.row.status := by
  refine ⟨⟨hi.rely, ⟨reservedAt, body, events, recording, rfl, hrec, hplain⟩, ?_⟩,
    Command.key_free hi, Command.has_key, x'.row, caseFile?_row hcase.after, rfl⟩
  cases hmoves <;> exact ⟨a, x, _, ha, ht, by constructor <;> assumption, hcase⟩

theorem saveWrites_plain {t : TenantId} {row : ApplicationRow} {application : Application}
    {snapshotId : String} : ∀ w ∈ saveWrites t row application snapshotId, w.isPlain = true := by
  intro w hw
  simp only [saveWrites, List.mem_cons, List.not_mem_nil, or_false] at hw
  rcases hw with rfl | rfl <;> rfl

/-- The end of a submission or a resubmission: the workflow is attached, everything is saved and
committed, and then the workflow is started. -/
theorem wp_saveSubmission {cmd : Command} {c : ApplicationCommand} {d₀ d : Database}
    {s : ApplicationStatus} {reason : String} {at' reservedAt : DateTime} {x : CaseFile}
    {Q : SubmitApplicationResult → List Write → Database → Prop}
    (ha : cmd.applicationId? = some c.applicationId) (ht : cmd.tenantId = c.tenantId)
    (hx : Seen d₀ d c.applicationId x) (hxt : x.row.tenantId = c.tenantId)
    (hi : casework.Interf [cmd.reservation reservedAt] d₀ d)
    (hmoves : cmd.Moves x (x.move [s] at' (some x.nextWorkflowId) x.review))
    (hstep : x.Step (x.move [s] at' (some x.nextWorkflowId) x.review))
    (hsub : isSubmission (some x.row.status) s = true)
    (hQ : ∀ r d, d₀.has cmd.key = false → d.has cmd.key = true → Q r [] d) :
    casework.wp (cmd.contract d₀) (do
      let application ← saveSubmission c x.row ((rowToApplication x.row).moved s reason at')
      startWorkflow c application s) Q [cmd.reservation reservedAt] d := by
  obtain ⟨t, a, key⟩ := c
  obtain rfl : cmd.tenantId = t := ht
  dsimp only at ha hx hxt
  have hC := cmd.running d₀
  have hr := cmd.reserved reservedAt []
  have hid : x.row.applicationId = a := by
    obtain ⟨x', hx', hs⟩ := hx.until'
    obtain ⟨events, htells⟩ := hi.inv.tells hx'
    exact hs.row_fixed.1.symm.trans htells.id
  have hwid : applicationWorkflowId cmd.tenantId a (x.row.version + 1) =
      x.nextWorkflowId := by
    rw [CaseFile.nextWorkflowId, hid, hxt]
  -- the application that is saved, with the workflow of its new version
  have happ : ((rowToApplication x.row).moved s reason at').attachWorkflow
      (applicationWorkflowId cmd.tenantId a (x.row.version + 1)) =
        x.row.moved s reason at' (some x.nextWorkflowId) := by
    rw [hwid]
    rfl
  refine wp_seq _ (wp_seq _ ?_)
  change casework.wp (cmd.contract d₀) (saveApplication cmd.tenantId x.row
    (((rowToApplication x.row).moved s reason at').attachWorkflow
      (applicationWorkflowId cmd.tenantId a (x.row.version + 1)))) _ _ _
  rw [happ]
  refine wp_saveApplication hC hr ?_ fun snapshotId d₁ hi₁ => ?_
  · intro d' row hi' hrow hv
    exact hx.sameRow (application?_view_aside (cmd.reservation_aside reservedAt) · _) hi' hid hrow
      hv
  refine wp_seq _ ?_
  change casework.wp (cmd.contract d₀) (recordAndCommit cmd.tenantId
    (((rowToApplication x.row).moved s reason at').attachWorkflow
      (applicationWorkflowId cmd.tenantId a (x.row.version + 1)))) _ _ _
  rw [happ]
  refine wp_recordAndCommit hC (hr.append _) hi₁.now fun recording d₂ hi₂ hrec => ?_
  have hseen := hx.mono (hi₁.rely.trans hi₂.rely)
  have hcur := hseen.saved hi₂.inv hi₂.granted
    (fun w hw => List.mem_append_left _ (List.mem_append_right _ hw)) hid rfl
  have hcase : MovesCase d₂ (cmd.reservation reservedAt :: (saveWrites cmd.tenantId x.row _
      snapshotId ++ recordingWrites cmd.tenantId recording)) a x _ :=
    movesCase_save hxt hi₂.inv hcur hstep hrec
  obtain ⟨hcommits, hfree, hkey, -⟩ := Command.commits_of_moves
    (hi₂.trans (hi.rely.trans hi₁.rely)) hrec saveWrites_plain ha hxt hmoves hcase
  refine ⟨hcommits, ?_⟩
  -- the transaction is through; what is left is to start the workflow
  refine fun d₃ hi₃ => ⟨⟨rfl, s, rfl, x, at', hx.reached, hxt, hid, rfl, hsub, ?_⟩, fun ack => ?_⟩
  · exact hi₃.rely.cases a _ hcase.after
  · exact hQ _ d₃ hfree (hi₃.rely.keys _ hkey)

theorem submitApplication_verified (c : ApplicationCommand) (d₀ : Database) :
    casework.wp ((Command.submitApplication c).contract d₀) (submitApplication c)
      (fun r _ d => (Command.submitApplication c).Returns d₀ r d) [] d₀ := by
  refine wp_begin (c := .submitApplication c) fun reservedAt x d₁ hi₁ hx ht => ?_
  have hC := (Command.submitApplication c).running d₀
  refine wp_seq _ (wp_now hC fun at' d₂ hi₂ => ?_)
  have hx₂ := hx.mono hi₂.rely
  refine wp_seq _ (wp_transitionTo ?_ fun hlegal => ?_)
  · exact Command.raises_illegal hi₂.granted rfl hx₂ ht (List.mem_singleton.2 rfl)
  · refine wp_saveSubmission rfl rfl hx₂ ht (hi₂.trans hi₁.rely) (.submit c x at')
      (.submit at' hlegal) (by simp [isSubmission]) ?_
    exact fun r d hfree hkey => ⟨hfree, hkey, trivial⟩

/-- A reached case is never in intake validation, so it is resubmitted only when more information
was asked for. -/
theorem CaseFile.Reached.resubmission {x : CaseFile} (hx : x.Reached)
    (h : isLegalTransition x.row.status documentProcessing = true) :
    x.row.status = needsMoreInformation := by
  rcases legal_documentProcessing_iff.1 h with hi | hn
  · cases hx.consistent.phase with
    | draft hs => simp [hi] at hs
    | processing hs => simp [hi] at hs
    | review hs => simp [hi] at hs
    | outcome hs => simp [hi, reviewOutcomes] at hs
  · exact hn

theorem resubmitApplication_verified (c : ApplicationCommand) (d₀ : Database) :
    casework.wp ((Command.resubmitApplication c).contract d₀) (resubmitApplication c)
      (fun r _ d => (Command.resubmitApplication c).Returns d₀ r d) [] d₀ := by
  refine wp_begin (c := .resubmitApplication c) fun reservedAt x d₁ hi₁ hx ht => ?_
  have hC := (Command.resubmitApplication c).running d₀
  refine wp_seq _ (wp_transition hC ?_ fun at' d₂ hi₂ hlegal => ?_)
  · intro d₂ hi₂
    exact Command.raises_illegal hi₂.granted rfl (hx.mono hi₂.rely) ht (List.mem_singleton.2 rfl)
  · have hn := hx.reached.resubmission hlegal
    refine wp_saveSubmission rfl rfl (hx.mono hi₂.rely) ht (hi₂.trans hi₁.rely)
      (.resubmit c x at') (.resubmit at' hlegal) (by simp [isSubmission, hn]) ?_
    exact fun r d hfree hkey => ⟨hfree, hkey, trivial⟩

/-! ### Handlers that only read -/

/-- A piece of a handler that does nothing special, and writes only what it may. -/
abbrev Handler.Quiet {α : Type} (writes : Write → Prop) (p : Handler α) : Prop :=
  p.Inside (fun q => q.isOrdinary = true) (fun e => e.isOrdinary = true) writes

theorem quiet_ask {writes : Write → Prop} {q : Ask} (h : q.isOrdinary = true) :
    (Handler.ask q).Quiet writes :=
  ⟨h, fun _ => trivial⟩

theorem quiet_select {writes : Write → Prop} {α : Type} (t : TenantId) (f : Database → α) :
    (select t f).Quiet writes :=
  fun _ => trivial

theorem quiet_ofExcept {writes : Write → Prop} {α : Type} {r : Except Error α}
    (h : ∀ e, r = .error e → e.isOrdinary = true) : (Handler.ofExcept r).Quiet writes := by
  cases r with
  | ok a => trivial
  | error e => exact h e rfl

theorem quiet_ofPort {writes : Write → Prop} {α : Type} (r : Except PortError α) :
    (Handler.ofPort r).Quiet writes := by
  cases r with
  | ok a => trivial
  | error e => exact Error.isOrdinary_of_isExternal e.property

theorem quiet_execute {writes : Write → Prop} {t : TenantId} {s : Statement} (h : writes ⟨t, s⟩) :
    (execute t s).Quiet writes := by
  refine ⟨h, fun o => ?_⟩
  cases o with
  | none => trivial
  | some f => rfl

theorem quiet_insertAll {writes : Write → Prop} {t : TenantId} :
    ∀ {rows : List Row}, (∀ r ∈ rows, writes ⟨t, .insert r⟩) → (insertAll t rows).Quiet writes := by
  intro rows
  induction rows with
  | nil => intro _; trivial
  | cons row rows ih =>
      intro h
      refine Prog.Inside.bind (quiet_execute (h row List.mem_cons_self)) fun _ => ?_
      exact ih fun r hr => h r (List.mem_cons_of_mem _ hr)

theorem quiet_withIds {writes : Write → Prop} {α : Type} :
    ∀ xs : List α, (withIds xs).Quiet writes := by
  intro xs
  induction xs with
  | nil => trivial
  | cons x xs ih =>
      refine Prog.Inside.bind (quiet_ask rfl) fun id => ?_
      exact Prog.Inside.bind ih fun rest => trivial

theorem quiet_requireProduct {writes : Write → Prop} (t : TenantId) (p : ProductId) :
    (requireProduct t p).Quiet writes := by
  refine Prog.Inside.bind (quiet_select t _) fun row => ?_
  cases row with
  | none => rfl
  | some row =>
      refine quiet_ofExcept fun e he => ?_
      simp only [rowToProduct] at he
      split at he
      · cases he
        rfl
      · cases he

section Quiet

variable {C : HandlerContract} {k : Key} {ws : List Write} {d : Database} {α : Type}

/-- The rule for a quiet piece. -/
theorem wp_quiet (hC : Running C k) (hr : Reserved k ws) (hi : casework.Interf ws d d)
    {writes : Write → Prop} {p : Handler α} (hp : p.Quiet writes)
    {Q : α → List Write → Database → Prop}
    (h : ∀ a vs d', (∀ w ∈ vs, writes w) → casework.Interf (ws ++ vs) d d' → Q a (ws ++ vs) d') :
    casework.wp C p Q ws d := by
  refine wp_inside _ hp hC.asks hi ?_ h
  intro e d' vs he hg
  exact hC.raises e d' he ((hr.append vs).free hg)

/-- The rule for a quiet piece that writes nothing. -/
theorem wp_reads (hC : Running C k) (hr : Reserved k ws) (hi : casework.Interf ws d d)
    {p : Handler α} (hp : p.Quiet fun _ => False) {Q : α → List Write → Database → Prop}
    (h : ∀ a d', casework.Interf ws d d' → Q a ws d') : casework.wp C p Q ws d := by
  refine wp_quiet hC hr hi hp fun a vs d' hvs hi' => ?_
  have hnil : vs = [] := List.eq_nil_iff_forall_not_mem.2 hvs
  rw [hnil, List.append_nil] at hi' ⊢
  exact h a d' hi'

end Quiet

/-! ### The handlers of the workflow's steps -/

/-- An application that has no entry in the queue. -/
theorem review_none {d : Database} (hd : InOrder d) {a : ApplicationId} {x : CaseFile}
    (hx : d.caseFile? a = some x) (h : d.has (.reviewQueueEntry a) = false) :
    x.review = none := by
  rw [← caseFile?_review hx]
  cases he : d.reviewQueueEntry? a with
  | none => rfl
  | some e =>
      obtain ⟨hrow, hea⟩ := (reviewQueueEntry?_iff hd.wellFormed.keys).1 he
      have hyes : d.has (.reviewQueueEntry a) = true :=
        Database.has_iff.2 ⟨_, hrow, by simp [Row.keys, hea]⟩
      rw [h] at hyes
      cases hyes

/-- What an entry of the queue needs to be granted. -/
theorem pendingWrite_free {d : Database} {t : TenantId} {a : ApplicationId}
    {enteredQueueAt : DateTime} {ws : List Write} (hg : postgres.Granted d ws)
    (hw : pendingWrite t a enteredQueueAt ∈ ws) : d.has (.reviewQueueEntry a) = false :=
  absent_of_granted hg hw (by simp [pendingWrite, Statement.absent, Row.keys])

/-- An application as its transaction sees it after a save. -/
theorem application?_saved {c : Command} {d : Database} {a : ApplicationId} {x : CaseFile}
    {reservedAt : DateTime} {application : Application} {snapshotId : String} (hd : InOrder d)
    (hx : d.caseFile? a = some x) (ht : x.row.tenantId = c.tenantId)
    (ha : application.applicationId = a) :
    (postgres.view d ([c.reservation reservedAt] ++
      saveWrites c.tenantId x.row application snapshotId)).application? a =
        some (saveColumns x.row application) := by
  obtain ⟨events, htells⟩ := hd.tells hx
  have h := slice_view ([c.reservation reservedAt] ++
    saveWrites c.tenantId x.row application snapshotId) d a
  rw [List.foldl_append, foldl_aside (c.reservation_aside reservedAt),
    foldl_saveWrites htells.row htells.id ht ha] at h
  exact congrArg Slice.row h

/-- What a second save of a transaction finds is what the first one has made. -/
theorem sameRow_saved {c : Command} {d₀ d : Database} {a : ApplicationId} {x : CaseFile}
    {reservedAt : DateTime} {application : Application} {snapshotId : String}
    (hx : Seen d₀ d a x) (ht : x.row.tenantId = c.tenantId)
    (ha : application.applicationId = a) (hv : application.version = x.row.version + 1)
    {d' : Database} {row : ApplicationRow}
    (hi : casework.Interf ([c.reservation reservedAt] ++
      saveWrites c.tenantId x.row application snapshotId) d d')
    (hrow : ((postgres.view d' ([c.reservation reservedAt] ++
      saveWrites c.tenantId x.row application snapshotId)).visible c.tenantId).application? a =
        some row) : row = saveColumns x.row application := by
  have hkeys := (hi.inv.wellFormed.view hi.granted).keys
  have hcur := (hx.mono hi.rely).saved hi.inv hi.granted (List.subset_append_right _ _) ha hv
  obtain ⟨hfound, -⟩ := (application?_visible hkeys).1 hrow
  rw [application?_saved hi.inv hcur ht ha] at hfound
  exact (Option.some.inj hfound).symm

theorem Seen.applicationId {d₀ d : Database} {a : ApplicationId} {x : CaseFile}
    (hx : Seen d₀ d a x) (hd : InOrder d) : x.row.applicationId = a := by
  obtain ⟨x', hx', hs⟩ := hx.until'
  obtain ⟨events, htells⟩ := hd.tells hx'
  exact hs.row_fixed.1.symm.trans htells.id

theorem advanceIntakeValidation_verified (c : ApplicationCommand) (d₀ : Database) :
    casework.wp ((Command.advanceIntakeValidation c).contract d₀) (advanceIntakeValidation c)
      (fun r _ d => (Command.advanceIntakeValidation c).Returns d₀ r d) [] d₀ := by
  have hC := (Command.advanceIntakeValidation c).running d₀
  refine wp_begin (c := .advanceIntakeValidation c) fun reservedAt x d₁ hi₁ hx₁ ht => ?_
  have hr := (Command.advanceIntakeValidation c).reserved reservedAt []
  have ha : x.row.applicationId = c.applicationId := hx₁.applicationId hi₁.inv
  refine wp_seq _ (wp_reads hC hr hi₁.now (quiet_requireProduct _ _) fun product d₂ hi₂ => ?_)
  refine wp_seq _ (wp_transition hC ?_ fun at₁ d₃ hi₃ hlegal => ?_)
  · intro d₃ hi₃
    exact Command.raises_illegal hi₃.granted rfl (hx₁.mono (hi₂.rely.trans hi₃.rely)) ht
      (List.mem_singleton.2 rfl)
  have hx₃ := hx₁.mono (hi₂.rely.trans hi₃.rely)
  generalize h₁ : (rowToApplication x.row).moved intakeValidation
    "entering automated intake validation" at₁ = application₁
  have ha₁ : application₁.applicationId = c.applicationId := h₁ ▸ ha
  have hv₁ : application₁.version = x.row.version + 1 := h₁ ▸ rfl
  have hs₁ : application₁.status = intakeValidation := h₁ ▸ rfl
  have ht₁ : application₁.tenantId = c.tenantId := h₁ ▸ ht
  refine wp_seq _ (wp_saveApplication hC hr ?_ fun snapshotId₁ d₄ hi₄ => ?_)
  · intro d' row hi hrow hv
    rw [hv₁] at hv
    exact hx₃.sameRow (application?_view_aside (Command.reservation_aside _ reservedAt) · _) hi
      ha₁ hrow hv
  have hx₄ := hx₃.mono hi₄.rely
  have hsince := hi₁.rely.trans (hi₂.rely.trans (hi₃.rely.trans hi₄.rely))
  refine wp_seq _ ?_
  cases haccepted : product.accepts application₁.requestedAmount
      application₁.requestedTermMonths with
  | true =>
      -- within the product's limits: the case goes on to its documents
      refine wp_seq _ (wp_transition hC ?_ fun at₂ d₅ hi₅ _ => ?_)
      · intro d₅ _ hno
        rw [hs₁] at hno
        exact absurd hno (by decide)
      refine wp_seq _ (wp_saveApplication hC (hr.append _) ?_ fun snapshotId₂ d₆ hi₆ => ?_)
      · intro d' row hi hrow _
        exact sameRow_saved hx₄ ht ha₁ hv₁ (hi.trans hi₅.rely) (ha₁ ▸ hrow)
      refine wp_seq _ (wp_recordAndCommit hC ((hr.append _).append _) hi₆.now
        fun recording d₇ hi₇ hrec => ?_)
      simp only [List.cons_append, List.nil_append] at hi₇ ⊢
      have hcur := (hx₄.mono (hi₅.rely.trans (hi₆.rely.trans hi₇.rely))).saved hi₇.inv
        hi₇.granted (fun w hw => List.mem_cons_of_mem _ (List.mem_append_left _
          (List.mem_append_left _ hw))) ha₁ hv₁
      refine Command.commits_of_moves (hi₇.trans (hsince.trans (hi₅.rely.trans hi₆.rely))) hrec ?_
        rfl ht (.acceptIntake c x at₂)
        (movesCase_saveTwice ht hi₇.inv hcur h₁.symm rfl (.acceptIntake at₂ hlegal) hrec)
      intro w hw
      rcases List.mem_append.1 hw with hw | hw
      · exact saveWrites_plain w hw
      · exact saveWrites_plain w hw
  | false =>
      refine wp_enterHumanReview hC (hr.append _) ht₁ ?_ ?_
        fun at₂ snapshotId₂ enteredQueueAt d₅ _ hi₅ => ?_
      · intro d₅ _ hno
        rw [hs₁] at hno
        exact absurd hno (by decide)
      · intro d' row hi hrow _
        exact sameRow_saved hx₄ ht ha₁ hv₁ hi (ha₁ ▸ hrow)
      refine wp_seq _ (wp_recordAndCommit hC ((hr.append _).append _) hi₅.now
        fun recording d₆ hi₆ hrec => ?_)
      rw [ha₁] at hi₆ ⊢
      simp only [List.cons_append, List.nil_append, ← List.append_assoc] at hi₆ ⊢
      have hcur := (hx₄.mono (hi₅.rely.trans hi₆.rely)).saved hi₆.inv hi₆.granted
        (fun w hw => List.mem_cons_of_mem _ (List.mem_append_left _ (List.mem_append_left _
          (List.mem_append_left _ hw)))) ha₁ hv₁
      have hnone := review_none hi₆.inv hcur (pendingWrite_free hi₆.granted
        (List.mem_cons_of_mem _ (List.mem_append_left _ (List.mem_append_right _
          (List.mem_singleton.2 rfl)))))
      refine Command.commits_of_moves (hi₆.trans (hsince.trans hi₅.rely)) hrec ?_ rfl ht
        (.flagIntake c x at₂ enteredQueueAt)
        (movesCase_saveTwiceEnter ht hi₆.inv hcur h₁.symm rfl
          (.flagIntake at₂ enteredQueueAt hlegal hnone) hnone hrec)
      intro w hw
      rcases List.mem_append.1 hw with hw | hw
      · rcases List.mem_append.1 hw with hw | hw
        · exact saveWrites_plain w hw
        · exact saveWrites_plain w hw
      · exact List.mem_singleton.1 hw ▸ rfl

/-- **The step into review**, for a handler that goes there from the row it has read. -/
theorem wp_enterAndCommit {cmd : Command} {d₀ d : Database} {α : Type} {a : ApplicationId}
    {x : CaseFile} {reason : String} {reservedAt : DateTime} {f : Application → Handler α}
    {Q : α → List Write → Database → Prop} (ha : cmd.applicationId? = some a)
    (hx : Seen d₀ d a x) (ht : x.row.tenantId = cmd.tenantId)
    (hi : casework.Interf [cmd.reservation reservedAt] d₀ d)
    (htarget : awaitingHumanReview ∈ cmd.targets)
    (hmoves : ∀ at' enteredQueueAt, cmd.Moves x (x.move [awaitingHumanReview] at'
      x.row.activeWorkflowId (some (x.pendingEntry enteredQueueAt))))
    (hf : ∀ at' d', d₀.has cmd.key = false → d'.has cmd.key = true →
      Command.StatusIs d' a awaitingHumanReview → casework.wp (cmd.contract d₀)
        (f ((rowToApplication x.row).moved awaitingHumanReview reason at')) Q [] d') :
    casework.wp (cmd.contract d₀) (do
      let application ← enterHumanReview cmd.tenantId x.row (rowToApplication x.row) reason
      recordAndCommit cmd.tenantId application
      f application) Q [cmd.reservation reservedAt] d := by
  have hC := cmd.running d₀
  have hr := cmd.reserved reservedAt []
  have hid := hx.applicationId hi.inv
  refine wp_seq _ (wp_enterHumanReview hC hr ht ?_ ?_
    fun at' snapshotId enteredQueueAt d₁ hlegal hi₁ => ?_)
  · intro d₁ hi₁ hno
    exact Command.raises_illegal hi₁.granted ha (hx.mono hi₁.rely) ht htarget hno
  · intro d' row hi' hrow hv
    exact hx.sameRow (application?_view_aside (cmd.reservation_aside reservedAt) · _) hi' hid hrow
      hv
  refine wp_seq _ (wp_recordAndCommit hC (hr.append _) hi₁.now fun recording d₂ hi₂ hrec => ?_)
  have hida : (rowToApplication x.row).applicationId = a := hid
  rw [hida] at hi₂ ⊢
  simp only [List.cons_append, List.nil_append] at hi₂ ⊢
  have hcur := (hx.mono (hi₁.rely.trans hi₂.rely)).saved hi₂.inv hi₂.granted
    (fun w hw => List.mem_cons_of_mem _ (List.mem_append_left _ (List.mem_append_left _ hw)))
    hid rfl
  have hnone := review_none hi₂.inv hcur (pendingWrite_free hi₂.granted
    (List.mem_cons_of_mem _ (List.mem_append_left _ (List.mem_append_right _
      (List.mem_singleton.2 rfl)))))
  have hplain : ∀ w ∈ saveWrites cmd.tenantId x.row
      ((rowToApplication x.row).moved awaitingHumanReview reason at') snapshotId ++
        [pendingWrite cmd.tenantId a enteredQueueAt], w.isPlain = true := by
    intro w hw
    rcases List.mem_append.1 hw with hw | hw
    · exact saveWrites_plain w hw
    · exact List.mem_singleton.1 hw ▸ rfl
  obtain ⟨hcommits, hfree, hkey, hstatus⟩ := Command.commits_of_moves
    (hi₂.trans (hi.rely.trans hi₁.rely)) hrec hplain ha ht (hmoves at' enteredQueueAt)
    (movesCase_enter ht hi₂.inv hcur (.enterReview at' enteredQueueAt hlegal hnone) hnone hrec)
  exact ⟨hcommits, hf at' _ hfree hkey hstatus⟩

theorem advanceDocumentProcessing_verified (c : ApplicationCommand) (d₀ : Database) :
    casework.wp ((Command.advanceDocumentProcessing c).contract d₀) (advanceDocumentProcessing c)
      (fun r _ d => (Command.advanceDocumentProcessing c).Returns d₀ r d) [] d₀ := by
  have hC := (Command.advanceDocumentProcessing c).running d₀
  refine wp_begin (c := .advanceDocumentProcessing c) fun reservedAt x d₁ hi₁ hx₁ ht => ?_
  have hr := (Command.advanceDocumentProcessing c).reserved reservedAt []
  have hid := hx₁.applicationId hi₁.inv
  refine wp_seq _ (wp_select fun d₂ hi₂ => ?_)
  have hx₂ := hx₁.mono hi₂.rely
  generalize (((postgres.view d₂ [_]).visible c.tenantId).documents.filter
    (isDocumentOf c.tenantId c.applicationId)).length = documentCount
  by_cases hcount : documentCount ≥ 1
  · rw [finishDocuments, if_pos hcount]
    refine wp_seq _ (wp_seq _ (wp_transition hC ?_ fun at' d₃ hi₃ hlegal => ?_))
    · intro d₃ hi₃
      exact Command.raises_illegal hi₃.granted rfl (hx₂.mono hi₃.rely) ht List.mem_cons_self
    refine wp_seq _ (wp_saveApplication hC hr ?_ fun snapshotId d₄ hi₄ => ?_)
    · intro d' row hi hrow hv
      exact (hx₂.mono hi₃.rely).sameRow (application?_view_aside
        (Command.reservation_aside _ reservedAt) · _) hi hid hrow hv
    refine wp_seq _ (wp_recordAndCommit hC (hr.append _) hi₄.now fun recording d₅ hi₅ hrec => ?_)
    simp only [List.cons_append, List.nil_append] at hi₅ ⊢
    have hcur := (hx₂.mono (hi₃.rely.trans (hi₄.rely.trans hi₅.rely))).saved hi₅.inv hi₅.granted
      (fun w hw => List.mem_cons_of_mem _ (List.mem_append_left _ hw)) hid rfl
    exact Command.commits_of_moves
      (hi₅.trans (hi₁.rely.trans (hi₂.rely.trans (hi₃.rely.trans hi₄.rely)))) hrec
      saveWrites_plain rfl ht (.startVerification c x at')
      (movesCase_save ht hi₅.inv hcur (.startVerification at' hlegal) hrec)
  · rw [finishDocuments, if_neg hcount]
    refine wp_enterAndCommit rfl hx₂ ht (hi₂.trans hi₁.rely)
      (List.mem_cons_of_mem _ List.mem_cons_self) (fun at' e => .flagDocuments c x at' e) ?_
    exact fun at' d' hfree hkey hstatus => ⟨hfree, hkey, hstatus⟩

theorem enterHumanReview_verified (c : EnterHumanReviewCommand) (d₀ : Database) :
    casework.wp ((Command.enterHumanReview c).contract d₀) (enterHumanReviewCommand c)
      (fun r _ d => (Command.enterHumanReview c).Returns d₀ r d) [] d₀ := by
  refine wp_begin (c := .enterHumanReview c) fun reservedAt x d₁ hi₁ hx₁ ht => ?_
  refine wp_enterAndCommit rfl hx₁ ht hi₁ List.mem_cons_self
    (fun at' e => .enterReview c x at' e) ?_
  exact fun at' d' hfree hkey hstatus => ⟨hfree, hkey, hstatus⟩

/-- A decision is written on the entry that is found in the queue. -/
theorem wp_markDecided {C : HandlerContract} {k : Key} (hC : Running C k) {ws : List Write}
    (hr : Reserved k ws) (hws : ∀ w ∈ ws, w.Aside) {d : Database} {t : TenantId}
    {a : ApplicationId} {decision reason : String} {reviewerId : Option String}
    {decidedAt : DateTime} {Q : Unit → List Write → Database → Prop}
    (h : ∀ entry d₁ d₂, Onward d d₁ → InOrder d₁ → d₁.reviewQueueEntry? a = some entry →
      entry.tenantId = t →
      casework.Interf (ws ++ [decidedWrite t entry decision reason reviewerId decidedAt]) d₁ d₂ →
      Q () (ws ++ [decidedWrite t entry decision reason reviewerId decidedAt]) d₂) :
    casework.wp C (markDecided t a decision reason reviewerId decidedAt) Q ws d := by
  refine wp_seq _ (wp_select fun d₁ hi₁ => ?_)
  have hkeys := (hi₁.inv.wellFormed.view hi₁.granted).keys
  cases hentry : Database.reviewQueueEntry? ((postgres.view d₁ ws).visible t) a with
  | none => exact hC.raises _ d₁ rfl (hr.free hi₁.granted)
  | some entry =>
      obtain ⟨hview, ht⟩ := (reviewQueueEntry?_visible hkeys).1 hentry
      have hslice := congrArg Slice.review (slice_view ws d₁ a)
      rw [foldl_aside hws] at hslice
      simp only [Option.filter, ht, decide_true, if_true]
      refine wp_execute hC hr fun d₂ hi₂ => ?_
      exact h entry d₁ d₂ hi₁.rely hi₁.inv (hslice.symm.trans hview) ht hi₂

/-- A case that was read, and is current later, was current in between. -/
theorem Seen.between {d₀ d d' : Database} {a : ApplicationId} {x : CaseFile}
    (hx : Seen d₀ d a x) (hr : Onward d d') (hx' : d'.caseFile? a = some x) :
    d.caseFile? a = some x := by
  obtain ⟨x₁, hx₁, hs₁⟩ := hx.until'
  obtain ⟨x₂, hx₂, hs₂⟩ := hr.cases a x₁ hx₁
  rw [hx'] at hx₂
  obtain rfl := Option.some.inj hx₂
  rw [hs₁.eq_of_length (CaseFile.Steps.history_prefix hs₂).length_le] at hx₁
  exact hx₁

/-- A transaction that wrote a decision on the queue sees the applications as they are. -/
theorem application?_view_decided {ws : List Write} (hws : ∀ w ∈ ws, w.Aside) {t : TenantId}
    {entry : ReviewQueueEntryRow} {decision reason : String} {reviewerId : Option String}
    {decidedAt : DateTime} (d : Database) (a : ApplicationId) :
    (postgres.view d (ws ++ [decidedWrite t entry decision reason reviewerId
      decidedAt])).application? a = d.application? a := by
  have h := congrArg Slice.row (slice_view (ws ++ [decidedWrite t entry decision reason reviewerId
    decidedAt]) d a)
  rw [List.foldl_append, foldl_aside hws, List.foldl_cons, List.foldl_nil] at h
  simp only [Slice.step, decidedWrite] at h
  split at h <;> exact h

/-- What a decision returns is the row as it is then. -/
theorem applyReviewDecision_returns (c : ApplyReviewDecisionCommand) (d₀ : Database) :
    casework.wp ((Command.applyReviewDecision c).contract d₀) (applyReviewDecision c)
      (fun r _ d => (Command.applyReviewDecision c).Returns d₀ r d ∧
        ∃ row, d.application? c.applicationId = some row ∧ r.status = row.status ∧
          r.version = row.version) [] d₀ := by
  have hC := (Command.applyReviewDecision c).running d₀
  by_cases hd : c.decision ∈ reviewOutcomes
  · rw [applyReviewDecision, if_neg (not_not.2 hd)]
    refine wp_begin (c := .applyReviewDecision c) fun reservedAt x d₁ hi₁ hx₁ ht => ?_
    have hr := (Command.applyReviewDecision c).reserved reservedAt []
    have haside := (Command.applyReviewDecision c).reservation_aside reservedAt
    have hid := hx₁.applicationId hi₁.inv
    refine wp_seq _ (wp_transition hC ?_ fun at' d₂ hi₂ hlegal => ?_)
    · intro d₂ hi₂
      refine Command.raises_illegal hi₂.granted rfl (hx₁.mono hi₂.rely) ht ?_
      simp [Command.targets, hd]
    refine wp_seq _ (wp_now hC fun decidedAt d₃ hi₃ => ?_)
    have hx₃ := hx₁.mono (hi₂.rely.trans hi₃.rely)
    refine wp_seq _ (wp_markDecided hC hr haside
      fun entry d₄ d₅ h₄ hd₄ hentry het hi₅ => ?_)
    refine wp_seq _ (wp_saveApplication hC (hr.append _) ?_ fun snapshotId d₆ hi₆ => ?_)
    · intro d' row hi hrow hv
      exact (hx₃.mono (h₄.trans hi₅.rely)).sameRow (application?_view_decided haside · _) hi hid
        hrow hv
    refine wp_seq _ (wp_recordAndCommit hC ((hr.append _).append _) hi₆.now
      fun recording d₇ hi₇ hrec => ?_)
    simp only [List.cons_append, List.nil_append] at hi₇ ⊢
    have hcur := (hx₃.mono (h₄.trans (hi₅.rely.trans (hi₆.rely.trans hi₇.rely)))).saved hi₇.inv
      hi₇.granted (fun w hw => List.mem_cons_of_mem _ (List.mem_cons_of_mem _
        (List.mem_append_left _ hw))) hid rfl
    have hcur₄ := (hx₃.mono h₄).between (hi₅.rely.trans (hi₆.rely.trans hi₇.rely)) hcur
    have hreview : x.review = some entry := (caseFile?_review hcur₄).symm.trans hentry
    have hea := ((reviewQueueEntry?_iff hd₄.wellFormed.keys).1 hentry).2
    have hmoves : MovesCase d₇ ((Command.applyReviewDecision c).reservation reservedAt ::
        ([decidedWrite c.tenantId entry c.decision.value c.reason c.reviewerId decidedAt] ++
          saveWrites c.tenantId x.row (x.row.moved c.decision c.reason at' none) snapshotId ++
          recordingWrites c.tenantId recording)) c.applicationId x _ :=
      movesCase_decide ht hi₇.inv hcur hreview het hea
        (.decide c.decision c.reason c.reviewerId at' decidedAt entry hd hlegal hreview) hrec
    have hplain : ∀ w ∈ [decidedWrite c.tenantId entry c.decision.value c.reason c.reviewerId
        decidedAt] ++ saveWrites c.tenantId x.row (x.row.moved c.decision c.reason at' none)
          snapshotId, w.isPlain = true := by
      intro w hw
      rcases List.mem_append.1 hw with hw | hw
      · exact List.mem_singleton.1 hw ▸ rfl
      · exact saveWrites_plain w hw
    obtain ⟨hcommits, hreturns⟩ := Command.commits_of_moves (hi₇.trans (hi₁.rely.trans
      (hi₂.rely.trans (hi₃.rely.trans (h₄.trans (hi₅.rely.trans hi₆.rely)))))) hrec hplain rfl ht
      (.decide c x at' decidedAt entry hd hreview) hmoves
    exact ⟨hcommits, hreturns, _, caseFile?_row hmoves.after, rfl, rfl⟩
  · rw [applyReviewDecision, if_pos hd]
    exact ⟨c, rfl, hd⟩

theorem applyReviewDecision_verified (c : ApplyReviewDecisionCommand) (d₀ : Database) :
    casework.wp ((Command.applyReviewDecision c).contract d₀) (applyReviewDecision c)
      (fun r _ d => (Command.applyReviewDecision c).Returns d₀ r d) [] d₀ :=
  wp_mono _ (fun _ _ _ h => h.1) (applyReviewDecision_returns c d₀)

/-! ### Creation -/

theorem quiet_newApplicantId {writes : Write → Prop} : newApplicantId.Quiet writes := by
  refine Prog.Inside.bind (quiet_ask rfl) fun id => ?_
  cases ApplicantId.of? (Uuid4.value id) with
  | none => rfl
  | some a => trivial

theorem Applicant.of_error {applicantId : ApplicantId} {t : TenantId}
    {givenName familyName email : String} {dateOfBirth : Date} {e : Error}
    (h : Applicant.of applicantId t givenName familyName dateOfBirth email = .error e) :
    e.isOrdinary = true := by
  unfold Applicant.of at h
  split at h
  · split at h
    · split at h <;> cases h
      rfl
    · cases h
      rfl
  · cases h
    rfl

theorem Application.create_error {a : ApplicationId} {t : TenantId} {applicantId : ApplicantId}
    {product : Product} {amount : Money} {termMonths : ℤ} {at' : DateTime} {e : Error}
    (h : Application.create a t applicantId product amount termMonths at' = .error e) :
    e.isOrdinary = true := by
  unfold Application.create at h
  split at h
  · cases h
    rfl
  · split at h <;> cases h
    rfl

/-- A new id has no colon. -/
theorem wp_newApplicationId {C : HandlerContract} {k : Key} (hC : Running C k) {ws : List Write}
    (hr : Reserved k ws) {d : Database} {Q : ApplicationId → List Write → Database → Prop}
    (h : ∀ a d', casework.Interf ws d d' → ColonFree a.value → Q a ws d') :
    casework.wp C newApplicationId Q ws d := by
  refine wp_seq _ (wp_newId hC fun id d' hi => ?_)
  cases ha : ApplicationId.of? id.value with
  | none => exact wp_raise hC hr hi.now rfl
  | some a => exact h a d' hi (ApplicationId.of?_value ha ▸ id.colonFree)

/-- An application is inserted, with its first snapshot. -/
theorem wp_addApplication {C : HandlerContract} {k : Key} (hC : Running C k) {ws : List Write}
    (hr : Reserved k ws) {d : Database} {t : TenantId} {application : Application}
    {Q : Unit → List Write → Database → Prop}
    (h : ∀ (snapshotId : String) d', casework.Interf (ws ++
        [⟨t, .insert (.application (applicationToRow application))⟩,
         ⟨t, .insert (.applicationVersion (versionSnapshotRow application snapshotId))⟩]) d d' →
      Q () (ws ++ [⟨t, .insert (.application (applicationToRow application))⟩,
        ⟨t, .insert (.applicationVersion (versionSnapshotRow application snapshotId))⟩]) d') :
    casework.wp C (addApplication t application) Q ws d := by
  refine wp_seq _ (wp_newId hC fun snapshotId d₁ hi₁ => ?_)
  intro d₂ hi₂
  refine ⟨fun hf => ?_, fun f _ => ?_⟩
  · have hg := (postgres.granted_snoc ws _ d₂).2 ⟨hi₂.granted, hf⟩
    intro d₃ hi₃
    refine ⟨fun hf' => ?_, fun f _ => ?_⟩
    · have hg' := (postgres.granted_snoc _ _ d₃).2 ⟨hi₃.granted, hf'⟩
      change Q () (ws ++ [_] ++ [_]) d₃
      rw [List.append_assoc] at hg' ⊢
      exact h snapshotId.value d₃ ⟨hi₃.inv, hi₁.rely.trans (hi₂.rely.trans hi₃.rely), hg'⟩
    · cases f <;> exact hC.raises _ d₃ rfl ((hr.append _).free hi₃.granted)
  · cases f <;> exact hC.raises _ d₂ rfl (hr.free hi₂.granted)

theorem createApplication_verified (c : CreateApplicationCommand) (d₀ : Database) :
    casework.wp ((Command.createApplication c).contract d₀) (createApplication c)
      (fun r _ d => (Command.createApplication c).Returns d₀ r d) [] d₀ := by
  have hC := (Command.createApplication c).running d₀
  refine wp_reserve (c := .createApplication c) fun reservedAt d₁ hi₁ => ?_
  have hr := (Command.createApplication c).reserved reservedAt []
  refine wp_seq _ (wp_reads hC hr hi₁.now (quiet_requireProduct _ _) fun product d₂ hi₂ => ?_)
  cases haccepts : product.accepts c.requestedAmount c.requestedTermMonths with
  | false => exact wp_raise hC hr hi₂.now rfl
  | true =>
      refine wp_seq _ (wp_reads hC hr hi₂.now quiet_newApplicantId fun applicantId d₃ hi₃ => ?_)
      refine wp_seq _ (wp_ofExcept hC hr hi₃.now (fun _ => Applicant.of_error)
        fun applicant _ => ?_)
      refine wp_seq _ (wp_seq _ (wp_now hC fun createdAt d₄ hi₄ => ?_))
      refine wp_execute hC hr fun d₅ hi₅ => ?_
      refine wp_seq _ (wp_newApplicationId hC (hr.append _) fun a d₆ hi₆ hfree => ?_)
      refine wp_seq _ (wp_now hC fun at' d₇ hi₇ => ?_)
      refine wp_seq _ (wp_ofExcept hC (hr.append _) hi₇.now (fun _ => Application.create_error)
        fun application happ => ?_)
      refine wp_seq _ (wp_addApplication hC (hr.append _) fun snapshotId d₈ hi₈ => ?_)
      refine wp_seq _ (wp_recordAndCommit hC ((hr.append _).append _) hi₈.now
        fun recording d₉ hi₉ hrec => ?_)
      have hsince := hi₁.rely.trans (hi₂.rely.trans (hi₃.rely.trans (hi₄.rely.trans
        (hi₅.rely.trans (hi₆.rely.trans (hi₇.rely.trans hi₈.rely))))))
      obtain ⟨hid, ht, -⟩ := Application.create_ok happ
      have hno : d₉.has (.application a) = false :=
        hid ▸ absent_of_granted hi₉.granted (List.mem_append_left _ (List.mem_append_right _
          List.mem_cons_self)) (by simp [Statement.absent, Row.keys, applicationToRow])
      have hcase : CreatesCase d₉ ((Command.createApplication c).reservation reservedAt ::
          (createWrites c.tenantId applicant createdAt application snapshotId ++
            recordingWrites c.tenantId recording)) a _ :=
        createsCase hi₉.inv happ hfree hrec hno
      refine ⟨⟨hsince.trans hi₉.rely, ⟨reservedAt, createWrites c.tenantId applicant createdAt application
        snapshotId,        application.pendingEvents, recording, rfl, hrec, ?_⟩, a, _, hcase, ht⟩,
        Command.key_free (hi₉.trans hsince), Command.has_key, trivial⟩
      intro w hw
      simp only [createWrites, List.mem_cons, List.not_mem_nil, or_false] at hw
      rcases hw with rfl | rfl | rfl <;> rfl

end FinAssist
