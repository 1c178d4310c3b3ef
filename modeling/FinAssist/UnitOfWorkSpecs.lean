/-
**What the unit of work promises.**

One rule for each function of `FinAssist/UnitOfWork.lean`, for use inside a transaction that has
reserved its key: what has been written when it returns, and what is known then, whatever other
transactions committed meanwhile.  The handlers are judged by these rules alone.

Main definitions:

* `FinAssist.Running` — a contract that lets an open transaction ask and fail as it likes;
* `FinAssist.Reserved` — a transaction has reserved its key;
* `FinAssist.Seen` — a case was read at some time between two databases.

Main results:

* `FinAssist.wp_requireReservation` — **a key is reserved, or it was taken**;
* `FinAssist.wp_requireApplication`, `FinAssist.wp_saveApplication` — what is read and saved;
* `FinAssist.wp_recordDomainEvents` — what is recorded.
-/

import FinAssist.Transactions
import FinAssist.Activities

set_option relaxedAutoImplicit false
set_option autoImplicit false

namespace FinAssist

open ReadCommitted ApplicationStatus Discipline

/-! ### Open transactions -/

/-- The questions that have no consequence outside. -/
def Ask.isOrdinary : Ask → Bool
  | .startApplicationWorkflow .. => false
  | .signalReviewDecision .. => false
  | _ => true

/-- The exceptions that are nothing special: neither a key that is taken, nor an illegal
transition, nor a decision that is none. -/
def Error.isOrdinary : Error → Bool
  | .illegalStateTransition .. => false
  | .duplicateRequest .. => false
  | .invalidApplicationData _ => false
  | _ => true

theorem Error.isOrdinary_of_isExternal {e : Error} (h : e.isExternal = true) :
    e.isOrdinary = true := by
  cases e <;> first | rfl | cases h

abbrev HandlerContract := Contract Database Write Ask Error

/-- **A contract of a transaction under way**: while the key is not taken, which is so until the
transaction commits, it may ask any ordinary question and fail in any ordinary way. -/
structure Running (C : HandlerContract) (k : Key) : Prop where
  asks : ∀ q d, q.isOrdinary = true → C.asks q d
  raises : ∀ e d, e.isOrdinary = true → d.has k = false → C.raises e d

/-- The transaction has reserved the key. -/
def Reserved (k : Key) (ws : List Write) : Prop := ∃ w ∈ ws, k ∈ w.statement.absent

theorem Reserved.append {k : Key} {ws : List Write} (h : Reserved k ws) (vs : List Write) :
    Reserved k (ws ++ vs) := by
  obtain ⟨w, hw, hk⟩ := h
  exact ⟨w, List.mem_append_left vs hw, hk⟩

/-- A key that an open transaction has reserved is not taken. -/
theorem Reserved.free {k : Key} {ws : List Write} (h : Reserved k ws) {d : Database}
    (hg : postgres.Granted d ws) : d.has k = false := by
  obtain ⟨w, hw, hk⟩ := h
  exact absent_of_granted hg hw hk

theorem reserved_reserveWrite (t : TenantId) (operationName key : String) (reservedAt : DateTime)
    (rest : List Write) : Reserved (.idempotencyKey t operationName key)
      (reserveWrite t operationName key reservedAt :: rest) :=
  ⟨_, List.mem_cons_self, List.mem_singleton.2 rfl⟩

/-! ### Cases that were read -/

/-- **The case was read** at some time after `d₀` and before `d`. -/
structure Seen (d₀ d : Database) (a : ApplicationId) (x : CaseFile) : Prop where
  since : ∀ x₀, d₀.caseFile? a = some x₀ → x₀.Steps x
  reached : x.Reached
  until' : ∃ x', d.caseFile? a = some x' ∧ x.Steps x'

theorem Seen.now {d₀ d : Database} (h : Onward d₀ d) (hd : InOrder d) {a : ApplicationId}
    {x : CaseFile} (hx : d.caseFile? a = some x) : Seen d₀ d a x := by
  refine ⟨?_, hd.reached hx, x, hx, .refl⟩
  intro x₀ hx₀
  obtain ⟨x', hx', hs⟩ := h.cases a x₀ hx₀
  rw [hx] at hx'
  cases hx'
  exact hs

theorem Seen.mono {d₀ d d' : Database} {a : ApplicationId} {x : CaseFile} (h : Seen d₀ d a x)
    (hr : Onward d d') : Seen d₀ d' a x := by
  obtain ⟨x', hx', hs⟩ := h.until'
  obtain ⟨x'', hx'', hs'⟩ := hr.cases a x' hx'
  exact ⟨h.since, h.reached, x'', hx'', hs.trans hs'⟩

/-- **A case whose next version can be inserted is the current one.** -/
theorem Seen.current {d₀ d : Database} {a : ApplicationId} {x : CaseFile} (h : Seen d₀ d a x)
    (hd : InOrder d) (hno : d.has (.applicationVersion a (x.row.version + 1)) = false) :
    d.caseFile? a = some x := by
  obtain ⟨x', hx', hs⟩ := h.until'
  rw [hd.current h.reached hx' hs hno] at hx'
  exact hx'

/-! ### Single statements -/

section Rules

variable {C : HandlerContract} {k : Key} {ws : List Write} {d : Database} {α : Type}

theorem wp_ask (hC : Running C k) {q : Ask} (hq : q.isOrdinary = true)
    {Q : Answer q → List Write → Database → Prop}
    (h : ∀ a d', casework.Interf ws d d' → Q a ws d') :
    casework.wp C (Handler.ask q) Q ws d :=
  fun d' hi => ⟨hC.asks q d' hq, fun a => h a d' hi⟩

theorem wp_now (hC : Running C k) {Q : DateTime → List Write → Database → Prop}
    (h : ∀ at' d', casework.Interf ws d d' → Q at' ws d') : casework.wp C now Q ws d :=
  wp_ask hC rfl h

theorem wp_newId (hC : Running C k) {Q : Uuid4 → List Write → Database → Prop}
    (h : ∀ id d', casework.Interf ws d d' → Q id ws d') : casework.wp C newId Q ws d :=
  wp_ask hC rfl h

theorem wp_select {t : TenantId} {f : Database → α} {Q : α → List Write → Database → Prop}
    (h : ∀ d', casework.Interf ws d d' → Q (f ((postgres.view d' ws).visible t)) ws d') :
    casework.wp C (select t f) Q ws d :=
  fun d' hi => h d' hi

/-- A statement goes through, or the transaction fails. -/
theorem wp_execute (hC : Running C k) (hr : Reserved k ws) {t : TenantId} {s : Statement}
    {Q : Unit → List Write → Database → Prop}
    (h : ∀ d', casework.Interf (ws ++ [⟨t, s⟩]) d d' → Q () (ws ++ [⟨t, s⟩]) d') :
    casework.wp C (execute t s) Q ws d := by
  intro d' hi
  refine ⟨fun hf => ?_, fun f _ => hC.raises _ d' rfl (hr.free hi.granted)⟩
  exact h d' ⟨hi.inv, hi.rely, (postgres.granted_snoc ws _ d').2 ⟨hi.granted, hf⟩⟩

theorem wp_insertAll (hC : Running C k) (t : TenantId) (rows : List Row) :
    ∀ {ws : List Write} {d : Database} {Q : Unit → List Write → Database → Prop},
      Reserved k ws → casework.Interf ws d d →
      (∀ d', casework.Interf (ws ++ rows.map fun r => ⟨t, .insert r⟩) d d' →
        Q () (ws ++ rows.map fun r => ⟨t, .insert r⟩) d') →
      casework.wp C (insertAll t rows) Q ws d := by
  induction rows with
  | nil =>
      intro ws d Q _ hi h
      have hend := h d (by simpa using hi)
      rw [List.map_nil, List.append_nil] at hend
      exact hend
  | cons row rows ih =>
      intro ws d Q hr _ h
      refine wp_seq _ (wp_execute hC hr fun d' hi => ?_)
      refine ih (hr.append _) hi.now fun d'' hi' => ?_
      rw [List.append_assoc] at hi' ⊢
      exact h d'' (hi'.trans hi.rely)

theorem wp_ofExcept (hC : Running C k) (hr : Reserved k ws) {r : Except Error α}
    {Q : α → List Write → Database → Prop} (hi : casework.Interf ws d d)
    (he : ∀ e, r = .error e → e.isOrdinary = true) (h : ∀ a, r = .ok a → Q a ws d) :
    casework.wp C (Handler.ofExcept r) Q ws d := by
  cases r with
  | ok a => exact h a rfl
  | error e => exact hC.raises e d (he e rfl) (hr.free hi.granted)

theorem wp_ofPort (hC : Running C k) (hr : Reserved k ws) {r : Except PortError α}
    {Q : α → List Write → Database → Prop} (hi : casework.Interf ws d d)
    (h : ∀ a, r = .ok a → Q a ws d) : casework.wp C (Handler.ofPort r) Q ws d := by
  cases r with
  | ok a => exact h a rfl
  | error e =>
      exact hC.raises e.val d (Error.isOrdinary_of_isExternal e.property) (hr.free hi.granted)

theorem wp_raise (hC : Running C k) (hr : Reserved k ws) {e : Error}
    {Q : α → List Write → Database → Prop} (hi : casework.Interf ws d d)
    (he : e.isOrdinary = true) : casework.wp C (Handler.raise e : Handler α) Q ws d :=
  hC.raises e d he (hr.free hi.granted)

/-! ### The reservation -/

/-- A key reservation fails only because the key is taken. -/
theorem fault_reserveWrite {d : Database} {t : TenantId} {operationName key : String}
    {reservedAt : DateTime} {f : Fault}
    (h : postgres.fault d (reserveWrite t operationName key reservedAt) = some f) :
    f = .integrityError ∧ d.has (.idempotencyKey t operationName key) = true := by
  cases hd : d.has (.idempotencyKey t operationName key) <;>
    simp_all [postgres, Database.fault, reserveWrite, Statement.staticFault, Row.visibleTo,
      Row.tenantId?, Row.check, Statement.absent, Row.keys, Statement.present, Row.references]

/-- **A key is reserved, or it was taken.** -/
theorem wp_requireReservation {t : TenantId} {operationName key : String}
    (hC : Running C (.idempotencyKey t operationName key))
    (hdup : ∀ d', d'.has (.idempotencyKey t operationName key) = true →
      C.raises (.duplicateRequest operationName key) d')
    {Q : Unit → List Write → Database → Prop}
    (h : ∀ reservedAt d', casework.Interf [reserveWrite t operationName key reservedAt] d d' →
      Q () [reserveWrite t operationName key reservedAt] d') :
    casework.wp C (requireReservation t key operationName) Q [] d := by
  refine wp_seq _ (wp_seq _ (wp_now hC fun reservedAt d₁ hi₁ => ?_))
  intro d₂ hi₂
  refine ⟨fun hf => ?_, fun f hf => ?_⟩
  · refine h reservedAt d₂ ⟨hi₂.inv, hi₁.rely.trans hi₂.rely, ?_⟩
    exact (postgres.granted_snoc [] _ d₂).2 ⟨trivial, hf⟩
  · obtain ⟨rfl, htaken⟩ := fault_reserveWrite hf
    exact hdup d₂ htaken

/-! ### Applications -/

/-- What a transaction that wrote nothing about cases sees of an application. -/
theorem application?_view_aside {ws : List Write} (hws : ∀ w ∈ ws, w.Aside) (d : Database)
    (a : ApplicationId) : (postgres.view d ws).application? a = d.application? a := by
  have h := slice_view ws d a
  rw [foldl_aside hws] at h
  exact congrArg Slice.row h

/-- **The application that is read is the one of a case**, of the tenant. -/
theorem wp_findApplication {C : HandlerContract} {ws : List Write} {d : Database}
    (hws : ∀ w ∈ ws, w.Aside) {t : TenantId} {a : ApplicationId}
    {Q : ApplicationRow → List Write → Database → Prop}
    (hnone : ∀ d', postgres.Granted d' ws → C.raises (.applicationNotFound a) d')
    (h : ∀ x d', casework.Interf ws d d' → d'.caseFile? a = some x → x.row.tenantId = t →
      Q x.row ws d') :
    casework.wp C (requireApplication t a) Q ws d := by
  refine wp_seq _ (wp_seq _ (wp_select fun d' hi => ?_))
  have hkeys := (hi.inv.wellFormed.view hi.granted).keys
  cases hrow : ((postgres.view d' ws).visible t).application? a with
  | none => exact hnone d' hi.granted
  | some row =>
      obtain ⟨hview, ht⟩ := (application?_visible hkeys).1 hrow
      rw [application?_view_aside hws] at hview
      obtain ⟨x, hx, rfl⟩ := caseFile?_of_row hview
      simp only [Option.filter, ht, decide_true, if_true]
      exact h x d' hi hx ht

/-- The same, in a transaction under way. -/
theorem wp_requireApplication (hC : Running C k) (hr : Reserved k ws) (hws : ∀ w ∈ ws, w.Aside)
    {t : TenantId} {a : ApplicationId} {Q : ApplicationRow → List Write → Database → Prop}
    (h : ∀ x d', casework.Interf ws d d' → d'.caseFile? a = some x → x.row.tenantId = t →
      Q x.row ws d') :
    casework.wp C (requireApplication t a) Q ws d :=
  wp_findApplication hws (fun d' hg => hC.raises (.applicationNotFound a) d' rfl (hr.free hg)) h

/-- **A save**: what is found passes the check of the version only if it is the row that was
loaded. -/
theorem wp_saveApplication (hC : Running C k) (hr : Reserved k ws) {t : TenantId}
    {cached : ApplicationRow} {application : Application}
    {Q : ApplicationRow → List Write → Database → Prop}
    (hsame : ∀ d' row, casework.Interf ws d d' →
      ((postgres.view d' ws).visible t).application? application.applicationId = some row →
      row.version + 1 = application.version → row = cached)
    (h : ∀ snapshotId d',
      casework.Interf (ws ++ saveWrites t cached application snapshotId) d d' →
      Q (saveColumns cached application) (ws ++ saveWrites t cached application snapshotId) d') :
    casework.wp C (saveApplication t cached application) Q ws d := by
  refine wp_seq _ (wp_select fun d₁ hi₁ => ?_)
  refine wp_seq _ (wp_ask hC rfl fun hit d₂ hi₂ => ?_)
  cases hrow : ((postgres.view d₁ ws).visible t).application? application.applicationId with
  | none => exact wp_raise hC hr hi₂.now rfl
  | some row =>
      have hexisting : (cond hit cached row).version + 1 = application.version →
          cond hit cached row = cached := by
        cases hit with
        | true => exact fun _ => rfl
        | false => exact hsame d₁ row hi₁ hrow
      simp only [Option.map_some]
      by_cases hv : (cond hit cached row).version + 1 = application.version
      · rw [if_neg (not_not.2 hv), hexisting hv]
        refine wp_seq _ (wp_newId hC fun snapshotId d₃ hi₃ => ?_)
        refine wp_seq _ (wp_execute hC hr fun d₄ hi₄ => ?_)
        refine wp_seq _ (wp_execute hC (hr.append _) fun d₅ hi₅ => ?_)
        rw [List.append_assoc] at hi₅ ⊢
        exact h snapshotId.value d₅ (hi₅.trans
          (hi₁.rely.trans (hi₂.rely.trans (hi₃.rely.trans hi₄.rely))))
      · rw [if_pos hv]
        exact wp_raise hC hr hi₂.now rfl

/-! ### Events -/

theorem wp_recordEvents (hC : Running C k) (t : TenantId) (events : List DomainEvent) :
    ∀ {ws : List Write} {d : Database} {done : List DomainEvent} {recording : Recording}
      {Q : Recording → List Write → Database → Prop},
      casework.Interf ws d d → Recorded done recording →
      (∀ recording' d', casework.Interf ws d d' → Recorded (done ++ events) recording' →
        Q recording' ws d') →
      casework.wp C (recordEvents t events recording) Q ws d := by
  induction events with
  | nil =>
      intro ws d done recording Q hi hrec h
      exact h recording d hi (by simpa using hrec)
  | cons event events ih =>
      intro ws d done recording Q _ hrec h
      have hnext : ∀ recording' d', casework.Interf ws d d' →
          Recorded (done ++ [event]) recording' →
          casework.wp C (recordEvents t events recording') Q ws d' := by
        intro recording' d' hi' hrec'
        refine ih hi'.now hrec' fun recording'' d'' hi'' hrec'' => ?_
        exact h recording'' d'' (hi''.trans hi'.rely) (by simpa using hrec'')
      refine wp_seq _ (wp_seq _ (wp_newId hC fun eventId d₁ hi₁ => ?_))
      refine wp_seq _ (wp_now hC fun at' d₂ hi₂ => ?_)
      cases hc : recording.checkpoint with
      | some c =>
          exact hnext _ d₂ (hi₂.trans hi₁.rely) (hrec.again event eventId.value at' c hc)
      | none =>
          refine wp_seq _ (wp_select fun d₃ hi₃ => ?_)
          refine hnext _ d₃ (hi₃.trans (hi₁.rely.trans hi₂.rely)) ?_
          cases hrow : ((postgres.view d₃ ws).visible t).auditHash? event.tenantId with
          | none => exact hrec.first event eventId.value at' hc
          | some row =>
              have ht : row.tenantId = event.tenantId := by simpa using List.find?_some hrow
              exact hrec.load event eventId.value at' row hc ht

/-- **What is recorded.** -/
theorem wp_recordDomainEvents (hC : Running C k) (hr : Reserved k ws)
    (hi : casework.Interf ws d d) {t : TenantId} {events : List DomainEvent}
    {Q : Unit → List Write → Database → Prop}
    (h : ∀ recording d', casework.Interf (ws ++ recordingWrites t recording) d d' →
      Recorded events recording → Q () (ws ++ recordingWrites t recording) d') :
    casework.wp C (recordDomainEvents t events) Q ws d := by
  refine wp_seq _ (wp_recordEvents hC t events hi .empty fun recording d₁ hi₁ hrec => ?_)
  rw [List.nil_append] at hrec
  refine wp_seq _ (wp_insertAll hC t _ hr hi₁.now fun d₂ hi₂ => ?_)
  have hr₂ := hr.append ((recording.audits.map .auditEvent).map fun r => ⟨t, .insert r⟩)
  have hrest : ∀ vs d₃, vs = (recording.checkpoint.map fun c =>
        (⟨t, .updateAuditHash c.1 c.2⟩ : Write)).toList →
      casework.Interf (ws ++ (recording.audits.map Row.auditEvent).map (fun r =>
        ⟨t, .insert r⟩) ++ vs) d₁ d₃ →
      casework.wp C (do
        insertAll t (recording.newHashes.map .auditHash)
        insertAll t (recording.outbox.map .outboxEvent)) Q
        (ws ++ (recording.audits.map Row.auditEvent).map (fun r => ⟨t, .insert r⟩) ++ vs) d₃ := by
    rintro vs d₃ rfl hi₃
    refine wp_seq _ (wp_insertAll hC t _ (hr₂.append _) hi₃.now fun d₄ hi₄ => ?_)
    refine wp_insertAll hC t _ ((hr₂.append _).append _) hi₄.now fun d₅ hi₅ => ?_
    have heq : ws ++ (recording.audits.map Row.auditEvent).map (fun r => ⟨t, .insert r⟩) ++
        (recording.checkpoint.map fun c => (⟨t, .updateAuditHash c.1 c.2⟩ : Write)).toList ++
        (recording.newHashes.map Row.auditHash).map (fun r => ⟨t, .insert r⟩) ++
        (recording.outbox.map Row.outboxEvent).map (fun r => ⟨t, .insert r⟩) =
          ws ++ recordingWrites t recording := by
      simp [recordingWrites, List.map_map, Function.comp_def]
    rw [heq] at hi₅ ⊢
    exact h recording d₅ (hi₅.trans (hi₁.rely.trans (hi₃.rely.trans hi₄.rely))) hrec
  cases hc : recording.checkpoint with
  | none =>
      have hend := hrest [] d₂ (by simp [hc]) (by simpa using hi₂)
      rw [List.append_nil] at hend
      exact hend
  | some c =>
      refine wp_seq _ (wp_execute hC hr₂ fun d₃ hi₃ => ?_)
      exact hrest _ d₃ (by simp [hc]) (hi₃.trans hi₂.rely)

end Rules

end FinAssist
