/-
**What pieces of a handler see and write.**

The rules of `FinAssist/CommittedViews.lean` for the pieces that the handlers are made of: what is known
of the rows that they read, if something is known of all committed rows, and what they have written when
they are through.

Main definitions:

* `FinAssist.Write.IsRecording` — a statement of the recording of events.

Main results:

* `FinAssist.given_requireApplication`, `FinAssist.given_requireProduct` — what is read is among the rows;
* `FinAssist.given_saveApplication` — what a save writes;
* `FinAssist.given_recordAndCommit` — what is committed.
-/

import FinAssist.CommittedViews
import FinAssist.FreshRuns

set_option relaxedAutoImplicit false
set_option autoImplicit false

namespace FinAssist

open ReadCommitted

/-- A statement of the recording of events. -/
def Write.IsRecording (w : Write) : Prop :=
  match w.statement with
  | .insert (.outboxEvent _) => True
  | .insert (.auditEvent _) => True
  | .insert (.auditHash _) => True
  | .updateAuditHash _ _ => True
  | _ => False

section Given

variable {V : Database → Prop} {C : List Write → Prop} {α : Type} {t : TenantId} {ws : List Write}

theorem given_raise {e : Error} {Q : α → List Write → Prop} :
    (Handler.raise e : Handler α).Given postgres V C Q ws := Prog.given_raise

theorem given_pure {a : α} {Q : α → List Write → Prop} (h : Q a ws) :
    (pure a : Handler α).Given postgres V C Q ws := Prog.given_ret h

theorem given_select {f : Database → α} {Q : α → List Write → Prop}
    (h : ∀ d, V d → Q (f ((postgres.view d ws).visible t)) ws) :
    (select t f).Given postgres V C Q ws :=
  Prog.given_query fun d hd => Prog.given_ret (h d hd)

theorem given_now {Q : DateTime → List Write → Prop} (h : ∀ at', Q at' ws) :
    now.Given postgres V C Q ws :=
  Prog.given_ask fun at' => Prog.given_ret (h at')

theorem given_newId {Q : Uuid4 → List Write → Prop} (h : ∀ id, Q id ws) :
    newId.Given postgres V C Q ws :=
  Prog.given_ask fun id => Prog.given_ret (h id)

theorem given_execute {st : Statement} {Q : Unit → List Write → Prop}
    (h : Q () (ws ++ [⟨t, st⟩])) : (execute t st).Given postgres V C Q ws :=
  Prog.given_exec (Prog.given_ret h) fun _ => Prog.given_raise

theorem given_ofExcept {r : Except Error α} {Q : α → List Write → Prop}
    (h : ∀ a, r = .ok a → Q a ws) : (Handler.ofExcept r).Given postgres V C Q ws := by
  cases r with
  | ok a => exact Prog.given_ret (h a rfl)
  | error e => exact Prog.given_raise

theorem given_requireReservation {operationName key : String} {Q : Unit → List Write → Prop}
    (h : ∀ reservedAt, Q () (ws ++ [reserveWrite t operationName key reservedAt])) :
    (requireReservation t key operationName).Given postgres V C Q ws := by
  refine Prog.given_bind (Prog.given_bind (given_now fun reservedAt => ?_))
  refine Prog.given_exec (Prog.given_ret (given_pure (h reservedAt))) fun f => ?_
  cases f with
  | integrityError => exact Prog.given_ret given_raise
  | _ => exact Prog.given_raise

theorem given_requireApplication {a : ApplicationId} {Q : ApplicationRow → List Write → Prop}
    (h : ∀ d row, V d → row ∈ (postgres.view d ws).applications → row.applicationId = a →
      row.tenantId = t → Q row ws) :
    (requireApplication t a).Given postgres V C Q ws := by
  refine Prog.given_bind (Prog.given_bind (given_select fun d hd => given_pure ?_))
  cases hfound : ((postgres.view d ws).visible t).application? a with
  | none => exact given_raise
  | some row =>
      by_cases ht : row.tenantId = t
      · rw [show Option.filter (fun r => decide (r.tenantId = t)) (some row) = some row by simp [ht]]
        obtain ⟨r, hr, hrow⟩ := List.mem_filterMap.1 (List.mem_of_find?_eq_some hfound)
        have hmem : row ∈ (postgres.view d ws).applications :=
          List.mem_filterMap.2 ⟨r, (List.mem_filter.1 hr).1, hrow⟩
        have hid : row.applicationId = a := by simpa using List.find?_some hfound
        exact given_pure (h d row hd hmem hid ht)
      · rw [show Option.filter (fun r => decide (r.tenantId = t)) (some row) = none by simp [ht]]
        exact given_raise

theorem given_requireProduct {p : ProductId} {Q : Product → List Write → Prop}
    (h : ∀ d row product, V d → row ∈ (postgres.view d ws).products → row.productId = p →
      row.tenantId = t → rowToProduct row = .ok product → Q product ws) :
    (requireProduct t p).Given postgres V C Q ws := by
  refine Prog.given_bind (given_select fun d hd => ?_)
  cases hfound : ((postgres.view d ws).visible t).products.find? fun r => r.productId = p with
  | none => exact given_raise
  | some row =>
      obtain ⟨r, hr, hrow⟩ := List.mem_filterMap.1 (List.mem_of_find?_eq_some hfound)
      obtain ⟨hr, hvisible⟩ := List.mem_filter.1 hr
      have hmem : row ∈ (postgres.view d ws).products := List.mem_filterMap.2 ⟨r, hr, hrow⟩
      have ht : row.tenantId = t := by
        cases r <;> simp only [Row.product?, Option.some.injEq, reduceCtorEq] at hrow
        simpa [Row.visibleTo, Row.tenantId?, hrow] using hvisible
      have hid : row.productId = p := by simpa using List.find?_some hfound
      exact given_ofExcept fun product hproduct => h d row product hd hmem hid ht hproduct

theorem given_transition {application : Application} {s : ApplicationStatus} {reason : String}
    {Q : Application → List Write → Prop} (h : ∀ at', Q (application.moved s reason at') ws) :
    (transition application s reason).Given postgres V C Q ws := by
  refine Prog.given_bind (given_now fun at' => given_ofExcept fun moved hm => ?_)
  obtain ⟨-, rfl⟩ := Application.transitionTo_ok hm
  exact h at'

theorem given_saveApplication {cached : ApplicationRow} {application : Application}
    {Q : ApplicationRow → List Write → Prop}
    (h : ∀ existing snapshotId, Q (saveColumns existing application)
      (ws ++ saveWrites t existing application snapshotId)) :
    (saveApplication t cached application).Given postgres V C Q ws := by
  refine Prog.given_bind (given_select fun d _ => ?_)
  refine Prog.given_bind (Prog.given_ask fun hit => Prog.given_ret ?_)
  split
  · exact given_raise
  next existing _ =>
    split
    · exact given_raise
    · refine Prog.given_bind (given_newId fun snapshotId => ?_)
      refine Prog.given_bind (given_execute (Prog.given_bind (given_execute (given_pure ?_))))
      have hsaved := h existing snapshotId.value
      rw [saveWrites, ← List.singleton_append, ← List.append_assoc] at hsaved
      exact hsaved

theorem given_newApplicantId {Q : ApplicantId → List Write → Prop} (h : ∀ a, Q a ws) :
    newApplicantId.Given postgres V C Q ws := by
  refine Prog.given_bind (given_newId fun id => ?_)
  cases ApplicantId.of? id.value with
  | none => exact given_raise
  | some a => exact given_pure (h a)

theorem given_newApplicationId {Q : ApplicationId → List Write → Prop} (h : ∀ a, Q a ws) :
    newApplicationId.Given postgres V C Q ws := by
  refine Prog.given_bind (given_newId fun id => ?_)
  cases ApplicationId.of? id.value with
  | none => exact given_raise
  | some a => exact given_pure (h a)

theorem given_addApplicant {applicant : Applicant} {Q : Unit → List Write → Prop}
    (h : ∀ row : ApplicantRow, Q () (ws ++ [⟨t, .insert (.applicant row)⟩])) :
    (addApplicant t applicant).Given postgres V C Q ws :=
  Prog.given_bind (given_now fun _ => given_execute (h _))

theorem given_addApplication {application : Application} {Q : Unit → List Write → Prop}
    (h : ∀ snapshotId, Q () (ws ++ [⟨t, .insert (.application (applicationToRow application))⟩,
      ⟨t, .insert (.applicationVersion (versionSnapshotRow application snapshotId))⟩])) :
    (addApplication t application).Given postgres V C Q ws := by
  refine Prog.given_bind (given_newId fun snapshotId => ?_)
  refine Prog.given_exec (Prog.given_exec (Prog.given_ret ?_) fun f => Prog.given_raise) fun f =>
    Prog.given_raise
  have hadded := h snapshotId.value
  rw [← List.singleton_append, ← List.append_assoc] at hadded
  exact hadded

theorem inside_recordEvents :
    ∀ (events : List DomainEvent) (recording : Recording),
      (recordEvents t events recording).Inside (fun _ => True) (fun _ => True) Write.IsRecording := by
  intro events
  induction events with
  | nil => exact fun _ => trivial
  | cons event events ih =>
      intro recording
      refine Prog.Inside.bind ?_ ih
      refine Prog.Inside.bind ⟨trivial, fun _ => trivial⟩ fun eventId => ?_
      refine Prog.Inside.bind ⟨trivial, fun _ => trivial⟩ fun at' => ?_
      cases recording.checkpoint with
      | some c => trivial
      | none => exact Prog.Inside.bind (fun _ => trivial) fun _ => trivial

theorem inside_insertAll {writes : Write → Prop} :
    ∀ {rows : List Row}, (∀ r ∈ rows, writes ⟨t, .insert r⟩) →
      (insertAll t rows).Inside (fun _ => True) (fun _ => True) writes := by
  intro rows
  induction rows with
  | nil => exact fun _ => trivial
  | cons row rows ih =>
      intro h
      refine Prog.Inside.bind ⟨h row List.mem_cons_self, fun o => ?_⟩ fun _ =>
        ih fun r hr => h r (List.mem_cons_of_mem _ hr)
      cases o <;> trivial

theorem inside_recordDomainEvents (events : List DomainEvent) :
    (recordDomainEvents t events).Inside (fun _ => True) (fun _ => True) Write.IsRecording := by
  refine Prog.Inside.bind (inside_recordEvents events _) fun recording => ?_
  rw [flushRecording_eq]
  refine Prog.Inside.bind (inside_insertAll ?_) fun _ => Prog.Inside.bind ?_ fun _ =>
    Prog.Inside.bind (inside_insertAll ?_) fun _ => inside_insertAll ?_
  · intro r hr
    obtain ⟨row, -, rfl⟩ := List.mem_map.1 hr
    trivial
  · cases recording.checkpoint with
    | none => trivial
    | some c =>
        refine ⟨trivial, fun o => ?_⟩
        cases o <;> trivial
  · intro r hr
    obtain ⟨row, -, rfl⟩ := List.mem_map.1 hr
    trivial
  · intro r hr
    obtain ⟨row, -, rfl⟩ := List.mem_map.1 hr
    trivial

theorem given_recordAndCommit {application : Application} {Q : Unit → List Write → Prop}
    (hcommit : ∀ vs, (∀ w ∈ vs, w.IsRecording) → C (ws ++ vs)) (h : Q () []) :
    (recordAndCommit t application).Given postgres V C Q ws := by
  refine Prog.given_bind (Prog.given_inside (inside_recordDomainEvents _) fun _ vs hvs => ?_)
  exact Prog.given_commit (hcommit vs hvs) (Prog.given_ret h)

end Given

end FinAssist
