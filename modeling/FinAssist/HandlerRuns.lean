/-
**A handler by itself, and two runs of one handler.**

The rules of `FinAssist/Isolated.lean` for the building blocks of the handlers: what each of them
does when nothing else runs, and what a handler looks at, is answered and writes, so that it runs
to the same outcome from two databases that agree on that.

Main results:

* `FinAssist.alone_requireReservation`, `alone_requireApplication` — how every command begins;
* `FinAssist.respects_select` — a query that gives the same on related rows;
* `FinAssist.respects_execute`, `respects_insertAll` — statements that are allowed;
* `FinAssist.respects_requireReservation` — the reservation.
-/

import FinAssist.Commands
import FinAssist.Isolated
import FinAssist.UnitOfWorkSpecs

set_option relaxedAutoImplicit false
set_option autoImplicit false

namespace FinAssist

open ReadCommitted Discipline

/-! ### By itself -/

section Alone

variable {σ α : Type} {E : Environment Answer σ} {s : σ} {d : Database} {ws : List Write}

/-- The time the clock says. -/
def timeOf (E : Environment Answer σ) (s : σ) : DateTime := (E s .now).1

theorem alone_select (t : TenantId) (f : Database → α) :
    (select t f).alone postgres E s d ws =
      ⟨d, ws, s, .ok (f ((postgres.view d ws).visible t))⟩ := rfl

theorem alone_commit : Handler.commit.alone postgres E s d ws =
    ⟨postgres.view d ws, [], s, .ok ()⟩ := rfl

/-- **The reservation is made, or the key was taken.** -/
theorem alone_requireReservation (t : TenantId) (key operationName : String) :
    (requireReservation t key operationName).alone postgres E s d [] =
      if d.has (.idempotencyKey t operationName key) then
        ⟨d, [], (E s .now).2, .error (.duplicateRequest operationName key)⟩
      else ⟨d, [reserveWrite t operationName key (timeOf E s)], (E s .now).2, .ok ()⟩ := by
  have hfault : postgres.fault d (reserveWrite t operationName key (timeOf E s)) =
      if d.has (.idempotencyKey t operationName key) then some .integrityError else none := by
    cases h : d.has (.idempotencyKey t operationName key) <;>
      simp [postgres, Database.fault, reserveWrite, Statement.staticFault, Row.visibleTo,
        Row.tenantId?, Row.check, Statement.absent, Row.keys, Statement.present, Row.references, h]
  have hrun : (reserveIdempotencyKey t key operationName).alone postgres E s d [] =
      if d.has (.idempotencyKey t operationName key) then ⟨d, [], (E s .now).2, .ok false⟩
      else ⟨d, [reserveWrite t operationName key (timeOf E s)], (E s .now).2, .ok true⟩ := by
    rw [reserveIdempotencyKey, Prog.alone_bind]
    simp only [reserveWrite] at hfault
    simp only [timeOf] at hfault
    simp only [now, Handler.ask, Prog.alone, Schema.view_nil, hfault]
    by_cases h : d.has (.idempotencyKey t operationName key) = true <;> simp only [h]
    · rfl
    · rfl
  rw [requireReservation, Prog.alone_bind, hrun]
  by_cases h : d.has (.idempotencyKey t operationName key) = true
  · simp only [h, if_true]
    rfl
  · simp only [h]
    rfl

/-- Row-level security hides nothing that the query would not leave out anyway. -/
theorem filter_visible {β : Type} (π : Row → Option β) (p : β → Bool) (t : TenantId)
    (h : ∀ r b, π r = some b → p b = true → r.visibleTo t = true) (d : Database) :
    ((d.visible t).rows.filterMap π).filter p = (d.rows.filterMap π).filter p := by
  obtain ⟨rows⟩ := d
  induction rows with
  | nil => rfl
  | cons r rows ih =>
      simp only [Database.visible] at ih ⊢
      cases hπ : π r with
      | none =>
          rw [List.filterMap_cons_none hπ, ← ih, List.filter_cons]
          split
          · rw [List.filterMap_cons_none hπ]
          · rfl
      | some b =>
          rw [List.filterMap_cons_some hπ, List.filter_cons, List.filter_cons, ← ih]
          by_cases hp : p b = true
          · rw [if_pos (h r b hπ hp), List.filterMap_cons_some hπ, List.filter_cons]
          · simp only [if_neg hp]
            split
            · rw [List.filterMap_cons_some hπ, List.filter_cons, if_neg hp]
            · rfl

/-- The row of an application, as the tenant finds it. -/
def applicationRow? (t : TenantId) (a : ApplicationId) (d : Database) : Option ApplicationRow :=
  ((d.visible t).application? a).filter fun r => r.tenantId = t

/-- The row of an applicant, as the tenant finds it. -/
def applicantRow? (t : TenantId) (a : ApplicantId) (d : Database) : Option ApplicantRow :=
  ((d.visible t).applicants.find? fun r => r.applicantId = a).filter fun r => r.tenantId = t

theorem alone_requireApplication (t : TenantId) (a : ApplicationId) :
    (requireApplication t a).alone postgres E s d ws =
      match applicationRow? t a (postgres.view d ws) with
      | some row => ⟨d, ws, s, .ok row⟩
      | none => ⟨d, ws, s, .error (.applicationNotFound a)⟩ := by
  rw [requireApplication, Prog.alone_bind, getApplication, Prog.alone_bind, alone_select]
  simp only [applicationRow?, pure, Prog.alone]
  cases (((postgres.view d ws).visible t).application? a).filter fun r => r.tenantId = t <;> rfl

theorem alone_requireApplicant (t : TenantId) (a : ApplicationId) (applicantId : ApplicantId) :
    (requireApplicant t a applicantId).alone postgres E s d ws =
      match applicantRow? t applicantId (postgres.view d ws) with
      | some r =>
          ⟨d, ws, s, Applicant.of r.applicantId r.tenantId r.givenName r.familyName r.dateOfBirth
            r.email⟩
      | none => ⟨d, ws, s, .error (.applicationNotFound a)⟩ := by
  rw [requireApplicant, Prog.alone_bind, getApplicant, Prog.alone_bind, alone_select]
  simp only [applicantRow?]
  cases hr : (((postgres.view d ws).visible t).applicants.find? fun r =>
      r.applicantId = applicantId).filter fun r => r.tenantId = t with
  | none => rfl
  | some r =>
      simp only
      cases hof : Applicant.of r.applicantId r.tenantId r.givenName r.familyName r.dateOfBirth
          r.email <;> rfl

/-- A reservation changes no other table. -/
theorem filterMap_reserved {β : Type} (π : Row → Option β) (hπ : ∀ r, π (.idempotencyKey r) = none)
    (t : TenantId) (operationName key : String) (reservedAt : DateTime) :
    ((postgres.view d [reserveWrite t operationName key reservedAt]).visible t).rows.filterMap π =
      (d.visible t).rows.filterMap π := by
  have hview : (postgres.view d [reserveWrite t operationName key reservedAt]).rows =
      d.rows ++ [.idempotencyKey ⟨t, operationName, key, reservedAt⟩] := by
    have hkeep : Statement.change t (.insert (.idempotencyKey ⟨t, operationName, key, reservedAt⟩)) =
        id := funext fun r => by cases r <;> rfl
    simp [postgres, Database.apply, reserveWrite, hkeep, Statement.inserted?]
  simp only [Database.visible, hview, List.filter_append, List.filterMap_append]
  refine (congrArg _ (List.filterMap_eq_nil_iff.2 fun r hr => ?_)).trans (List.append_nil _)
  obtain rfl := List.mem_singleton.1 (List.mem_filter.1 hr).1
  exact hπ _

theorem applicationRow?_reserved (t : TenantId) (a : ApplicationId) (operationName key : String)
    (reservedAt : DateTime) :
    applicationRow? t a (postgres.view d [reserveWrite t operationName key reservedAt]) =
      applicationRow? t a d := by
  simp only [applicationRow?, Database.application?, Database.applications]
  rw [filterMap_reserved _ fun _ => rfl]

theorem applicantRow?_reserved (t : TenantId) (a : ApplicantId) (operationName key : String)
    (reservedAt : DateTime) :
    applicantRow? t a (postgres.view d [reserveWrite t operationName key reservedAt]) =
      applicantRow? t a d := by
  simp only [applicantRow?, Database.applicants]
  rw [filterMap_reserved _ fun _ => rfl]

end Alone

/-! ### What holds of it -/

/-- A promise to keep an invariant, and where exceptions are raised. -/
def keeping (I : Database → Prop) (R : Error → Database → Prop) : HandlerContract where
  asks _ _ := True
  commits d ws := I (postgres.view d ws)
  raises := R

section Steady

variable {I : Database → Prop} {R : Error → Database → Prop} {ws : List Write} {d : Database}
variable {α : Type}

theorem steady_ask {q : Ask} {Q : Answer q → List Write → Database → Prop}
    (h : ∀ a, Q a ws d) : (steady postgres I).wp (keeping I R) (Handler.ask q) Q ws d :=
  steady_now ⟨trivial, h⟩

theorem steady_select {t : TenantId} {f : Database → α} {Q : α → List Write → Database → Prop}
    (h : Q (f ((postgres.view d ws).visible t)) ws d) :
    (steady postgres I).wp (keeping I R) (select t f) Q ws d :=
  steady_now h

theorem steady_commit {Q : Unit → List Write → Database → Prop} (hi : I (postgres.view d ws))
    (h : Q () [] (postgres.view d ws)) :
    (steady postgres I).wp (keeping I R) Handler.commit Q ws d :=
  steady_now ⟨hi, h⟩

theorem steady_withIds {β : Type} : ∀ (xs : List β)
    {Q : List (String × β) → List Write → Database → Prop},
    (∀ ys, ys.map Prod.snd = xs → Q ys ws d) →
      (steady postgres I).wp (keeping I R) (withIds xs) Q ws d := by
  intro xs
  induction xs with
  | nil => exact fun h => h [] rfl
  | cons x xs ih =>
      intro Q h
      refine wp_seq _ (steady_ask fun id => wp_seq _ (ih fun ys hys => h _ ?_))
      rw [List.map_cons, hys]

variable (hR : ∀ e d, e.isOrdinary = true → R e d)

include hR

theorem steady_execute {t : TenantId} {s : Statement} {Q : Unit → List Write → Database → Prop}
    (h : postgres.fault (postgres.view d ws) ⟨t, s⟩ = none → Q () (ws ++ [⟨t, s⟩]) d) :
    (steady postgres I).wp (keeping I R) (execute t s) Q ws d :=
  steady_now ⟨h, fun _ _ => hR _ _ rfl⟩

theorem steady_insertAll {t : TenantId} (rows : List Row) :
    ∀ {ws : List Write} {Q : Unit → List Write → Database → Prop},
      Q () (ws ++ rows.map fun r => ⟨t, .insert r⟩) d →
      (steady postgres I).wp (keeping I R) (insertAll t rows) Q ws d := by
  induction rows with
  | nil =>
      intro ws Q h
      rw [List.map_nil, List.append_nil] at h
      exact h
  | cons row rows ih =>
      intro ws Q h
      refine wp_seq _ (steady_execute hR fun _ => ih ?_)
      simpa using h

theorem steady_ofExcept {r : Except Error α} {Q : α → List Write → Database → Prop}
    (he : ∀ e, r = .error e → e.isOrdinary = true) (h : ∀ a, r = .ok a → Q a ws d) :
    (steady postgres I).wp (keeping I R) (Handler.ofExcept r) Q ws d := by
  cases r with
  | ok a => exact h a rfl
  | error e => exact hR e d (he e rfl)

theorem steady_ofPort {r : Except PortError α} {Q : α → List Write → Database → Prop}
    (h : ∀ a, r = .ok a → Q a ws d) :
    (steady postgres I).wp (keeping I R) (Handler.ofPort r) Q ws d := by
  cases r with
  | ok a => exact h a rfl
  | error e => exact hR e.val d (Error.isOrdinary_of_isExternal e.property)

theorem steady_requireApplication {t : TenantId} {a : ApplicationId}
    {Q : ApplicationRow → List Write → Database → Prop} (h : ∀ row, Q row ws d) :
    (steady postgres I).wp (keeping I R) (requireApplication t a) Q ws d := by
  refine wp_seq _ (wp_seq _ (steady_select ?_))
  cases (((postgres.view d ws).visible t).application? a).filter fun r => r.tenantId = t with
  | none => exact hR _ _ rfl
  | some row => exact h row

omit hR

/-- **The reservation is made, or the key was taken.** -/
theorem steady_requireReservation {t : TenantId} {key operationName : String}
    {Q : Unit → List Write → Database → Prop}
    (hdup : d.has (.idempotencyKey t operationName key) = true →
      R (.duplicateRequest operationName key) d)
    (h : ∀ reservedAt, d.has (.idempotencyKey t operationName key) = false →
      Q () [reserveWrite t operationName key reservedAt] d) :
    (steady postgres I).wp (keeping I R) (requireReservation t key operationName) Q [] d := by
  refine wp_seq _ (wp_seq _ (steady_ask fun reservedAt => steady_now ⟨fun hf => ?_,
    fun f hf => ?_⟩))
  · refine h reservedAt ?_
    have hfree := (fault_eq_none_iff.1 hf).2.1 (.idempotencyKey t operationName key)
    simpa [Statement.absent, Row.keys] using hfree
  · obtain ⟨rfl, htaken⟩ := fault_reserveWrite hf
    exact hdup htaken

end Steady

/-! ### Twice -/

variable {B : Common Database Write Answer} {α : Type}

theorem respects_pure {a : α} {Q : α → Prop} (h : Q a) : (pure a : Handler α).Respects B Q := h

theorem respects_raise {e : Error} {Q : α → Prop} :
    (Handler.raise e : Handler α).Respects B Q := trivial

theorem respects_ask {q : Ask} {Q : Answer q → Prop} (h : ∀ a, B.answers q a → Q a) :
    (Handler.ask q).Respects B Q := h

theorem respects_commit {Q : Unit → Prop} (h : Q ()) : Handler.commit.Respects B Q := h

theorem respects_ofExcept {r : Except Error α} {Q : α → Prop} (h : ∀ a, r = .ok a → Q a) :
    (Handler.ofExcept r).Respects B Q := by
  cases r with
  | ok a => exact h a rfl
  | error e => trivial

theorem respects_ofPort {r : Except PortError α} {Q : α → Prop} (h : ∀ a, r = .ok a → Q a) :
    (Handler.ofPort r).Respects B Q := by
  cases r with
  | ok a => exact h a rfl
  | error e => trivial

/-- A query that gives the same on related rows. -/
theorem respects_select {t : TenantId} {f : Database → α} {Q : α → Prop}
    (h : ∀ d d', B.related d d' → f (d.visible t) = f (d'.visible t) ∧ Q (f (d.visible t))) :
    (select t f).Respects B Q :=
  fun d d' hd => ⟨congrArg Prog.ret (h d d' hd).1, (h d d' hd).2⟩

/-- A statement that is allowed. -/
theorem respects_execute {t : TenantId} {s : Statement} {Q : Unit → Prop} (hs : B.writes ⟨t, s⟩)
    (h : Q ()) : (execute t s).Respects B Q := by
  refine ⟨hs, fun o => ?_⟩
  cases o with
  | none => exact h
  | some f => trivial

theorem respects_insertAll {t : TenantId} {Q : Unit → Prop} (h : Q ()) :
    ∀ {rows : List Row}, (∀ row ∈ rows, B.writes ⟨t, .insert row⟩) →
      (insertAll t rows).Respects B Q := by
  intro rows
  induction rows with
  | nil => exact fun _ => h
  | cons row rows ih =>
      intro hrows
      exact (respects_execute (hrows row List.mem_cons_self) h).bind fun _ _ =>
        ih fun r hr => hrows r (List.mem_cons_of_mem row hr)

/-- Ids that are answered. -/
theorem respects_withIds {β : Type} : ∀ {xs : List β},
    (withIds xs).Respects B fun ys => ys.map Prod.snd = xs ∧
      ∀ y ∈ ys, ∃ id : Uuid4, B.answers .newId id ∧ y.1 = id.value := by
  intro xs
  induction xs with
  | nil => exact respects_pure ⟨rfl, fun y hy => absurd hy List.not_mem_nil⟩
  | cons x xs ih =>
      refine (respects_ask fun a ha => ha).bind fun id hid => ih.bind fun ys hys =>
        respects_pure ⟨congrArg (x :: ·) hys.1, fun y hy => ?_⟩
      rcases List.mem_cons.1 hy with rfl | hy
      · exact ⟨id, hid, rfl⟩
      · exact hys.2 y hy

/-- How every command begins. -/
theorem respects_requireReservation {t : TenantId} {key operationName : String} {Q : Unit → Prop}
    (hs : ∀ reservedAt, B.writes (reserveWrite t operationName key reservedAt)) (h : Q ()) :
    (requireReservation t key operationName).Respects B Q := by
  refine Prog.Respects.bind (P := fun _ => True) ?_ fun reserved _ => ?_
  · refine (respects_ask fun a ha => ha).bind fun reservedAt _ => ⟨hs reservedAt, fun o => ?_⟩
    cases o with
    | none => trivial
    | some f => cases f <;> trivial
  · cases reserved with
    | true => exact h
    | false => exact respects_raise

end FinAssist
