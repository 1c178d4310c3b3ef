/-
**Two handlers that save the same version.**

`save` reads the row again and compares its version with the one that the handler has loaded; a
handler that has lost is told so by a `ConcurrencyConflictError`.  The comparison sees what is
committed when the row is read.  If the other handler commits after that, the comparison goes
through, the update waits for the lock and is made, and the snapshot violates its unique constraint:
the handler ends with an `IntegrityError` instead.  So it does if the row is still in the session,
because the query does not refresh it.

Main definitions:

* `FinAssist.Saving` — **a handler that is about to save**;
* `FinAssist.Undisturbed` — the steps after the other handler has committed;
* `FinAssist.Losing` — what may become of it then;
* `FinAssist.savingTask` — a submission that is about to save.

Main results:

* `FinAssist.save_conflicts` — **when the loser ends with the conflict**;
* `FinAssist.save_fails_otherwise` — a run in which it does not;
* `FinAssist.submission_saves` — a submission comes to its save.
-/

import FinAssist.FreshRuns

set_option relaxedAutoImplicit false
set_option autoImplicit false

namespace FinAssist

open ReadCommitted

/-! ### About to save -/

/-- What `save` does with the row that it has found. -/
def saveFound (t : TenantId) (cached : ApplicationRow) (application : Application)
    (found : Option ApplicationRow) (hit : Bool) : Handler ApplicationRow :=
  match found.map fun row => cond hit cached row with
  | none =>
      Handler.raise (.concurrencyConflict application.applicationId (application.version - 1) 0)
  | some existing =>
      if existing.version + 1 ≠ application.version then
        Handler.raise (.concurrencyConflict application.applicationId (application.version - 1)
          existing.version)
      else do
        let snapshotId ← newId
        execute t (.updateApplication existing (saveColumns existing application))
        execute t (.insert (.applicationVersion (versionSnapshotRow application snapshotId.value)))
        pure (saveColumns existing application)

theorem saveApplication_bind {α : Type} (t : TenantId) (cached : ApplicationRow)
    (application : Application) (f : ApplicationRow → Handler α) :
    saveApplication t cached application >>= f = Prog.query fun d =>
      Prog.ask Ask.identityMapHit fun (hit : Bool) => saveFound t cached application
          ((d.visible t).application? application.applicationId) hit >>= f := rfl

/-- **A handler that is about to save** what it has made of version `n` of an application; its
transaction has done nothing to a case yet. -/
structure Saving (a : ApplicationId) (n : ℕ) (task : Task programs) : Prop where
  prog : ∃ (t : TenantId) (cached : ApplicationRow) (application : Application)
    (f : ApplicationRow → Handler (programs.Result task.kind)),
    task.prog = saveApplication t cached application >>= f ∧ cached.applicationId = a ∧
      cached.version = n ∧ application.applicationId = a ∧ application.version = n + 1
  writes : ∀ x ∈ task.writes, x.Aside

/-- **What may become of a handler that has lost**: it has not looked yet, or has looked and asks
whether the row was in the session, or it has failed with the conflict. -/
inductive Losing (a : ApplicationId) (n : ℕ) (task : Task programs) : Prop
  | saving (h : Saving a n task)
  | looked (k : Bool → Handler (programs.Result task.kind)) (actual : ℕ)
      (hp : task.prog = .ask .identityMapHit k)
      (hk : k false = .raise (.concurrencyConflict a n actual))
  | failed (actual : ℕ) (hp : task.prog = .raise (.concurrencyConflict a n actual))
      (hw : task.writes = [])

/-- A step that neither kills task `j` nor tells it that the row is still in its session. -/
def Undisturbed {H : Host programs} (j : ℕ) (w : World H) : Action H → Prop
  | .kill i => i ≠ j
  | .advance i answers => i = j → ∀ task k, w.tasks[j]? = some task →
      task.prog = .ask .identityMapHit k → answers .identityMapHit = false
  | _ => True

/-! ### After the other one has committed -/

/-- The application has got past version `n`. -/
def Past (a : ApplicationId) (n : ℕ) (d : Database) : Prop :=
  ∃ v ∈ d.versionsOf a, v.version = n + 1

theorem Past.version {a : ApplicationId} {n : ℕ} {d : Database} (h : Past a n d) (hd : InOrder d)
    {row : ApplicationRow} (hrow : d.application? a = some row) : n + 1 ≤ row.version := by
  obtain ⟨v, hv, hversion⟩ := h
  obtain ⟨hmem, ha⟩ := (application?_iff hd.wellFormed.keys).1 hrow
  have hnumbers := (hd.historyIntact (application_mem.2 hmem)).numbered
  have hlisted := List.mem_map_of_mem (f := ApplicationVersionRow.version) (ha.symm ▸ hv)
  rw [hnumbers, List.mem_range'_1, hversion] at hlisted
  omega

/-- What a handler finds whose transaction has done nothing to a case. -/
theorem application?_of_found {d : Database} {ws : List Write} (hws : ∀ x ∈ ws, x.Aside)
    (hkeys : ((postgres.view d ws).rows.flatMap Row.keys).Nodup) {t : TenantId} {a : ApplicationId}
    {row : ApplicationRow}
    (h : ((postgres.view d ws).visible t).application? a = some row) : d.application? a = some row := by
  have hslice := congrArg Slice.row (slice_view ws d a)
  rw [foldl_aside hws] at hslice
  exact hslice.symm.trans ((application?_visible hkeys).1 h).1

/-- **A handler that looks after the other one has committed** ends with the conflict, unless the
row is still in its session. -/
theorem saveFound_past (t : TenantId) (cached : ApplicationRow) {application : Application}
    {found : Option ApplicationRow} {n : ℕ} (hversion : application.version = n + 1)
    (h : ∀ row, found = some row → n + 1 ≤ row.version) : ∃ actual,
    saveFound t cached application found false =
      Handler.raise (.concurrencyConflict application.applicationId n actual) := by
  cases found with
  | none => exact ⟨0, by rw [saveFound, hversion]; rfl⟩
  | some row =>
      have hpast := h row rfl
      refine ⟨row.version, ?_⟩
      rw [saveFound, hversion]
      simp only [Option.map_some, cond_false]
      rw [if_pos (by omega)]
      rfl

section Runs

variable {H : Host programs} {a : ApplicationId} {n j : ℕ}

/-- **A step of the loser.** -/
theorem Losing.advanced {w w' : World H} {task : Task programs} (h : Losing a n task)
    (ht : w.tasks[j]? = some task) (hpast : Past a n w.db) (hd : InOrder w.db)
    (hgranted : postgres.Granted w.db task.writes) {answers : (q : Ask) → Answer q}
    (hmiss : ∀ k, task.prog = .ask .identityMapHit k → answers .identityMapHit = false)
    (hs : w.advance postgres j answers task task.prog = some w') :
    (∃ task', w'.tasks[j]? = some task' ∧ Losing a n task') ∧ w'.log = w.log := by
  have hself : ∀ task' : Task programs, (w.tasks.set j task')[j]? = some task' := fun task' =>
    List.getElem?_set_self (List.getElem?_eq_some_iff.1 ht).1
  cases h with
  | saving h =>
      obtain ⟨t, cached, application, f, hp, -, -, rfl, hversion⟩ := h.prog
      rw [saveApplication_bind] at hp
      rw [hp] at hs
      simp only [World.advance, Option.some.injEq] at hs
      subst hs
      obtain ⟨actual, hraise⟩ := saveFound_past t cached hversion
        fun row hrow => hpast.version hd (application?_of_found h.writes
          (hd.wellFormed.view hgranted).keys hrow)
      refine ⟨⟨_, hself _, .looked _ actual rfl ?_⟩, rfl⟩
      exact congrArg (fun p : Handler ApplicationRow => p >>= f) hraise
  | looked k actual hp hk =>
      have hno := hmiss k hp
      rw [hp] at hs
      simp only [World.advance, hno, Option.map_eq_some_iff] at hs
      obtain ⟨e, -, rfl⟩ := hs
      refine ⟨⟨_, hself _, .failed actual hk ?_⟩, rfl⟩
      rw [Task.goto, hk]
      rfl
  | failed actual hp hw =>
      rw [hp] at hs
      cases hs

end Runs

/-! ### A submission comes to its save -/

/-- What a submission does before it saves. -/
def loadSubmission (command : ApplicationCommand) : Handler (ApplicationRow × Application) := do
  requireReservation command.tenantId command.idempotencyKey submitApplicationOperation
  let row ← requireApplication command.tenantId command.applicationId
  let at' ← now
  let application ← Handler.ofExcept ((rowToApplication row).submit at')
  pure (row, application.attachWorkflow
    (applicationWorkflowId command.tenantId command.applicationId application.version))

/-- And from there on. -/
def finishSubmission (command : ApplicationCommand) (row : ApplicationRow)
    (application : Application) : Handler SubmitApplicationResult := do
  let _ ← saveApplication command.tenantId row application
  recordAndCommit command.tenantId application
  startWorkflow command application .submitted

theorem submitApplication_eq (command : ApplicationCommand) :
    submitApplication command = loadSubmission command >>= fun loaded =>
      finishSubmission command loaded.1 loaded.2 := by
  simp only [submitApplication, loadSubmission, saveSubmission, finishSubmission, bind_assoc,
    pure_bind]

/-- The reservation of a submission, at some time. -/
def Reserves (command : ApplicationCommand) (x : Write) : Prop :=
  ∃ reservedAt, x = reserveWrite command.tenantId submitApplicationOperation command.idempotencyKey
    reservedAt

theorem loadSubmission_inside (command : ApplicationCommand) :
    (loadSubmission command).Inside (fun _ => True) (fun _ => True) (Reserves command) := by
  refine Prog.Inside.bind (Prog.Inside.bind ?_ fun reserved => ?_) fun _ =>
    Prog.Inside.bind (Prog.Inside.bind (Prog.Inside.bind (fun _ => trivial) fun _ => trivial)
      fun found => ?_) fun row => Prog.Inside.bind ⟨trivial, fun _ => trivial⟩ fun at' =>
        Prog.Inside.bind ?_ fun application => trivial
  · refine ⟨trivial, fun reservedAt => ⟨⟨reservedAt, rfl⟩, fun refused => ?_⟩⟩
    rcases refused with _ | ⟨_ | _⟩ <;> trivial
  · cases reserved <;> trivial
  · cases found <;> trivial
  · cases (rowToApplication row).submit at' <;> trivial

/-- What a submission has made of the row that it has loaded. -/
def submittedApplication (command : ApplicationCommand) (row : ApplicationRow) (at' : DateTime) :
    Application :=
  ((rowToApplication row).moved .submitted "applicant submitted" at').attachWorkflow
    (applicationWorkflowId command.tenantId command.applicationId (row.version + 1))

/-- **A submission that is about to save.** -/
def savingTask (command : ApplicationCommand) (row : ApplicationRow) (at' : DateTime) :
    Task programs :=
  ⟨.command (.submitApplication command),
    [reserveWrite command.tenantId submitApplicationOperation command.idempotencyKey at'],
    finishSubmission command row (submittedApplication command row at')⟩

theorem savingTask_saving (command : ApplicationCommand) (row : ApplicationRow) (at' : DateTime)
    (h : row.applicationId = command.applicationId) :
    Saving command.applicationId row.version (savingTask command row at') :=
  ⟨⟨_, _, _, _, rfl, h, rfl, h, rfl⟩,
    fun _ hx => List.mem_singleton.1 hx ▸ reserveWrite_aside _ _ _ _⟩

section Runs

variable {H : Host programs} {σ : Type} {E : Environment Answer σ} {R : H.Ext → σ → Prop}

/-- **A submission comes to its save** by itself, if its key is free and the application is a draft,
and no other transaction has made the reservation. -/
theorem submission_saves {command : ApplicationCommand} {w : World H} {i : ℕ} {s : σ} {x : CaseFile}
    {at' : DateTime} (hanswer : ∀ e s d q, R e s →
      ∃ e', H.answer e d (.command (.submitApplication command)) q (E s q).1 = some e' ∧
        R e' (E s q).2) (hR : R w.ext s) (htime : ∀ s, timeOf E s = at') (hd : InOrder w.db)
    (hx : w.db.caseFile? command.applicationId = some x) (ht : x.row.tenantId = command.tenantId)
    (hlegal : isLegalTransition x.row.status .submitted = true)
    (hkey : w.db.has (.idempotencyKey command.tenantId submitApplicationOperation
      command.idempotencyKey) = false)
    (hclear : w.Clear postgres i (Reserves command))
    (htask : w.tasks[i]? = some ⟨.command (.submitApplication command), [],
      (Kind.command (.submitApplication command)).prog⟩) :
    ∃ w', Reachable postgres w w' ∧ w'.db = w.db ∧ w'.log = w.log ∧
      w'.tasks = w.tasks.set i (savingTask command x.row at') := by
  have hsubmit : (rowToApplication x.row).submit (timeOf E (E s .now).2) =
      .ok ((rowToApplication x.row).moved .submitted "applicant submitted" at') := by
    have hlegal' : isLegalTransition (rowToApplication x.row).status .submitted = true := hlegal
    rw [htime, Application.submit, Application.transitionTo, if_pos hlegal']
    rfl
  have hload : (loadSubmission command).alone postgres E s w.db [] =
      ⟨w.db, (savingTask command x.row at').writes, (E (E s .now).2 .now).2,
        .ok (x.row, submittedApplication command x.row at')⟩ := by
    rw [loadSubmission, alone_begin hd hx ht hkey, Prog.alone_bind_ok alone_now, hsubmit, htime]
    rfl
  have hprog : (Kind.command (.submitApplication command)).prog = loadSubmission command >>= _ :=
    submitApplication_eq command
  rw [hprog] at htask
  obtain ⟨w', hreach, hdb, hlog, hkeep, hend⟩ := goesOn_alone hanswer (loadSubmission command) _
    (loadSubmission_inside command) hR hclear (by rw [ite_self]; exact htask) hload
  refine ⟨w', hreach, hdb, hlog, List.ext_getElem? fun j => ?_⟩
  rcases eq_or_ne j i with rfl | hj
  · rw [List.getElem?_set_self (List.getElem?_eq_some_iff.1 htask).1]
    exact hend
  · rw [List.getElem?_set_ne hj.symm, hkeep j hj]

end Runs

namespace Sample

def submission (idempotencyKey : String) : ApplicationCommand :=
  ⟨tenantId, ⟨(newId 6).value, by decide +kernel⟩, idempotencyKey⟩

/-- The application that `create` has created. -/
def draft : ApplicationRow where
  applicationId := ⟨(newId 6).value, by decide +kernel⟩
  tenantId := tenantId
  applicantId := ⟨(newId 3).value, by decide +kernel⟩
  productId := productId
  requestedAmount := ⟨250000, .usd⟩
  requestedTermMonths := 24
  status := .draft
  version := 1
  createdAt := noon
  updatedAt := noon
  activeWorkflowId := none

/-- Two submissions of one application are about to save. -/
def competing : World anyHost :=
  { created with tasks := created.tasks ++
      [savingTask (submission "submit-1") draft noon, savingTask (submission "submit-2") draft noon] }

/-- Answers to the `n`-th question, where the row is no longer in the session. -/
def misses (n : ℕ) : (q : Ask) → Answer q
  | .identityMapHit => false
  | q => answers n q

/-- Task `i` takes `count` steps. -/
def missing (i n count : ℕ) : List (Action anyHost) :=
  (List.range' n count).map fun m => .advance i (misses m)

/-- The first one commits. -/
def committed : World anyHost := competing.follow postgres (missing 1 18 12)

/-- Both have read the row again before the first one commits. -/
def overlapping : World anyHost :=
  competing.follow postgres (missing 1 18 1 ++ missing 2 18 1 ++ missing 1 19 11 ++ missing 2 30 4)

theorem draft_found : created.db.application? draft.applicationId = some draft := by
  decide +kernel

/-- One more submission comes to its save. -/
theorem reachable_saving {w : World anyHost} (idempotencyKey : String)
    (hw : Reachable postgres (installation.start anyHost ()) w) (hdb : w.db = created.db)
    (hkey : created.db.has (.idempotencyKey tenantId submitApplicationOperation idempotencyKey) =
      false)
    (hclear : ∀ t ∈ w.tasks, ∀ y ∈ t.writes, ∀ k ∈ postgres.locks y,
      k ∉ postgres.locks (reserveWrite tenantId submitApplicationOperation idempotencyKey noon)) :
    Reachable postgres (installation.start anyHost ())
      { w with tasks := w.tasks ++ [savingTask (submission idempotencyKey) draft noon] } := by
  have hdraft : w.db.application? (submission idempotencyKey).applicationId = some draft :=
    hdb ▸ draft_found
  obtain ⟨x, hx, hrow⟩ := caseFile?_of_row hdraft
  let κ : programs.Kind := .command (.submitApplication (submission idempotencyKey))
  let v : World anyHost := { w with tasks := w.tasks ++ [⟨κ, [], programs.prog κ⟩] }
  have hspawned : Reachable postgres (installation.start anyHost ()) v :=
    hw.tail (a := .spawn κ) trivial rfl
  have hfree : v.Clear postgres w.tasks.length (Reserves (submission idempotencyKey)) := by
    rintro j t hj ht y hy x ⟨reservedAt, rfl⟩ k hk
    rcases List.mem_append.1 (List.mem_of_getElem? ht) with ht | ht
    · exact hclear t ht y hy k hk
    · rw [List.mem_singleton.1 ht] at hy
      cases hy
  have htime : ∀ n, timeOf counter n = noon := fun _ => rfl
  obtain ⟨w', hreach, hdb', hlog, htasks⟩ := submission_saves (s := 0) (w := v)
    (R := fun _ _ => True) (fun e _ _ _ _ => ⟨e, rfl, trivial⟩) trivial htime
    (installation.sound hspawned).inv hx (by rw [hrow]; rfl) (by rw [hrow]; rfl)
    (by rw [← hkey, ← hdb]; rfl) hfree
    (by rw [List.getElem?_append_right (Nat.le_refl _), Nat.sub_self]; rfl)
  rw [hrow, List.set_append_right _ _ (Nat.le_refl _), Nat.sub_self] at htasks
  have heq : w' = { w with tasks := w.tasks ++ [savingTask (submission idempotencyKey) draft noon] } := by
    cases w'
    cases hdb'
    cases hlog
    cases htasks
    rfl
  exact heq ▸ hspawned.trans hreach

theorem reachable_competing : Reachable postgres (installation.start anyHost ()) competing := by
  have hfirst := reachable_saving "submit-1" reachable_created rfl (by decide +kernel)
    (by decide +kernel)
  exact reachable_saving "submit-2" hfirst rfl (by decide +kernel) (by decide +kernel)

/-- The first submission's row for version 2. -/
def secondVersion : ApplicationVersionRow :=
  versionSnapshotRow (submittedApplication (submission "submit-1") draft noon) (newId 20).value

theorem insert_of_version {st : Statement} {v : ApplicationVersionRow}
    (h : st.inserted?.bind Row.applicationVersion? = some v) :
    st = .insert (.applicationVersion v) := by
  obtain ⟨row, hrow, hv⟩ := Option.bind_eq_some_iff.1 h
  cases st <;> cases hrow
  cases row <;> cases hv
  rfl

theorem logged_of_version {log : List (Entry programs)} {v : ApplicationVersionRow}
    (h : ∃ e ∈ log, ∃ x ∈ e.writes, x.statement.inserted?.bind Row.applicationVersion? = some v) :
    ∃ e ∈ log, ∃ x ∈ e.writes, x.statement = .insert (.applicationVersion v) := by
  obtain ⟨e, he, x, hx, hv⟩ := h
  exact ⟨e, he, x, hx, insert_of_version hv⟩

theorem committed_logged : ∃ e ∈ committed.log, ∃ x ∈ e.writes,
    x.statement = .insert (.applicationVersion secondVersion) :=
  logged_of_version (by decide +kernel)

theorem overlapping_logged : ∃ e ∈ overlapping.log, ∃ x ∈ e.writes,
    x.statement = .insert (.applicationVersion secondVersion) :=
  logged_of_version (by decide +kernel)

/-- The fault that a program has failed with. -/
def raised? {α : Type} : Handler α → Option Fault
  | .raise (.database fault) => some fault
  | _ => none

theorem eq_raise_of_raised {α : Type} {p : Handler α} {fault : Fault} (h : raised? p = some fault) :
    p = .raise (.database fault) := by
  unfold raised? at h
  split at h
  · cases h
    rfl
  · cases h

theorem saving (idempotencyKey : String) :
    Saving draft.applicationId 1 (savingTask (submission idempotencyKey) draft noon) :=
  savingTask_saving (submission idempotencyKey) draft noon rfl

theorem competing_first :
    competing.tasks[1]? = some (savingTask (submission "submit-1") draft noon) := by
  have hlength : created.tasks.length = 1 := by decide +kernel
  rw [competing, List.getElem?_append_right (by omega), hlength]
  rfl

theorem competing_second :
    competing.tasks[2]? = some (savingTask (submission "submit-2") draft noon) := by
  have hlength : created.tasks.length = 1 := by decide +kernel
  rw [competing, List.getElem?_append_right (by omega), hlength]
  rfl

/-- The second submission has not taken a step. -/
theorem committed_second :
    committed.tasks[2]? = some (savingTask (submission "submit-2") draft noon) := by
  refine World.kept_of_follow competing_second fun a ha => ?_
  obtain ⟨m, -, rfl⟩ := List.mem_map.1 ha
  exact ⟨fun answers heq => absurd (Action.advance.inj heq).1 (by decide), nofun⟩

/-- And then the second submission goes on to its end. -/
def lost : World anyHost := committed.follow postgres (missing 2 40 2)

theorem committed_to_lost : Reaches postgres (Undisturbed 2) committed lost := by
  refine reaches_follow _ fun a ha w => ?_
  obtain ⟨m, -, rfl⟩ := List.mem_map.1 ha
  exact fun _ _ _ _ _ => rfl

/-- The second submission has ended. -/
theorem lost_second : (lost.tasks[2]?).map (fun task => task.prog.done) = some true := by
  decide +kernel

/-- The second submission has failed. -/
theorem overlapping_second : ∃ task, overlapping.tasks[2]? = some task ∧
    task.prog = .raise (.database .integrityError) := by
  have hraised : (overlapping.tasks[2]?).bind (fun task => raised? task.prog) =
      some .integrityError := by
    decide +kernel
  obtain ⟨task, htask, hprog⟩ := Option.bind_eq_some_iff.1 hraised
  exact ⟨task, htask, eq_raise_of_raised hprog⟩

end Sample

/-! ### The result -/

section Runs

variable {H : Host programs} {a : ApplicationId} {n j : ℕ}

/-- **When the loser ends with the conflict**: a task is about to save what it has made of version
`n` of an application, and another one that had the same version has committed the next.  In every
run from there that does not kill the task or tell it that the row is still in its session, it
logs nothing any more, and has failed with the conflict once it has ended. -/
theorem save_conflicts (I : Installation) {ext : H.Ext} {w w' : World H}
    (h : Reachable postgres (I.start H ext) w) {task : Task programs} (ht : w.tasks[j]? = some task)
    (hsaving : Saving a n task) {e : Entry programs} (he : e ∈ w.log) {x : Write} (hx : x ∈ e.writes)
    {v : ApplicationVersionRow} (hv : x.statement = .insert (.applicationVersion v))
    (ha : v.applicationId = a) (hversion : v.version = n + 1)
    (hrun : Reaches postgres (Undisturbed j) w w') :
    (∀ e ∈ w'.log, e.task = j → e ∈ w.log) ∧ ∃ task', w'.tasks[j]? = some task' ∧
      (task'.prog.done = true → task'.writes = [] ∧
        ∃ actual, task'.prog = .raise (.concurrencyConflict a n actual)) := by
  have hloses : (∀ e ∈ w'.log, e.task = j → e ∈ w.log) ∧ e ∈ w'.log ∧
      ∃ task', w'.tasks[j]? = some task' ∧ Losing a n task' := by
    induction hrun with
    | refl => exact ⟨fun e he _ => he, he, task, ht, .saving hsaving⟩
    | @tail w₁ w₂ action hrun hok hs ih =>
        obtain ⟨hlog, he₁, task₁, ht₁, hlosing⟩ := ih
        have hreach := h.trans hrun.reachable
        have hsound := I.sound hreach
        have hpast : Past a n w₁.db := by
          refine ⟨v, List.mem_filter.2 ⟨?_, by simpa using ha⟩, hversion⟩
          exact kept_of_logged rfl change_applicationVersion? hreach e he₁ x hx v (by rw [hv]; rfl)
        have he₂ := World.logged_of_step hs he₁
        by_cases hmine : ∃ answers, action = .advance j answers
        · obtain ⟨answers, rfl⟩ := hmine
          rw [World.step, ht₁] at hs
          obtain ⟨hlosing₂, hlog₂⟩ := hlosing.advanced ht₁ hpast hsound.inv (hsound.granted j task₁ ht₁)
            (fun k hk => hok rfl task₁ k ht₁ hk) hs
          exact ⟨fun e' he' => hlog e' (hlog₂ ▸ he'), he₂, hlosing₂⟩
        · have hkill : action ≠ .kill j := by
            rintro rfl
            exact hok rfl
          obtain ⟨htask, hlog₂⟩ := World.kept_of_step hs ht₁
            (fun answers heq => hmine ⟨answers, heq⟩) hkill
          exact ⟨fun e' he' hej => hlog e' (hlog₂ e' he' hej) hej, he₂, task₁, htask, hlosing⟩
  obtain ⟨hlog, -, task', ht', hlosing⟩ := hloses
  refine ⟨hlog, task', ht', fun hdone => ?_⟩
  cases hlosing with
  | saving h =>
      obtain ⟨t, cached, application, f, hp, -⟩ := h.prog
      rw [hp, saveApplication_bind] at hdone
      cases hdone
  | looked k actual hp hk =>
      rw [hp] at hdone
      cases hdone
  | failed actual hp hw => exact ⟨hw, actual, hp⟩

end Runs

/-- A submission that is about to save when another one has committed, and how it ends. -/
theorem save_conflicts_submission :
    ∃ w task, Reachable postgres (Sample.installation.start anyHost ()) w ∧
      w.tasks[2]? = some task ∧ Saving Sample.draft.applicationId 1 task ∧
      (∃ e ∈ w.log, ∃ x ∈ e.writes,
        x.statement = .insert (.applicationVersion Sample.secondVersion)) ∧
      ∃ w', Reaches postgres (Undisturbed 2) w w' ∧
        (∀ e ∈ w'.log, e.task = 2 → e ∈ w.log) ∧ ∃ task', w'.tasks[2]? = some task' ∧
          task'.writes = [] ∧ ∃ actual,
            task'.prog = .raise (.concurrencyConflict Sample.draft.applicationId 1 actual) := by
  have hreach : Reachable postgres (Sample.installation.start anyHost ()) Sample.committed :=
    Sample.reachable_competing.trans (reachable_follow _ _)
  obtain ⟨e, he, x, hx, hv⟩ := Sample.committed_logged
  obtain ⟨hlog, task', ht', hends⟩ := save_conflicts Sample.installation hreach
    Sample.committed_second (Sample.saving _) he hx hv rfl rfl Sample.committed_to_lost
  have hdone : task'.prog.done = true := by
    have hended := Sample.lost_second
    rw [ht'] at hended
    exact Option.some.inj hended
  obtain ⟨hwrites, hconflict⟩ := hends hdone
  exact ⟨Sample.committed, _, hreach, Sample.committed_second, Sample.saving _, ⟨e, he, x, hx, hv⟩,
    Sample.lost, Sample.committed_to_lost, hlog, task', ht', hwrites, hconflict⟩

/-- **Both read the row again before one commits**: the other one fails in the database. -/
theorem save_fails_otherwise :
    ∃ w, Reachable postgres (Sample.installation.start anyHost ()) w ∧
      (∃ task, w.tasks[1]? = some task ∧ Saving Sample.draft.applicationId 1 task) ∧
      (∃ task, w.tasks[2]? = some task ∧ Saving Sample.draft.applicationId 1 task) ∧
      ∃ w', Reachable postgres w w' ∧
        (∃ e ∈ w'.log, ∃ x ∈ e.writes,
          x.statement = .insert (.applicationVersion Sample.secondVersion)) ∧
        ∃ task, w'.tasks[2]? = some task ∧ task.prog = .raise (.database .integrityError) :=
  ⟨Sample.competing, Sample.reachable_competing,
    ⟨_, Sample.competing_first, Sample.saving _⟩,
    ⟨_, Sample.competing_second, Sample.saving _⟩,
    Sample.overlapping, reachable_follow _ _, Sample.overlapping_logged, Sample.overlapping_second⟩

end FinAssist
