/-
**An application as it is stored, and as it is in memory.**

An aggregate is added once, and saved after each transition.  A save sets six columns by hand, and the
two functions between aggregates and rows list the fields independently of each other.  Nothing is lost
between them, for the columns that a save leaves out are those that nothing changes.

Main definitions:

* `FinAssist.ApplicationColumns` — the columns, with the types that they have in the table;
* `FinAssist.LifeStep`, `FinAssist.runLife` — **the steps of an aggregate's life**, and the program that
  takes them;
* `FinAssist.FixedFields` — what no step changes;
* `FinAssist.Mirrors` — a row and the aggregate in memory that belongs to it.

Main results:

* `FinAssist.columns_read_back` — the columns are read back;
* `FinAssist.Mirrors.save` — after a save the row is that of the aggregate;
* `FinAssist.Mirrors.run` — **so it is after any steps** that end with a save;
* `FinAssist.loaded_is_saved` — what is loaded is what was saved.
-/

import FinAssist.FreshRuns
import FinAssist.MoneyAmounts

set_option relaxedAutoImplicit false
set_option autoImplicit false

namespace FinAssist

open ReadCommitted

/-! ### The columns -/

/-- The columns of `applications`; the amount is a `NUMERIC(18, 2)`, in hundredths. -/
structure ApplicationColumns where
  applicationId : String
  tenantId : String
  applicantId : String
  productId : String
  requestedAmount : ℤ
  currency : String
  requestedTermMonths : ℤ
  status : String
  version : ℕ
  createdAt : DateTime
  updatedAt : DateTime
  activeWorkflowId : Option String

/-- A row, column by column. -/
def ApplicationRow.columns (row : ApplicationRow) : ApplicationColumns where
  applicationId := row.applicationId.value
  tenantId := row.tenantId.value
  applicantId := row.applicantId.value
  productId := row.productId.value
  requestedAmount := row.requestedAmount.minorUnits
  currency := row.requestedAmount.currency.code
  requestedTermMonths := row.requestedTermMonths
  status := row.status.value
  version := row.version
  createdAt := row.createdAt
  updatedAt := row.updatedAt
  activeWorkflowId := row.activeWorkflowId

/-- The amount as the driver returns it. -/
def numericDecimal (hundredths : ℤ) : Decimals.Decimal := .ofUnits false hundredths (-2)

/-- The constructors that `_row_to_application` calls, which raise for what is none of theirs. -/
def ApplicationColumns.application? (c : ApplicationColumns) : Option Application :=
  if hids : Uuid.accepts c.applicationId = true ∧ Uuid.accepts c.tenantId = true ∧
      Uuid.accepts c.applicantId = true ∧ Uuid.accepts c.productId = true then
    match DecimalMoney.construct (numericDecimal c.requestedAmount) c.currency,
      ApplicationStatus.ofValue? c.status with
    | .ok requestedAmount, some status => some {
        applicationId := ⟨c.applicationId, hids.1⟩
        tenantId := ⟨c.tenantId, hids.2.1⟩
        applicantId := ⟨c.applicantId, hids.2.2.1⟩
        productId := ⟨c.productId, hids.2.2.2⟩
        requestedAmount := requestedAmount.toMoney
        requestedTermMonths := c.requestedTermMonths
        status
        version := c.version
        createdAt := c.createdAt
        updatedAt := c.updatedAt
        activeWorkflowId := c.activeWorkflowId
        pendingEvents := [] }
    | _, _ => none
  else none

/-- An amount of the table's range is constructed again. -/
theorem construct_numericDecimal {m : Money} (h : m.minorUnits.natAbs < 10 ^ 18) :
    ∃ amount, DecimalMoney.construct (numericDecimal m.minorUnits) m.currency.code = .ok amount ∧
      amount.toMoney = m := by
  have htwo : -m.currency.minorUnitExponent = -2 := by cases m.currency <;> rfl
  have hquantized : (numericDecimal m.minorUnits).exponent = -m.currency.minorUnitExponent ∧
      (numericDecimal m.minorUnits).coefficient < 10 ^ defaultContext.prec :=
    ⟨htwo.symm, h.trans (by decide)⟩
  refine ⟨⟨_, m.currency, hquantized⟩, DecimalMoney.construct_again ⟨_, m.currency, hquantized⟩, ?_⟩
  exact congrArg (Money.mk · m.currency)
    (Decimals.Decimal.signed_ofUnits false m.minorUnits (-2))

/-- **The columns are read back.** -/
theorem columns_read_back {row : ApplicationRow}
    (h : row.requestedAmount.minorUnits.natAbs < 10 ^ 18) :
    row.columns.application? = some (rowToApplication row) := by
  obtain ⟨amount, hamount, hmoney⟩ := construct_numericDecimal h
  have hids : Uuid.accepts row.columns.applicationId = true ∧
      Uuid.accepts row.columns.tenantId = true ∧ Uuid.accepts row.columns.applicantId = true ∧
      Uuid.accepts row.columns.productId = true :=
    ⟨row.applicationId.isUuid, row.tenantId.isUuid, row.applicantId.isUuid, row.productId.isUuid⟩
  have hstatus : ApplicationStatus.ofValue? row.columns.status = some row.status :=
    ApplicationStatus.ofValue?_value row.status
  have hconstruct : DecimalMoney.construct (numericDecimal row.columns.requestedAmount)
      row.columns.currency = .ok amount := hamount
  rw [ApplicationColumns.application?, dif_pos hids]
  simp only [hconstruct, hstatus, hmoney]
  rfl

/-! ### The life of an aggregate -/

/-- What happens to an aggregate: an operation, a save, or the end of a unit of work, after which it is
loaded again. -/
inductive LifeStep
  | transition (newStatus : ApplicationStatus) (reason : String)
  | attachWorkflow (workflowId : String)
  | detachWorkflow
  | save
  | reload

/-- A step, on the row as the session has it and the aggregate. -/
def runStep : LifeStep → ApplicationRow × Application → Handler (ApplicationRow × Application)
  | .transition newStatus reason, (row, application) => do
      let moved ← transition application newStatus reason
      pure (row, moved)
  | .attachWorkflow workflowId, (row, application) => pure (row, application.attachWorkflow workflowId)
  | .detachWorkflow, (row, application) => pure (row, application.detachWorkflow)
  | .save, (row, application) => do
      let saved ← saveApplication application.tenantId row application
      pure (saved, application)
  | .reload, (_, application) => do
      Handler.commit
      let loaded ← requireApplication application.tenantId application.applicationId
      pure (loaded, rowToApplication loaded)

def runSteps : List LifeStep → ApplicationRow × Application → Handler (ApplicationRow × Application)
  | [], state => pure state
  | step :: steps, state => do
      let state ← runStep step state
      runSteps steps state

/-- **An aggregate is added, and lives**; what there is in the end in memory, and what `get` finds. -/
def runLife (application : Application) (steps : List LifeStep) :
    Handler (Application × Option ApplicationRow) := do
  addApplication application.tenantId application
  let (_, memory) ← runSteps steps (applicationToRow application, application)
  let loaded ← getApplication application.tenantId application.applicationId
  pure (memory, loaded)

/-- Whether everything is saved after a step. -/
def LifeStep.leavesSaved : LifeStep → Bool
  | save => true
  | reload => true
  | _ => false

/-- Whether everything is saved after the steps, if it was so before them or not. -/
def endSaved : Bool → List LifeStep → Bool
  | saved, [] => saved
  | _, step :: steps => endSaved step.leavesSaved steps

/-! ### What no step changes -/

/-- The fields that are set when an application is created. -/
structure FixedFields where
  applicationId : ApplicationId
  tenantId : TenantId
  applicantId : ApplicantId
  productId : ProductId
  currency : Currency
  createdAt : DateTime
  deriving DecidableEq

def Application.fixed (a : Application) : FixedFields :=
  ⟨a.applicationId, a.tenantId, a.applicantId, a.productId, a.requestedAmount.currency, a.createdAt⟩

def ApplicationRow.fixed (r : ApplicationRow) : FixedFields :=
  ⟨r.applicationId, r.tenantId, r.applicantId, r.productId, r.requestedAmount.currency, r.createdAt⟩

/-- **A save leaves them alone**, whatever aggregate is saved. -/
theorem saveColumns_fixed (row : ApplicationRow) (application : Application) :
    (saveColumns row application).fixed = row.fixed := rfl

/-- And so nothing is lost in a save. -/
theorem saveColumns_eq {row : ApplicationRow} {application : Application}
    (h : row.fixed = application.fixed) : saveColumns row application = applicationToRow application := by
  obtain ⟨hid, htenant, happlicant, hproduct, hcurrency, hcreated⟩ :=
    FixedFields.mk.inj h
  obtain ⟨_, _, _, _, ⟨_, _⟩, _, _, _, _, _, _⟩ := row
  obtain ⟨_, _, _, _, ⟨_, _⟩, _, _, _, _, _, _, _⟩ := application
  simp only at hid htenant happlicant hproduct hcurrency hcreated
  subst hid htenant happlicant hproduct hcurrency hcreated
  rfl

theorem rowToApplication_applicationToRow (application : Application) :
    rowToApplication (applicationToRow application) = { application with pendingEvents := [] } := rfl

/-! ### The row in the table -/

/-- The one row of an application. -/
def Keeps (d : Database) (row : ApplicationRow) : Prop :=
  d.applications.filter (fun r => r.applicationId = row.applicationId) = [row]

theorem Keeps.application? {d : Database} {row : ApplicationRow} (h : Keeps d row) :
    d.application? row.applicationId = some row := by
  rw [Database.application?, ← List.head?_filter, h]
  rfl

theorem applications_visible (d : Database) (t : TenantId) :
    (d.visible t).applications = d.applications.filter fun r => r.tenantId = t := by
  rw [Database.applications, Database.visible, List.filterMap_filter, Database.applications,
    List.filter_filterMap]
  refine List.filterMap_congr fun x hx => ?_
  clear hx
  cases x
  case application r =>
    by_cases htenant : r.tenantId = t <;>
      simp [Row.visibleTo, Row.tenantId?, Row.application?, Option.filter, htenant]
  all_goals simp [Row.application?]

theorem applications_insert (d : Database) (t : TenantId) (r : Row) :
    (d.apply ⟨t, .insert r⟩).applications = d.applications ++ r.application?.toList := by
  rw [Database.apply_insert, Database.applications, Database.applications, List.filterMap_append]
  cases h : r.application? <;> simp [h]

theorem applications_update (d : Database) (t : TenantId) (loaded changed : ApplicationRow) :
    (d.apply ⟨t, .updateApplication loaded changed⟩).applications =
      d.applications.map fun r =>
        if r.applicationId = loaded.applicationId ∧ r.tenantId = t then r.update loaded changed
        else r := by
  rw [Database.applications, Database.applications, Database.apply, List.map_filterMap]
  simp only [Statement.inserted?, Option.toList_none, List.append_nil, List.filterMap_map]
  refine List.filterMap_congr fun r _ => ?_
  cases r <;> rfl

theorem Keeps.visible {d : Database} {row : ApplicationRow} (h : Keeps d row) :
    Keeps (d.visible row.tenantId) row := by
  rw [Keeps, applications_visible, List.filter_comm, h]
  simp

/-- Rows of other tables leave it alone. -/
theorem Keeps.insert {d : Database} {row : ApplicationRow} (h : Keeps d row) (t : TenantId) {r : Row}
    (hr : r.application? = none) : Keeps (d.apply ⟨t, .insert r⟩) row := by
  rw [Keeps, applications_insert, hr, Option.toList_none, List.append_nil]
  exact h

theorem Keeps.update {d : Database} {row : ApplicationRow} (h : Keeps d row)
    (application : Application) :
    Keeps (d.apply ⟨row.tenantId, .updateApplication row (saveColumns row application)⟩)
      (saveColumns row application) := by
  rw [Keeps, applications_update, List.filter_map]
  have hid : ((fun r : ApplicationRow =>
      decide (r.applicationId = (saveColumns row application).applicationId)) ∘ fun r =>
      if r.applicationId = row.applicationId ∧ r.tenantId = row.tenantId
        then r.update row (saveColumns row application) else r) =
      fun r => decide (r.applicationId = row.applicationId) := by
    funext r
    simp only [Function.comp_apply]
    split <;> rfl
  rw [hid, h, List.map_singleton, if_pos ⟨rfl, rfl⟩, update_saveColumns]

/-- A row that could be inserted is the only one. -/
theorem stores_of_insert {d : Database} {t : TenantId} {row : ApplicationRow}
    (h : postgres.fault d ⟨t, .insert (.application row)⟩ = none) :
    Keeps (d.apply ⟨t, .insert (.application row)⟩) row := by
  have hnone : d.applications.filter (fun r => r.applicationId = row.applicationId) = [] := by
    refine List.filter_eq_nil_iff.2 fun r hr hid => ?_
    have hfree := (fault_eq_none_iff.1 h).2.1 (.application row.applicationId)
      (by simp [Statement.absent, Row.keys])
    obtain ⟨r', hr', heq⟩ := List.mem_filterMap.1 hr
    have hhas : d.has (.application row.applicationId) = true := by
      refine Database.has_iff.2 ⟨r', hr', ?_⟩
      cases r' <;> cases heq
      simp [Row.keys, of_decide_eq_true hid]
    rw [hhas] at hfree
    cases hfree
  rw [Keeps, applications_insert, List.filter_append, hnone]
  simp [Row.application?]

/-! ### Steps -/

section Alone

variable {σ : Type} {E : Environment Answer σ} {s s' : σ} {d d' : Database} {ws ws' : List Write}

/-- A statement that went through. -/
theorem execute_ok {t : TenantId} {st : Statement}
    (h : (execute t st).alone postgres E s d ws = ⟨d', ws', s', .ok ()⟩) :
    postgres.fault (postgres.view d ws) ⟨t, st⟩ = none ∧ d' = d ∧ ws' = ws ++ [⟨t, st⟩] := by
  rw [execute, Prog.alone] at h
  split at h
  · cases h
  next hfault =>
    cases h
    exact ⟨hfault, rfl, rfl⟩

/-- **The row in the table, and the aggregate in memory that belongs to it**: they agree in what was set
when the application was created. -/
structure Mirrors (created : FixedFields) (d : Database) (ws : List Write) (row : ApplicationRow)
    (application : Application) : Prop where
  stored : Keeps (postgres.view d ws) row
  inRange : row.requestedAmount.minorUnits.natAbs < 10 ^ 18
  row_fixed : row.fixed = created
  memory_fixed : application.fixed = created

variable {created : FixedFields} {row row' : ApplicationRow} {application : Application}

theorem Mirrors.found (h : Mirrors created d ws row application) :
    ((postgres.view d ws).visible application.tenantId).application? application.applicationId =
      some row := by
  have hfixed := h.row_fixed.trans h.memory_fixed.symm
  have hid : row.applicationId = application.applicationId := congrArg FixedFields.applicationId hfixed
  have htenant : row.tenantId = application.tenantId := congrArg FixedFields.tenantId hfixed
  rw [← hid, ← htenant]
  exact h.stored.visible.application?

/-- It is what `get` returns. -/
theorem Mirrors.loaded (h : Mirrors created d ws row application) :
    applicationRow? application.tenantId application.applicationId (postgres.view d ws) =
      some row := by
  have hfixed := h.row_fixed.trans h.memory_fixed.symm
  have htenant : row.tenantId = application.tenantId := congrArg FixedFields.tenantId hfixed
  rw [applicationRow?, h.found]
  exact Option.filter_some_pos (by simp [htenant])

/-- **After a save the row is that of the aggregate**, whether the session still had the row or not. -/
theorem Mirrors.save (h : Mirrors created d ws row application)
    (hsave : (saveApplication application.tenantId row application).alone postgres E s d ws =
      ⟨d', ws', s', .ok row'⟩) :
    row' = applicationToRow application ∧ Mirrors created d' ws' row' application := by
  have hfixed := h.row_fixed.trans h.memory_fixed.symm
  have htenant : row.tenantId = application.tenantId := congrArg FixedFields.tenantId hfixed
  have hcolumns := saveColumns_eq hfixed
  rw [saveApplication] at hsave
  obtain ⟨_, _, _, found, hselect, hsave⟩ := Prog.alone_bind_eq_ok hsave
  rw [alone_select, h.found] at hselect
  cases hselect
  obtain ⟨_, _, _, hit, hask, hsave⟩ := Prog.alone_bind_eq_ok hsave
  cases hask
  have hexisting : cond (E s .identityMapHit).1 row row = row := Bool.cond_self (E s .identityMapHit).1 row
  simp only [Option.map_some] at hsave
  rw [hexisting] at hsave
  split at hsave
  · cases hsave
  obtain ⟨_, _, _, snapshotId, hnew, hsave⟩ := Prog.alone_bind_eq_ok hsave
  cases hnew
  obtain ⟨_, _, _, _, hupdate, hsave⟩ := Prog.alone_bind_eq_ok hsave
  obtain ⟨hfault, rfl, rfl⟩ := execute_ok hupdate
  obtain ⟨_, _, _, _, hinsert, hsave⟩ := Prog.alone_bind_eq_ok hsave
  obtain ⟨-, rfl, rfl⟩ := execute_ok hinsert
  cases hsave
  refine ⟨hcolumns, ?_, ?_, h.row_fixed, h.memory_fixed⟩
  · rw [postgres.view_append, postgres.view_append, ← htenant]
    exact (h.stored.update application).insert row.tenantId rfl
  · exact (check_application_iff.1 (fault_eq_none_iff.1 hfault).1).1

/-- After an aggregate was added its row is in the table. -/
theorem mirrors_of_add
    (hadd : (addApplication application.tenantId application).alone postgres E s d ws =
      ⟨d', ws', s', .ok ()⟩) :
    Mirrors application.fixed d' ws' (applicationToRow application) application := by
  rw [addApplication] at hadd
  obtain ⟨_, _, _, snapshotId, hnew, hadd⟩ := Prog.alone_bind_eq_ok hadd
  cases hnew
  rw [Prog.alone] at hadd
  split at hadd
  · cases hadd
  next hfault =>
    simp only at hadd
    rw [Prog.alone] at hadd
    split at hadd
    · cases hadd
    cases hadd
    refine ⟨?_, ?_, rfl, rfl⟩
    · rw [postgres.view_append, postgres.view_append]
      exact (stores_of_insert hfault).insert application.tenantId rfl
    · have hstatic := (fault_eq_none_iff.1 hfault).1
      rw [Statement.staticFault] at hstatic
      split at hstatic
      · exact (check_application_iff.1 hstatic).1
      · cases hstatic

/-- **A step keeps the row and the aggregate together**, and leaves them the same if it saves. -/
theorem Mirrors.step (h : Mirrors created d ws row application) {step : LifeStep} {application' : Application}
    (hstep : (runStep step (row, application)).alone postgres E s d ws =
      ⟨d', ws', s', .ok (row', application')⟩) :
    Mirrors created d' ws' row' application' ∧
      (step.leavesSaved = true → row' = applicationToRow application') := by
  cases step with
  | transition newStatus reason =>
      obtain ⟨_, _, _, moved, hmove, hstep⟩ := Prog.alone_bind_eq_ok hstep
      cases hstep
      by_cases hlegal : isLegalTransition application.status newStatus = true
      · rw [alone_transition application hlegal] at hmove
        cases hmove
        exact ⟨⟨h.stored, h.inRange, h.row_fixed, h.memory_fixed⟩, nofun⟩
      · rw [alone_transition_illegal application (Bool.not_eq_true _ ▸ hlegal)] at hmove
        cases hmove
  | attachWorkflow workflowId =>
      cases hstep
      exact ⟨⟨h.stored, h.inRange, h.row_fixed, h.memory_fixed⟩, nofun⟩
  | detachWorkflow =>
      cases hstep
      exact ⟨⟨h.stored, h.inRange, h.row_fixed, h.memory_fixed⟩, nofun⟩
  | save =>
      obtain ⟨_, _, _, saved, hsave, hstep⟩ := Prog.alone_bind_eq_ok hstep
      cases hstep
      obtain ⟨hrow, hmirrors⟩ := h.save hsave
      exact ⟨hmirrors, fun _ => hrow⟩
  | reload =>
      obtain ⟨_, _, _, _, hcommit, hstep⟩ := Prog.alone_bind_eq_ok hstep
      cases hcommit
      obtain ⟨_, _, _, loaded, hload, hstep⟩ := Prog.alone_bind_eq_ok hstep
      cases hstep
      have hrow : applicationRow? application.tenantId application.applicationId
          (postgres.view (postgres.view d ws) []) = some row := h.loaded
      rw [alone_requireApplication, hrow] at hload
      cases hload
      exact ⟨⟨h.stored, h.inRange, h.row_fixed, h.row_fixed⟩, fun _ => rfl⟩

/-- **So do any steps.** -/
theorem Mirrors.run : ∀ {steps : List LifeStep} {s : σ} {d : Database} {ws : List Write}
    {row : ApplicationRow} {application application' : Application} (saved : Bool),
    Mirrors created d ws row application →
    (saved = true → row = applicationToRow application) →
    (runSteps steps (row, application)).alone postgres E s d ws =
      ⟨d', ws', s', .ok (row', application')⟩ →
    Mirrors created d' ws' row' application' ∧
      (endSaved saved steps = true → row' = applicationToRow application') := by
  intro steps
  induction steps with
  | nil =>
      intro s d ws row application application' saved h hsaved hrun
      cases hrun
      exact ⟨h, hsaved⟩
  | cons step steps ih =>
      intro s d ws row application application' saved h _ hrun
      obtain ⟨_, _, _, ⟨_, _⟩, hstep, hrun⟩ := Prog.alone_bind_eq_ok hrun
      obtain ⟨hnext, hleaves⟩ := h.step hstep
      exact ih step.leavesSaved hnext hleaves hrun

/-- **What is loaded is what was saved.**  Whatever an aggregate goes through after it was created, if it
is saved in the end, `get` finds a row whose columns are read back as the aggregate in memory, but for
its pending events; and none of the fields that a save leaves out has changed since the creation. -/
theorem loaded_is_saved {applicationId : ApplicationId} {tenantId : TenantId}
    {applicantId : ApplicantId} {product : Product} {requestedAmount : Money}
    {requestedTermMonths : ℤ} {at' : DateTime} {application memory : Application}
    {loaded : Option ApplicationRow} {steps : List LifeStep}
    (hcreate : Application.create applicationId tenantId applicantId product requestedAmount
      requestedTermMonths at' = .ok application)
    (hrun : (runLife application steps).alone postgres E s d ws = ⟨d', ws', s', .ok (memory, loaded)⟩)
    (hsaved : endSaved true steps = true) :
    ∃ row, loaded = some row ∧
      row.columns.application? = some { memory with pendingEvents := [] } ∧
      row.fixed = ⟨applicationId, tenantId, applicantId, product.productId, requestedAmount.currency,
        at'⟩ ∧
      memory.fixed = row.fixed := by
  have hcreated : application.fixed = ⟨applicationId, tenantId, applicantId, product.productId,
      requestedAmount.currency, at'⟩ := by
    rw [Application.create] at hcreate
    split at hcreate
    · cases hcreate
    split at hcreate
    · cases hcreate
    cases hcreate
    rfl
  obtain ⟨_, _, _, _, hadd, hrun⟩ := Prog.alone_bind_eq_ok hrun
  obtain ⟨_, _, _, ⟨row, memory'⟩, hsteps, hrun⟩ := Prog.alone_bind_eq_ok hrun
  obtain ⟨_, _, _, loaded', hload, hrun⟩ := Prog.alone_bind_eq_ok hrun
  cases hrun
  obtain ⟨hmirrors, hrow⟩ := Mirrors.run true (mirrors_of_add hadd) (fun _ => rfl) hsteps
  refine ⟨row, ?_, ?_, hmirrors.row_fixed.trans hcreated, hmirrors.memory_fixed.trans hmirrors.row_fixed.symm⟩
  · have hid : memory.applicationId = application.applicationId :=
      congrArg FixedFields.applicationId hmirrors.memory_fixed
    have htenant : memory.tenantId = application.tenantId :=
      congrArg FixedFields.tenantId hmirrors.memory_fixed
    have hfound := hmirrors.loaded
    rw [hid, htenant] at hfound
    cases hload
    exact hfound
  · rw [columns_read_back hmirrors.inRange, hrow hsaved]
    rfl

end Alone

namespace Sample

/-- Two transitions and two saves in one transaction, and another one after it. -/
def life : List LifeStep :=
  [.transition .submitted "applicant submitted", .attachWorkflow "workflow-1", .save,
    .transition .intakeValidation "intake validation started", .save, .reload,
    .transition .documentProcessing "intake validated", .detachWorkflow, .save]

/-- The second application of the first applicant. -/
def secondApplication : Application where
  applicationId := ⟨(newId 900).value, by decide +kernel⟩
  tenantId := tenantId
  applicantId := ⟨(newId 0).value, by decide +kernel⟩
  productId := productId
  requestedAmount := ⟨250000, .usd⟩
  requestedTermMonths := 24
  status := .draft
  version := 1
  createdAt := noon
  updatedAt := noon
  activeWorkflowId := none
  pendingEvents := [.applicationCreated ⟨(newId 900).value, by decide +kernel⟩ tenantId noon
    productId.value]

def personalLoan : Product :=
  ⟨productId, "PERSONAL", "Personal loan", .usd, ⟨100000, .usd⟩, ⟨5000000, .usd⟩, 6, 60, true,
    by decide, by decide, by decide, by decide⟩

def isOk {α : Type} : Except Error α → Bool
  | .ok _ => true
  | .error _ => false

end Sample

/-- An application is created, moves three times and is saved three times. -/
theorem loaded_is_saved_life : ∃ memory row,
    ((runLife Sample.secondApplication Sample.life).alone postgres Sample.counter
      (Sample.after Sample.creation).2 (Sample.after Sample.creation).1 []).result =
        .ok (memory, some row) ∧
      row.columns.application? = some { memory with pendingEvents := [] } := by
  have hcreate : Application.create Sample.secondApplication.applicationId Sample.tenantId
      Sample.secondApplication.applicantId Sample.personalLoan ⟨250000, .usd⟩ 24 Sample.noon =
      .ok Sample.secondApplication := rfl
  have hok : Sample.isOk ((runLife Sample.secondApplication Sample.life).alone postgres Sample.counter
      (Sample.after Sample.creation).2 (Sample.after Sample.creation).1 []).result = true := by
    decide +kernel
  generalize hrun : (runLife Sample.secondApplication Sample.life).alone postgres Sample.counter
    (Sample.after Sample.creation).2 (Sample.after Sample.creation).1 [] = outcome at hok
  obtain ⟨d', ws', s', result⟩ := outcome
  cases result with
  | error e => cases hok
  | ok ended =>
      obtain ⟨memory, loaded⟩ := ended
      obtain ⟨row, rfl, hcolumns, -, -⟩ := loaded_is_saved hcreate hrun (by decide)
      exact ⟨memory, row, rfl, hcolumns⟩

end FinAssist
