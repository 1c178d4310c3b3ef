/-
**Creating an application over HTTP.**

`POST /applications` checks a request twice: its schema does, and then the constructors of the domain
do, while the command is made and while the handler runs.  They do not agree.  What the schema lets
through and a constructor refuses leaves the handler as an exception that is not in the table, and is
answered as an internal server error: an identifier that is none, a currency that is not supported, an
amount that has too many digits, a name of blanks, an address without an at sign.  So is a text that
the database cannot store.

Main definitions:

* `FinAssist.CreateApplicationRequest` — **what passes the schema**;
* `FinAssist.postApplication` — **a request, with nothing else running**;
* `FinAssist.CreateApplicationRequest.Answered` — what else a request needs.

Main results:

* `FinAssist.alone_createApplication_begin`, `FinAssist.alone_createOf_created` — what becomes of a
  command;
* `FinAssist.createApplication_proper_iff` — **which requests get a proper response**.
-/

import FinAssist.StoredTexts
import FinAssist.ReviewCycles
import FinAssist.UploadApi
import FinAssist.UuidSpellings
import FinAssist.IntakeAgreement

set_option relaxedAutoImplicit false
set_option autoImplicit false

namespace FinAssist

open ReadCommitted Decimals

section Alone

variable {σ α : Type} {E : Environment Answer σ} {G : IdSource E} {s : σ} {d : Database}
  {ws : List Write} {t : TenantId} {n : ℕ}

/-! ### The handler, by itself -/

/-- No text of the client stands in the row of an application. -/
theorem inside_addApplication (application : Application) :
    (addApplication t application).Inside (fun _ => True) (fun _ => True)
      fun w => w.isStorable = true := by
  refine Prog.Inside.bind ⟨trivial, fun _ => trivial⟩ fun snapshotId => ⟨rfl, fun o => ?_⟩
  cases o with
  | some f => trivial
  | none =>
      refine ⟨rfl, fun o => ?_⟩
      cases o <;> trivial

theorem alone_newApplicantId : newApplicantId.alone postgres E s d ws =
    ⟨d, ws, (E s .newId).2, .ok ⟨(idOf E s).value, Uuid.accepts_of_isCanonical _⟩⟩ := by
  rw [newApplicantId, Prog.alone_bind_ok alone_newId, ApplicantId.of?,
    dif_pos (Uuid.accepts_of_isCanonical _)]
  rfl

theorem alone_newApplicationId : newApplicationId.alone postgres E s d ws =
    ⟨d, ws, (E s .newId).2, .ok ⟨(idOf E s).value, Uuid.accepts_of_isCanonical _⟩⟩ := by
  rw [newApplicationId, Prog.alone_bind_ok alone_newId, ApplicationId.of?,
    dif_pos (Uuid.accepts_of_isCanonical _)]
  rfl

theorem inside_newApplicantId {writes : Write → Prop} :
    newApplicantId.Inside (fun _ => True) (fun _ => True) writes := by
  refine Prog.Inside.bind ⟨trivial, fun _ => trivial⟩ fun id => ?_
  cases ApplicantId.of? id.value <;> trivial

theorem inside_newApplicationId {writes : Write → Prop} :
    newApplicationId.Inside (fun _ => True) (fun _ => True) writes := by
  refine Prog.Inside.bind ⟨trivial, fun _ => trivial⟩ fun id => ?_
  cases ApplicationId.of? id.value <;> trivial

/-- The row of an applicant is inserted, if its texts can be stored. -/
def applicantRow (applicant : Applicant) (createdAt : DateTime) : ApplicantRow :=
  ⟨applicant.applicantId, applicant.tenantId, applicant.givenName, applicant.familyName,
    applicant.dateOfBirth, applicant.email, createdAt⟩

/-- Whether the texts that name an applicant can be stored. -/
def Applicant.isStorable (applicant : Applicant) : Bool :=
  FinAssist.isStorable applicant.givenName && FinAssist.isStorable applicant.familyName &&
    FinAssist.isStorable applicant.email

theorem isStorable_applicant (applicant : Applicant) (createdAt : DateTime) :
    Write.isStorable ⟨t, .insert (.applicant (applicantRow applicant createdAt))⟩ =
      applicant.isStorable := by
  simp [Write.isStorable, Statement.inserted?, Row.clientTexts, Row.clientSizes, applicantRow,
    Applicant.isStorable, Bool.and_assoc]

/-- **A text that cannot be stored** ends the handler. -/
theorem alone_addApplicant_refused {applicant : Applicant} (h : applicant.isStorable = false) :
    (addApplicant t applicant).alone postgresTexts E s d ws =
      ⟨d, ws, (E s .now).2, .error (.database .dataError)⟩ := by
  have hfault : postgresTexts.fault (postgresTexts.view d ws)
      ⟨t, .insert (.applicant (applicantRow applicant (timeOf E s)))⟩ = some .dataError :=
    fault_postgresTexts_refused ((isStorable_applicant applicant (timeOf E s)).trans h) _
  rw [addApplicant, Prog.alone_bind]
  simp only [now, Handler.ask, Prog.alone, execute]
  simp only [applicantRow, timeOf] at hfault
  rw [hfault]

theorem inside_addApplicant {applicant : Applicant} (h : applicant.isStorable = true) :
    (addApplicant t applicant).Inside (fun _ => True) (fun _ => True)
      fun w => w.isStorable = true := by
  refine Prog.Inside.bind ⟨trivial, fun _ => trivial⟩ fun createdAt => ⟨?_, fun o => ?_⟩
  · exact (isStorable_applicant applicant createdAt).trans h
  · cases o <;> trivial

/-- **An applicant with a new id is added.** -/
theorem alone_addApplicant {applicant : Applicant} (hfit : Fit G d n s ws)
    (ht : applicant.tenantId = t) (htenant : (postgres.view d ws).has (.tenant t) = true)
    (hfree : (postgres.view d ws).has (.applicant applicant.applicantId) = false)
    (hused : G.used s applicant.applicantId.value) :
    let w : Write := ⟨t, .insert (.applicant (applicantRow applicant (timeOf E s)))⟩
    (addApplicant t applicant).alone postgres E s d ws = ⟨d, ws ++ [w], (E s .now).2, .ok ()⟩ ∧
      Fit G d n (E s .now).2 (ws ++ [w]) := by
  intro w
  have hfault : postgres.fault (postgres.view d ws) w = none := by
    refine Insertable.fault ⟨by simp [Row.visibleTo, Row.tenantId?, applicantRow, ht], rfl, ?_⟩ ?_
    · intro k hk
      rw [List.mem_singleton.1 hk]
      simpa only [applicantRow, ht] using htenant
    · intro k hk
      rw [List.mem_singleton.1 hk]
      exact hfree
  refine ⟨Prog.alone_bind_ok alone_now |>.trans (alone_execute hfault),
    (Fit.ask (n := n) .now hfit).exec hfault ?_⟩
  rintro row hrow k hk id hid
  cases hrow
  rw [List.mem_singleton.1 hk] at hid
  exact Option.some.inj hid ▸ G.kept _ _ _ hused

/-- An application that is not there has no versions. -/
theorem has_version_false (hd : WellFormed d) {a : ApplicationId}
    (h : d.has (.application a) = false) (version : ℕ) :
    d.has (.applicationVersion a version) = false := by
  by_contra hyes
  rw [Bool.not_eq_false] at hyes
  obtain ⟨row, hrow, hk⟩ := Database.has_iff.1 hyes
  cases row with
  | applicationVersion r =>
      simp only [Row.keys, List.mem_cons, reduceCtorEq, Key.applicationVersion.injEq,
        List.not_mem_nil, or_false, false_or] at hk
      have hreference := hd.references _ hrow (.application r.applicationId) (by simp [Row.references])
      rw [← hk.1, h] at hreference
      cases hreference
  | _ => simp [Row.keys] at hk

theorem has_applicationOf_false {a : ApplicationId} (h : d.has (.application a) = false) :
    d.has (.applicationOf t a) = false := by
  by_contra hyes
  rw [Bool.not_eq_false] at hyes
  obtain ⟨row, hrow, hk⟩ := Database.has_iff.1 hyes
  cases row with
  | application r =>
      simp only [Row.keys, List.mem_cons, reduceCtorEq, Key.applicationOf.injEq, List.not_mem_nil,
        or_false, false_or] at hk
      have hthere : d.has (.application a) = true :=
        Database.has_iff.2 ⟨_, hrow, by simp [Row.keys, hk.2]⟩
      rw [h] at hthere
      cases hthere
  | _ => simp [Row.keys] at hk

/-- **An application with a new id is added**, if its row meets the constraints. -/
theorem alone_addApplication {application : Application} (hd : WellFormed d)
    (hfit : Fit G d (n + 1) s ws) (ht : application.tenantId = t)
    (hcheck : (Row.application (applicationToRow application)).check = none)
    (hrefs : ∀ k ∈ (Row.application (applicationToRow application)).references,
      (postgres.view d ws).has k = true)
    (hfree : (postgres.view d ws).has (.application application.applicationId) = false)
    (hused : G.used s application.applicationId.value) :
    let ws' := ws ++ [⟨t, .insert (.application (applicationToRow application))⟩] ++
      [⟨t, .insert (.applicationVersion (versionSnapshotRow application (idOf E s).value))⟩]
    (addApplication t application).alone postgres E s d ws = ⟨d, ws', (E s .newId).2, .ok ()⟩ ∧
      Fit G d n (E s .newId).2 ws' := by
  have hview := hd.view hfit.granted
  have hfit₁ := Fit.ask .newId hfit
  have hsnapshot : (postgres.view d ws).has (.applicationVersionId (idOf E s).value) = false :=
    hfit.free rfl hfit.new
  -- the application
  have hinsert : postgres.fault (postgres.view d ws)
      ⟨t, .insert (.application (applicationToRow application))⟩ = none := by
    refine Insertable.fault ⟨?_, hcheck, hrefs⟩ ?_
    · simp [Row.visibleTo, Row.tenantId?, applicationToRow, ht]
    · intro k hk
      simp only [Row.keys, applicationToRow, List.mem_cons, List.not_mem_nil, or_false] at hk
      rcases hk with rfl | rfl
      · exact hfree
      · exact has_applicationOf_false hfree
  have hfit₂ := hfit₁.exec hinsert (by
    rintro row hrow k hk id hid
    cases hrow
    simp only [Row.keys, applicationToRow, List.mem_cons, List.not_mem_nil, or_false] at hk
    rcases hk with rfl | rfl
    · exact Option.some.inj hid ▸ G.kept _ _ _ hused
    · cases hid)
  -- its first version
  have hversion : postgres.fault
      (postgres.view d (ws ++ [⟨t, .insert (.application (applicationToRow application))⟩]))
      ⟨t, .insert (.applicationVersion (versionSnapshotRow application (idOf E s).value))⟩ = none := by
    rw [postgres.view_append]
    refine Insertable.fault ⟨?_, ?_, ?_⟩ ?_
    · simp [Row.visibleTo, Row.tenantId?, versionSnapshotRow, ht]
    · have hrange := (check_application_iff.1 hcheck).1
      simp only [applicationToRow] at hrange
      simp only [Row.check, versionSnapshotRow]
      exact if_neg (by omega)
    · intro k hk
      simp only [Row.references, versionSnapshotRow, List.mem_cons, List.not_mem_nil, or_false] at hk
      rcases hk with rfl | rfl
      · exact Database.has_apply.2 (Or.inr ⟨_, rfl, by simp [Row.keys, applicationToRow]⟩)
      · exact Database.has_apply.2 (Or.inl (hrefs _ (by simp [Row.references, applicationToRow])))
    · intro k hk
      by_contra hyes
      rw [Bool.not_eq_false] at hyes
      simp only [Row.keys, versionSnapshotRow, List.mem_cons, List.not_mem_nil, or_false] at hk
      rcases Database.has_apply.1 hyes with hold | ⟨row, hrow, hmem⟩
      · rcases hk with rfl | rfl
        · rw [hsnapshot] at hold
          cases hold
        · rw [has_version_false hview hfree] at hold
          cases hold
      · cases hrow
        simp only [Row.keys, applicationToRow, List.mem_cons, List.not_mem_nil, or_false] at hmem
        rcases hk with rfl | rfl <;> simp at hmem
  have hfit₃ := hfit₂.exec hversion (by
    rintro row hrow k hk id hid
    cases hrow
    simp only [Row.keys, versionSnapshotRow, List.mem_cons, List.not_mem_nil, or_false] at hk
    rcases hk with rfl | rfl
    · exact Option.some.inj hid ▸ G.noted s
    · cases hid)
  refine ⟨?_, hfit₃⟩
  rw [addApplication, Prog.alone_bind_ok alone_newId]
  simp only [Prog.alone, hinsert, hversion]

/-- The reservation of a creation. -/
def creationReserve (E : Environment Answer σ) (s : σ) (command : CreateApplicationCommand) : Write :=
  reserveWrite command.tenantId createApplicationOperation command.idempotencyKey (timeOf E s)

variable {command : CreateApplicationCommand}

/-- A key that cannot be stored. -/
theorem alone_createApplication_key (h : isStorable command.idempotencyKey = false) :
    (createApplication command).alone postgresTexts E s d [] =
      ⟨d, [], (E s .now).2, .error (.database .dataError)⟩ := by
  have hreserve := alone_requireReservation_refused (E := E) (s := s) (d := d)
    (t := command.tenantId) createApplicationOperation h
  rw [createApplication, Prog.alone_bind_error hreserve]

/-- A key that is taken. -/
theorem alone_createApplication_duplicate (hkey : isStorable command.idempotencyKey = true)
    (h : d.has (.idempotencyKey command.tenantId createApplicationOperation
      command.idempotencyKey) = true) :
    (createApplication command).alone postgresTexts E s d [] =
      ⟨d, [], (E s .now).2,
        .error (.duplicateRequest createApplicationOperation command.idempotencyKey)⟩ := by
  have hreserve := alone_postgresTexts (E := E) (d := d) (inside_requireReservation
    (t := command.tenantId) createApplicationOperation hkey) s []
  rw [alone_requireReservation, if_pos h] at hreserve
  rw [createApplication, Prog.alone_bind_error hreserve]

/-- What is left of the handler when the product is there. -/
def createOf (command : CreateApplicationCommand) (product : Product) :
    Handler CreateApplicationResult :=
  if !product.accepts command.requestedAmount command.requestedTermMonths then
    Handler.raise (.productRejectedRequest command.productId command.requestedAmount.amountText
      command.requestedTermMonths)
  else do
    let applicantId ← newApplicantId
    let applicant ← Handler.ofExcept (Applicant.of applicantId command.tenantId
      command.applicantGivenName command.applicantFamilyName command.applicantDateOfBirth
      command.applicantEmail)
    addApplicant command.tenantId applicant
    let applicationId ← newApplicationId
    let at' ← now
    let application ← Handler.ofExcept (Application.create applicationId command.tenantId
      applicant.applicantId product command.requestedAmount command.requestedTermMonths at')
    addApplication command.tenantId application
    recordAndCommit command.tenantId application
    pure ⟨application.applicationId, applicant.applicantId, application.status, application.version⟩

/-- **The reservation is made, and the product is read.** -/
theorem alone_createApplication_begin (hkey : isStorable command.idempotencyKey = true)
    (hfree : d.has (.idempotencyKey command.tenantId createApplicationOperation
      command.idempotencyKey) = false) :
    (createApplication command).alone postgresTexts E s d [] =
      match d.productOf? command.tenantId command.productId with
      | none => ⟨d, [creationReserve E s command], (E s .now).2,
          .error (.productNotFound command.productId)⟩
      | some row => match rowToProduct row with
        | .error e => ⟨d, [creationReserve E s command], (E s .now).2, .error e⟩
        | .ok product => (createOf command product).alone postgresTexts E (E s .now).2 d
            [creationReserve E s command] := by
  have hreserve := alone_postgresTexts (E := E) (d := d) (inside_requireReservation
    (t := command.tenantId) createApplicationOperation hkey) s []
  rw [alone_requireReservation, if_neg (by simp [hfree])] at hreserve
  have hproduct : (((postgres.view d [creationReserve E s command]).visible
      command.tenantId).products.find? fun r => r.productId = command.productId) =
        d.productOf? command.tenantId command.productId := by
    rw [Database.products, creationReserve, filterMap_reserved _ fun _ => rfl]
    rfl
  rw [createApplication, Prog.alone_bind_ok hreserve, Prog.alone_bind]
  simp only [requireProduct, Prog.alone_bind, select, Prog.alone, view_postgresTexts]
  simp only [creationReserve] at hproduct
  rw [hproduct]
  cases d.productOf? command.tenantId command.productId with
  | none => rfl
  | some row =>
      simp only
      cases rowToProduct row with
      | error e => rfl
      | ok product => rfl

/-- What the constructor of an applicant checks. -/
def namesApplicant (command : CreateApplicationCommand) : Bool :=
  !isBlankText command.applicantGivenName && !isBlankText command.applicantFamilyName &&
    command.applicantEmail.toList.contains '@'

theorem applicant_of_error (h : namesApplicant command = false) (applicantId : ApplicantId) :
    ∃ text, Applicant.of applicantId command.tenantId command.applicantGivenName
      command.applicantFamilyName command.applicantDateOfBirth command.applicantEmail =
        .error (.valueError text) := by
  rw [Applicant.of]
  by_cases hg : isBlankText command.applicantGivenName = false
  · by_cases hf : isBlankText command.applicantFamilyName = false
    · have he : ¬ command.applicantEmail.toList.contains '@' = true := by
        intro he
        rw [namesApplicant, hg, hf, he] at h
        cases h
      rw [dif_pos hg, dif_pos hf, dif_neg he]
      exact ⟨_, rfl⟩
    · rw [dif_pos hg, dif_neg hf]
      exact ⟨_, rfl⟩
  · rw [dif_neg hg]
    exact ⟨_, rfl⟩

theorem applicant_of_ok (h : namesApplicant command = true) (applicantId : ApplicantId) :
    ∃ applicant, Applicant.of applicantId command.tenantId command.applicantGivenName
        command.applicantFamilyName command.applicantDateOfBirth command.applicantEmail =
          .ok applicant ∧ applicant.applicantId = applicantId ∧
      applicant.tenantId = command.tenantId ∧ applicant.isStorable =
        (isStorable command.applicantGivenName && isStorable command.applicantFamilyName &&
          isStorable command.applicantEmail) := by
  simp only [namesApplicant, Bool.and_eq_true, Bool.not_eq_true'] at h
  rw [Applicant.of, dif_pos h.1.1, dif_pos h.1.2, dif_pos h.2]
  exact ⟨_, rfl, rfl, rfl, rfl⟩

theorem ofExcept_ok (a : α) : Handler.ofExcept (.ok a) = pure a := rfl

variable {product : Product}

/-- **An application can be constructed**, of a positive amount and a term. -/
theorem application_create_ok (applicationId : ApplicationId) (applicantId : ApplicantId)
    (product : Product) {amount : Money} {termMonths : ℤ} (hamount : 0 < amount.minorUnits) (hterm : 1 ≤ termMonths)
    (at' : DateTime) : ∃ application,
      Application.create applicationId t applicantId product amount termMonths at' = .ok application ∧
      application.applicationId = applicationId ∧ application.tenantId = t ∧
      application.applicantId = applicantId ∧ application.productId = product.productId ∧
      application.requestedAmount = amount ∧ application.requestedTermMonths = termMonths ∧
      application.version = 1 ∧ application.pendingEvents.length = 1 ∧
      ∀ event ∈ application.pendingEvents, event.tenantId = t := by
  rw [Application.create, if_neg (by simp [Money.isNegative, Money.isZero]; omega),
    if_neg (by omega)]
  exact ⟨_, rfl, rfl, rfl, rfl, rfl, rfl, rfl, rfl, rfl, by simp [DomainEvent.tenantId]⟩

theorem alone_createOf_rejected
    (h : product.accepts command.requestedAmount command.requestedTermMonths = false) :
    (createOf command product).alone postgresTexts E s d ws =
      ⟨d, ws, s, .error (.productRejectedRequest command.productId
        command.requestedAmount.amountText command.requestedTermMonths)⟩ := by
  rw [createOf, h]
  rfl

/-- **An applicant who cannot be constructed** ends the handler. -/
theorem alone_createOf_invalid (ws : List Write)
    (h : product.accepts command.requestedAmount command.requestedTermMonths = true)
    (hnames : namesApplicant command = false) :
    ∃ s' text, (createOf command product).alone postgresTexts E s d ws =
      ⟨d, ws, s', .error (.valueError text)⟩ := by
  have hid := (alone_postgresTexts (E := E) (d := d) inside_newApplicantId s ws).trans alone_newApplicantId
  obtain ⟨text, hof⟩ := applicant_of_error hnames ⟨(idOf E s).value, Uuid.accepts_of_isCanonical _⟩
  refine ⟨(E s .newId).2, text, ?_⟩
  rw [createOf, h]
  simp only [Bool.not_true, Bool.false_eq_true, if_false]
  rw [Prog.alone_bind_ok hid, hof]
  rfl

/-- **A name that cannot be stored** ends the handler. -/
theorem alone_createOf_unstorable (ws : List Write)
    (h : product.accepts command.requestedAmount command.requestedTermMonths = true)
    (hnames : namesApplicant command = true)
    (hstorable : (isStorable command.applicantGivenName && isStorable command.applicantFamilyName &&
      isStorable command.applicantEmail) = false) :
    ∃ s', (createOf command product).alone postgresTexts E s d ws =
      ⟨d, ws, s', .error (.database .dataError)⟩ := by
  have hid := (alone_postgresTexts (E := E) (d := d) inside_newApplicantId s ws).trans alone_newApplicantId
  obtain ⟨applicant, hof, -, -, happlicant⟩ :=
    applicant_of_ok hnames ⟨(idOf E s).value, Uuid.accepts_of_isCanonical _⟩
  refine ⟨(E (E s .newId).2 .now).2, ?_⟩
  rw [createOf, h]
  simp only [Bool.not_true, Bool.false_eq_true, if_false]
  rw [Prog.alone_bind_ok hid, hof, ofExcept_ok, pure_bind]
  exact Prog.alone_bind_error (alone_addApplicant_refused (happlicant.trans hstorable))

/-- **An application is created**, if its constructors accept what they are given. -/
theorem alone_createOf_created (hd : WellFormed d) (hinUse : InUse (G.used s) d) (hleft : 4 ≤ G.left s)
    (hfree : d.has (.idempotencyKey command.tenantId createApplicationOperation
      command.idempotencyKey) = false)
    (htenant : d.has (.tenant command.tenantId) = true) (hproduct : d.has (.product product.productId) = true)
    (h : product.accepts command.requestedAmount command.requestedTermMonths = true)
    (hnames : namesApplicant command = true)
    (hstorable : (isStorable command.applicantGivenName && isStorable command.applicantFamilyName &&
      isStorable command.applicantEmail) = true)
    (hamount : 0 < command.requestedAmount.minorUnits)
    (hrange : command.requestedAmount.minorUnits < 10 ^ 18)
    (hterm : 1 ≤ command.requestedTermMonths) :
    ∃ d' s' result, (createOf command product).alone postgresTexts E (E s .now).2 d
      [creationReserve E s command] = ⟨d', [], s', .ok result⟩ := by
  -- the reservation, and the applicant
  have hfit : Fit G d 4 (E s .now).2 [creationReserve E s command] := Fit.begin hinUse hleft hfree
  generalize (E s .now).2 = s₁ at hfit ⊢
  generalize [creationReserve E s command] = ws at hfit ⊢
  have hid := (alone_postgresTexts (E := E) (d := d) inside_newApplicantId s₁ ws).trans alone_newApplicantId
  obtain ⟨applicant, hof, happlicantId, happlicantT, happlicant⟩ :=
    applicant_of_ok hnames ⟨(idOf E s₁).value, Uuid.accepts_of_isCanonical _⟩
  rw [hstorable] at happlicant
  have hnew := hfit.free (k := .applicant applicant.applicantId) rfl (happlicantId ▸ hfit.new)
  have hused : G.used (E s₁ .newId).2 applicant.applicantId.value := happlicantId ▸ G.noted s₁
  obtain ⟨hadd, hfit₁⟩ := alone_addApplicant (Fit.ask (n := 3) .newId hfit) happlicantT
    (has_view_of_has htenant) hnew hused
  have hadd' := (alone_postgresTexts (E := E) (d := d) (inside_addApplicant (t := command.tenantId)
    happlicant) (E s₁ .newId).2 ws).trans hadd
  generalize hs₂ : (E (E s₁ .newId).2 .now).2 = s₂ at hadd' hfit₁
  generalize hws₁ : ws ++ [_] = ws₁ at hadd' hfit₁
  have hthere : (postgres.view d ws₁).has (.applicant applicant.applicantId) = true := by
    rw [← hws₁, postgres.view_append]
    exact Database.has_apply.2 (Or.inr ⟨_, rfl, by simp [Row.keys, applicantRow]⟩)
  -- the application
  have hid' := (alone_postgresTexts (E := E) (d := d) inside_newApplicationId s₂ ws₁).trans
    alone_newApplicationId
  obtain ⟨application, hcreate, happlicationId, happlicationT, happlicant', hproduct', hamount', hterm',
    hversion, hevents, htenants⟩ := application_create_ok (t := command.tenantId)
      ⟨(idOf E s₂).value, Uuid.accepts_of_isCanonical _⟩ applicant.applicantId product hamount hterm
      (timeOf E (E s₂ .newId).2)
  have hfree' := hfit₁.free (k := .application application.applicationId) rfl
    (happlicationId ▸ hfit₁.new)
  have hused' : G.used (E (E s₂ .newId).2 .now).2 application.applicationId.value :=
    happlicationId ▸ G.kept _ _ _ (G.noted s₂)
  have hcheck : (Row.application (applicationToRow application)).check = none := by
    rw [check_application_iff]
    simp only [applicationToRow, hamount', hterm', hversion]
    exact ⟨by omega, hamount, hterm, le_rfl⟩
  have hrefs : ∀ k ∈ (Row.application (applicationToRow application)).references,
      (postgres.view d ws₁).has k = true := by
    intro k hk
    simp only [Row.references, applicationToRow, happlicationT, happlicant', hproduct', List.mem_cons,
      List.not_mem_nil, or_false] at hk
    rcases hk with rfl | rfl | rfl
    · exact has_view_of_has htenant
    · exact hthere
    · exact has_view_of_has hproduct
  obtain ⟨hadded, hfit₂⟩ := alone_addApplication hd
    (Fit.ask (n := 2) .now (Fit.ask .newId hfit₁)) happlicationT hcheck hrefs hfree' hused'
  have hadded' := (alone_postgresTexts (E := E) (d := d) (inside_addApplication (t := command.tenantId)
    application) (E (E s₂ .newId).2 .now).2 ws₁).trans hadded
  -- its event
  have hlength : 0 + application.pullEvents.1.length = 1 := (Nat.zero_add _).trans hevents
  rw [← hlength] at hfit₂
  obtain ⟨s', recording, hrecord, -, -⟩ :=
    alone_recordDomainEvents hfit₂ htenants (Or.inr hevents.le)
  have hrecord' := (alone_postgresTexts (E := E) (d := d) ((inside_recordDomainEvents
    (t := command.tenantId) application.pullEvents.1).mono (fun _ h => h) (fun _ h => h)
      fun _ h => h.isStorable) _ _).trans hrecord
  rw [createOf, h]
  simp only [Bool.not_true, Bool.false_eq_true, if_false]
  rw [Prog.alone_bind_ok hid, hof, ofExcept_ok, pure_bind, Prog.alone_bind_ok hadd',
    Prog.alone_bind_ok hid']
  have hnow : now.alone postgresTexts E (E s₂ .newId).2 d ws₁ =
      ⟨d, ws₁, (E (E s₂ .newId).2 .now).2, .ok (timeOf E (E s₂ .newId).2)⟩ := rfl
  rw [Prog.alone_bind_ok hnow, hcreate, ofExcept_ok, pure_bind, Prog.alone_bind_ok hadded',
    recordAndCommit]
  have hcommitted := Prog.alone_bind_ok hrecord' (f := fun _ => Handler.commit)
  exact ⟨_, _, _, Prog.alone_bind_ok hcommitted⟩

end Alone

/-! ### The request -/

/-- **`CreateApplicationRequest`**, with what its schema checks. -/
structure CreateApplicationRequest where
  applicantGivenName : String
  applicantFamilyName : String
  applicantDateOfBirth : Date
  applicantEmail : String
  productId : String
  requestedAmount : Decimal
  currency : String
  requestedTermMonths : ℤ
  givenName_length : 1 ≤ applicantGivenName.length
  familyName_length : 1 ≤ applicantFamilyName.length
  email_length : 3 ≤ applicantEmail.length
  amount_pos : 0 < requestedAmount.toRat
  currency_length : currency.length = 3
  term_pos : 1 ≤ requestedTermMonths

/-- `TenantId(value)`. -/
def TenantId.construct (value : String) : Except Error TenantId :=
  if h : Uuid.accepts value = true then .ok ⟨value, h⟩
  else .error (.valueError ("TenantId value " ++ pyRepr value ++ " is not a valid UUID"))

/-- `ProductId(value)`. -/
def ProductId.construct (value : String) : Except Error ProductId :=
  if h : Uuid.accepts value = true then .ok ⟨value, h⟩
  else .error (.valueError ("ProductId value " ++ pyRepr value ++ " is not a valid UUID"))

/-- What leaves the constructor of an amount. -/
def MoneyError.toError : MoneyError → Error
  | unsupportedCurrency currency => .unsupportedCurrency currency
  | currencyMismatch left right =>
      .valueError ("cannot combine " ++ pyRepr left ++ " and " ++ pyRepr right ++ " amounts")
  | decimal .invalidOperation => .external "[<class 'decimal.InvalidOperation'>]"
  | decimal .overflow => .external "[<class 'decimal.Overflow'>]"

namespace CreateApplicationRequest

/-- `get_tenant_id`, and the command that the route makes. -/
def command (body : CreateApplicationRequest) (xTenantId idempotencyKey : String) :
    Except Error CreateApplicationCommand := do
  let tenantId ← TenantId.construct xTenantId
  let productId ← ProductId.construct body.productId
  let requestedAmount ←
    (DecimalMoney.construct body.requestedAmount body.currency).mapError MoneyError.toError
  pure ⟨tenantId, idempotencyKey, body.applicantGivenName, body.applicantFamilyName,
    body.applicantDateOfBirth, body.applicantEmail, productId, requestedAmount.toMoney,
    body.requestedTermMonths⟩

/-- The amount in hundredths, rounded half to even. -/
def hundredths (body : CreateApplicationRequest) : Decimal := body.requestedAmount.rescale (-2)

/-- **What the constructors of the command need** of a request. -/
structure Constructs (xTenantId : String) (body : CreateApplicationRequest) : Prop where
  tenantId : Uuid.accepts xTenantId = true
  productId : Uuid.accepts body.productId = true
  currency : body.currency = "USD" ∨ body.currency = "EUR"
  digits : body.hundredths.coefficient < 10 ^ 28

/-- Whether the request is within the bounds of a product. -/
structure Within (row : ProductRow) (body : CreateApplicationRequest) : Prop where
  active : row.isActive = true
  currency : body.currency = row.currency
  amount : row.minAmount ≤ body.hundredths.signed ∧ body.hundredths.signed ≤ row.maxAmount
  term : row.minTermMonths ≤ body.requestedTermMonths ∧ body.requestedTermMonths ≤ row.maxTermMonths

/-- What the constructor of an applicant and the columns of one need of the names. -/
structure NamesApplicant (body : CreateApplicationRequest) : Prop where
  givenName : isBlankText body.applicantGivenName = false
  familyName : isBlankText body.applicantFamilyName = false
  email : '@' ∈ body.applicantEmail.toList
  storable : isStorable body.applicantGivenName = true ∧ isStorable body.applicantFamilyName = true ∧
    isStorable body.applicantEmail = true

end CreateApplicationRequest

/-- Whether the tenant has created an application under this key. -/
def Database.hasCreated (d : Database) (tenantId key : String) : Prop :=
  ∃ r ∈ d.idempotencyKeys, r.tenantId.value = tenantId ∧
    r.operationName = createApplicationOperation ∧ r.idempotencyKey = key

/-- The product of the tenant under this id. -/
def Database.productNamed? (d : Database) (tenantId productId : String) : Option ProductRow :=
  d.products.find? fun r => r.tenantId.value = tenantId && r.productId.value = productId

/-- **What a request needs to be answered properly.**  If the key is new and the product is there, the
currency of the product has to be one of those supported, and a request that is within the bounds of
the product has to name an applicant. -/
structure CreateApplicationRequest.Answered (d : Database) (xTenantId idempotencyKey : String)
    (body : CreateApplicationRequest) : Prop where
  constructs : body.Constructs xTenantId
  key : isStorable idempotencyKey = true
  product : ¬ d.hasCreated xTenantId idempotencyKey →
    ∀ row, d.productNamed? xTenantId body.productId = some row →
      (row.currency = "USD" ∨ row.currency = "EUR") ∧ (body.Within row → body.NamesApplicant)

section Route

variable {σ : Type}

/-- **A request to create an application**, with nothing else running. -/
def postApplication (E : Environment Answer σ) (xTenantId idempotencyKey : String)
    (body : CreateApplicationRequest) (s : σ) (d : Database) : Response × Database :=
  match body.command xTenantId idempotencyKey with
  | .error e => (problemResponse e, d)
  | .ok command =>
      let outcome := (createApplication command).alone postgresTexts E s d []
      (respond 201 outcome.result, outcome.db)

variable {E : Environment Answer σ} {G : IdSource E} {s : σ} {d : Database}
  {xTenantId idempotencyKey : String} {body : CreateApplicationRequest}

theorem isProper_respond_ok {α : Type} (a : α) : (respond 201 (.ok a : Except Error α)).IsProper :=
  Or.inl rfl

theorem Currency.ofCode?_eq_none {code : String} (h : Currency.ofCode? code = none) :
    code ≠ "USD" ∧ code ≠ "EUR" := by
  rw [Currency.ofCode?] at h
  split at h
  next => cases h
  next husd =>
    split at h
    next => cases h
    next heur => exact ⟨husd, heur⟩

theorem supported_iff {code : String} :
    (code = "USD" ∨ code = "EUR") ↔ ∃ c, Currency.ofCode? code = some c := by
  cases h : Currency.ofCode? code with
  | none =>
      obtain ⟨husd, heur⟩ := Currency.ofCode?_eq_none h
      exact ⟨fun hor => absurd hor (not_or.2 ⟨husd, heur⟩), fun ⟨_, hc⟩ => nomatch hc⟩
  | some c =>
      refine ⟨fun _ => ⟨c, rfl⟩, fun _ => ?_⟩
      rw [Currency.ofCode?] at h
      split at h
      next husd => exact Or.inl husd
      next =>
        split at h
        next heur => exact Or.inr heur
        next => cases h

/-- **A command is made** of a request that its constructors accept. -/
theorem command_of_constructs (idempotencyKey : String) (h : body.Constructs xTenantId) : ∃ c,
    Currency.ofCode? body.currency = some c ∧ body.command xTenantId idempotencyKey =
      .ok ⟨⟨xTenantId, h.tenantId⟩, idempotencyKey, body.applicantGivenName, body.applicantFamilyName,
        body.applicantDateOfBirth, body.applicantEmail, ⟨body.productId, h.productId⟩,
        ⟨body.hundredths.signed, c⟩, body.requestedTermMonths⟩ := by
  obtain ⟨c, hc⟩ := supported_iff.1 h.currency
  have hcode := Currency.ofCode?_eq_some hc
  have hexponent : -c.minorUnitExponent = -2 := by cases c <;> rfl
  obtain ⟨m, hm⟩ := DecimalMoney.construct_isOk_iff.2
    (show (body.requestedAmount.rescale (-c.minorUnitExponent)).coefficient < 10 ^ defaultContext.prec by
      rw [hexponent]
      exact h.digits)
  obtain ⟨hcurrency, hquantized⟩ := DecimalMoney.construct_ok_iff.1 hm
  have hmoney : m.toMoney = ⟨body.hundredths.signed, c⟩ := by
    have hdigits : (body.requestedAmount.rescale (-2)).coefficient < 10 ^ defaultContext.prec := h.digits
    rw [Context.quantize_eq c.exponent_bounds.1 c.exponent_bounds.2, hexponent, if_pos hdigits]
      at hquantized
    rw [DecimalMoney.toMoney, ← Except.ok.inj hquantized, hcurrency]
    rfl
  refine ⟨c, hc, ?_⟩
  rw [CreateApplicationRequest.command, TenantId.construct, dif_pos h.tenantId, ProductId.construct,
    dif_pos h.productId, hcode, hm, ← hmoney]
  rfl

/-- **Otherwise an exception is raised that is not in the table.** -/
theorem command_of_not_constructs (idempotencyKey : String) (h : ¬ body.Constructs xTenantId) :
    ∃ e, body.command xTenantId idempotencyKey = .error e ∧ domainException e = none := by
  rw [CreateApplicationRequest.command]
  by_cases ht : Uuid.accepts xTenantId = true
  swap
  · rw [TenantId.construct, dif_neg ht]
    exact ⟨_, rfl, rfl⟩
  rw [TenantId.construct, dif_pos ht]
  by_cases hp : Uuid.accepts body.productId = true
  swap
  · rw [ProductId.construct, dif_neg hp]
    exact ⟨_, rfl, rfl⟩
  rw [ProductId.construct, dif_pos hp]
  cases hamount : DecimalMoney.construct body.requestedAmount body.currency with
  | error e =>
      refine ⟨e.toError, rfl, ?_⟩
      cases e with
      | unsupportedCurrency currency => rfl
      | currencyMismatch left right => rfl
      | decimal signal => cases signal <;> rfl
  | ok m =>
      refine absurd ⟨ht, hp, ?_, ?_⟩ h
      · rw [supported_iff]
        cases hc : Currency.ofCode? body.currency with
        | some c => exact ⟨c, rfl⟩
        | none =>
            rw [DecimalMoney.construct, hc] at hamount
            cases hamount
      · cases hc : Currency.ofCode? body.currency with
        | none =>
            rw [DecimalMoney.construct, hc] at hamount
            cases hamount
        | some c =>
            have hexponent : -c.minorUnitExponent = -2 := by cases c <;> rfl
            have hdigits := DecimalMoney.construct_isOk_iff.1
              ⟨m, (Currency.ofCode?_eq_some hc) ▸ hamount⟩
            rwa [hexponent] at hdigits

/-! ### Who asks, and for what -/

theorem hasCreated_iff {t : TenantId} {key : String} :
    d.hasCreated t.value key ↔ d.has (.idempotencyKey t createApplicationOperation key) = true := by
  rw [Database.has_iff]
  constructor
  · rintro ⟨r, hr, ht, ho, hk⟩
    obtain ⟨row, hrow, hproj⟩ := List.mem_filterMap.1 hr
    cases row <;> simp only [Row.idempotencyKey?, Option.some.injEq, reduceCtorEq] at hproj
    subst hproj
    exact ⟨_, hrow, by simp [Row.keys, TenantId.ext_value ht, ho, hk]⟩
  · rintro ⟨row, hrow, hk⟩
    cases row with
    | idempotencyKey r =>
      rw [Row.keys, List.mem_singleton, Key.idempotencyKey.injEq] at hk
      exact ⟨r, List.mem_filterMap.2 ⟨_, hrow, rfl⟩, by rw [hk.1], hk.2.1.symm, hk.2.2.symm⟩
    | _ => simp [Row.keys] at hk

theorem products_visible (d : Database) (t : TenantId) :
    (d.visible t).products = d.products.filter fun r => r.tenantId = t := by
  obtain ⟨rows⟩ := d
  simp only [Database.products, Database.visible, List.filterMap_filter, List.filter_filterMap]
  refine List.filterMap_congr fun r _ => ?_
  cases r <;> simp [Row.visibleTo, Row.tenantId?, Row.product?, Option.filter]

theorem productNamed?_eq (t : TenantId) (p : ProductId) :
    d.productNamed? t.value p.value = d.productOf? t p := by
  rw [Database.productOf?, products_visible, List.find?_filter, Database.productNamed?]
  refine congrArg (d.products.find? ·) (funext fun r => ?_)
  have ht : r.tenantId.value = t.value ↔ r.tenantId = t := ⟨TenantId.ext_value, congrArg _⟩
  have hp : r.productId.value = p.value ↔ r.productId = p := by
    cases r.productId
    cases p
    simp
  simp [ht, hp]

/-- The row of a product that a tenant finds, with the rows that it needs. -/
theorem product_found {t : TenantId} {p : ProductId} {row : ProductRow} (hd : WellFormed d)
    (h : d.productOf? t p = some row) :
    row ∈ d.products ∧ d.has (.product row.productId) = true ∧ d.has (.tenant t) = true := by
  rw [Database.productOf?, products_visible] at h
  obtain ⟨hmem, ht⟩ := List.mem_filter.1 (List.mem_of_find?_eq_some h)
  obtain ⟨r, hr, hproj⟩ := List.mem_filterMap.1 hmem
  cases r <;> simp only [Row.product?, Option.some.injEq, reduceCtorEq] at hproj
  subst hproj
  refine ⟨hmem, Database.has_iff.2 ⟨_, hr, by simp [Row.keys]⟩, ?_⟩
  exact of_decide_eq_true ht ▸ hd.references _ hr _ (List.mem_singleton.2 rfl)

theorem rowToProduct_error {row : ProductRow} {e : Error} (h : rowToProduct row = .error e) :
    Currency.ofCode? row.currency = none ∧ e = .unsupportedCurrency row.currency := by
  rw [rowToProduct] at h
  split at h
  next hc =>
    cases h
    exact ⟨hc, rfl⟩
  next => cases h

/-- A product that is read from its row. -/
theorem rowToProduct_ok {row : ProductRow} {product : Product} (h : rowToProduct row = .ok product) :
    (row.currency = "USD" ∨ row.currency = "EUR") ∧ product.productId = row.productId := by
  rw [rowToProduct] at h
  split at h
  next => cases h
  next c hc =>
    cases h
    exact ⟨supported_iff.2 ⟨c, hc⟩, rfl⟩

theorem CreateApplicationRequest.within_iff {row : ProductRow} (body : CreateApplicationRequest) :
    body.Within row ↔ row.isActive = true ∧ body.currency = row.currency ∧
      (row.minAmount ≤ body.hundredths.signed ∧ body.hundredths.signed ≤ row.maxAmount) ∧
      row.minTermMonths ≤ body.requestedTermMonths ∧ body.requestedTermMonths ≤ row.maxTermMonths :=
  ⟨fun h => ⟨h.active, h.currency, h.amount, h.term⟩, fun ⟨h₁, h₂, h₃, h₄⟩ => ⟨h₁, h₂, h₃, h₄⟩⟩

/-- What a product accepts of the command that is made of a request. -/
theorem accepts_iff_within {row : ProductRow} {product : Product} {c : Currency}
    (hc : Currency.ofCode? body.currency = some c) (h : rowToProduct row = .ok product) :
    product.accepts ⟨body.hundredths.signed, c⟩ body.requestedTermMonths = true ↔ body.Within row := by
  rw [rowToProduct] at h
  split at h
  next => cases h
  next c' hc' =>
    cases h
    have hcurrency : c = c' ↔ body.currency = row.currency := by
      constructor
      · rintro rfl
        exact (Currency.ofCode?_eq_some hc).trans (Currency.ofCode?_eq_some hc').symm
      · intro heq
        rw [heq, hc'] at hc
        exact (Option.some.inj hc).symm
    rw [body.within_iff, ← hcurrency, Product.accepts]
    cases row.isActive <;> by_cases heq : c = c' <;> simp [heq, and_assoc]

theorem CreateApplicationRequest.namesApplicant_iff (body : CreateApplicationRequest) :
    body.NamesApplicant ↔
      (!isBlankText body.applicantGivenName && !isBlankText body.applicantFamilyName &&
        body.applicantEmail.toList.contains '@') = true ∧
      (isStorable body.applicantGivenName && isStorable body.applicantFamilyName &&
        isStorable body.applicantEmail) = true := by
  simp only [Bool.and_eq_true, Bool.not_eq_true', List.contains_iff_mem]
  exact ⟨fun h => ⟨⟨⟨h.givenName, h.familyName⟩, h.email⟩, ⟨h.storable.1, h.storable.2.1⟩, h.storable.2.2⟩,
    fun ⟨⟨⟨hg, hf⟩, he⟩, ⟨hs, hs'⟩, hs''⟩ => ⟨hg, hf, he, hs, hs', hs''⟩⟩

/-- **A request that the product accepts** is answered properly if it names an applicant. -/
theorem answered_accepted_iff {response : Response} {command : CreateApplicationCommand}
    {product : Product} {s₁ : σ} {ws : List Write}
    (hserved : ∀ {d' ws' s' result}, (createOf command product).alone postgresTexts E s₁ d ws =
      ⟨d', ws', s', result⟩ → response = respond 201 result)
    (haccepts : product.accepts command.requestedAmount command.requestedTermMonths = true)
    (hcreated : namesApplicant command = true →
      (isStorable command.applicantGivenName && isStorable command.applicantFamilyName &&
        isStorable command.applicantEmail) = true →
      ∃ d' s' result, (createOf command product).alone postgresTexts E s₁ d ws =
        ⟨d', [], s', .ok result⟩) :
    response.IsProper ↔ namesApplicant command = true ∧
      (isStorable command.applicantGivenName && isStorable command.applicantFamilyName &&
        isStorable command.applicantEmail) = true := by
  cases hn : namesApplicant command with
  | false =>
      obtain ⟨s', text, hrun⟩ := alone_createOf_invalid (E := E) (s := s₁) (d := d) ws haccepts hn
      rw [hserved hrun]
      exact ⟨fun h => absurd rfl (isProper_problemResponse_iff.1 h), nofun⟩
  | true =>
      cases hs : (isStorable command.applicantGivenName && isStorable command.applicantFamilyName &&
        isStorable command.applicantEmail) with
      | false =>
          obtain ⟨s', hrun⟩ := alone_createOf_unstorable (E := E) (s := s₁) (d := d) ws haccepts hn hs
          rw [hserved hrun]
          exact ⟨fun h => absurd rfl (isProper_problemResponse_iff.1 h), nofun⟩
      | true =>
          obtain ⟨d', s', result, hrun⟩ := hcreated hn hs
          rw [hserved hrun]
          exact ⟨fun _ => ⟨rfl, rfl⟩, fun _ => isProper_respond_ok result⟩

/-- **Which requests get a proper response.** -/
theorem createApplication_proper_iff (hd : WellFormed d) (hrange : ∀ row ∈ d.products, row.maxAmount < 10 ^ 18)
    (hinUse : InUse (G.used s) d) (hleft : 4 ≤ G.left s) :
    (postApplication E xTenantId idempotencyKey body s d).1.IsProper ↔
      body.Answered d xTenantId idempotencyKey := by
  by_cases hconstructs : body.Constructs xTenantId
  swap
  · -- no command is built, and the handler does not run
    obtain ⟨e, hcommand, hnone⟩ := command_of_not_constructs idempotencyKey hconstructs
    rw [postApplication, hcommand]
    exact ⟨fun h => absurd hnone (isProper_problemResponse_iff.1 h), fun h => absurd h.constructs hconstructs⟩
  obtain ⟨c, hc, hcommand⟩ := command_of_constructs idempotencyKey hconstructs
  generalize hmade : (CreateApplicationCommand.mk _ _ _ _ _ _ _ _ _) = command at hcommand
  have hserved : ∀ {d' ws s' result}, (createApplication command).alone postgresTexts E s d [] =
      ⟨d', ws, s', result⟩ →
      (postApplication E xTenantId idempotencyKey body s d).1 = respond 201 result := by
    intro d' ws s' result hrun
    rw [postApplication, hcommand]
    simp only [hrun]
  cases hkey : isStorable idempotencyKey with
  | false =>
      -- the reservation is the first statement, and it fails
      rw [hserved (alone_createApplication_key (by rw [← hmade]; exact hkey))]
      refine ⟨fun h => absurd rfl (isProper_problemResponse_iff.1 h), fun h => ?_⟩
      rw [h.key] at hkey
      cases hkey
  | true =>
      have hkey' : isStorable command.idempotencyKey = true := by rw [← hmade]; exact hkey
      have hcreated : d.hasCreated xTenantId idempotencyKey ↔ d.has (.idempotencyKey command.tenantId
          createApplicationOperation command.idempotencyKey) = true := by
        rw [← hmade]
        exact hasCreated_iff (t := ⟨xTenantId, hconstructs.tenantId⟩)
      have hproduct : d.productNamed? xTenantId body.productId =
          d.productOf? command.tenantId command.productId := by
        rw [← hmade]
        exact productNamed?_eq ⟨xTenantId, hconstructs.tenantId⟩ ⟨body.productId, hconstructs.productId⟩
      cases htaken : d.has (.idempotencyKey command.tenantId createApplicationOperation
          command.idempotencyKey) with
      | true =>
          -- a key that was used is answered before the product is looked at
          rw [hserved (alone_createApplication_duplicate hkey' htaken)]
          exact ⟨fun _ => ⟨hconstructs, hkey, fun hnot => absurd (hcreated.2 htaken) hnot⟩,
            fun _ => isProper_problemResponse_iff.2 nofun⟩
      | false =>
          have hnew : ¬ d.hasCreated xTenantId idempotencyKey := by
            rw [hcreated, htaken]
            decide
          have hiff : body.Answered d xTenantId idempotencyKey ↔
              ∀ row, d.productOf? command.tenantId command.productId = some row →
                (row.currency = "USD" ∨ row.currency = "EUR") ∧
                  (body.Within row → body.NamesApplicant) :=
            ⟨fun h row hrow => h.product hnew row (hproduct.trans hrow),
              fun h => ⟨hconstructs, hkey, fun _ row hrow => h row (hproduct.symm.trans hrow)⟩⟩
          rw [hiff]
          have hrun := alone_createApplication_begin (E := E) (s := s) hkey' htaken
          cases hfound : d.productOf? command.tenantId command.productId with
          | none =>
              rw [hfound] at hrun
              rw [hserved hrun]
              exact ⟨fun _ => nofun, fun _ => isProper_problemResponse_iff.2 nofun⟩
          | some row =>
              rw [hfound] at hrun
              simp only [Option.some.injEq, forall_eq']
              cases hp : rowToProduct row with
              | error e =>
                  -- the product is kept in a currency that the domain does not have
                  simp only [hp] at hrun
                  obtain ⟨hnone, he⟩ := rowToProduct_error hp
                  rw [hserved hrun]
                  refine ⟨fun h => absurd ?_ (isProper_problemResponse_iff.1 h), fun h => ?_⟩
                  · rw [he]
                    rfl
                  · exact absurd h.1 (not_or.2 (Currency.ofCode?_eq_none hnone))
              | ok product =>
                  simp only [hp] at hrun
                  obtain ⟨hmem, hthere, htenant⟩ := product_found hd hfound
                  have hwithin : product.accepts command.requestedAmount command.requestedTermMonths =
                      true ↔ body.Within row := by
                    rw [← hmade]
                    exact accepts_iff_within hc hp
                  have hnames : body.NamesApplicant ↔ namesApplicant command = true ∧
                      (isStorable command.applicantGivenName && isStorable command.applicantFamilyName &&
                        isStorable command.applicantEmail) = true := by
                    rw [← hmade]
                    exact body.namesApplicant_iff
                  rw [and_iff_right (rowToProduct_ok hp).1, ← hwithin, hnames]
                  cases haccepts : product.accepts command.requestedAmount
                      command.requestedTermMonths with
                  | false =>
                      rw [hserved (hrun.trans (alone_createOf_rejected haccepts))]
                      exact ⟨fun _ => nofun, fun _ => isProper_problemResponse_iff.2 nofun⟩
                  | true =>
                      refine (answered_accepted_iff (hserved ∘ hrun.trans) haccepts ?_).trans
                        (imp_iff_right rfl).symm
                      intro hn hs
                      -- the limits of the product keep the row within the limits of its columns
                      have hin := hwithin.1 haccepts
                      have hamount : command.requestedAmount.minorUnits = body.hundredths.signed := by
                        rw [← hmade]
                      have hterm : command.requestedTermMonths = body.requestedTermMonths := by
                        rw [← hmade]
                      have hlow := row.amount_bounds.1
                      have hhigh := hrange row hmem
                      exact alone_createOf_created hd hinUse hleft htaken htenant
                        ((rowToProduct_ok hp).2 ▸ hthere) haccepts hn hs
                        (by rw [hamount]; exact lt_of_lt_of_le hlow hin.amount.1)
                        (by rw [hamount]; exact lt_of_le_of_lt hin.amount.2 hhigh)
                        (by rw [hterm]; exact row.term_bounds.1.trans hin.term.1)

end Route

namespace Sample

/-- Two and a half thousand, in some currency. -/
def loan (currency : String) (h : currency.length = 3) : CreateApplicationRequest where
  applicantGivenName := "Ada"
  applicantFamilyName := "Lovelace"
  applicantDateOfBirth := noon.date
  applicantEmail := "ada@example.org"
  productId := productId.value
  requestedAmount := ⟨false, 2500, 0⟩
  currency := currency
  requestedTermMonths := 24
  givenName_length := by decide
  familyName_length := by decide
  email_length := by decide
  amount_pos := by norm_num [Decimal.toRat, Decimal.signed]
  currency_length := h
  term_pos := by decide

def response (body : CreateApplicationRequest) : Response :=
  (postApplication counter tenantId.value "create-1" body 0 installation.database).1

end Sample

/-- A loan in dollars is created. -/
theorem createApplication_proper_dollars :
    (Sample.response (Sample.loan "USD" (by decide))).IsProper := by
  refine (createApplication_proper_iff (G := Sample.source) Sample.installation.wellFormed ?_ ?_
    (by decide)).2 ⟨⟨Sample.tenantId.isUuid, Sample.productId.isUuid, Or.inl rfl, by decide +kernel⟩,
      by decide +kernel, fun _ row hrow => ?_⟩
  · intro row hrow
    rw [List.mem_singleton.1 (show row ∈ [Sample.product] from hrow)]
    decide
  · exact Sample.inUse_of_rows (by decide +kernel)
  · have hmem : row ∈ [Sample.product] := List.mem_of_find?_eq_some hrow
    rw [List.mem_singleton.1 hmem]
    exact ⟨Or.inl rfl, fun _ => ⟨by decide +kernel, by decide +kernel, by decide +kernel,
      by decide +kernel, by decide +kernel, by decide +kernel⟩⟩

/-- **A loan in pounds** passes the schema, and is an internal server error. -/
theorem createApplication_pounds :
    Sample.installation.database.has (.tenant Sample.tenantId) = true ∧
      Sample.response (Sample.loan "GBP" (by decide)) = internalServerError ∧
      ¬ internalServerError.IsProper := by
  refine ⟨by decide +kernel, ?_, not_isProper_internalServerError⟩
  have hpounds : ¬ (Sample.loan "GBP" (by decide)).Constructs Sample.tenantId.value :=
    fun h => absurd h.currency (by decide +kernel)
  obtain ⟨e, hcommand, hnone⟩ := command_of_not_constructs "create-1" hpounds
  rw [Sample.response, postApplication, hcommand]
  simp only [problemResponse, hnone]

end FinAssist
