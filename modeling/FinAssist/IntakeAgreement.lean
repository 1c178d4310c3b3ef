/-
**Intake validation agrees with creation.**

An application is created only if its product accepts the amount and the term, and intake validation
asks the product again, on what it has loaded.  Between the two lie the quantizing of the amount, the
columns, any number of other handlers, and the transitions of the application itself.  As long as the
row of the product stays as it is, the second answer is the first.

Main definitions:

* `FinAssist.ProductRow.Admits` — the product of a row accepts an amount and a term;
* `FinAssist.Unchanged` — the row of a product is no other than it was;
* `FinAssist.DecimalProduct` — a product with its bounds as the decimals that they are;
* `FinAssist.AdmittedAgain` — the check of the intake, on what is read back from the columns.

Main results:

* `FinAssist.createApplication_given`, `FinAssist.advanceIntakeValidation_given` — what the two handlers
  commit, as long as the row of the product stays;
* `FinAssist.admitted` — what was admitted once is admitted by the rows of every later world;
* `FinAssist.intake_agrees` — **an intake goes on to the documents**, and never to a human.
-/

import FinAssist.AggregateStorage
import FinAssist.HandlerViews
import FinAssist.ReviewCycles

set_option relaxedAutoImplicit false
set_option autoImplicit false

namespace FinAssist

open ReadCommitted ApplicationStatus

/-! ### What a product admits -/

/-- **The product of a row admits** an amount and a term, for its tenant. -/
def ProductRow.Admits (p : ProductRow) (t : TenantId) (amount : Money) (termMonths : ℤ) : Prop :=
  p.tenantId = t ∧ ∃ product, rowToProduct p = .ok product ∧ product.accepts amount termMonths = true

/-- **The row of the product is unchanged**: no row of this product is another one. -/
def Unchanged (p : ProductRow) (d : Database) : Prop :=
  ∀ q ∈ d.products, q.productId = p.productId → q = p

/-- If the application is of this product, its amount and its term are admitted. -/
def ApplicationRow.Admitted (p : ProductRow) (row : ApplicationRow) : Prop :=
  row.productId = p.productId → p.Admits row.tenantId row.requestedAmount row.requestedTermMonths

/-- The applications that are inserted. -/
def applicationsInserted (ws : List Write) : List ApplicationRow :=
  ws.filterMap fun w => w.statement.inserted?.bind Row.application?

/-- The statuses of the versions that are inserted. -/
def statusesInserted (ws : List Write) : List ApplicationStatus :=
  (ws.filterMap fun w => w.statement.inserted?.bind Row.applicationVersion?).map
    ApplicationVersionRow.status

/-- A statement that changes no row of an application. -/
def Write.SparesApplications (w : Write) : Prop :=
  ∀ r, (w.statement.change w.tenantId r).application? = r.application?

theorem Write.IsRecording.spares {w : Write} (h : w.IsRecording) : w.SparesApplications := by
  obtain ⟨t, s⟩ := w
  intro r
  cases s with
  | updateApplication l c => exact h.elim
  | _ => cases r <;> rfl

theorem Write.IsRecording.inserts {w : Write} (h : w.IsRecording) :
    w.statement.inserted?.bind Row.application? = none ∧
      w.statement.inserted?.bind Row.applicationVersion? = none := by
  obtain ⟨t, s⟩ := w
  cases s with
  | insert r => cases r <;> first | exact h.elim | exact ⟨rfl, rfl⟩
  | _ => exact ⟨rfl, rfl⟩

theorem applicationsInserted_recording {ws vs : List Write} (h : ∀ w ∈ vs, w.IsRecording) :
    applicationsInserted (ws ++ vs) = applicationsInserted ws := by
  rw [applicationsInserted, List.filterMap_append,
    List.filterMap_eq_nil_iff.2 fun w hw => (h w hw).inserts.1, List.append_nil]
  rfl

theorem statusesInserted_recording {ws vs : List Write} (h : ∀ w ∈ vs, w.IsRecording) :
    statusesInserted (ws ++ vs) = statusesInserted ws := by
  rw [statusesInserted, List.filterMap_append,
    List.filterMap_eq_nil_iff.2 fun w hw => (h w hw).inserts.2, List.append_nil]
  rfl

/-- The reservation leaves the tables that it is not about. -/
theorem products_reserved (d : Database) (t : TenantId) (operationName key : String)
    (reservedAt : DateTime) :
    (postgres.view d [reserveWrite t operationName key reservedAt]).products = d.products := by
  change (d.apply _).rows.filterMap Row.product? = _
  rw [reserveWrite, Database.apply_insert, List.filterMap_append]
  exact List.append_nil _

theorem applications_reserved (d : Database) (t : TenantId) (operationName key : String)
    (reservedAt : DateTime) :
    (postgres.view d [reserveWrite t operationName key reservedAt]).applications = d.applications := by
  change (d.apply _).rows.filterMap Row.application? = _
  rw [reserveWrite, Database.apply_insert, List.filterMap_append]
  exact List.append_nil _

/-! ### The two handlers -/

/-- **What a creation commits**: one application, as it was asked for and as its product admits it. -/
structure Creates (p : ProductRow) (c : CreateApplicationCommand) (ws : List Write) : Prop where
  spares : ∀ w ∈ ws, w.SparesApplications
  inserts : ∃ row, applicationsInserted ws = [row] ∧ row.tenantId = c.tenantId ∧
    row.productId = c.productId ∧ row.requestedAmount = c.requestedAmount ∧
    row.requestedTermMonths = c.requestedTermMonths ∧ row.Admitted p

/-- What is created is what was asked for. -/
theorem Application.create_terms {a : ApplicationId} {t : TenantId} {applicantId : ApplicantId}
    {product : Product} {amount : Money} {termMonths : ℤ} {at' : DateTime}
    {application : Application}
    (h : Application.create a t applicantId product amount termMonths at' = .ok application) :
    application.tenantId = t ∧ application.productId = product.productId ∧
      application.requestedAmount = amount ∧ application.requestedTermMonths = termMonths := by
  unfold Application.create at h
  split at h
  · cases h
  · split at h <;> cases h
    exact ⟨rfl, rfl, rfl, rfl⟩

theorem rowToProduct_productId {row : ProductRow} {product : Product}
    (h : rowToProduct row = .ok product) : product.productId = row.productId := by
  simp only [rowToProduct] at h
  split at h
  · cases h
  · cases h
    rfl

theorem spares_insert (t : TenantId) (row : Row) : Write.SparesApplications ⟨t, .insert row⟩ := by
  intro r
  cases r <;> rfl

theorem createApplication_given (p : ProductRow) (c : CreateApplicationCommand) :
    (createApplication c).Given postgres (Unchanged p) (Creates p c) (fun _ _ => True) [] := by
  refine Prog.given_bind (given_requireReservation fun reservedAt => ?_)
  refine Prog.given_bind (given_requireProduct fun d row product hd hrow hid ht hproduct => ?_)
  rw [List.nil_append, products_reserved] at hrow
  cases haccepts : product.accepts c.requestedAmount c.requestedTermMonths with
  | false => exact given_raise
  | true =>
      refine Prog.given_bind (given_newApplicantId fun applicantId => ?_)
      refine Prog.given_bind (given_ofExcept fun applicant _ => ?_)
      refine Prog.given_bind (given_addApplicant fun applicantRow => ?_)
      refine Prog.given_bind (given_newApplicationId fun a => ?_)
      refine Prog.given_bind (given_now fun at' => ?_)
      refine Prog.given_bind (given_ofExcept fun application happ => ?_)
      refine Prog.given_bind (given_addApplication fun snapshotId => ?_)
      refine Prog.given_bind (given_recordAndCommit (fun vs hvs => ⟨?_, ?_⟩) (given_pure trivial))
      · intro w hw
        rcases List.mem_append.1 hw with hw | hw
        · simp only [List.nil_append, List.cons_append, List.mem_cons, List.not_mem_nil, or_false]
            at hw
          rcases hw with rfl | rfl | rfl | rfl <;> exact spares_insert _ _
        · exact (hvs w hw).spares
      · obtain ⟨htenant, hproductId, hamount, hterm⟩ := Application.create_terms happ
        refine ⟨applicationToRow application, applicationsInserted_recording hvs, htenant, ?_, hamount,
          hterm, ?_⟩
        · exact hproductId.trans ((rowToProduct_productId hproduct).trans hid)
        · -- the product that was asked is that of the row
          intro hp
          have hsame : row = p := by
            refine hd row hrow ?_
            rw [← hp]
            exact ((rowToProduct_productId hproduct).symm.trans hproductId.symm)
          subst hsame
          refine ⟨ht.trans htenant.symm, product, hproduct, ?_⟩
          change product.accepts application.requestedAmount application.requestedTermMonths = true
          rw [hamount, hterm]
          exact haccepts

/-- **What an intake commits**: two versions, and the second one is with the documents. -/
theorem advanceIntakeValidation_given (p : ProductRow) (c : ApplicationCommand) :
    (advanceIntakeValidation c).Given postgres
      (fun d => Unchanged p d ∧ ∀ row ∈ d.applications, row.applicationId = c.applicationId →
        row.productId = p.productId ∧ row.Admitted p)
      (fun ws => statusesInserted ws = [intakeValidation, documentProcessing])
      (fun r _ => r.applicationId = c.applicationId ∧ r.status = documentProcessing ∧
        r.accepted = true) [] := by
  refine Prog.given_bind (given_requireReservation fun reservedAt => ?_)
  refine Prog.given_bind (given_requireApplication fun d row hd hrow ha ht => ?_)
  rw [List.nil_append, applications_reserved] at hrow
  obtain ⟨hproductId, hadmitted⟩ := hd.2 row hrow ha
  obtain ⟨-, product, hproduct, haccepts⟩ := hadmitted hproductId
  refine Prog.given_bind (given_requireProduct fun d' q product' hd' hq hid _ hproduct' => ?_)
  rw [List.nil_append, products_reserved] at hq
  obtain rfl : q = p := hd'.1 q hq (hid.trans hproductId)
  obtain rfl : product = product' := Except.ok.inj (hproduct.symm.trans hproduct')
  refine Prog.given_bind (given_transition fun at₁ => ?_)
  refine Prog.given_bind (given_saveApplication fun existing₁ snapshotId₁ => ?_)
  -- the amount and the term are still those of the row
  have haccepted : product.accepts ((rowToApplication row).moved intakeValidation
      "entering automated intake validation" at₁).requestedAmount
      ((rowToApplication row).moved intakeValidation
        "entering automated intake validation" at₁).requestedTermMonths = true := haccepts
  simp only [haccepted, finishIntake, if_true]
  refine Prog.given_bind (Prog.given_bind (given_transition fun at₂ => ?_))
  refine Prog.given_bind (given_saveApplication fun existing₂ snapshotId₂ => given_pure ?_)
  refine Prog.given_bind (given_recordAndCommit (fun vs hvs => ?_) ?_)
  · exact statusesInserted_recording hvs
  · exact given_pure ⟨ha, rfl, rfl⟩

/-! ### Creation, in every run -/

section Runs

variable {H : Host programs} {ext : H.Ext} {p : ProductRow}

/-- The run of a catalogue in which the row of the product stays. -/
abbrev Keeping (p : ProductRow) : World H → Action H → Prop := fun w _ => Unchanged p w.db

/-- Whatever is committed under the name of a creation is one. -/
theorem Kind.creates_given (p : ProductRow) (κ : Kind) :
    κ.prog.Given postgres (Unchanged p)
      (fun ws => ∀ c, κ.Runs (.createApplication c) → Creates p c ws) (fun _ _ => True) [] := by
  cases κ with
  | command c =>
      cases c with
      | createApplication c =>
          refine Prog.given_weaken (fun _ h => h) (fun ws h c' hruns => ?_)
            (createApplication_given p c)
          cases hruns
          exact h
      | _ => exact Prog.given_of_forall (fun ws c hruns => nomatch hruns) (fun _ _ => trivial) _ []
  | activity info call =>
      exact Prog.given_of_forall (fun ws c hruns => nomatch hruns) (fun _ _ => trivial) _ []
  | _ => exact Prog.given_of_forall (fun ws c hruns => hruns.elim) (fun _ _ => trivial) _ []

theorem Installation.creates (I : Installation) {w : World H}
    (h : Reaches postgres (Keeping p) (I.start H ext) w) :
    ∀ e ∈ w.log, ∀ c, Kind.Runs e.kind (.createApplication c) → Creates p c e.writes :=
  (Reaches.given (V := Unchanged p) (Q := fun _ _ => True) (Kind.creates_given p) rfl rfl h).1

/-- Statements that change no application only add applications. -/
theorem applications_view {ws : List Write} {d : Database} (h : ∀ w ∈ ws, w.SparesApplications) :
    (postgres.view d ws).applications = d.applications ++ applicationsInserted ws := by
  induction ws generalizing d with
  | nil => exact (List.append_nil _).symm
  | cons w ws ih =>
      have hkeep : Row.application? ∘ w.statement.change w.tenantId = Row.application? :=
        funext (h w List.mem_cons_self)
      have happly : (d.apply w).applications =
          d.applications ++ (w.statement.inserted?.bind Row.application?).toList := by
        rw [Database.applications, Database.apply, List.filterMap_append, List.filterMap_map, hkeep]
        cases w.statement.inserted? with
        | none => rfl
        | some r => cases hr : r.application? <;> simp [hr, Database.applications]
      rw [Schema.view_cons, ih fun v hv => h v (List.mem_cons_of_mem _ hv)]
      rw [show postgres.apply d w = d.apply w from rfl, happly, List.append_assoc]
      congr 1
      cases hw : w.statement.inserted?.bind Row.application? <;> simp [applicationsInserted, hw]

/-- A command that creates nothing moves a case, or leaves the cases alone. -/
theorem Command.Effect.moves {c : Command} {d : Database} {ws : List Write} (h : c.Effect d ws)
    (hc : ∀ c', c ≠ .createApplication c') :
    (∃ a x x', MovesCase d ws a x x') ∨ LeavesCases d ws := by
  cases c with
  | createApplication c => exact absurd rfl (hc c)
  | uploadDocument c => exact Or.inr h
  | processDocument c => exact Or.inr h
  | verifyApplicationFacts c => exact Or.inr h.1
  | _ =>
      obtain ⟨a, x, x', -, -, -, hmoves⟩ := h
      exact Or.inl ⟨a, x, x', hmoves⟩

/-- The row of a case. -/
theorem InOrder.caseFile_of_mem {d : Database} (hd : InOrder d) {row : ApplicationRow}
    (hrow : row ∈ d.applications) : ∃ x, d.caseFile? row.applicationId = some x ∧ x.row = row :=
  caseFile?_of_row ((application?_iff hd.wellFormed.keys).2 ⟨application_mem.1 hrow, rfl⟩)

theorem mem_of_caseFile {d : Database} {a : ApplicationId} {x : CaseFile}
    (h : d.caseFile? a = some x) : x.row ∈ d.applications :=
  List.mem_of_find?_eq_some (caseFile?_row h)

theorem admitted_of_steps {row row' : ApplicationRow} {x x' : CaseFile} (hrow : x.row = row)
    (hrow' : x'.row = row') (hs : x.Steps x') (h : row.Admitted p) : row'.Admitted p := by
  obtain ⟨-, ht, -, hproduct, hamount, hterm⟩ := hs.row_fixed
  subst hrow hrow'
  intro hp
  rw [ht, hamount, hterm]
  exact h (hproduct.symm.trans hp)

/-- **A commit keeps what was admitted.** -/
theorem Command.Commits.admitted {c : Command} {d₀ d : Database} {ws : List Write}
    (hc : c.Commits d₀ d ws) (hd : InOrder d) (hg : postgres.Granted d ws)
    (hcreate : ∀ c', c = .createApplication c' → Creates p c' ws)
    (h : ∀ row ∈ d.applications, row.Admitted p) :
    ∀ row ∈ (postgres.view d ws).applications, row.Admitted p := by
  intro row hrow
  by_cases hcreates : ∃ c', c = .createApplication c'
  · obtain ⟨c', rfl⟩ := hcreates
    obtain ⟨hspares, created, hinserted, -, -, -, -, hadmitted⟩ := hcreate c' rfl
    rw [applications_view hspares, hinserted] at hrow
    rcases List.mem_append.1 hrow with hrow | hrow
    · exact h row hrow
    · exact List.mem_singleton.1 hrow ▸ hadmitted
  · obtain ⟨x', hx', hxrow⟩ := (hc.keeps hd hg).1.caseFile_of_mem hrow
    have hsame : (postgres.view d ws).slice row.applicationId = d.slice row.applicationId →
        row.Admitted p := by
      intro hslice
      have hx : d.caseFile? row.applicationId = some x' := by
        rw [Database.caseFile?, ← hslice]
        exact hx'
      exact h row (hxrow ▸ mem_of_caseFile hx)
    rcases hc.effect.moves (fun c' hc' => hcreates ⟨c', hc'⟩) with ⟨a, x, x₁, hmoves⟩ | hleaves
    · by_cases ha : row.applicationId = a
      · subst ha
        obtain rfl : x₁ = x' := Option.some.inj (hmoves.after.symm.trans hx')
        exact admitted_of_steps rfl hxrow (.tail .refl hmoves.step)
          (h x.row (mem_of_caseFile hmoves.before))
      · exact hsame (hmoves.others _ ha)
    · exact hsame (hleaves _)

/-- **What was admitted once is admitted by the rows of every later world.** -/
theorem admitted (I : Installation) {w : World H}
    (h : Reaches postgres (Keeping p) (I.start H ext) w) :
    ∀ row ∈ w.db.applications, row.Admitted p := by
  induction h with
  | refl =>
      intro row hrow
      have hnil : I.database.applications = [] := I.filterMap_rows (fun _ => rfl) (fun _ => rfl)
      rw [show (I.start H ext).db = I.database from rfl, hnil] at hrow
      cases hrow
  | @tail w w' a h hok hs ih =>
      have hcreates := I.creates (h.tail hok hs)
      cases World.step_cases hs with
      | advance i answers t w' ht hadv =>
          cases hadv with
          | commit k hp =>
              obtain ⟨c, d₀, hruns, hd, hg, hc⟩ := I.commits h ht hp
              refine hc.admitted hd hg (fun c' hc' => ?_) ih
              subst hc'
              exact hcreates ⟨i, t.kind, t.writes⟩ (List.mem_append_right _ (List.mem_singleton.2 rfl)) c'
                hruns
          | _ => exact ih
      | _ => exact ih

/-! ### Intake validation, in every run -/

/-- What is known of all committed rows on the way to a world in which the application `a` is of this
product. -/
def OfProduct (p : ProductRow) (a : ApplicationId) (d : Database) : Prop :=
  Unchanged p d ∧ ∀ row ∈ d.applications, row.applicationId = a →
    row.productId = p.productId ∧ row.Admitted p

/-- What an intake commits of such an application. -/
def Kind.Passes (a : ApplicationId) (κ : Kind) (ws : List Write) : Prop :=
  ∀ c, κ.Runs (.advanceIntakeValidation c) → c.applicationId = a →
    statusesInserted ws = [intakeValidation, documentProcessing]

/-- What it returns of it. -/
def Kind.Reports (a : ApplicationId) : (κ : Kind) → κ.Result → Prop
  | .command (.advanceIntakeValidation c), r => c.applicationId = a →
      r.applicationId = a ∧ r.status = documentProcessing ∧ r.accepted = true
  | _, _ => True

theorem given_currentStatus {V : Database → Prop} {C : List Write → Prop} {t : TenantId}
    {a : ApplicationId} {ws : List Write} {Q : ActivityStatusResult → List Write → Prop}
    (h : ∀ r, Q r ws) : (currentStatus t a).Given postgres V C Q ws :=
  Prog.given_bind (Prog.given_bind (given_requireApplication fun _ _ _ _ _ _ =>
    given_pure (given_pure (h _))))

theorem Kind.passes_given (p : ProductRow) (a : ApplicationId) (κ : Kind) :
    κ.prog.Given postgres (OfProduct p a) (κ.Passes a) (fun r _ => κ.Reports a r) [] := by
  have hintake : ∀ c : ApplicationCommand, (advanceIntakeValidation c).Given postgres (OfProduct p a)
      (fun ws => c.applicationId = a → statusesInserted ws = [intakeValidation, documentProcessing])
      (fun r _ => c.applicationId = a → r.applicationId = a ∧ r.status = documentProcessing ∧
        r.accepted = true) [] := by
    intro c
    by_cases ha : c.applicationId = a
    · subst ha
      exact Prog.given_mono (fun r _ h _ => h)
        (Prog.given_weaken (fun _ h => h) (fun _ h _ => h) (advanceIntakeValidation_given p c))
    · exact Prog.given_of_forall (fun _ h => absurd h ha) (fun _ _ h => absurd h ha) _ []
  cases κ with
  | command c =>
      cases c with
      | advanceIntakeValidation c =>
          refine Prog.given_weaken (fun _ h => h) (fun ws h c' hruns => ?_) (hintake c)
          cases hruns
          exact h
      | _ => exact Prog.given_of_forall (fun ws c hruns => nomatch hruns) (fun _ _ => trivial) _ []
  | activity info call =>
      cases call with
      | validateIntake ctx =>
          refine Prog.given_weaken (fun _ h => h) (fun ws h c' hruns => ?_)
            (Prog.given_tryCatch (fun e p' hp' => ?_)
              (Prog.given_bind (Prog.given_mono (fun _ _ _ => given_pure trivial)
                (hintake ⟨ctx.tenantId, ctx.applicationId, FinAssist.idempotencyKey info⟩))))
          · cases hruns
            exact h
          · cases e <;> cases hp'
            exact given_currentStatus fun _ => trivial
      | _ => exact Prog.given_of_forall (fun ws c hruns => nomatch hruns) (fun _ _ => trivial) _ []
  | _ => exact Prog.given_of_forall (fun ws c hruns => hruns.elim) (fun _ _ => trivial) _ []

/-- **An application of an unchanged product passes its intake**, whatever runs side by side. -/
theorem Installation.passes (I : Installation) {w : World H}
    (h : Reaches postgres (Keeping p) (I.start H ext) w) {row : ApplicationRow}
    (hrow : row ∈ w.db.applications) (hp : row.productId = p.productId) :
    (∀ e ∈ w.log, Kind.Passes row.applicationId e.kind e.writes) ∧
    ∀ t ∈ w.tasks, t.prog.Given postgres (OfProduct p row.applicationId)
      (Kind.Passes row.applicationId t.kind) (fun r _ => Kind.Reports row.applicationId t.kind r)
      t.writes := by
  obtain ⟨x, hx, hxrow⟩ := (I.sound h).inv.caseFile_of_mem hrow
  refine Reaches.given (V := OfProduct p row.applicationId)
    (Kind.passes_given p row.applicationId) rfl rfl ((h.toward .refl).mono fun w₁ _ hw₁ => ?_)
  obtain ⟨hkept, hbefore, hafter⟩ := hw₁
  refine ⟨hkept, fun row₁ hrow₁ ha => ⟨?_, admitted I hbefore row₁ hrow₁⟩⟩
  -- its rows on the way are of the same product
  obtain ⟨x₁, hx₁, rfl⟩ := (I.sound hbefore).inv.caseFile_of_mem hrow₁
  obtain ⟨x₂, hx₂, hs⟩ := (I.onward hbefore hafter).cases _ _ (ha ▸ hx₁)
  obtain rfl : x₂ = x := Option.some.inj (hx₂.symm.trans hx)
  obtain ⟨-, -, -, hproduct, -, -⟩ := hs.row_fixed
  rw [← hproduct, hxrow]
  exact hp

/-- The row of what a command has asked for. -/
def ApplicationRow.AskedBy (c : CreateApplicationCommand) (row : ApplicationRow) : Prop :=
  row.tenantId = c.tenantId ∧ row.productId = c.productId ∧
    row.requestedAmount = c.requestedAmount ∧ row.requestedTermMonths = c.requestedTermMonths

/-- **What was created is there**, with the amount and the term that were asked for. -/
theorem Installation.created (I : Installation) {w : World H}
    (h : Reaches postgres (Keeping p) (I.start H ext) w) :
    ∀ e ∈ w.log, ∀ c, Kind.Runs e.kind (.createApplication c) →
      ∃ row ∈ w.db.applications, row.AskedBy c := by
  induction h with
  | refl =>
      intro e he
      cases he
  | @tail w w' a h hok hs ih =>
      have hcreates := I.creates (h.tail hok hs)
      have hlater : ∀ c, (∃ row ∈ w.db.applications, row.AskedBy c) →
          ∃ row ∈ w'.db.applications, row.AskedBy c := by
        rintro c ⟨row, hrow, ht, hproduct, hamount, hterm⟩
        obtain ⟨x, hx, rfl⟩ := (I.sound h).inv.caseFile_of_mem hrow
        obtain ⟨x', hx', hsteps⟩ := (I.onward h (Reaches.refl.tail hok hs)).cases _ _ hx
        obtain ⟨-, ht', -, hproduct', hamount', hterm'⟩ := hsteps.row_fixed
        exact ⟨x'.row, mem_of_caseFile hx', ht'.trans ht, hproduct'.trans hproduct,
          hamount'.trans hamount, hterm'.trans hterm⟩
      cases World.step_cases hs with
      | advance i answers t w' ht hadv =>
          cases hadv with
          | commit k hp =>
              intro e he c hruns
              rcases List.mem_append.1 he with hold | hnew
              · exact hlater c (ih e hold c hruns)
              · obtain ⟨hspares, row, hinserted, hasked⟩ := hcreates e he c hruns
                obtain rfl := List.mem_singleton.1 hnew
                refine ⟨row, ?_, hasked.1, hasked.2.1, hasked.2.2.1, hasked.2.2.2.1⟩
                change row ∈ (postgres.view w.db t.writes).applications
                rw [applications_view hspares, hinserted]
                exact List.mem_append_right _ (List.mem_singleton.2 rfl)
          | _ => exact fun e he c hruns => hlater c (ih e he c hruns)
      | _ => exact fun e he c hruns => hlater c (ih e he c hruns)

theorem change_product? (t : TenantId) (s : Statement) (r : Row) :
    (s.change t r).product? = r.product? := by
  cases s <;> cases r <;> rfl

/-- Products are never fewer, so a row that is unchanged in the end was so all the way. -/
theorem keeping_of_unchanged {w₀ w : World H} (h : Reachable postgres w₀ w)
    (hp : Unchanged p w.db) : Reaches postgres (Keeping p) w₀ w :=
  (h.toward .refl).mono fun _ _ hw₁ q hq =>
    hp q ((filterMap_mono change_product? hw₁.2.2).subset hq)

end Runs

/-! ### The check, on decimals -/

/-- **A product with its bounds as decimals.** -/
structure DecimalProduct where
  productId : ProductId
  code : String
  name : String
  currency : String
  minAmount : DecimalMoney
  maxAmount : DecimalMoney
  minTermMonths : ℤ
  maxTermMonths : ℤ
  isActive : Bool

/-- `_row_to_product`; what the constructor of `Product` checks is a constraint of the table. -/
def ProductRow.decimal (row : ProductRow) : Except MoneyError DecimalProduct := do
  let minAmount ← DecimalMoney.construct (numericDecimal row.minAmount) row.currency
  let maxAmount ← DecimalMoney.construct (numericDecimal row.maxAmount) row.currency
  pure ⟨row.productId, row.code, row.name, row.currency, minAmount, maxAmount, row.minTermMonths,
    row.maxTermMonths, row.isActive⟩

/-- `Product.accepts`. -/
def DecimalProduct.accepts (p : DecimalProduct) (amount : DecimalMoney) (termMonths : ℤ) :
    Except MoneyError Bool :=
  if !p.isActive then .ok false
  else if amount.currency.code ≠ p.currency then .ok false
  else do
    let notLess ← p.minAmount.le amount
    let within ← if notLess then amount.le p.maxAmount else pure false
    pure (within && (p.minTermMonths ≤ termMonths ∧ termMonths ≤ p.maxTermMonths))

theorem Currency.ofCode?_eq_some {code : String} {c : Currency} (h : Currency.ofCode? code = some c) :
    code = c.code := by
  rw [Currency.ofCode?] at h
  split at h
  next hcode => cases h; exact hcode
  next =>
    split at h
    next hcode => cases h; exact hcode
    next => cases h

/-- **The check on decimals is that on minor units.** -/
theorem decimal_accepts {p : ProductRow} {product : Product} (hrange : p.maxAmount < 10 ^ 18)
    (h : rowToProduct p = .ok product) :
    ∃ product', p.decimal = .ok product' ∧ ∀ amount termMonths,
      product'.accepts amount termMonths = .ok (product.accepts amount.toMoney termMonths) := by
  obtain ⟨hpos, hle⟩ := p.amount_bounds
  simp only [rowToProduct] at h
  split at h
  next => cases h
  next c hc =>
    cases h
    obtain ⟨least, hleast, hmin⟩ := construct_numericDecimal (m := ⟨p.minAmount, c⟩) (by simp only; omega)
    obtain ⟨most, hmost, hmax⟩ := construct_numericDecimal (m := ⟨p.maxAmount, c⟩) (by simp only; omega)
    have hcode := Currency.ofCode?_eq_some hc
    rw [← hcode] at hleast hmost
    have hdecimal : p.decimal = .ok ⟨p.productId, p.code, p.name, p.currency, least, most,
        p.minTermMonths, p.maxTermMonths, p.isActive⟩ := by
      rw [ProductRow.decimal, hleast, hmost]
      rfl
    refine ⟨_, hdecimal, fun amount termMonths => ?_⟩
    cases hactive : p.isActive with
    | false => simp [DecimalProduct.accepts, Product.accepts]
    | true =>
        by_cases hcurrency : amount.currency = c
        · have hleastc : least.currency = amount.currency :=
            (congrArg Money.currency hmin).trans hcurrency.symm
          have hmostc : amount.currency = most.currency :=
            hcurrency.trans (congrArg Money.currency hmax).symm
          have hleastm : least.toMoney.minorUnits = p.minAmount := congrArg Money.minorUnits hmin
          have hmostm : most.toMoney.minorUnits = p.maxAmount := congrArg Money.minorUnits hmax
          have hsame : ¬ amount.currency.code ≠ p.currency := by rw [hcurrency, hcode, not_not]
          have hsame' : ¬ amount.toMoney.currency ≠ c := not_not.2 hcurrency
          simp only [DecimalProduct.accepts, Product.accepts, Bool.not_true, Bool.false_eq_true,
            if_false, if_neg hsame, if_neg hsame', DecimalMoney.le_eq hleastc,
            DecimalMoney.le_eq hmostc, hleastm, hmostm]
          by_cases hlow : p.minAmount ≤ amount.toMoney.minorUnits
          · simp [hlow, bind, Except.bind, pure, Except.pure]
          · simp [hlow, bind, Except.bind, pure, Except.pure]
        · have hother : amount.currency.code ≠ p.currency := fun heq =>
            hcurrency (Option.some.inj ((Currency.ofCode?_code _).symm.trans
              ((congrArg Currency.ofCode? heq).trans hc)))
          have hother' : amount.toMoney.currency ≠ c := hcurrency
          simp only [DecimalProduct.accepts, Product.accepts, Bool.not_true, Bool.false_eq_true,
            if_false, if_pos hother, if_pos hother']

/-- **The check of the intake**: the amount is read back from its column, and the product from its own,
and the product accepts whatever decimal is this amount. -/
def AdmittedAgain (p : ProductRow) (row : ApplicationRow) : Prop :=
  ∃ product, p.decimal = .ok product ∧
    (∀ amount : DecimalMoney, amount.toMoney = row.requestedAmount →
      product.accepts amount row.requestedTermMonths = .ok true) ∧
    ∃ amount, DecimalMoney.construct (numericDecimal row.requestedAmount.minorUnits)
      row.requestedAmount.currency.code = .ok amount ∧ amount.toMoney = row.requestedAmount

theorem ApplicationRow.Admitted.again {p : ProductRow} {row : ApplicationRow}
    (hrange : p.maxAmount < 10 ^ 18) (hcheck : (Row.application row).check = none)
    (hp : row.productId = p.productId) (h : row.Admitted p) : AdmittedAgain p row := by
  obtain ⟨-, product, hproduct, haccepts⟩ := h hp
  obtain ⟨product', hdecimal, hsame⟩ := decimal_accepts hrange hproduct
  refine ⟨product', hdecimal, ?_, construct_numericDecimal ?_⟩
  · intro amount hamount
    rw [hsame, hamount, haccepts]
  · by_contra hwide
    rw [Row.check, if_pos (not_lt.1 hwide)] at hcheck
    cases hcheck

/-! ### An intake by itself -/

section Alone

variable {σ : Type} {E : Environment Answer σ} {G : IdSource E} {s : σ} {d : Database}

/-- **The intake has passed**: the handler says so, and the case is with the documents. -/
structure PassesIntake (a : ApplicationId)
    (o : Outcome Database Write σ Error AdvanceIntakeValidationResult) : Prop where
  returned : ∃ r, o.result = .ok r ∧ r.status = documentProcessing ∧ r.accepted = true
  status : ∃ row, o.db.application? a = some row ∧ row.status = documentProcessing

/-- **An intake that finds its application in bounds**, by itself. -/
theorem Begins.passes {x : CaseFile} {c : ApplicationCommand}
    (h : Begins G d s c.applicationId x c.tenantId advanceIntakeValidationOperation
      c.idempotencyKey) (hs : x.row.status = submitted) {productRow : ProductRow}
    {product : Product} (hr : d.productOf? c.tenantId x.row.productId = some productRow)
    (hp : rowToProduct productRow = .ok product)
    (hyes : product.accepts x.row.requestedAmount x.row.requestedTermMonths = true) :
    PassesIntake c.applicationId ((advanceIntakeValidation c).alone postgres E s d []) := by
  obtain ⟨s₂, at', snapshotId, hrun, hfit⟩ := h.alone_intake hs hr hp hyes
  rw [hrun]
  have hmoved : (transition (inIntake x.row at') documentProcessing
      "intake validation passed: within product catalog bounds").alone postgres E s₂ d
        (intakeWrites c.tenantId x.row c.idempotencyKey (timeOf E s) at' snapshotId) = _ :=
    alone_transition _ (show isLegalTransition intakeValidation documentProcessing = true from rfl)
  generalize happ : (inIntake x.row at').moved documentProcessing
    "intake validation passed: within product catalog bounds" (timeOf E s₂) = application at hmoved
  obtain ⟨s₃, snapshotId₂, hsave, hfit₃⟩ := alone_saveApplication (t := c.tenantId)
    h.inOrder.wellFormed (Fit.ask .now (n := 3) hfit) (saveColumns x.row (inIntake x.row at'))
    application (happ ▸ h.intake_row _ _ _) h.tenant (happ ▸ h.tenant) (happ ▸ rfl) (happ ▸ rfl)
    (happ ▸ rfl) (happ ▸ h.intake_free _ _ _)
  have hevents : ∀ event ∈ application.pullEvents.1, event.tenantId = c.tenantId := by
    rw [← happ]
    intro event hevent
    rcases List.mem_cons.1 hevent with rfl | hevent
    · exact h.tenant
    · rw [List.mem_singleton.1 hevent]
      exact h.tenant
  have htwo : application.pullEvents.1.length = 2 := by
    rw [← happ]
    rfl
  obtain ⟨s₄, recording, hrecord, hrec, hfit₄⟩ := alone_recordDomainEvents (t := c.tenantId) (n := 0)
    (by rw [htwo]; exact hfit₃) hevents (Or.inl (has_view_of_has h.checkpoint))
  -- the second hop, and then the end of the handler
  have hfinish : (finishIntake c.tenantId (saveColumns x.row (inIntake x.row at')) (inIntake x.row at')
      true).alone postgres E s₂ d
        (intakeWrites c.tenantId x.row c.idempotencyKey (timeOf E s) at' snapshotId) =
      ⟨d, intakeWrites c.tenantId x.row c.idempotencyKey (timeOf E s) at' snapshotId ++
        saveWrites c.tenantId (saveColumns x.row (inIntake x.row at')) application snapshotId₂, s₃,
        .ok application⟩ := by
    rw [finishIntake, if_pos rfl]
    exact (Prog.alone_bind_ok hmoved).trans (Prog.alone_bind_ok hsave)
  have hall := (Prog.alone_bind_ok (f := fun application => recordAndCommit c.tenantId application >>=
      fun _ => (pure (⟨application.applicationId, application.status, application.version, true⟩ :
        AdvanceIntakeValidationResult) : Handler _)) hfinish).trans
    (Prog.alone_bind_ok ((Prog.alone_bind_ok hrecord).trans alone_commit))
  rw [hall]
  have hmoves : MovesCase d (reserveWrite c.tenantId advanceIntakeValidationOperation c.idempotencyKey
      (timeOf E s) :: (saveWrites c.tenantId x.row (inIntake x.row at') snapshotId ++
        saveWrites c.tenantId (saveColumns x.row (inIntake x.row at')) application snapshotId₂ ++
        recordingWrites c.tenantId recording)) c.applicationId x _ :=
    movesCase_saveTwice h.tenant h.inOrder h.caseFile rfl happ.symm
      (.acceptIntake (timeOf E s₂) (legal_intakeValidation_iff.2 hs)) hrec
  refine ⟨⟨_, rfl, happ ▸ rfl, rfl⟩, _, caseFile?_row hmoves.after, rfl⟩

end Alone

/-! ### Every run -/

/-- The row of the product is what the tenant of an application finds. -/
theorem Unchanged.productOf? {d : Database} {p : ProductRow} (hp : Unchanged p d) (hd : InOrder d)
    {row : ApplicationRow} (hrow : row ∈ d.applications) (hproduct : row.productId = p.productId)
    (ht : p.tenantId = row.tenantId) : d.productOf? row.tenantId row.productId = some p := by
  -- the foreign key of the application points at a row of the product
  have hkey : d.has (.product row.productId) = true :=
    hd.wellFormed.references _ (application_mem.1 hrow) _ (by simp [Row.references])
  obtain ⟨r, hr, hk⟩ := Database.has_iff.1 hkey
  obtain ⟨q, rfl, hq⟩ : ∃ q, r = .product q ∧ q.productId = row.productId := by
    cases r <;> simp [Row.keys] at hk
    exact ⟨_, rfl, hk.symm⟩
  obtain rfl : q = p := hp q (List.mem_filterMap.2 ⟨_, hr, rfl⟩) (hq.trans hproduct)
  have hvisible : q ∈ (d.visible row.tenantId).products := by
    refine List.mem_filterMap.2 ⟨_, List.mem_filter.2 ⟨hr, ?_⟩, rfl⟩
    simp [Row.visibleTo, Row.tenantId?, ht]
  cases hfound : d.productOf? row.tenantId row.productId with
  | none =>
      have hnone := List.find?_eq_none.1 hfound q hvisible
      simp [hq] at hnone
  | some q' =>
      obtain ⟨r', hr', hq'⟩ := List.mem_filterMap.1 (List.mem_of_find?_eq_some hfound)
      have hmem : q' ∈ d.products := List.mem_filterMap.2 ⟨r', (List.mem_filter.1 hr').1, hq'⟩
      have hid : q'.productId = row.productId := by simpa using List.find?_some hfound
      rw [hp q' hmem (hid.trans hproduct)]

/-- **Intake validation agrees with creation**, in every run in which the row of the product stays.
What a creation was asked for and has admitted is there, and read back it is admitted again; every
intake that is committed goes on to the documents, and says so; and an intake that runs by itself on a
submitted application does go on. -/
theorem intake_agrees (I : Installation) {p : ProductRow} (hrange : p.maxAmount < 10 ^ 18)
    {w : World anyHost} (h : Reachable postgres (I.start anyHost ()) w) (hp : Unchanged p w.db) :
    (∀ e ∈ w.log, ∀ c, Kind.Runs e.kind (.createApplication c) →
      ∃ row ∈ w.db.applications, row.AskedBy c) ∧
    ∀ row ∈ w.db.applications, row.productId = p.productId →
      AdmittedAgain p row ∧
      (∀ e ∈ w.log, ∀ c, Kind.Runs e.kind (.advanceIntakeValidation c) →
        c.applicationId = row.applicationId →
        statusesInserted e.writes = [intakeValidation, documentProcessing]) ∧
      (∀ c writes r, (⟨.command (.advanceIntakeValidation c), writes, .ret r⟩ : Task programs) ∈ w.tasks →
        c.applicationId = row.applicationId → r.status = documentProcessing ∧ r.accepted = true) ∧
      (row.status = submitted → ∀ (σ : Type) (E : Environment Answer σ) (G : IdSource E) (s : σ),
        InUse (G.used s) w.db → 4 ≤ G.left s → ∀ key,
        w.db.has (.idempotencyKey row.tenantId advanceIntakeValidationOperation key) = false →
        PassesIntake row.applicationId ((advanceIntakeValidation
          ⟨row.tenantId, row.applicationId, key⟩).alone postgres E s w.db [])) := by
  have hkept := keeping_of_unchanged h hp
  have hd := (I.sound h).inv
  refine ⟨I.created hkept, fun row hrow hproduct => ?_⟩
  have hadmitted := admitted I hkept row hrow
  obtain ⟨hlog, htasks⟩ := I.passes hkept hrow hproduct
  refine ⟨hadmitted.again hrange (hd.wellFormed.checks _ (application_mem.1 hrow)) hproduct, ?_, ?_, ?_⟩
  · exact fun e he c hruns ha => hlog e he c hruns ha
  · intro c writes r ht ha
    exact (Prog.given_ret_iff.1 (htasks _ ht) ha).2
  · intro hs σ E G s hinUse hleft key hkey
    obtain ⟨htenant, product, hrow', haccepts⟩ := hadmitted hproduct
    obtain ⟨x, hx, rfl, hcheckpoint, -⟩ := caseFile_of_row I h
      ((application?_iff hd.wellFormed.keys).2 ⟨application_mem.1 hrow, rfl⟩)
    have hbegins : Begins G w.db s x.row.applicationId x x.row.tenantId
        advanceIntakeValidationOperation key :=
      ⟨hd, hx, rfl, hkey, hcheckpoint, hinUse, hleft⟩
    exact Begins.passes (c := ⟨x.row.tenantId, x.row.applicationId, key⟩) hbegins hs
      (hp.productOf? hd hrow hproduct htenant) hrow' haccepts

/-- No other row of a product is there if there are as many as at first. -/
theorem unchanged_of_length {I : Installation} {H : Host programs} {ext : H.Ext} {w : World H}
    (h : Reachable postgres (I.start H ext) w) {p : ProductRow} (h₀ : Unchanged p I.database)
    (hlength : w.db.products.length = I.database.products.length) : Unchanged p w.db := by
  have hprefix : I.database.products <+: w.db.products := filterMap_mono change_product? h
  rw [Unchanged, ← hprefix.eq_of_length hlength.symm]
  exact h₀

namespace Sample

/-- An application is created and submitted. -/
def submittedKinds : List Kind :=
  [.command (.createApplication create), .command (.submitApplication (command "submit-1"))]

end Sample

/-- A submitted application, whose intake passes. -/
theorem intake_agrees_submitted :
    ∃ w : World anyHost, Reachable postgres (Sample.installation.start anyHost ()) w ∧
      ∃ row ∈ w.db.applications, row.status = submitted ∧ AdmittedAgain Sample.product row ∧
        PassesIntake row.applicationId ((advanceIntakeValidation
          ⟨row.tenantId, row.applicationId, "intake-1"⟩).alone postgres Sample.counter
            (Sample.after Sample.submittedKinds).2 w.db []) := by
  obtain ⟨w, hw, hdb⟩ := Sample.reachable_after Sample.submittedKinds
  obtain ⟨row, hrow, ht, hs⟩ : ∃ row, w.db.application? Sample.firstId = some row ∧
      row.tenantId = Sample.tenantId ∧ row.status = submitted := by
    rw [hdb]
    exact Sample.found (by decide +kernel)
  have hproduct : row.productId = Sample.product.productId := by
    have hmap : (w.db.application? Sample.firstId).map ApplicationRow.productId =
        some Sample.product.productId := by
      rw [hdb]
      decide +kernel
    rw [hrow] at hmap
    exact Option.some.inj hmap
  have hp : Unchanged Sample.product w.db := by
    refine unchanged_of_length hw ?_ ?_
    · exact fun q hq _ => List.mem_singleton.1 hq
    · rw [hdb]
      decide +kernel
  have hmem : row ∈ w.db.applications := List.mem_of_find?_eq_some hrow
  obtain ⟨hagain, -, -, hpasses⟩ :=
    (intake_agrees Sample.installation (by decide) hw hp).2 row hmem hproduct
  refine ⟨w, hw, row, hmem, hs, hagain, hpasses hs ℕ Sample.counter Sample.source _ ?_ ?_ _ ?_⟩
  · rw [hdb]
    exact Sample.inUse_of_rows (by decide +kernel)
  · decide +kernel
  · rw [hdb, ht]
    decide +kernel

end FinAssist
