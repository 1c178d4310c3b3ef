/-
**The outcome of a verification and the order of the facts.**

`VerifyApplicationFactsHandler` reads the facts of all documents and all extraction runs of an
application with a query that has no `ORDER BY`, and keeps of several facts of one type the one that
comes last.  What it asks the external systems, and what its checks say, then depends on the order
in which the database returns the rows, unless the facts of a type agree in what is used of them.

Main definitions:

* `FinAssist.computeVerification` — **the handler as far as its outcome is computed**;
* `FinAssist.Settled` — the facts of each type agree in what is used of them;
* `FinAssist.Reordered` — the same rows, with the facts in another order;
* `FinAssist.OrderIndependent` — the outcome of a handler does not depend on that order.

Main results:

* `FinAssist.verification_perm` — settled facts give the same outcome in every order;
* `FinAssist.settled_of_sameAsks` — facts with which the same is asked in every order are settled;
* `FinAssist.verification_order_iff` — **the outcome does not depend on the order exactly when the
  facts are settled**.
-/

import FinAssist.HandlerRuns
import FinAssist.CaseIntegrity

set_option relaxedAutoImplicit false
set_option autoImplicit false

namespace FinAssist

open ReadCommitted

/-! ### The handler in two parts -/

/-- What the handler has computed when it begins to store it. -/
abbrev VerificationOutcome := List VerificationCheck × List ExternalResponseSnapshot

/-- **From the facts to the checks.** -/
def verification (applicant : Applicant) (facts : List ExtractedFact) :
    Handler VerificationOutcome := do
  let identity ← checkIdentity applicant facts
  let income ← declaredIncome facts
  let employment ← checkEmployment applicant facts income
  let creditReport ← captureCreditReport applicant facts
  let history ← captureTransactionHistory applicant facts income
  pure ([identity.1, employment.1], identity.2 ++ employment.2 ++ creditReport ++ history)

/-- **The handler as far as its outcome is computed.** -/
def computeVerification (command : ApplicationCommand) : Handler VerificationOutcome := do
  requireReservation command.tenantId command.idempotencyKey verifyApplicationFactsOperation
  let row ← requireApplication command.tenantId command.applicationId
  let applicant ← requireApplicant command.tenantId command.applicationId row.applicantId
  let facts ← getFacts command.tenantId command.applicationId
  verification applicant facts

/-- The rest of the handler: the outcome is stored and returned. -/
def storeVerification (command : ApplicationCommand) (outcome : VerificationOutcome) :
    Handler VerifyApplicationFactsResult := do
  let runId ← newId
  let identified ← withIds outcome.1
  let captured ← withIds outcome.2
  let completedAt ← now
  addVerificationRun command.tenantId command.applicationId runId.value identified captured
    completedAt
  Handler.commit
  pure ⟨outcome.1, contradictionCount outcome.1, buildVerificationSummary outcome.1⟩

/-- The handler computes the outcome and stores it. -/
theorem verifyApplicationFacts_eq (command : ApplicationCommand) :
    verifyApplicationFacts command =
      (do let outcome ← computeVerification command; storeVerification command outcome) := by
  simp only [verifyApplicationFacts, computeVerification, verification, storeVerification,
    bind_assoc, pure_bind]

/-! ### The facts of a type -/

/-- The facts of a type agree in what `use` makes of them. -/
def Agree {β : Type} (facts : List ExtractedFact) (factType : FactType) (use : ExtractedFact → β) :
    Prop :=
  ∀ f ∈ facts, ∀ g ∈ facts, f.factType = factType → g.factType = factType → use f = use g

/-- There is a fact of the type. -/
def Present (facts : List ExtractedFact) (factType : FactType) : Prop :=
  ∃ f ∈ facts, f.factType = factType

/-- Every declared income can be read. -/
def IncomeReadable (facts : List ExtractedFact) : Prop :=
  ∀ f ∈ facts, f.factType = .grossMonthlyIncome → ∃ n, annualIncome f.normalizedValue = .ok n

/-- Why a declared income cannot be read, if it cannot. -/
def incomeError (f : ExtractedFact) : Option Error :=
  match annualIncome f.normalizedValue with
  | .ok _ => none
  | .error e => some e

/-- **The facts of each type agree in what is used of them.**  The identity check uses the id and the
address, if all of them are there; an income that cannot be read ends the verification; the credit
report and the transaction history are asked for with the id and the income; the employment check
uses the employer as well. -/
structure Settled (facts : List ExtractedFact) : Prop where
  identity : Present facts .syntheticId → Present facts .streetAddress → Present facts .city →
    Agree facts .syntheticId ExtractedFact.normalizedValue ∧
    Agree facts .streetAddress ExtractedFact.normalizedValue ∧
    Agree facts .city ExtractedFact.normalizedValue
  failure : Agree facts .grossMonthlyIncome incomeError
  history : Present facts .syntheticId → IncomeReadable facts →
    Agree facts .syntheticId ExtractedFact.normalizedValue ∧
    Agree facts .grossMonthlyIncome fun f => annualIncome f.normalizedValue
  employment : Present facts .syntheticId → Present facts .employerName → IncomeReadable facts →
    (∃ f ∈ facts, f.factType = .grossMonthlyIncome ∧ annualIncome f.normalizedValue ≠ .ok 0) →
    Agree facts .employerName fun f => (f.value, f.normalizedValue)

theorem factOfType_mem {facts : List ExtractedFact} {factType : FactType} {f : ExtractedFact}
    (h : factOfType facts factType = some f) : f ∈ facts ∧ f.factType = factType :=
  ⟨List.mem_reverse.1 (List.mem_of_find?_eq_some h), by simpa using List.find?_some h⟩

theorem factOfType_none {facts : List ExtractedFact} {factType : FactType} :
    factOfType facts factType = none ↔ ¬ Present facts factType := by
  simp [factOfType, Present]

theorem present_iff {facts : List ExtractedFact} {factType : FactType} :
    Present facts factType ↔ ∃ f, factOfType facts factType = some f := by
  rw [← not_iff_not, ← factOfType_none, ← Option.not_isSome_iff_eq_none, Option.isSome_iff_exists]

/-- What is chosen of two orders of the same facts: in both nothing, or in both some fact. -/
theorem factOfType_perm {facts facts' : List ExtractedFact} (h : facts'.Perm facts)
    (factType : FactType) :
    (factOfType facts' factType = none ∧ factOfType facts factType = none ∧
      ¬ Present facts factType) ∨
    ∃ f' ∈ facts, ∃ f ∈ facts, factOfType facts' factType = some f' ∧
      factOfType facts factType = some f ∧ f'.factType = factType ∧ f.factType = factType := by
  have hmem : ∀ f, f ∈ facts' ↔ f ∈ facts := fun f => h.mem_iff
  cases hf : factOfType facts factType with
  | none =>
      have hno := factOfType_none.1 hf
      refine Or.inl ⟨factOfType_none.2 ?_, rfl, hno⟩
      rintro ⟨f, hmemf, ht⟩
      exact hno ⟨f, (hmem f).1 hmemf, ht⟩
  | some f =>
      obtain ⟨hfm, hft⟩ := factOfType_mem hf
      obtain ⟨f', hf'⟩ := present_iff.1 ⟨f, (hmem f).2 hfm, hft⟩
      obtain ⟨hfm', hft'⟩ := factOfType_mem hf'
      exact Or.inr ⟨f', (hmem f').1 hfm', f, hfm, hf', rfl, hft', hft⟩

/-! ### Settled facts give the same outcome in every order -/

section Order

variable {facts facts' : List ExtractedFact} (applicant : Applicant)

theorem checkIdentity_perm (h : facts'.Perm facts) (hs : Settled facts) :
    checkIdentity applicant facts' = checkIdentity applicant facts := by
  simp only [checkIdentity]
  rcases factOfType_perm h .syntheticId with ⟨hid', hid, -⟩ |
    ⟨id', hm₁', id, hm₁, hid', hid, ht₁', ht₁⟩
  · rw [hid', hid]
  · rcases factOfType_perm h .streetAddress with ⟨hst', hst, -⟩ |
      ⟨street', hm₂', street, hm₂, hst', hst, ht₂', ht₂⟩
    · rw [hid', hid, hst', hst]
    · rcases factOfType_perm h .city with ⟨hc', hc, -⟩ |
        ⟨city', hm₃', city, hm₃, hc', hc, ht₃', ht₃⟩
      · rw [hid', hid, hst', hst, hc', hc]
      · obtain ⟨h₁, h₂, h₃⟩ := hs.identity ⟨id, hm₁, ht₁⟩ ⟨street, hm₂, ht₂⟩ ⟨city, hm₃, ht₃⟩
        simp only [hid', hid, hst', hst, hc', hc]
        rw [h₁ id' hm₁' id hm₁ ht₁' ht₁, h₂ street' hm₂' street hm₂ ht₂' ht₂,
          h₃ city' hm₃' city hm₃ ht₃' ht₃]

/-- Without an income there is no employment check. -/
theorem checkEmployment_none (hs : factOfType facts .syntheticId = none) (income : Option ℤ) :
    checkEmployment applicant facts income = checkEmployment applicant [] none := by
  simp only [checkEmployment, hs]
  rfl

theorem checkEmployment_noIncome :
    checkEmployment applicant facts none = checkEmployment applicant [] none := by
  simp only [checkEmployment]
  cases factOfType facts .syntheticId <;> cases factOfType facts .employerName <;> rfl

theorem captureTransactionHistory_none (hs : factOfType facts .syntheticId = none)
    (income : Option ℤ) : captureTransactionHistory applicant facts income = pure [] := by
  simp only [captureTransactionHistory, hs]

theorem captureTransactionHistory_noIncome :
    captureTransactionHistory applicant facts none = pure [] := by
  simp only [captureTransactionHistory]
  cases factOfType facts .syntheticId <;> rfl

theorem captureCreditReport_perm (h : facts'.Perm facts)
    (hagree : Present facts .syntheticId → Agree facts .syntheticId ExtractedFact.normalizedValue) :
    captureCreditReport applicant facts' = captureCreditReport applicant facts := by
  simp only [captureCreditReport]
  rcases factOfType_perm h .syntheticId with ⟨hid', hid, -⟩ | ⟨id', hm', id, hm, hid', hid, ht', ht⟩
  · rw [hid', hid]
  · simp only [hid', hid]
    rw [hagree ⟨id, hm, ht⟩ id' hm' id hm ht' ht]

theorem captureTransactionHistory_perm (h : facts'.Perm facts) (income : Option ℤ)
    (hagree : Present facts .syntheticId → Agree facts .syntheticId ExtractedFact.normalizedValue) :
    captureTransactionHistory applicant facts' income =
      captureTransactionHistory applicant facts income := by
  simp only [captureTransactionHistory]
  rcases factOfType_perm h .syntheticId with ⟨hid', hid, -⟩ | ⟨id', hm', id, hm, hid', hid, ht', ht⟩
  · rw [hid', hid]
  · cases income with
    | none => simp only [hid', hid]
    | some n =>
        simp only [hid', hid]
        rw [hagree ⟨id, hm, ht⟩ id' hm' id hm ht' ht]

theorem checkEmployment_perm (h : facts'.Perm facts) (income : Option ℤ)
    (hid : Present facts .syntheticId → Agree facts .syntheticId ExtractedFact.normalizedValue)
    (hemployer : Present facts .syntheticId → Present facts .employerName → income ≠ none →
      Agree facts .employerName fun f => (f.value, f.normalizedValue)) :
    checkEmployment applicant facts' income = checkEmployment applicant facts income := by
  simp only [checkEmployment]
  rcases factOfType_perm h .syntheticId with ⟨hid₁, hid₂, -⟩ |
    ⟨id', hm₁', id, hm₁, hid₁, hid₂, ht₁', ht₁⟩
  · rw [hid₁, hid₂]
  · rcases factOfType_perm h .employerName with ⟨hem₁, hem₂, -⟩ |
      ⟨em', hm₂', em, hm₂, hem₁, hem₂, ht₂', ht₂⟩
    · rw [hid₁, hid₂, hem₁, hem₂]
    · cases income with
      | none => simp only [hid₁, hid₂, hem₁, hem₂]
      | some n =>
          have hsame := hemployer ⟨id, hm₁, ht₁⟩ ⟨em, hm₂, ht₂⟩ (by simp) em' hm₂' em hm₂ ht₂' ht₂
          obtain ⟨hvalue, hnormalized⟩ := Prod.mk.inj hsame
          simp only [hid₁, hid₂, hem₁, hem₂]
          rw [hid ⟨id, hm₁, ht₁⟩ id' hm₁' id hm₁ ht₁' ht₁, hvalue, hnormalized]

/-- **Settled facts give the same outcome in every order.** -/
theorem verification_perm (h : facts'.Perm facts) (hs : Settled facts) :
    verification applicant facts' = verification applicant facts := by
  simp only [verification, checkIdentity_perm applicant h hs, declaredIncome]
  refine congrArg _ (funext fun identity => ?_)
  rcases factOfType_perm h .grossMonthlyIncome with ⟨hinc', hinc, hno⟩ |
    ⟨f', hm', f, hm, hinc', hinc, ht', ht⟩
  · -- no income is declared
    have hid : Present facts .syntheticId →
        Agree facts .syntheticId ExtractedFact.normalizedValue := fun hp =>
      (hs.history hp fun f hf hft => absurd ⟨f, hf, hft⟩ hno).1
    rw [hinc', hinc]
    simp only [pure_bind, checkEmployment_noIncome, captureTransactionHistory_noIncome,
      captureCreditReport_perm applicant h hid]
  · rw [hinc', hinc]
    have hfailure := hs.failure f' hm' f hm ht' ht
    cases hread : annualIncome f.normalizedValue with
    | error e =>
        cases hread' : annualIncome f'.normalizedValue with
        | ok n => simp [incomeError, hread, hread'] at hfailure
        | error e' =>
            simp only [incomeError, hread, hread', Option.some.injEq] at hfailure
            subst hfailure
            simp only [hread, hread', Handler.ofExcept]
            rfl
    | ok n =>
        have hreadable : IncomeReadable facts := by
          intro g hg hgt
          have hsame := hs.failure g hg f hm hgt ht
          cases hg' : annualIncome g.normalizedValue with
          | ok m => exact ⟨m, rfl⟩
          | error e => simp [incomeError, hread, hg'] at hsame
        obtain ⟨n', hread'⟩ := hreadable f' hm' ht'
        simp only [hread, hread', Handler.ofExcept]
        rcases factOfType_perm h .syntheticId with ⟨hid', hid, -⟩ |
          ⟨id', hm₁', id, hm₁, hid', hid, ht₁', ht₁⟩
        · -- without an id the income is not used
          simp only [← Prog.pure_eq, pure_bind, checkEmployment_none applicant hid,
            checkEmployment_none applicant hid', captureTransactionHistory_none applicant hid,
            captureTransactionHistory_none applicant hid', captureCreditReport, hid, hid']
        · obtain ⟨hagree, hincome⟩ := hs.history ⟨id, hm₁, ht₁⟩ hreadable
          have hn : n' = n := by
            have hsame := hincome f' hm' f hm ht' ht
            simp only [hread, hread', Except.ok.injEq] at hsame
            exact hsame
          subst hn
          have hemployer : Present facts .syntheticId → Present facts .employerName →
              (if n' = 0 then none else some n') ≠ none →
              Agree facts .employerName fun f => (f.value, f.normalizedValue) := by
            intro hp he hne
            refine hs.employment hp he hreadable ⟨f, hm, ht, ?_⟩
            rw [hread]
            intro hzero
            simp [Except.ok.inj hzero] at hne
          simp only [← Prog.pure_eq, pure_bind, checkEmployment_perm applicant h _
            (fun _ => hagree) hemployer, captureCreditReport_perm applicant h fun _ => hagree,
            captureTransactionHistory_perm applicant h _ fun _ => hagree]

end Order

/-! ### What the external systems are asked -/

/-- External systems that confirm what they are asked; `n` questions were asked before. -/
def confirming (n : ℕ) : (q : Ask) → Answer q
  | .verifyIdentity .. => .ok ⟨"PASS", 1, 1, true, ""⟩
  | .verifyEmployment _ _ _ _ income => .ok ⟨true, income, 0⟩
  | .getCreditReport .. => .ok ⟨0, 0, 0, false⟩
  | .getTransactionHistory .. => .ok ⟨0, 0⟩
  | q => Sample.answers n q

/-- They keep what they were asked. -/
def confirmed : Environment Answer (List Ask) := fun asked q =>
  (confirming asked.length q, asked ++ [q])

section Asks

variable (applicant : Applicant) (facts : List ExtractedFact)

def identityAsks : List Ask :=
  match factOfType facts .syntheticId, factOfType facts .streetAddress, factOfType facts .city with
  | some syntheticId, some street, some city =>
      [.verifyIdentity applicant.givenName applicant.familyName applicant.dateOfBirth
        syntheticId.normalizedValue street.normalizedValue city.normalizedValue]
  | _, _, _ => []

def incomeOf : Except Error (Option ℤ) :=
  match factOfType facts .grossMonthlyIncome with
  | none => .ok none
  | some fact => (annualIncome fact.normalizedValue).map fun n => if n = 0 then none else some n

def employmentAsks (income : Option ℤ) : List Ask :=
  match factOfType facts .syntheticId, factOfType facts .employerName, income with
  | some syntheticId, some employerName, some income =>
      [.verifyEmployment applicant.givenName applicant.familyName syntheticId.normalizedValue
        employerName.normalizedValue income]
  | _, _, _ => []

def declaredEmployment (income : Option ℤ) : Option String :=
  match factOfType facts .syntheticId, factOfType facts .employerName, income with
  | some _, some employerName, some income =>
      some (employerName.value ++ ", $" ++ toString income ++ "/yr")
  | _, _, _ => none

def creditAsks : List Ask :=
  match factOfType facts .syntheticId with
  | some syntheticId => [.getCreditReport applicant.givenName applicant.familyName
      applicant.dateOfBirth syntheticId.normalizedValue]
  | none => []

def historyAsks (income : Option ℤ) : List Ask :=
  match factOfType facts .syntheticId, income with
  | some syntheticId, some income => [.getTransactionHistory applicant.givenName
      applicant.familyName syntheticId.normalizedValue income]
  | _, _ => []

variable {applicant facts} {asked : List Ask} {d : Database} {ws : List Write}

theorem alone_ask_bind {α : Type} (q : Ask) (k : Answer q → Handler α) :
    (Handler.ask q >>= k).alone postgres confirmed asked d ws =
      (k (confirming asked.length q)).alone postgres confirmed (asked ++ [q]) d ws := rfl

theorem ofExcept_bind {α β : Type} (a : α) (k : α → Handler β) :
    Handler.ofExcept (.ok a) >>= k = k a := rfl

theorem alone_ofExcept {α β : Type} {r : Except Error α} {a : α} (hr : r = .ok a)
    (k : α → Handler β) : (Handler.ofExcept r >>= k).alone postgres confirmed asked d ws =
      (k a).alone postgres confirmed asked d ws := by
  rw [hr, ofExcept_bind]

/-- A confidence in range makes a check. -/
theorem VerificationCheck.of_ok {sourceSystem : SourceSystem} {checkedFactType : String}
    {declaredValue externalValue : Option String} {verdict : VerificationVerdict} {confidence : ℚ}
    {detail : String} (h : 0 ≤ confidence ∧ confidence ≤ 1) :
    ∃ c, VerificationCheck.of sourceSystem checkedFactType declaredValue externalValue verdict
      confidence detail = .ok c ∧ c.declaredValue = declaredValue :=
  ⟨_, dif_pos h, rfl⟩

/-- A check that was made ends its program. -/
theorem alone_check {r : Except Error VerificationCheck} {c : VerificationCheck}
    (hc : r = .ok c) (snapshots : List ExternalResponseSnapshot) :
    (Handler.ofExcept r >>= fun check => (pure (check, snapshots) : Handler Checked)).alone postgres
      confirmed asked d ws = ⟨d, ws, asked, .ok (c, snapshots)⟩ := by
  rw [hc, ofExcept_bind]
  rfl

theorem alone_checkIdentity : ∃ c, (checkIdentity applicant facts).alone postgres confirmed asked d ws =
    ⟨d, ws, asked ++ identityAsks applicant facts, .ok c⟩ := by
  have hone : (0 : ℚ) ≤ min 1 1 ∧ min (1 : ℚ) 1 ≤ 1 := by norm_num
  have hzero : (0 : ℚ) ≤ 0 ∧ (0 : ℚ) ≤ 1 := by norm_num
  simp only [checkIdentity, identityAsks]
  cases factOfType facts .syntheticId with
  | none =>
      obtain ⟨c, hc, -⟩ := VerificationCheck.of_ok hzero
      exact ⟨_, by rw [List.append_nil]; exact alone_check hc _⟩
  | some syntheticId =>
      cases factOfType facts .streetAddress with
      | none =>
          obtain ⟨c, hc, -⟩ := VerificationCheck.of_ok hzero
          exact ⟨_, by rw [List.append_nil]; exact alone_check hc _⟩
      | some street =>
          cases factOfType facts .city with
          | none =>
              obtain ⟨c, hc, -⟩ := VerificationCheck.of_ok hzero
              exact ⟨_, by rw [List.append_nil]; exact alone_check hc _⟩
          | some city =>
              obtain ⟨c, hc, -⟩ := VerificationCheck.of_ok hone
              exact ⟨_, (alone_ask_bind _ _).trans (alone_check hc _)⟩

theorem alone_declaredIncome : (declaredIncome facts).alone postgres confirmed asked d ws =
    ⟨d, ws, asked, incomeOf facts⟩ := by
  simp only [declaredIncome, incomeOf]
  cases factOfType facts .grossMonthlyIncome with
  | none => rfl
  | some fact =>
      cases hread : annualIncome fact.normalizedValue with
      | error e => simp only [hread]; rfl
      | ok n => simp only [hread]; rfl

/-- An income that is confirmed does not deviate. -/
theorem relativeDeviation_confirmed (income : ℤ) (e : Error) :
    (match Binary64.round (|(income : ℚ) - income| / income) with
      | some q => .ok q
      | none => .error e) = (.ok 0 : Except Error ℚ) := by
  rw [sub_self, abs_zero, zero_div]
  rfl

theorem alone_checkEmployment (income : Option ℤ) : ∃ c,
    (checkEmployment applicant facts income).alone postgres confirmed asked d ws =
      ⟨d, ws, asked ++ employmentAsks applicant facts income, .ok c⟩ ∧
    c.1.declaredValue = declaredEmployment facts income := by
  have hzero : (0 : ℚ) ≤ 0 ∧ (0 : ℚ) ≤ 1 := by norm_num
  simp only [checkEmployment, employmentAsks, declaredEmployment]
  cases factOfType facts .syntheticId with
  | none =>
      obtain ⟨c, hc, hdeclared⟩ := VerificationCheck.of_ok hzero
      exact ⟨_, by rw [List.append_nil]; exact alone_check hc _, hdeclared⟩
  | some syntheticId =>
      cases factOfType facts .employerName with
      | none =>
          obtain ⟨c, hc, hdeclared⟩ := VerificationCheck.of_ok hzero
          exact ⟨_, by rw [List.append_nil]; exact alone_check hc _, hdeclared⟩
      | some employerName =>
          cases income with
          | none =>
              obtain ⟨c, hc, hdeclared⟩ := VerificationCheck.of_ok hzero
              exact ⟨_, by rw [List.append_nil]; exact alone_check hc _, hdeclared⟩
          | some income =>
              have hone : (Binary64.round (1 - min 0 1)).getD 0 = 1 := by decide +kernel
              have hconf : (0 : ℚ) ≤ max 0 ((Binary64.round (1 - min 0 1)).getD 0) ∧
                  max 0 ((Binary64.round (1 - min 0 1)).getD 0) ≤ (1 : ℚ) := by
                rw [hone]
                norm_num
              obtain ⟨c, hc, hdeclared⟩ := VerificationCheck.of_ok hconf
              exact ⟨(c, _), (alone_ask_bind _ _).trans ((alone_ofExcept
                (relativeDeviation_confirmed income _) _).trans
                (alone_check hc _)), hdeclared⟩

theorem alone_captureCreditReport : ∃ c,
    (captureCreditReport applicant facts).alone postgres confirmed asked d ws =
      ⟨d, ws, asked ++ creditAsks applicant facts, .ok c⟩ := by
  simp only [captureCreditReport, creditAsks]
  cases factOfType facts .syntheticId with
  | none => exact ⟨_, by rw [List.append_nil]; rfl⟩
  | some syntheticId => exact ⟨_, rfl⟩

theorem alone_captureTransactionHistory (income : Option ℤ) : ∃ c,
    (captureTransactionHistory applicant facts income).alone postgres confirmed asked d ws =
      ⟨d, ws, asked ++ historyAsks applicant facts income, .ok c⟩ := by
  simp only [captureTransactionHistory, historyAsks]
  cases factOfType facts .syntheticId with
  | none => exact ⟨_, by rw [List.append_nil]; rfl⟩
  | some syntheticId =>
      cases income with
      | none => exact ⟨_, by rw [List.append_nil]; rfl⟩
      | some income => exact ⟨_, rfl⟩

variable (applicant facts asked d ws) in
/-- **The run of a verification** by systems that confirm what they are asked. -/
theorem alone_verification :
    match incomeOf facts with
    | .error e => (verification applicant facts).alone postgres confirmed asked d ws =
        ⟨d, ws, asked ++ identityAsks applicant facts, .error e⟩
    | .ok income => ∃ identity employment snapshots,
        (verification applicant facts).alone postgres confirmed asked d ws =
          ⟨d, ws, asked ++ identityAsks applicant facts ++ employmentAsks applicant facts income ++
            creditAsks applicant facts ++ historyAsks applicant facts income,
            .ok ([identity, employment], snapshots)⟩ ∧
        employment.declaredValue = declaredEmployment facts income := by
  obtain ⟨identity, hidentity⟩ : ∃ c, (checkIdentity applicant facts).alone postgres confirmed
      asked d ws = ⟨d, ws, asked ++ identityAsks applicant facts, .ok c⟩ := alone_checkIdentity
  cases hincome : incomeOf facts with
  | error e =>
      simp only [verification, Prog.alone_bind, hidentity, alone_declaredIncome, hincome]
  | ok income =>
      obtain ⟨employment, hemployment, hdeclared⟩ : ∃ c,
          (checkEmployment applicant facts income).alone postgres confirmed
            (asked ++ identityAsks applicant facts) d ws =
          ⟨d, ws, asked ++ identityAsks applicant facts ++ employmentAsks applicant facts income,
            .ok c⟩ ∧ c.1.declaredValue = declaredEmployment facts income :=
        alone_checkEmployment income
      obtain ⟨credit, hcredit⟩ : ∃ c,
          (captureCreditReport applicant facts).alone postgres confirmed
            (asked ++ identityAsks applicant facts ++ employmentAsks applicant facts income) d ws =
          ⟨d, ws, asked ++ identityAsks applicant facts ++ employmentAsks applicant facts income ++
            creditAsks applicant facts, .ok c⟩ := alone_captureCreditReport
      obtain ⟨history, hhistory⟩ : ∃ c,
          (captureTransactionHistory applicant facts income).alone postgres confirmed
            (asked ++ identityAsks applicant facts ++ employmentAsks applicant facts income ++
              creditAsks applicant facts) d ws =
          ⟨d, ws, asked ++ identityAsks applicant facts ++ employmentAsks applicant facts income ++
            creditAsks applicant facts ++ historyAsks applicant facts income, .ok c⟩ :=
        alone_captureTransactionHistory income
      refine ⟨identity.1, employment.1, identity.2 ++ employment.2 ++ credit ++ history, ?_,
        hdeclared⟩
      simp only [verification, Prog.alone_bind, hidentity, alone_declaredIncome, hincome,
        hemployment, hcredit, hhistory]
      rfl

end Asks

/-! ### What is asked tells the facts apart -/

/-- The system a question goes to. -/
def Ask.system : Ask → Option SourceSystem
  | .verifyIdentity .. => some .mockKyc
  | .verifyEmployment .. => some .mockEmployer
  | .getCreditReport .. => some .mockBureau
  | .getTransactionHistory .. => some .mockCoreBanking
  | _ => none

/-- What one system is asked. -/
def askedOf (s : SourceSystem) (asks : List Ask) : List Ask :=
  asks.filter fun q => q.system = some s

section Distinguish

variable {applicant : Applicant} {facts facts' : List ExtractedFact}

theorem askedOf_identityAsks (s : SourceSystem) : askedOf s (identityAsks applicant facts) =
    if s = .mockKyc then identityAsks applicant facts else [] := by
  simp only [askedOf, identityAsks]
  split <;> cases s <;> rfl

theorem askedOf_employmentAsks (s : SourceSystem) (income : Option ℤ) :
    askedOf s (employmentAsks applicant facts income) =
      if s = .mockEmployer then employmentAsks applicant facts income else [] := by
  simp only [askedOf, employmentAsks]
  split <;> cases s <;> rfl

theorem askedOf_creditAsks (s : SourceSystem) : askedOf s (creditAsks applicant facts) =
    if s = .mockBureau then creditAsks applicant facts else [] := by
  simp only [askedOf, creditAsks]
  split <;> cases s <;> rfl

theorem askedOf_historyAsks (s : SourceSystem) (income : Option ℤ) :
    askedOf s (historyAsks applicant facts income) =
      if s = .mockCoreBanking then historyAsks applicant facts income else [] := by
  simp only [askedOf, historyAsks]
  split <;> cases s <;> rfl

theorem askedOf_append (s : SourceSystem) (asks asks' : List Ask) :
    askedOf s (asks ++ asks') = askedOf s asks ++ askedOf s asks' :=
  List.filter_append ..

variable (applicant facts facts') in
/-- The same is asked and answered of two lists of facts. -/
structure SameAsks : Prop where
  identity : identityAsks applicant facts' = identityAsks applicant facts
  failure : ∀ e, incomeOf facts' = .error e ↔ incomeOf facts = .error e
  employment : ∀ income' income, incomeOf facts' = .ok income' → incomeOf facts = .ok income →
    employmentAsks applicant facts' income' = employmentAsks applicant facts income ∧
    declaredEmployment facts' income' = declaredEmployment facts income
  credit : ∀ income' income, incomeOf facts' = .ok income' → incomeOf facts = .ok income →
    creditAsks applicant facts' = creditAsks applicant facts
  history : ∀ income' income, incomeOf facts' = .ok income' → incomeOf facts = .ok income →
    historyAsks applicant facts' income' = historyAsks applicant facts income

/-- **Runs with the same questions and the same result** have asked the same of each system. -/
theorem sameAsks_of_alone {asked : List Ask} {d d' : Database} {ws ws' : List Write}
    (henv : ((verification applicant facts').alone postgres confirmed asked d' ws').env =
      ((verification applicant facts).alone postgres confirmed asked d ws).env)
    (hresult : ((verification applicant facts').alone postgres confirmed asked d' ws').result =
      ((verification applicant facts).alone postgres confirmed asked d ws).result) :
    SameAsks applicant facts facts' := by
  have hrun' := alone_verification applicant facts' asked d' ws'
  have hrun := alone_verification applicant facts asked d ws
  cases hincome' : incomeOf facts' with
  | error e' =>
      cases hincome : incomeOf facts with
      | ok income =>
          simp only [hincome'] at hrun'
          simp only [hincome] at hrun
          obtain ⟨identity, employment, snapshots, hrun, -⟩ := hrun
          rw [hrun', hrun] at hresult
          cases hresult
      | error e =>
          simp only [hincome'] at hrun'
          simp only [hincome] at hrun
          rw [hrun', hrun] at henv hresult
          obtain rfl : e' = e := Except.error.inj hresult
          exact ⟨List.append_cancel_left henv, fun _ => by rw [hincome', hincome],
            fun _ _ h => by simp [hincome'] at h, fun _ _ h => by simp [hincome'] at h,
            fun _ _ h => by simp [hincome'] at h⟩
  | ok income' =>
      cases hincome : incomeOf facts with
      | error e =>
          simp only [hincome'] at hrun'
          simp only [hincome] at hrun
          obtain ⟨identity, employment, snapshots, hrun', -⟩ := hrun'
          rw [hrun', hrun] at hresult
          cases hresult
      | ok income =>
          simp only [hincome'] at hrun'
          simp only [hincome] at hrun
          obtain ⟨identity', employment', snapshots', hrun', hdeclared'⟩ := hrun'
          obtain ⟨identity, employment, snapshots, hrun, hdeclared⟩ := hrun
          rw [hrun', hrun] at henv hresult
          simp only [List.append_assoc] at henv
          have hasks := List.append_cancel_left henv
          have hof : ∀ s, askedOf s _ = askedOf s _ := fun s => congrArg (askedOf s) hasks
          simp only [askedOf_append, askedOf_identityAsks, askedOf_employmentAsks,
            askedOf_creditAsks, askedOf_historyAsks] at hof
          have hemployment : employment' = employment := by
            have hpair := Except.ok.inj hresult
            simp only [Prod.mk.injEq, List.cons.injEq] at hpair
            exact hpair.1.2.1
          have hidentity : identityAsks applicant facts' = identityAsks applicant facts := by
            simpa using hof .mockKyc
          refine ⟨hidentity, fun e => by rw [hincome', hincome]; simp, ?_, ?_, ?_⟩
          · intro i' i hi' hi
            obtain rfl := Except.ok.inj (hincome'.symm.trans hi')
            obtain rfl := Except.ok.inj (hincome.symm.trans hi)
            exact ⟨by simpa using hof .mockEmployer,
              hdeclared'.symm.trans ((congrArg _ hemployment).trans hdeclared)⟩
          · exact fun _ _ _ _ => by simpa using hof .mockBureau
          · intro i' i hi' hi
            obtain rfl := Except.ok.inj (hincome'.symm.trans hi')
            obtain rfl := Except.ok.inj (hincome.symm.trans hi)
            simpa using hof .mockCoreBanking

/-- Two facts of a type agree if what is used of the last one is the same in every order. -/
theorem agree_of_last {β : Type} {factType : FactType} {use : ExtractedFact → β} (b : β)
    (h : ∀ facts' : List ExtractedFact, facts'.Perm facts → ∀ f,
      factOfType facts' factType = some f → use f = b) : Agree facts factType use := by
  have hlast : ∀ f ∈ facts, f.factType = factType → use f = b := by
    rintro f hf rfl
    obtain ⟨before, after, rfl⟩ := List.append_of_mem hf
    refine h (before ++ after ++ [f])
      ((List.perm_append_singleton f _).trans List.perm_middle.symm) f ?_
    simp [factOfType]
  exact fun f hf g hg hft hgt => (hlast f hf hft).trans (hlast g hg hgt).symm

theorem Present.perm {factType : FactType} (h : facts'.Perm facts)
    (hp : Present facts factType) : ∃ f, factOfType facts' factType = some f := by
  obtain ⟨f, hf, ht⟩ := hp
  exact present_iff.1 ⟨f, h.mem_iff.2 hf, ht⟩

theorem incomeOf_readable (h : facts'.Perm facts) (hr : IncomeReadable facts) :
    ∃ income, incomeOf facts' = .ok income := by
  simp only [incomeOf]
  cases hf : factOfType facts' .grossMonthlyIncome with
  | none => exact ⟨none, rfl⟩
  | some f =>
      obtain ⟨hm, ht⟩ := factOfType_mem hf
      obtain ⟨n, hn⟩ := hr f (h.mem_iff.1 hm) ht
      exact ⟨_, congrArg (Except.map _) hn⟩

/-- What is declared of the income, if it can be read. -/
theorem incomeOf_of {f : ExtractedFact} {n : ℤ}
    (hf : factOfType facts .grossMonthlyIncome = some f) (hn : annualIncome f.normalizedValue = .ok n) :
    incomeOf facts = .ok (if n = 0 then none else some n) := by
  simp only [incomeOf, hf]
  exact congrArg (Except.map _) hn

section Settle

variable (h : ∀ facts' : List ExtractedFact, facts'.Perm facts → SameAsks applicant facts facts')

include h

/-- The ids agree: the credit report is asked for with them. -/
theorem agree_syntheticId (hp : Present facts .syntheticId) (hr : IncomeReadable facts) :
    Agree facts .syntheticId ExtractedFact.normalizedValue := by
  obtain ⟨id, hfid⟩ := hp.perm (List.Perm.refl facts)
  obtain ⟨income, hincome⟩ := incomeOf_readable (List.Perm.refl facts) hr
  refine agree_of_last id.normalizedValue fun facts' hperm f hf => ?_
  obtain ⟨income', hincome'⟩ := incomeOf_readable hperm hr
  have hsame := (h facts' hperm).credit income' income hincome' hincome
  simp only [creditAsks, hf, hfid, List.cons.injEq, Ask.getCreditReport.injEq, and_true,
    true_and] at hsame
  exact hsame

/-- The incomes agree: the transaction history is asked for with them. -/
theorem agree_income (hp : Present facts .syntheticId) (hr : IncomeReadable facts) :
    Agree facts .grossMonthlyIncome fun f => annualIncome f.normalizedValue := by
  cases hlast : factOfType facts .grossMonthlyIncome with
  | none => exact fun f hf _ _ hft _ => absurd ⟨f, hf, hft⟩ (factOfType_none.1 hlast)
  | some last =>
      obtain ⟨hmem, htype⟩ := factOfType_mem hlast
      obtain ⟨n, hn⟩ := hr last hmem htype
      refine agree_of_last (.ok n) fun facts' hperm f hf => ?_
      obtain ⟨hmem', htype'⟩ := factOfType_mem hf
      obtain ⟨n', hn'⟩ := hr f (hperm.mem_iff.1 hmem') htype'
      obtain ⟨id, hfid⟩ := hp.perm (List.Perm.refl facts)
      obtain ⟨id', hfid'⟩ := hp.perm hperm
      have hsame := (h facts' hperm).history _ _ (incomeOf_of hf hn') (incomeOf_of hlast hn)
      simp only [historyAsks, hfid, hfid'] at hsame
      rw [hn']
      by_cases h' : n' = 0 <;> by_cases h₀ : n = 0 <;> simp_all

/-- What the identity check is asked with agrees. -/
theorem agree_identity (hpid : Present facts .syntheticId) (hpstreet : Present facts .streetAddress)
    (hpcity : Present facts .city) :
    Agree facts .syntheticId ExtractedFact.normalizedValue ∧
    Agree facts .streetAddress ExtractedFact.normalizedValue ∧
    Agree facts .city ExtractedFact.normalizedValue := by
  obtain ⟨id, hfid⟩ := hpid.perm (List.Perm.refl facts)
  obtain ⟨street, hfstreet⟩ := hpstreet.perm (List.Perm.refl facts)
  obtain ⟨city, hfcity⟩ := hpcity.perm (List.Perm.refl facts)
  have hall : ∀ facts' : List ExtractedFact, facts'.Perm facts → ∀ id' street' city',
      factOfType facts' .syntheticId = some id' →
      factOfType facts' .streetAddress = some street' → factOfType facts' .city = some city' →
      id'.normalizedValue = id.normalizedValue ∧
        street'.normalizedValue = street.normalizedValue ∧
        city'.normalizedValue = city.normalizedValue := by
    intro facts' hperm id' street' city' hid' hstreet' hcity'
    have hsame := (h facts' hperm).identity
    simp only [identityAsks, hid', hstreet', hcity', hfid, hfstreet, hfcity, List.cons.injEq,
      Ask.verifyIdentity.injEq, and_true, true_and] at hsame
    exact hsame
  refine ⟨agree_of_last id.normalizedValue fun facts' hperm f hf => ?_,
    agree_of_last street.normalizedValue fun facts' hperm f hf => ?_,
    agree_of_last city.normalizedValue fun facts' hperm f hf => ?_⟩
  · obtain ⟨street', hs'⟩ := hpstreet.perm hperm
    obtain ⟨city', hc'⟩ := hpcity.perm hperm
    exact (hall facts' hperm f street' city' hf hs' hc').1
  · obtain ⟨id', hi'⟩ := hpid.perm hperm
    obtain ⟨city', hc'⟩ := hpcity.perm hperm
    exact (hall facts' hperm id' f city' hi' hf hc').2.1
  · obtain ⟨id', hi'⟩ := hpid.perm hperm
    obtain ⟨street', hs'⟩ := hpstreet.perm hperm
    exact (hall facts' hperm id' street' f hi' hs' hf).2.2

/-- Whether and why an income cannot be read agrees: the verification ends there. -/
theorem agree_incomeError : Agree facts .grossMonthlyIncome incomeError := by
  cases hlast : factOfType facts .grossMonthlyIncome with
  | none => exact fun f hf _ _ hft _ => absurd ⟨f, hf, hft⟩ (factOfType_none.1 hlast)
  | some last =>
      refine agree_of_last (incomeError last) fun facts' hperm f hf => ?_
      have hsame := (h facts' hperm).failure
      simp only [incomeOf, hf, hlast] at hsame
      simp only [incomeError]
      cases hn' : annualIncome f.normalizedValue with
      | ok n' =>
          cases hn : annualIncome last.normalizedValue with
          | ok n => rfl
          | error e => simp [hn', hn, Except.map] at hsame
      | error e' =>
          have hone := (hsame e').1 (by rw [hn']; rfl)
          cases hn : annualIncome last.normalizedValue with
          | ok n => simp [hn, Except.map] at hone
          | error e => simpa [hn, Except.map, eq_comm] using hone

/-- The employers agree: the employment check is asked with them, and says what was declared. -/
theorem agree_employer (hp : Present facts .syntheticId) (hemployer : Present facts .employerName)
    (hr : IncomeReadable facts) (hne : ∃ f ∈ facts, f.factType = .grossMonthlyIncome ∧
      annualIncome f.normalizedValue ≠ .ok 0) :
    Agree facts .employerName fun f => (f.value, f.normalizedValue) := by
  obtain ⟨f₀, hm₀, ht₀, hne⟩ := hne
  obtain ⟨em, hfem⟩ := hemployer.perm (List.Perm.refl facts)
  obtain ⟨n, hn⟩ := hr f₀ hm₀ ht₀
  have hnonzero : n ≠ 0 := by
    rintro rfl
    exact hne hn
  have hincome : ∀ facts' : List ExtractedFact, facts'.Perm facts →
      incomeOf facts' = .ok (some n) := by
    intro facts' hperm
    obtain ⟨f, hf⟩ := Present.perm hperm ⟨f₀, hm₀, ht₀⟩
    obtain ⟨hm, ht⟩ := factOfType_mem hf
    have hread := (agree_income h hp hr f (hperm.mem_iff.1 hm) f₀ hm₀ ht ht₀).trans hn
    rw [incomeOf_of hf hread, if_neg hnonzero]
  refine agree_of_last (em.value, em.normalizedValue) fun facts' hperm f hf => ?_
  obtain ⟨id, hfid⟩ := hp.perm (List.Perm.refl facts)
  obtain ⟨id', hfid'⟩ := hp.perm hperm
  obtain ⟨hasks, hdeclared⟩ := (h facts' hperm).employment _ _ (hincome facts' hperm)
    (hincome facts (List.Perm.refl facts))
  simp only [employmentAsks, hf, hfem, hfid, hfid', List.cons.injEq, Ask.verifyEmployment.injEq,
    and_true, true_and] at hasks
  simp only [declaredEmployment, hf, hfem, hfid, hfid', Option.some.injEq] at hdeclared
  have hvalue : f.value = em.value := by
    have hlist := congrArg String.toList hdeclared
    simp only [String.toList_append, List.append_assoc] at hlist
    exact String.ext (List.append_cancel_right hlist)
  rw [hvalue, hasks.2]

/-- **If the same is asked in every order, the facts are settled.** -/
theorem settled_of_sameAsks : Settled facts where
  identity := agree_identity h
  failure := agree_incomeError h
  history hp hr := ⟨agree_syntheticId h hp hr, agree_income h hp hr⟩
  employment := agree_employer h

end Settle

end Distinguish

/-! ### The order of the rows -/

/-- A row of another table. -/
def Row.isOther (r : Row) : Bool := r.extractedFact?.isNone

/-- The same rows, but that the facts may stand in another order. -/
structure Reordered (d d' : Database) : Prop where
  others : d.rows.filter Row.isOther = d'.rows.filter Row.isOther
  facts : d.extractedFacts.Perm d'.extractedFacts

namespace Reordered

variable {d d' : Database}

/-- A table other than that of the facts is the same. -/
theorem filterMap (h : Reordered d d') {β : Type} (π : Row → Option β)
    (hπ : ∀ r, π (.extractedFact r) = none) : d.rows.filterMap π = d'.rows.filterMap π := by
  have hothers : ∀ rows : List Row, rows.filterMap π = (rows.filter Row.isOther).filterMap π := by
    intro rows
    rw [List.filterMap_filter]
    refine List.filterMap_congr fun r _ => ?_
    cases r <;> first | rfl | exact hπ _
  rw [hothers, h.others, ← hothers]

theorem mem_iff (h : Reordered d d') (r : Row) : r ∈ d.rows ↔ r ∈ d'.rows := by
  have hone : ∀ x : Database, r ∈ x.rows ↔
      r ∈ x.rows.filter Row.isOther ∨ ∃ f ∈ x.extractedFacts, r = .extractedFact f := by
    intro x
    cases hf : r.extractedFact? with
    | none =>
        have hno : ∀ f, r ≠ .extractedFact f := by
          rintro f rfl
          simp [Row.extractedFact?] at hf
        simp [List.mem_filter, Row.isOther, hf, hno]
    | some f =>
        have hr : r = .extractedFact f := by
          cases r <;> simp_all [Row.extractedFact?]
        subst hr
        have hmem : f ∈ x.extractedFacts ↔ Row.extractedFact f ∈ x.rows := by
          simp only [Database.extractedFacts, List.mem_filterMap]
          refine ⟨?_, fun hmem => ⟨_, hmem, rfl⟩⟩
          rintro ⟨a, ha, hfa⟩
          cases a <;> simp_all [Row.extractedFact?]
        simp [List.mem_filter, Row.isOther, hf, hmem]
  rw [hone d, hone d', h.others]
  simp only [h.facts.mem_iff]

theorem has (h : Reordered d d') (k : Key) : d.has k = d'.has k := by
  rw [Bool.eq_iff_iff, Database.has_iff, Database.has_iff]
  simp only [h.mem_iff]

theorem visible (h : Reordered d d') (t : TenantId) : Reordered (d.visible t) (d'.visible t) where
  others := by
    simp only [Database.visible]
    rw [List.filter_comm, h.others, List.filter_comm]
  facts := by
    have hone : ∀ x : Database, (x.visible t).extractedFacts =
        x.extractedFacts.filter fun r => r.tenantId = t := by
      intro x
      simp only [Database.visible, Database.extractedFacts, List.filterMap_filter,
        List.filter_filterMap]
      refine List.filterMap_congr fun r _ => ?_
      cases r <;> simp [Row.extractedFact?, Row.visibleTo, Row.tenantId?, Option.filter]
    rw [hone, hone]
    exact h.facts.filter _

theorem apply (h : Reordered d d') (w : Write) : Reordered (d.apply w) (d'.apply w) where
  others := by
    have hother : Row.isOther ∘ w.statement.change w.tenantId = Row.isOther := by
      refine funext fun r => ?_
      cases hs : w.statement <;> cases r <;> rfl
    simp only [Database.apply, List.filter_append, List.filter_map, hother, h.others]
  facts := by
    have hkeep : Row.extractedFact? ∘ w.statement.change w.tenantId = Row.extractedFact? := by
      refine funext fun r => ?_
      cases hs : w.statement <;> cases r <;> rfl
    simp only [Database.extractedFacts, Database.apply, List.filterMap_append, List.filterMap_map,
      hkeep]
    exact h.facts.append_right _

theorem fault (h : Reordered d d') (w : Write) : postgres.fault d w = postgres.fault d' w := by
  have hhas : d.has = d'.has := funext h.has
  simp only [postgres, Database.fault, hhas]

end Reordered

/-! ### The handler on reordered rows -/

/-- What two runs on reordered rows have in common. -/
def reorderedRuns : Common Database Write Answer := ⟨Reordered, fun _ _ => True, fun _ => True⟩

/-- **The outcome does not depend on the order of the facts**: whatever the external systems are,
the same is asked, returned and written. -/
def OrderIndependent {α : Type} (p : Handler α) (d : Database) : Prop :=
  ∀ d', Reordered d d' → ∀ (σ : Type) (E : Environment Answer σ) (s : σ),
    (p.alone postgres E s d []).Same Reordered (p.alone postgres E s d' [])

section Handlers

variable {σ α : Type} {E : Environment Answer σ} {s : σ} {d d' : Database} {ws : List Write}

theorem alone_reordered {p : Handler α} (hp : p.Respects reorderedRuns fun _ => True)
    (h : Reordered d d') :
    (p.alone postgres E s d ws).Same Reordered (p.alone postgres E s d' ws) :=
  (hp.alone (B := reorderedRuns) (fun _ _ => trivial) (fun _ _ w h _ => h.fault w)
    (fun _ _ w h _ => h.apply w) s h fun _ _ => trivial).1

/-- Where the handler has found the applicant. -/
def loadApplicant (command : ApplicationCommand) : Handler Applicant := do
  requireReservation command.tenantId command.idempotencyKey verifyApplicationFactsOperation
  let row ← requireApplication command.tenantId command.applicationId
  requireApplicant command.tenantId command.applicationId row.applicantId

theorem computeVerification_eq (command : ApplicationCommand) : computeVerification command =
    (do
      let applicant ← loadApplicant command
      let facts ← getFacts command.tenantId command.applicationId
      verification applicant facts) := by
  simp only [computeVerification, loadApplicant, bind_assoc]

/-- **The applicant the handler comes to**, if its key is free and there is one. -/
def verifiedApplicant? (command : ApplicationCommand) (d : Database) : Option Applicant :=
  if d.has (.idempotencyKey command.tenantId verifyApplicationFactsOperation
      command.idempotencyKey) then none
  else
    (applicationRow? command.tenantId command.applicationId d).bind fun row =>
      (applicantRow? command.tenantId row.applicantId d).bind fun r =>
        (Applicant.of r.applicantId r.tenantId r.givenName r.familyName r.dateOfBirth
          r.email).toOption

/-- The facts the handler reads. -/
def factsOf (command : ApplicationCommand) (d : Database) : List ExtractedFact :=
  ((d.visible command.tenantId).extractedFacts.filter fun r =>
    r.tenantId = command.tenantId && r.applicationId = command.applicationId).map
      ExtractedFactRow.fact

/-- What has happened when the handler has found the applicant. -/
theorem alone_loadApplicant {command : ApplicationCommand} {applicant : Applicant}
    (h : verifiedApplicant? command d = some applicant) :
    (loadApplicant command).alone postgres E s d [] =
      ⟨d, [reserveWrite command.tenantId verifyApplicationFactsOperation command.idempotencyKey
        (timeOf E s)], (E s .now).2, .ok applicant⟩ := by
  simp only [verifiedApplicant?, Option.ite_none_left_eq_some, Option.bind_eq_some_iff] at h
  obtain ⟨hfree, row, hrow, r, hr, happlicant⟩ := h
  rw [loadApplicant, Prog.alone_bind, alone_requireReservation, if_neg hfree]
  simp only [Prog.alone_bind, alone_requireApplication, applicationRow?_reserved, hrow,
    alone_requireApplicant, applicantRow?_reserved, hr]
  cases hof : Applicant.of r.applicantId r.tenantId r.givenName r.familyName r.dateOfBirth r.email with
  | error e => simp [hof, Except.toOption] at happlicant
  | ok x =>
      simp only [hof, Except.toOption, Option.some.injEq] at happlicant
      rw [happlicant]

/-- And otherwise it has raised an exception. -/
theorem alone_loadApplicant_none {command : ApplicationCommand}
    (h : verifiedApplicant? command d = none) :
    ∃ e, ((loadApplicant command).alone postgres E s d []).result = .error e := by
  rw [loadApplicant, Prog.alone_bind, alone_requireReservation]
  by_cases hfree : d.has (.idempotencyKey command.tenantId verifyApplicationFactsOperation
      command.idempotencyKey) = true
  · simp only [hfree, if_true]
    exact ⟨_, rfl⟩
  · simp only [hfree, Bool.false_eq_true, if_false, Prog.alone_bind, alone_requireApplication,
      applicationRow?_reserved]
    simp only [verifiedApplicant?, hfree, Bool.false_eq_true, if_false] at h
    cases hrow : applicationRow? command.tenantId command.applicationId d with
    | none => exact ⟨_, rfl⟩
    | some row =>
        simp only [hrow, Option.bind_some] at h
        simp only [alone_requireApplicant, applicantRow?_reserved]
        cases hr : applicantRow? command.tenantId row.applicantId d with
        | none => exact ⟨_, rfl⟩
        | some r =>
            simp only [hr, Option.bind_some] at h
            cases hof : Applicant.of r.applicantId r.tenantId r.givenName r.familyName r.dateOfBirth
                r.email with
            | error e => exact ⟨e, hof⟩
            | ok x => simp [hof, Except.toOption] at h

/-- The applicant and the facts once read, the rest is the verification. -/
theorem alone_computeVerification {command : ApplicationCommand} {applicant : Applicant}
    (h : verifiedApplicant? command d = some applicant) :
    (computeVerification command).alone postgres E s d [] =
      (verification applicant (factsOf command d)).alone postgres E (E s .now).2 d
        [reserveWrite command.tenantId verifyApplicationFactsOperation command.idempotencyKey
          (timeOf E s)] := by
  have hfacts : factsOf command (postgres.view d [reserveWrite command.tenantId
      verifyApplicationFactsOperation command.idempotencyKey (timeOf E s)]) = factsOf command d := by
    simp only [factsOf, Database.extractedFacts]
    rw [filterMap_reserved _ fun _ => rfl]
  rw [computeVerification_eq, Prog.alone_bind, alone_loadApplicant h]
  simp only [Prog.alone_bind, getFacts, alone_select]
  exact congrArg (fun facts => (verification applicant facts).alone postgres E (E s .now).2 d _)
    hfacts

theorem Reordered.verifiedApplicant? (h : Reordered d d') (command : ApplicationCommand) :
    verifiedApplicant? command d = verifiedApplicant? command d' := by
  have hvisible := h.visible command.tenantId
  simp only [FinAssist.verifiedApplicant?, applicationRow?, applicantRow?, Database.application?,
    Database.applications, Database.applicants, h.has, hvisible.filterMap Row.application? fun _ => rfl,
    hvisible.filterMap Row.applicant? fun _ => rfl]

theorem Reordered.factsOf (h : Reordered d d') (command : ApplicationCommand) :
    (factsOf command d').Perm (factsOf command d) :=
  (((h.visible command.tenantId).facts.filter _).map _).symm

theorem respects_requireApplication (t : TenantId) (a : ApplicationId) :
    (requireApplication t a).Respects reorderedRuns fun _ => True := by
  refine Prog.Respects.bind (P := fun _ => True) ?_ fun row _ => ?_
  · refine Prog.Respects.bind (P := fun _ => True) (respects_select fun d d' h => ⟨?_, trivial⟩)
      fun row _ => respects_pure trivial
    simp only [Database.application?, Database.applications]
    rw [(Reordered.visible h t).filterMap Row.application? fun _ => rfl]
  · cases row with
    | some row => exact respects_pure trivial
    | none => exact respects_raise

theorem respects_requireApplicant (t : TenantId) (a : ApplicationId) (applicantId : ApplicantId) :
    (requireApplicant t a applicantId).Respects reorderedRuns fun _ => True := by
  refine Prog.Respects.bind (P := fun _ => True) ?_ fun row _ => ?_
  · refine Prog.Respects.bind (P := fun _ => True) (respects_select fun d d' h => ⟨?_, trivial⟩)
      fun row _ => ?_
    · simp only [Database.applicants]
      rw [(Reordered.visible h t).filterMap Row.applicant? fun _ => rfl]
    · cases row.filter fun r => r.tenantId = t with
      | none => exact respects_pure trivial
      | some r =>
          exact (respects_ofExcept fun _ _ => trivial).bind (P := fun _ => True) fun _ _ =>
            respects_pure trivial
  · cases row with
    | some row => exact respects_pure trivial
    | none => exact respects_raise

theorem respects_loadApplicant (command : ApplicationCommand) :
    (loadApplicant command).Respects reorderedRuns fun _ => True :=
  (respects_requireReservation (fun _ => trivial) trivial).bind (P := fun _ => True) fun _ _ =>
    (respects_requireApplication _ _).bind fun _ _ => respects_requireApplicant _ _ _

section Asking

variable {B : Common Database Write Answer} {applicant : Applicant} {facts : List ExtractedFact}

theorem respects_checkIdentity :
    (checkIdentity applicant facts).Respects B fun _ => True := by
  simp only [checkIdentity]
  split
  · exact (respects_ask fun _ _ => trivial).bind (P := fun _ => True) fun _ _ =>
      (respects_ofPort fun _ _ => trivial).bind (P := fun _ => True) fun _ _ =>
        (respects_ofExcept fun _ _ => trivial).bind (P := fun _ => True) fun _ _ =>
          respects_pure trivial
  · exact (respects_ofExcept fun _ _ => trivial).bind (P := fun _ => True) fun _ _ =>
      respects_pure trivial

theorem respects_declaredIncome : (declaredIncome facts).Respects B fun _ => True := by
  simp only [declaredIncome]
  split
  · exact respects_pure trivial
  next fact _ =>
    -- whatever the income is read as
    generalize annualIncome fact.normalizedValue = income
    exact (respects_ofExcept fun _ _ => trivial).bind (P := fun _ => True) fun _ _ =>
      respects_pure trivial

theorem respects_checkEmployment (income : Option ℤ) :
    (checkEmployment applicant facts income).Respects B fun _ => True := by
  simp only [checkEmployment]
  split
  · exact (respects_ask fun _ _ => trivial).bind (P := fun _ => True) fun _ _ =>
      (respects_ofPort fun _ _ => trivial).bind (P := fun _ => True) fun _ _ =>
        (respects_ofExcept fun _ _ => trivial).bind (P := fun _ => True) fun _ _ =>
          (respects_ofExcept fun _ _ => trivial).bind (P := fun _ => True) fun _ _ =>
            respects_pure trivial
  · exact (respects_ofExcept fun _ _ => trivial).bind (P := fun _ => True) fun _ _ =>
      respects_pure trivial

theorem respects_captureCreditReport :
    (captureCreditReport applicant facts).Respects B fun _ => True := by
  simp only [captureCreditReport]
  split
  · exact respects_pure trivial
  · exact (respects_ask fun _ _ => trivial).bind (P := fun _ => True) fun _ _ =>
      (respects_ofPort fun _ _ => trivial).bind (P := fun _ => True) fun _ _ =>
        respects_pure trivial

theorem respects_captureTransactionHistory (income : Option ℤ) :
    (captureTransactionHistory applicant facts income).Respects B fun _ => True := by
  simp only [captureTransactionHistory]
  split
  · exact (respects_ask fun _ _ => trivial).bind (P := fun _ => True) fun _ _ =>
      (respects_ofPort fun _ _ => trivial).bind (P := fun _ => True) fun _ _ =>
        respects_pure trivial
  · exact respects_pure trivial

/-- A verification only asks. -/
theorem respects_verification : (verification applicant facts).Respects B fun _ => True :=
  respects_checkIdentity.bind fun _ _ => respects_declaredIncome.bind fun income _ =>
    (respects_checkEmployment income).bind fun _ _ => respects_captureCreditReport.bind fun _ _ =>
      (respects_captureTransactionHistory income).bind fun _ _ => respects_pure trivial

/-- Storing the outcome reads nothing. -/
theorem respects_storeVerification (command : ApplicationCommand) (outcome : VerificationOutcome) :
    (storeVerification command outcome).Respects reorderedRuns fun _ => True := by
  have hinsert : ∀ rows : List Row, (insertAll command.tenantId rows).Respects reorderedRuns
      fun _ => True := fun rows => respects_insertAll trivial fun _ _ => trivial
  refine (respects_ask fun _ _ => trivial).bind (P := fun _ => True) fun runId _ =>
    respects_withIds.bind fun identified _ => respects_withIds.bind fun captured _ =>
    (respects_ask fun _ _ => trivial).bind (P := fun _ => True) fun completedAt _ => ?_
  refine Prog.Respects.bind (P := fun _ => True) ?_ fun _ _ =>
    (respects_commit trivial).bind (P := fun _ => True) fun _ _ => respects_pure trivial
  exact (respects_execute trivial trivial).bind (P := fun _ => True) fun _ _ =>
    (hinsert _).bind fun _ _ => (hinsert _).bind fun _ _ => respects_withIds.bind fun _ _ => hinsert _

end Asking

/-- A program that is independent of the order, and a rest that reads no facts. -/
theorem OrderIndependent.bind {β : Type} {p : Handler α} {f : α → Handler β}
    (hp : OrderIndependent p d) (hf : ∀ a, (f a).Respects reorderedRuns fun _ => True) :
    OrderIndependent (p >>= f) d := by
  intro d' h σ E s
  have hsame := hp d' h σ E s
  rw [Prog.alone_bind, Prog.alone_bind]
  revert hsame
  generalize p.alone postgres E s d [] = o, p.alone postgres E s d' [] = o'
  rintro ⟨hdb, hwrites, henv, hresult⟩
  obtain ⟨db, writes, env, result⟩ := o
  obtain ⟨db', writes', env', result'⟩ := o'
  obtain rfl : writes = writes' := hwrites
  obtain rfl : env = env' := henv
  obtain rfl : result = result' := hresult
  cases result with
  | ok a => exact alone_reordered (hf a) hdb
  | error e => exact ⟨hdb, rfl, rfl, rfl⟩

/-- Whether the handler reads the row. -/
def isFactOf (command : ApplicationCommand) (r : ExtractedFactRow) : Bool :=
  r.tenantId = command.tenantId && r.applicationId = command.applicationId

/-- Row-level security hides none of them. -/
theorem factsOf_eq (command : ApplicationCommand) (d : Database) :
    factsOf command d = (d.extractedFacts.filter (isFactOf command)).map ExtractedFactRow.fact := by
  refine congrArg _ (filter_visible Row.extractedFact? (isFactOf command) _ (fun r f hf hmine => ?_) d)
  cases r <;> cases hf
  simpa [isFactOf, Row.visibleTo, Row.tenantId?] using (Bool.and_eq_true_iff.1 hmine).1

/-- Some order of the rows gives the facts in the order that is wanted. -/
theorem exists_reordered {command : ApplicationCommand} {facts : List ExtractedFact}
    (h : facts.Perm (factsOf command d)) : ∃ d', Reordered d d' ∧ factsOf command d' = facts := by
  obtain ⟨rows, rfl, hrows⟩ : Relation.Comp (· = List.map ExtractedFactRow.fact ·) List.Perm facts
      (d.extractedFacts.filter (isFactOf command)) := by
    rw [List.eq_map_comp_perm]
    exact h.trans (List.Perm.of_eq (factsOf_eq command d))
  have hmine : ∀ r ∈ rows, isFactOf command r = true := fun r hr =>
    (List.mem_filter.1 (hrows.mem_iff.1 hr)).2
  have hothers : ∀ r : ExtractedFactRow, Row.isOther (.extractedFact r) = false := fun _ => rfl
  have hfacts : ∀ rs : List ExtractedFactRow, (rs.map Row.extractedFact).filterMap
      Row.extractedFact? = rs := fun rs => by
    rw [List.filterMap_map]
    exact List.filterMap_some
  have hnone : (d.rows.filter Row.isOther).filterMap Row.extractedFact? = [] := by
    refine List.filterMap_eq_nil_iff.2 fun r hr => ?_
    simpa [Row.isOther] using (List.mem_filter.1 hr).2
  have hnew : (Database.mk (d.rows.filter Row.isOther ++
      (rows ++ d.extractedFacts.filter fun r => !isFactOf command r).map
        Row.extractedFact)).extractedFacts =
      rows ++ d.extractedFacts.filter fun r => !isFactOf command r := by
    rw [Database.extractedFacts, List.filterMap_append, hnone, hfacts, List.nil_append]
  refine ⟨⟨d.rows.filter Row.isOther ++
    (rows ++ d.extractedFacts.filter fun r => !isFactOf command r).map Row.extractedFact⟩,
    ⟨?_, ?_⟩, ?_⟩
  · rw [List.filter_append, List.filter_filter, List.filter_map]
    simp [Function.comp_def, hothers]
  · rw [hnew]
    exact (List.filter_append_perm (isFactOf command) d.extractedFacts).symm.trans
      (hrows.symm.append_right _)
  · rw [factsOf_eq, hnew, List.filter_append, List.filter_eq_self.2 hmine, List.filter_filter]
    simp

/-- **The outcome of a verification does not depend on the order of the facts exactly when the
facts are settled**, as far as the handler comes to them; and then the whole handler does not. -/
theorem verification_order_iff (command : ApplicationCommand) (d : Database) :
    (OrderIndependent (computeVerification command) d ↔
      ((verifiedApplicant? command d).isSome → Settled (factsOf command d))) ∧
    (OrderIndependent (computeVerification command) d →
      OrderIndependent (verifyApplicationFacts command) d) := by
  refine ⟨⟨fun h hfound => ?_, fun h d' hd σ E s => ?_⟩, fun h => ?_⟩
  · obtain ⟨applicant, hfound⟩ := Option.isSome_iff_exists.1 hfound
    refine settled_of_sameAsks fun facts' hperm => (?_ : SameAsks applicant _ facts')
    obtain ⟨d', hd, rfl⟩ := exists_reordered hperm
    have hsame := h d' hd (List Ask) confirmed []
    rw [alone_computeVerification hfound,
      alone_computeVerification ((hd.verifiedApplicant? command).symm.trans hfound)] at hsame
    exact sameAsks_of_alone hsame.env.symm hsame.result.symm
  · cases hfound : verifiedApplicant? command d with
    | some applicant =>
        rw [alone_computeVerification hfound,
          alone_computeVerification ((hd.verifiedApplicant? command).symm.trans hfound),
          verification_perm applicant (hd.factsOf command) (h (by rw [hfound]; rfl))]
        exact alone_reordered respects_verification hd
    | none =>
        have hload : ((loadApplicant command).alone postgres E s d []).Same Reordered
            ((loadApplicant command).alone postgres E s d' []) :=
          alone_reordered (respects_loadApplicant command) hd
        obtain ⟨e, he⟩ := alone_loadApplicant_none (E := E) (s := s) hfound
        rw [computeVerification_eq, Prog.alone_bind, Prog.alone_bind]
        revert hload he
        generalize (loadApplicant command).alone postgres E s d [] = o,
          (loadApplicant command).alone postgres E s d' [] = o'
        rintro ⟨hdb, hwrites, henv, hresult⟩ he
        obtain ⟨db, writes, env, result⟩ := o
        obtain ⟨db', writes', env', result'⟩ := o'
        obtain rfl : result = result' := hresult
        obtain rfl : result = .error e := he
        exact ⟨hdb, hwrites, henv, rfl⟩
  · rw [verifyApplicationFacts_eq]
    exact h.bind (respects_storeVerification command)

end Handlers

namespace Sample

def grace : ApplicantRow :=
  ⟨⟨"50000000-0000-4000-8000-000000000005", by decide⟩, tenantId, "Grace", "Hopper", noon.date,
    "grace@example.org", noon⟩

def graceId : ApplicationId := ⟨"60000000-0000-4000-8000-000000000006", by decide⟩

def graceApplication : ApplicationRow :=
  ⟨graceId, tenantId, grace.applicantId, productId, ⟨250000, .usd⟩, 24, .verification, 4, noon,
    noon, none⟩

theorem certain : (0 : ℚ) ≤ 1 ∧ (1 : ℚ) ≤ 1 := by decide +kernel

theorem firstPage : 1 ≤ 1 := Nat.le_refl 1

/-- An application in verification, without facts. -/
def graceRows : List Row :=
  [.tenant ⟨tenantId⟩, .product product, .applicant grace, .application graceApplication]

/-- A document, and the run of its extraction. -/
def documentRows (documentId : String) : List Row :=
  [.document ⟨documentId, tenantId, graceId, "IDENTITY", documentId, "", 1, noon⟩,
   .extractionRun ⟨documentId, tenantId, graceId, documentId, .identityDocument, 1, noon⟩]

/-- An id read from a document. -/
def idFact (documentId syntheticId : String) : Row :=
  .extractedFact ⟨documentId, documentId, tenantId, graceId, documentId,
    ⟨.syntheticId, syntheticId, syntheticId, 1, 1, "regex", "1", "", certain, firstPage⟩,
    noon⟩

/-- Two documents with different ids; and the same rows in the other order. -/
def twoIds : Database :=
  ⟨graceRows ++ documentRows "first" ++ documentRows "second" ++
    [idFact "first" "111", idFact "second" "222"]⟩

def twoIdsReordered : Database :=
  ⟨graceRows ++ documentRows "first" ++ documentRows "second" ++
    [idFact "second" "222", idFact "first" "111"]⟩

def verify : ApplicationCommand := ⟨tenantId, graceId, "verify-1"⟩

/-- The id with which the bureau is asked. -/
def bureauId? : Ask → Option String
  | .getCreditReport _ _ _ syntheticId => some syntheticId
  | _ => none

end Sample

/-- **In one order the bureau is asked with one id, in the other with the other.** -/
theorem verification_order_dependent :
    ¬ ∀ (command : ApplicationCommand) (d : Database),
      OrderIndependent (verifyApplicationFacts command) d := by
  intro h
  have hd : Reordered Sample.twoIds Sample.twoIdsReordered :=
    ⟨rfl, List.Perm.swap _ _ _⟩
  have hsame := (h Sample.verify Sample.twoIds _ hd (List Ask) confirmed []).env
  have hids := congrArg (List.filterMap Sample.bureauId?) hsame
  revert hids
  decide +kernel

end FinAssist
