/-
**Activities tried again.**

An attempt at an activity may commit and its answer be lost; Temporal then tries again, and the
next attempt finds its key taken.  What it answers is read from the database.  This module compares
that answer with the one that was lost, for the two activities that do not answer with a status.

Main definitions:

* `FinAssist.checksOf` — the checks stored for an application;

Main results:

* `FinAssist.verify_retried_iff` — **when a later attempt at the verification answers as the first
  one did**.
-/

import FinAssist.EvidenceSpecs
import FinAssist.FactOrder
import FinAssist.Summary

set_option relaxedAutoImplicit false
set_option autoImplicit false

namespace FinAssist

open ReadCommitted Discipline

/-! ### The checks stored for an application -/

/-- The check in a row, if it is one of the application. -/
def checkOf? (t : TenantId) (a : ApplicationId) (r : Row) : Option VerificationCheck :=
  (r.verificationCheck?.filter fun c => c.tenantId = t && c.applicationId = a).map
    VerificationCheckRow.check

/-- **The checks stored for an application.** -/
def checksOf (t : TenantId) (a : ApplicationId) (d : Database) : List VerificationCheck :=
  d.rows.filterMap (checkOf? t a)

/-- The checks of the application that are inserted. -/
def checksInserted (t : TenantId) (a : ApplicationId) (ws : List Write) :
    List VerificationCheck :=
  ws.filterMap fun w => w.statement.inserted?.bind (checkOf? t a)

theorem checksInserted_append (t : TenantId) (a : ApplicationId) (ws vs : List Write) :
    checksInserted t a (ws ++ vs) = checksInserted t a ws ++ checksInserted t a vs :=
  List.filterMap_append

theorem checksInserted_rows (t : TenantId) (a : ApplicationId) (rows : List Row) :
    checksInserted t a (rows.map fun r => ⟨t, .insert r⟩) = rows.filterMap (checkOf? t a) :=
  List.filterMap_map

theorem checksOf_view (t : TenantId) (a : ApplicationId) (ws : List Write) (d : Database) :
    checksOf t a (postgres.view d ws) = checksOf t a d ++ checksInserted t a ws :=
  filterMap_view (checkOf? t a) (fun _ s r => by cases s <;> cases r <;> rfl) ws d

/-- The query reads them. -/
theorem alone_getChecks {σ : Type} {E : Environment Answer σ} {s : σ} {d : Database}
    (t : TenantId) (a : ApplicationId) :
    (getChecks t a).alone postgres E s d [] = ⟨d, [], s, .ok (checksOf t a d)⟩ := by
  have hread : (((d.visible t).rows.filterMap Row.verificationCheck?).filter fun r =>
      r.tenantId = t && r.applicationId = a).map VerificationCheckRow.check = checksOf t a d := by
    rw [filter_visible _ _ t fun r c hc hmine => ?_, checksOf, List.filter_filterMap,
      List.map_filterMap]
    · rfl
    · cases r <;> cases hc
      simpa [Row.visibleTo, Row.tenantId?] using (Bool.and_eq_true_iff.1 hmine).1
  rw [getChecks, alone_select]
  exact congrArg (fun checks => Outcome.mk d [] s (.ok checks)) hread

/-! ### What a verification leaves -/

/-- The system of a check that was made. -/
theorem VerificationCheck.sourceSystem_of {sourceSystem : SourceSystem} {checkedFactType : String}
    {declaredValue externalValue : Option String} {verdict : VerificationVerdict} {confidence : ℚ}
    {detail : String} {c : VerificationCheck} (h : VerificationCheck.of sourceSystem checkedFactType
      declaredValue externalValue verdict confidence detail = .ok c) :
    c.sourceSystem = sourceSystem := by
  unfold VerificationCheck.of at h
  split at h <;> cases h
  rfl

section Verification

variable {I : Database → Prop} {R : Error → Database → Prop} {ws : List Write} {d : Database}
variable (hR : ∀ e d, e.isOrdinary = true → R e d)

include hR

/-- A piece of a handler that only reads and asks. -/
theorem steady_reads {α : Type} {p : Handler α} (hp : p.Quiet fun _ => False)
    {Q : α → List Write → Database → Prop} (h : ∀ a, Q a ws d) :
    (steady postgres I).wp (keeping I R) p Q ws d := by
  induction p with
  | ret a => exact h a
  | raise e => exact hR e d hp
  | ask q k ih => exact steady_now ⟨trivial, fun a => ih a (hp.2 a)⟩
  | query k ih => exact steady_now (ih _ (hp _))
  | exec w k => exact hp.1.elim
  | commit k => exact hp.elim
  | rollback k => exact hp.elim

theorem steady_checkIdentity {applicant : Applicant} {facts : List ExtractedFact}
    {Q : Checked → List Write → Database → Prop}
    (h : ∀ c : Checked, c.1.sourceSystem = .mockKyc → Q c ws d) :
    (steady postgres I).wp (keeping I R) (checkIdentity applicant facts) Q ws d := by
  simp only [checkIdentity]
  split
  · refine wp_seq _ (steady_ask fun answered => wp_seq _ (steady_ofPort hR fun result _ => ?_))
    exact wp_seq _ (steady_ofExcept hR (fun _ => VerificationCheck.of_error) fun check hcheck =>
      h _ (VerificationCheck.sourceSystem_of hcheck))
  · exact wp_seq _ (steady_ofExcept hR (fun _ => VerificationCheck.of_error) fun check hcheck =>
      h _ (VerificationCheck.sourceSystem_of hcheck))

theorem steady_checkEmployment {applicant : Applicant} {facts : List ExtractedFact}
    {income : Option ℤ} {Q : Checked → List Write → Database → Prop}
    (h : ∀ c : Checked, c.1.sourceSystem = .mockEmployer → Q c ws d) :
    (steady postgres I).wp (keeping I R) (checkEmployment applicant facts income) Q ws d := by
  simp only [checkEmployment]
  split
  next income _ _ =>
    refine wp_seq _ (steady_ask fun answered => wp_seq _ (steady_ofPort hR fun result _ => ?_))
    refine wp_seq _ (steady_ofExcept hR (fun e he => ?_) fun deviation _ => ?_)
    · split at he <;> cases he
      rfl
    · exact wp_seq _ (steady_ofExcept hR (fun _ => VerificationCheck.of_error) fun check hcheck =>
        h _ (VerificationCheck.sourceSystem_of hcheck))
  · exact wp_seq _ (steady_ofExcept hR (fun _ => VerificationCheck.of_error) fun check hcheck =>
      h _ (VerificationCheck.sourceSystem_of hcheck))

/-- The rows of a verification run: the checks among them are those of the run. -/
theorem steady_addVerificationRun {t : TenantId} {a : ApplicationId} {runId : String}
    {checks : List (String × VerificationCheck)}
    {snapshots : List (String × ExternalResponseSnapshot)} {completedAt : DateTime}
    {Q : Unit → List Write → Database → Prop}
    (h : ∀ vs, checksInserted t a vs = checks.map Prod.snd → Q () (ws ++ vs) d) :
    (steady postgres I).wp (keeping I R)
      (addVerificationRun t a runId checks snapshots completedAt) Q ws d := by
  refine wp_seq _ (steady_execute hR fun _ => wp_seq _ (steady_insertAll hR _
    (wp_seq _ (steady_insertAll hR _ (wp_seq _ (steady_withIds _ fun contradictions _ =>
      steady_insertAll hR _ ?_))))))
  simp only [List.append_assoc]
  refine h _ ?_
  have hnone : ∀ {β : Type} (xs : List β) (f : β → Row), (∀ x, checkOf? t a (f x) = none) →
      (xs.map f).filterMap (checkOf? t a) = [] := fun xs f hf => by
    rw [List.filterMap_map]
    exact List.filterMap_eq_nil_iff.2 fun x _ => hf x
  have hchecks : (checks.map fun c => Row.verificationCheck ⟨c.1, runId, t, a, c.2,
      completedAt⟩).filterMap (checkOf? t a) = checks.map Prod.snd := by
    rw [List.filterMap_map, ← List.filterMap_eq_map]
    refine List.filterMap_congr fun c _ => ?_
    simp [checkOf?, Row.verificationCheck?]
  rw [checksInserted_append, checksInserted_append, checksInserted_append, checksInserted_rows,
    checksInserted_rows, checksInserted_rows, hnone _ _ fun _ => rfl, hchecks,
    hnone _ _ fun _ => rfl, List.append_nil]
  rfl

end Verification

/-- **A verification that commits** adds its two checks to those of the application. -/
theorem steady_verifyApplicationFacts {command : ApplicationCommand} {d : Database} :
    (steady postgres fun _ => True).wp (keeping (fun _ => True) fun _ _ => True)
      (verifyApplicationFacts command) (fun r _ d' =>
        d'.has (.idempotencyKey command.tenantId verifyApplicationFactsOperation
          command.idempotencyKey) = true ∧
        checksOf command.tenantId command.applicationId d' =
          checksOf command.tenantId command.applicationId d ++ r.checks ∧
        (∃ identity employment, r.checks = [identity, employment] ∧
          identity.sourceSystem = .mockKyc ∧ employment.sourceSystem = .mockEmployer) ∧
        r.contradictionCount = contradictionCount r.checks ∧
        r.summary = buildVerificationSummary r.checks) [] d := by
  have hR : ∀ (e : Error) (d : Database), e.isOrdinary = true → True := fun _ _ _ => trivial
  refine wp_seq _ (steady_requireReservation (fun _ => trivial) fun reservedAt hfree => ?_)
  refine wp_seq _ (steady_requireApplication hR fun row => ?_)
  refine wp_seq _ (steady_reads hR (quiet_requireApplicant _ _ _) fun applicant => ?_)
  refine wp_seq _ (steady_select ?_)
  refine wp_seq _ (steady_checkIdentity hR fun identity hidentity => ?_)
  refine wp_seq _ (steady_reads hR (quiet_declaredIncome _) fun income => ?_)
  refine wp_seq _ (steady_checkEmployment hR fun employment hemployment => ?_)
  refine wp_seq _ (steady_reads hR (quiet_captureCreditReport _ _) fun creditReport => ?_)
  refine wp_seq _ (steady_reads hR (quiet_captureTransactionHistory _ _ _) fun history => ?_)
  refine wp_seq _ (steady_ask fun runId => ?_)
  refine wp_seq _ (steady_withIds _ fun identified hidentified => ?_)
  refine wp_seq _ (steady_withIds _ fun captured hcaptured => ?_)
  refine wp_seq _ (steady_ask fun completedAt => ?_)
  refine wp_seq _ (steady_addVerificationRun hR fun vs hvs => ?_)
  refine wp_seq _ (steady_commit trivial ⟨?_, ?_, ⟨_, _, rfl, hidentity, hemployment⟩, rfl, rfl⟩)
  · refine occupied_view_iff.2 (Or.inr ⟨_, List.mem_append_left _ List.mem_cons_self, _, rfl, ?_⟩)
    simp [Row.keys]
  · rw [checksOf_view, checksInserted_append, hvs, hidentified]
    rfl

/-! ### A later attempt at the verification -/

/-- The first attempt answers with what it has committed. -/
theorem alone_verifyFacts_committed {info : ActivityInfo} {ctx : ActivityContext} {σ : Type}
    {E : Environment Answer σ} {s : σ} {d : Database} {r : VerifyApplicationFactsResult}
    (h : ((verifyApplicationFacts
      ⟨ctx.tenantId, ctx.applicationId, idempotencyKey info⟩).alone postgres E s d []).result =
        .ok r) :
    ((verifyFactsActivity info ctx).alone postgres E s d []).result =
        .ok ⟨r.contradictionCount, r.summary⟩ ∧
      ((verifyFactsActivity info ctx).alone postgres E s d []).db = ((verifyApplicationFacts
        ⟨ctx.tenantId, ctx.applicationId, idempotencyKey info⟩).alone postgres E s d []).db := by
  rw [verifyFactsActivity, orIfDuplicate, Prog.alone_tryCatch, Prog.alone_bind]
  revert h
  generalize (verifyApplicationFacts
    ⟨ctx.tenantId, ctx.applicationId, idempotencyKey info⟩).alone postgres E s d [] = o
  obtain ⟨db, ws, env, result⟩ := o
  rintro rfl
  exact ⟨rfl, rfl⟩

/-- A later one, with what it reads. -/
theorem alone_verifyFacts_duplicate {info : ActivityInfo} {ctx : ActivityContext} {σ : Type}
    {E : Environment Answer σ} {s : σ} {d : Database}
    (h : d.has (.idempotencyKey ctx.tenantId verifyApplicationFactsOperation
      (idempotencyKey info)) = true) :
    ((verifyFactsActivity info ctx).alone postgres E s d []).result =
      .ok ⟨contradictionCount (checksOf ctx.tenantId ctx.applicationId d),
        buildVerificationSummary (checksOf ctx.tenantId ctx.applicationId d)⟩ := by
  rw [verifyFactsActivity, orIfDuplicate, Prog.alone_tryCatch, Prog.alone_bind,
    verifyApplicationFacts, Prog.alone_bind, alone_requireReservation, if_pos h]
  simp only [Prog.alone_bind, alone_getChecks]
  rfl

/-- **When a later attempt at the verification answers as the first one did.**  The first attempt
has committed a run with the checks `r.checks`, and its answer was lost.  Since then others may have
written, and the rows may come in any order. -/
theorem verify_retried_iff (info : ActivityInfo) (ctx : ActivityContext) {σ : Type}
    (E : Environment Answer σ) (s : σ) (d : Database) (r : VerifyApplicationFactsResult)
    (hcommitted : ((verifyApplicationFacts
      ⟨ctx.tenantId, ctx.applicationId, idempotencyKey info⟩).alone postgres E s d []).result =
        .ok r) :
    ((verifyFactsActivity info ctx).alone postgres E s d []).result =
      .ok ⟨contradictionCount r.checks, buildVerificationSummary r.checks⟩ ∧
    ∀ (others : List Write) (d' : Database), d'.rows.Perm
        (postgres.view ((verifyFactsActivity info ctx).alone postgres E s d []).db others).rows →
      ∀ {τ : Type} (E' : Environment Answer τ) (s' : τ),
        ((verifyFactsActivity info ctx).alone postgres E' s' d' []).result =
            ((verifyFactsActivity info ctx).alone postgres E s d []).result ↔
          (checksOf ctx.tenantId ctx.applicationId d = [] ∧
            checksInserted ctx.tenantId ctx.applicationId others = []) ∧
          (checksOf ctx.tenantId ctx.applicationId d' = r.checks ∨
            contradictionCount r.checks ≤ 1) := by
  obtain ⟨hfirst, hdb⟩ := alone_verifyFacts_committed hcommitted
  obtain ⟨hkey, hchecks, ⟨identity, employment, htwo, hidentity, hemployment⟩, hcount, hsummary⟩ :=
    ((alone_of_wp (fun _ _ _ _ _ => trivial) trivial (postgres.granted_nil d)
      steady_verifyApplicationFacts).1 r hcommitted).1
  rw [hfirst, hcount, hsummary]
  refine ⟨rfl, fun others d' hperm τ E' s' => ?_⟩
  rw [hdb] at hperm
  have htaken : d'.has (.idempotencyKey ctx.tenantId verifyApplicationFactsOperation
      (idempotencyKey info)) = true := by
    obtain ⟨row, hrow, hmem⟩ := Database.has_iff.1 (has_view_of_has hkey)
    exact Database.has_iff.2 ⟨row, hperm.mem_iff.2 hrow, hmem⟩
  rw [alone_verifyFacts_duplicate htaken]
  -- what is stored are the checks of the run, and some more
  have hstored : (checksOf ctx.tenantId ctx.applicationId d').Perm
      ([identity, employment] ++ (checksOf ctx.tenantId ctx.applicationId d ++
        checksInserted ctx.tenantId ctx.applicationId others)) := by
    have hgrown := hperm.filterMap (checkOf? ctx.tenantId ctx.applicationId)
    change (checksOf _ _ d').Perm (checksOf _ _ _) at hgrown
    rw [checksOf_view, hchecks, htwo] at hgrown
    refine hgrown.trans ?_
    rw [← List.append_assoc]
    exact List.perm_append_comm.append_right _
  have hsame := same_answer_iff hidentity hemployment hstored
  rw [List.append_eq_nil_iff] at hsame
  rw [htwo, ← hsame]
  simp only [Except.ok.injEq, VerifyFactsActivityResult.mk.injEq]

namespace Sample

def verifyInfo : ActivityInfo := ⟨"application-workflow", 4⟩

def verifyContext : ActivityContext := ⟨tenantId, graceId⟩

/-- An application without facts. -/
def unverified : Database := ⟨graceRows⟩

/-- The same, with a contradiction from an earlier execution. -/
def verifiedBefore : Database :=
  ⟨unverified.rows ++ [.verificationRun ⟨"run", tenantId, graceId, 1, 1, noon⟩,
    .verificationCheck ⟨"check", "run", tenantId, graceId,
      ⟨.mockKyc, "SYNTHETIC_ID", none, none, .contradicted, 0, "KYC reference", by decide +kernel⟩,
      noon⟩]⟩

/-- An attempt at the verification. -/
def verifyOnce (asked : List Ask) (d : Database) :
    Outcome Database Write (List Ask) Error VerifyFactsActivityResult :=
  (verifyFactsActivity verifyInfo verifyContext).alone postgres confirmed asked d []

/-- The command of such an attempt. -/
def verifyCommand : ApplicationCommand :=
  ⟨verifyContext.tenantId, verifyContext.applicationId, idempotencyKey verifyInfo⟩

end Sample

/-- With a contradiction from before, the later attempt counts it. -/
theorem verify_retried_differs :
    ¬ ∀ (info : ActivityInfo) (ctx : ActivityContext) (σ : Type) (E : Environment Answer σ) (s s' : σ)
      (d : Database) (r : VerifyApplicationFactsResult), ((verifyApplicationFacts
        ⟨ctx.tenantId, ctx.applicationId, idempotencyKey info⟩).alone postgres E s d []).result =
          .ok r →
      ((verifyFactsActivity info ctx).alone postgres E s'
          ((verifyFactsActivity info ctx).alone postgres E s d []).db []).result =
        ((verifyFactsActivity info ctx).alone postgres E s d []).result := by
  intro h
  have hok : ((verifyApplicationFacts Sample.verifyCommand).alone postgres confirmed []
      Sample.verifiedBefore []).result.toOption.isSome = true := by decide +kernel
  cases hr : ((verifyApplicationFacts Sample.verifyCommand).alone postgres confirmed []
      Sample.verifiedBefore []).result with
  | error e => rw [hr] at hok; cases hok
  | ok r =>
      have hsame := h Sample.verifyInfo Sample.verifyContext _ confirmed [] [] Sample.verifiedBefore
        r hr
      have hcount : ((Sample.verifyOnce [] (Sample.verifyOnce [] Sample.verifiedBefore).db).result.map
          VerifyFactsActivityResult.contradictionCount).toOption =
        ((Sample.verifyOnce [] Sample.verifiedBefore).result.map
          VerifyFactsActivityResult.contradictionCount).toOption :=
        congrArg (fun x => (Except.map VerifyFactsActivityResult.contradictionCount x).toOption) hsame
      revert hcount
      decide +kernel

/-- Of an application that was not verified before, the later attempt answers the same. -/
theorem verify_retried_iff_first :
    (Sample.verifyOnce [] (Sample.verifyOnce [] Sample.unverified).db).result =
      (Sample.verifyOnce [] Sample.unverified).result := by
  have hok : ((verifyApplicationFacts Sample.verifyCommand).alone postgres confirmed []
      Sample.unverified []).result.toOption.isSome = true := by decide +kernel
  have hcount : (((verifyApplicationFacts Sample.verifyCommand).alone postgres confirmed []
      Sample.unverified []).result.map fun r => contradictionCount r.checks).toOption = some 0 := by
    decide +kernel
  cases hr : ((verifyApplicationFacts Sample.verifyCommand).alone postgres confirmed []
      Sample.unverified []).result with
  | error e => rw [hr] at hok; cases hok
  | ok r =>
      rw [hr] at hcount
      have hzero : contradictionCount r.checks = 0 := Option.some.inj hcount
      exact ((verify_retried_iff Sample.verifyInfo Sample.verifyContext confirmed []
        Sample.unverified r hr).2 [] _ (List.Perm.refl _) confirmed []).2
          ⟨⟨rfl, rfl⟩, Or.inr (by omega)⟩

end FinAssist
