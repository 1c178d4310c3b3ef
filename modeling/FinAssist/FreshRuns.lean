/-
**A handler that runs by itself, with new ids.**

What the building blocks of the handlers come to when nothing else runs, the constraints of the
rows are kept, and the id generator never issues an id that is in use: which statements go through,
and what has been written then.

Main definitions:

* `FinAssist.IdSource` — a generator of new ids;
* `FinAssist.Fit` — a transaction under way, all of whose statements went through.

Main results:

* `FinAssist.alone_insertAll` — rows with keys that are free can be inserted;
* `FinAssist.alone_saveApplication` — **a save of the current row goes through**;
* `FinAssist.alone_recordDomainEvents` — **events are recorded**.
-/

import FinAssist.AuditTrail

set_option relaxedAutoImplicit false
set_option autoImplicit false

namespace FinAssist

open ReadCommitted ApplicationStatus

/-! ### New ids -/

/-- The id a key is about, where the generator issues it. -/
def Key.id? : Key → Option String
  | .applicant a => some a.value
  | .application a => some a.value
  | .applicationVersionId id => some id
  | .outboxEvent id => some id
  | .auditEvent id => some id
  | .document id => some id
  | .extractionRun id => some id
  | .extractedFact id => some id
  | .verificationRun id => some id
  | .verificationCheck id => some id
  | .contradiction id => some id
  | .externalResponseSnapshot id => some id
  | _ => none

section Alone

variable {σ α : Type} {E : Environment Answer σ}

/-- The id the generator issues. -/
def idOf (E : Environment Answer σ) (s : σ) : Uuid4 := (E s .newId).1

/-- Whether a question uses up an id. -/
def Ask.ids : Ask → ℕ
  | .newId => 1
  | _ => 0

/-- **A generator of new ids**: `used` says which ids are in use, and `left` how many new ones there
still are. -/
structure IdSource (E : Environment Answer σ) where
  used : σ → String → Prop
  left : σ → ℕ
  new : ∀ s, 0 < left s → ¬ used s (idOf E s).value
  noted : ∀ s, used (E s .newId).2 (idOf E s).value
  kept : ∀ s q id, used s id → used (E s q).2 id
  spent : ∀ s q, left s ≤ left (E s q).2 + q.ids

/-- The ids of the rows are in use. -/
def InUse (used : String → Prop) (d : Database) : Prop :=
  ∀ k id, d.has k = true → k.id? = some id → used id

/-- **A transaction under way**: its statements went through, the ids of the rows it sees are in
use, and there are `n` new ones. -/
structure Fit (G : IdSource E) (d : Database) (n : ℕ) (s : σ) (ws : List Write) : Prop where
  granted : postgres.Granted d ws
  inUse : InUse (G.used s) (postgres.view d ws)
  left : n ≤ G.left s

variable {G : IdSource E} {s : σ} {d : Database} {n : ℕ} {ws : List Write} {t : TenantId}

/-- A question changes nothing of that, except that it may use up an id. -/
theorem Fit.ask (q : Ask) (h : Fit G d (n + q.ids) s ws) : Fit G d n (E s q).2 ws := by
  refine ⟨h.granted, fun k id hk hid => G.kept s q id (h.inUse k id hk hid), ?_⟩
  have hleft := h.left
  have hspent := G.spent s q
  omega

theorem Fit.new (h : Fit G d (n + 1) s ws) : ¬ G.used s (idOf E s).value :=
  G.new s (Nat.lt_of_lt_of_le (Nat.succ_pos n) h.left)

/-- A statement that goes through and brings no id that is not in use. -/
theorem Fit.exec (h : Fit G d n s ws) {w : Write}
    (hf : postgres.fault (postgres.view d ws) w = none)
    (hid : ∀ row ∈ w.statement.inserted?, ∀ k ∈ row.keys, ∀ id, k.id? = some id → G.used s id) :
    Fit G d n s (ws ++ [w]) := by
  refine ⟨(postgres.granted_snoc ws w d).2 ⟨h.granted, hf⟩, ?_, h.left⟩
  intro k id hk hkid
  rw [postgres.view_append] at hk
  rcases Database.has_apply.1 hk with hold | ⟨row, hrow, hmem⟩
  · exact h.inUse k id hold hkid
  · exact hid row hrow k hmem id hkid

/-- No row has a key of an id that is not in use. -/
theorem Fit.free (h : Fit G d n s ws) {k : Key} {id : String} (hid : k.id? = some id)
    (hnew : ¬ G.used s id) : (postgres.view d ws).has k = false := by
  by_contra hyes
  exact hnew (h.inUse k id (by simpa using hyes) hid)

/-! ### Statements -/

theorem alone_ask (q : Ask) :
    (Handler.ask q).alone postgres E s d ws = ⟨d, ws, (E s q).2, .ok (E s q).1⟩ := rfl

theorem alone_newId :
    newId.alone postgres E s d ws = ⟨d, ws, (E s .newId).2, .ok (idOf E s)⟩ := rfl

theorem alone_now :
    now.alone postgres E s d ws = ⟨d, ws, (E s .now).2, .ok (timeOf E s)⟩ := rfl

theorem alone_execute {st : Statement} (h : postgres.fault (postgres.view d ws) ⟨t, st⟩ = none) :
    (execute t st).alone postgres E s d ws = ⟨d, ws ++ [⟨t, st⟩], s, .ok ()⟩ := by
  rw [execute, Prog.alone, h]
  rfl

theorem alone_execute_refused {st : Statement} {f : Fault}
    (h : postgres.fault (postgres.view d ws) ⟨t, st⟩ = some f) :
    (execute t st).alone postgres E s d ws = ⟨d, ws, s, .error (.database f)⟩ := by
  rw [execute, Prog.alone, h]
  rfl

/-- What a row needs to be inserted, apart from keys that are free. -/
structure Insertable (t : TenantId) (d : Database) (row : Row) : Prop where
  visible : row.visibleTo t = true
  check : row.check = none
  references : ∀ k ∈ row.references, d.has k = true

theorem Insertable.fault {row : Row} (h : Insertable t d row) (hfree : ∀ k ∈ row.keys, d.has k = false) :
    postgres.fault d ⟨t, .insert row⟩ = none :=
  fault_eq_none_iff.2 ⟨by simp [Statement.staticFault, h.visible, h.check], hfree, h.references⟩

theorem Insertable.apply {row : Row} (h : Insertable t d row) (w : Write) :
    Insertable t (d.apply w) row :=
  ⟨h.visible, h.check, fun k hk => Database.has_apply.2 (Or.inl (h.references k hk))⟩

/-- The statements that insert rows. -/
def inserts (t : TenantId) (rows : List Row) : List Write := rows.map fun row => ⟨t, .insert row⟩

/-- **Rows with keys that are free can be inserted**, one after the other. -/
theorem alone_insertAll (rows : List Row) : ∀ {ws : List Write},
    Fit G d n s ws → (∀ row ∈ rows, Insertable t (postgres.view d ws) row) →
    (∀ row ∈ rows, ∀ k ∈ row.keys, (postgres.view d ws).has k = false) →
    (rows.flatMap Row.keys).Nodup →
    (∀ row ∈ rows, ∀ k ∈ row.keys, ∀ id, k.id? = some id → G.used s id) →
    (insertAll t rows).alone postgres E s d ws = ⟨d, ws ++ inserts t rows, s, .ok ()⟩ ∧
      Fit G d n s (ws ++ inserts t rows) := by
  induction rows with
  | nil =>
      intro ws hfit _ _ _ _
      rw [inserts, List.map_nil, List.append_nil]
      exact ⟨rfl, hfit⟩
  | cons row rows ih =>
      intro ws hfit hrows hfree hnodup hid
      have hone := (hrows row List.mem_cons_self).fault (hfree row List.mem_cons_self)
      have hfit' : Fit G d n s (ws ++ [⟨t, .insert row⟩]) := by
        refine hfit.exec hone ?_
        rintro row' hrow'
        cases hrow'
        exact hid row List.mem_cons_self
      rw [List.flatMap_cons, List.nodup_append] at hnodup
      obtain ⟨-, hnodup', hdisjoint⟩ := hnodup
      have hview : postgres.view d (ws ++ [⟨t, .insert row⟩]) =
          (postgres.view d ws).apply ⟨t, .insert row⟩ := postgres.view_append d ws _
      have hrest := ih hfit' ?_ ?_ hnodup' fun row' hrow' => hid row' (List.mem_cons_of_mem _ hrow')
      · rw [List.append_assoc] at hrest
        refine ⟨?_, hrest.2⟩
        rw [insertAll, Prog.alone_bind_ok (alone_execute hone)]
        exact hrest.1
      · rw [hview]
        exact fun row' hrow' => (hrows row' (List.mem_cons_of_mem _ hrow')).apply _
      · intro row' hrow' k hk
        rw [hview]
        by_contra hyes
        rcases Database.has_apply.1 (by simpa using hyes) with hold | ⟨row'', hrow'', hk'⟩
        · rw [hfree row' (List.mem_cons_of_mem _ hrow') k hk] at hold
          cases hold
        · cases hrow''
          exact hdisjoint k hk' k (List.mem_flatMap.2 ⟨row', hrow', hk⟩) rfl

/-! ### A save -/

/-- A row of the table is found under its key. -/
theorem has_application {d : Database} (hd : WellFormed d) {a : ApplicationId} {row : ApplicationRow}
    (h : d.application? a = some row) :
    d.has (.application a) = true ∧ d.has (.applicationOf row.tenantId a) = true ∧
      d.has (.tenant row.tenantId) = true ∧ (Row.application row).check = none := by
  obtain ⟨hrow, rfl⟩ := (application?_iff hd.keys).1 h
  refine ⟨Database.has_iff.2 ⟨_, hrow, by simp [Row.keys]⟩,
    Database.has_iff.2 ⟨_, hrow, by simp [Row.keys]⟩, ?_, hd.checks _ hrow⟩
  exact hd.references _ hrow _ (by simp [Row.references])

/-- **A save of the current row goes through**, if its next version is not there yet. -/
theorem alone_saveApplication (hd : WellFormed d) (hfit : Fit G d (n + 1) s ws)
    (row : ApplicationRow) (application : Application)
    (hfound : (postgres.view d ws).application? application.applicationId = some row)
    (hrow : row.tenantId = t) (happlication : application.tenantId = t)
    (hversion : application.version = row.version + 1)
    (hamount : application.requestedAmount = row.requestedAmount)
    (hterm : application.requestedTermMonths = row.requestedTermMonths)
    (hfree : (postgres.view d ws).has
      (.applicationVersion application.applicationId application.version) = false) :
    ∃ s' snapshotId,
      (saveApplication t row application).alone postgres E s d ws =
        ⟨d, ws ++ saveWrites t row application snapshotId, s', .ok (saveColumns row application)⟩ ∧
      Fit G d n s' (ws ++ saveWrites t row application snapshotId) := by
  have hview := hd.view hfit.granted
  obtain ⟨happ, happOf, htenant, hcheck⟩ := has_application hview hfound
  have hid : row.applicationId = application.applicationId :=
    ((application?_iff hview.keys).1 hfound).2
  rw [check_application_iff] at hcheck
  have hvisible : ((postgres.view d ws).visible t).application? application.applicationId =
      some row := (application?_visible hview.keys).2 ⟨hfound, hrow⟩
  have hfit₁ := Fit.ask .identityMapHit hfit
  generalize hs₁ : (E s .identityMapHit).2 = s₁ at hfit₁
  have hfit₂ := Fit.ask .newId hfit₁
  generalize hs₂ : (E s₁ .newId).2 = s₂ at hfit₂
  have hused : G.used s₂ (idOf E s₁).value := hs₂ ▸ G.noted s₁
  -- the update
  have hupdate : postgres.fault (postgres.view d ws)
      ⟨t, .updateApplication row (saveColumns row application)⟩ = none := by
    refine fault_eq_none_iff.2 ⟨?_, by simp [Statement.absent], ?_⟩
    · refine check_application_iff.2 ?_
      simp only [saveColumns, hamount, hterm, hversion]
      exact ⟨hcheck.1, hcheck.2.1, hcheck.2.2.1, by omega⟩
    · intro k hk
      rw [List.mem_singleton.1 hk, hid, ← hrow]
      exact happOf
  have hfit₃ := hfit₂.exec hupdate (by simp [Statement.inserted?])
  -- the snapshot
  have hinsert : postgres.fault
      (postgres.view d (ws ++ [⟨t, .updateApplication row (saveColumns row application)⟩]))
      ⟨t, .insert (.applicationVersion (versionSnapshotRow application (idOf E s₁).value))⟩ = none := by
    rw [postgres.view_append]
    refine Insertable.fault ⟨?_, ?_, ?_⟩ ?_
    · simp [Row.visibleTo, Row.tenantId?, versionSnapshotRow, happlication]
    · simp only [Row.check, versionSnapshotRow, hamount]
      exact if_neg (by omega)
    · intro k hk
      refine Database.has_apply.2 (Or.inl ?_)
      simp only [Row.references, versionSnapshotRow, List.mem_cons, List.not_mem_nil, or_false]
        at hk
      rcases hk with rfl | rfl
      · exact happ
      · rw [happlication, ← hrow]
        exact htenant
    · intro k hk
      by_contra hyes
      rw [Bool.not_eq_false] at hyes
      rcases Database.has_apply.1 hyes with hold | ⟨row', hrow', -⟩
      · simp only [Row.keys, versionSnapshotRow, List.mem_cons, List.not_mem_nil, or_false] at hk
        rcases hk with rfl | rfl
        · rw [hfit₁.free rfl hfit₁.new] at hold
          cases hold
        · rw [hfree] at hold
          cases hold
      · cases hrow'
  have hfit₄ := hfit₃.exec hinsert (by
    rintro row' hrow' k hk id hkid
    cases hrow'
    simp only [Row.keys, versionSnapshotRow, List.mem_cons, List.not_mem_nil, or_false] at hk
    rcases hk with rfl | rfl
    · cases hkid
      exact hused
    · cases hkid)
  refine ⟨s₂, (idOf E s₁).value, ?_, by rw [List.append_assoc] at hfit₄; exact hfit₄⟩
  have hcond : (bif (E s .identityMapHit).1 then row else row) = row := Bool.cond_self _ _
  rw [saveApplication, Prog.alone_bind_ok (alone_select t _)]
  rw [Prog.alone_bind_ok (alone_ask .identityMapHit), hs₁]
  simp only [hvisible, Option.map_some, hcond]
  rw [if_neg (by rw [hversion]; simp), Prog.alone_bind_ok alone_newId, hs₂]
  rw [Prog.alone_bind_ok (alone_execute hupdate), Prog.alone_bind_ok (alone_execute hinsert)]
  rw [List.append_assoc]
  rfl

/-! ### Events -/

/-- What the session's `get` returns for an event. -/
def checkpointOf (t : TenantId) (d : Database) (recording : Recording) :
    Option (AuditHashRow × AuditHashRow) :=
  recording.checkpoint.or ((d.auditHash? t).map fun r => (r, r))

theorem alone_recordEvent (recording : Recording) {event : DomainEvent}
    (ht : event.tenantId = t) :
    (recordEvent t recording event).alone postgres E s d ws =
      ⟨d, ws, (E (E s .newId).2 .now).2,
        .ok (recording.add event (idOf E s).value (timeOf E (E s .newId).2)
          (checkpointOf t (postgres.view d ws) recording))⟩ := by
  rw [recordEvent, Prog.alone_bind_ok alone_newId, Prog.alone_bind_ok alone_now, checkpointOf]
  cases hc : recording.checkpoint with
  | some c => rfl
  | none =>
      simp only
      rw [Prog.alone_bind_ok (alone_select t _), auditHash?_visible_eq, if_pos ht]
      rfl

/-- **What has been recorded so far**, since the state `s₀` of the environment: the ids are new, and
there is one checkpoint or none was found. -/
structure Noted (G : IdSource E) (t : TenantId) (d : Database) (s₀ s : σ)
    (recording : Recording) : Prop where
  ids : recording.outbox.map OutboxEventRow.eventId = recording.audits.map AuditEventRow.eventId
  nodup : (recording.audits.map AuditEventRow.eventId).Nodup
  new : ∀ r ∈ recording.audits, ¬ G.used s₀ r.eventId ∧ G.used s r.eventId
  audits : ∀ r ∈ recording.audits, r.tenantId = t
  outbox : ∀ r ∈ recording.outbox, r.tenantId = t
  newHashes : ∀ r ∈ recording.newHashes, r.tenantId = t
  checkpoint : ∀ c, recording.checkpoint = some c → d.auditHash? t = some c.1
  found : d.auditHash? t ≠ none → recording.newHashes = []
  length : recording.newHashes.length ≤ recording.audits.length

theorem Noted.add {s₀ : σ} {recording : Recording}
    (h : Noted G t d s₀ s recording)
    (hnew : ¬ G.used s (idOf E s).value) (hkept : ∀ id, G.used s₀ id → G.used s id)
    {event : DomainEvent} (ht : event.tenantId = t) (at' : DateTime) {s' : σ}
    (hs' : ∀ id, G.used (E s .newId).2 id → G.used s' id) :
    Noted G t d s₀ s'
      (recording.add event (idOf E s).value at' (checkpointOf t d recording)) := by
  refine ⟨?_, ?_, ?_, ?_, ?_, ?_, ?_, ?_, ?_⟩
  · simp [Recording.add, h.ids, outboxEventRow, auditEventRow]
  · simp only [Recording.add, List.map_append, List.map_cons, List.map_nil, auditEventRow]
    refine List.nodup_append.2 ⟨h.nodup, List.nodup_singleton _, ?_⟩
    intro id hid id' hid'
    obtain ⟨r, hr, rfl⟩ := List.mem_map.1 hid
    rw [List.mem_singleton.1 hid']
    exact fun heq => hnew (heq ▸ (h.new r hr).2)
  · intro r hr
    rcases List.mem_append.1 hr with hr | hr
    · exact ⟨(h.new r hr).1, hs' _ (G.kept s .newId _ (h.new r hr).2)⟩
    · rw [List.mem_singleton.1 hr]
      exact ⟨fun hused => hnew (hkept _ hused), hs' _ (G.noted s)⟩
  · intro r hr
    rcases List.mem_append.1 hr with hr | hr
    · exact h.audits r hr
    · rw [List.mem_singleton.1 hr]
      exact ht
  · intro r hr
    rcases List.mem_append.1 hr with hr | hr
    · exact h.outbox r hr
    · rw [List.mem_singleton.1 hr]
      exact ht
  · intro r hr
    rcases List.mem_append.1 hr with hr | hr
    · exact h.newHashes r hr
    · cases hc : checkpointOf t d recording with
      | some c => simp [hc] at hr
      | none =>
          simp only [hc, List.mem_singleton] at hr
          rw [hr]
          exact ht
  · intro c hc
    simp only [Recording.add, checkpointOf, Option.map_eq_some_iff] at hc
    obtain ⟨c', hc', rfl⟩ := hc
    cases hold : recording.checkpoint with
    | some c'' =>
        rw [hold] at hc'
        obtain rfl := Option.some.inj hc'
        have hload := h.checkpoint _ hold
        exact hload
    | none =>
        rw [hold, Option.none_or, Option.map_eq_some_iff] at hc'
        obtain ⟨r, hr, rfl⟩ := hc'
        exact hr
  · intro hsome
    obtain ⟨r, hr⟩ := Option.ne_none_iff_exists'.1 hsome
    have hcheckpoint : ∃ c, checkpointOf t d recording = some c := by
      rw [checkpointOf, hr]
      cases recording.checkpoint <;> exact ⟨_, rfl⟩
    obtain ⟨c, hc⟩ := hcheckpoint
    simp [Recording.add, h.found hsome, hc]
  · have hlength := h.length
    cases hc : checkpointOf t d recording with
    | none => simp only [Recording.add, List.length_append, List.length_singleton]; omega
    | some c =>
        simp only [Recording.add, List.length_append, List.length_singleton, List.length_nil]
        omega

theorem Recorded.add {done : List DomainEvent} {recording : Recording} (h : Recorded done recording)
    {event : DomainEvent} (ht : event.tenantId = t) (eventId : String) (at' : DateTime)
    (d : Database) :
    Recorded (done ++ [event]) (recording.add event eventId at' (checkpointOf t d recording)) := by
  rw [checkpointOf]
  cases hc : recording.checkpoint with
  | some c => exact h.again event eventId at' c hc
  | none =>
      rw [Option.none_or]
      cases hrow : d.auditHash? t with
      | none => exact h.first event eventId at' hc
      | some row =>
          have hrt : row.tenantId = t := by simpa using List.find?_some hrow
          exact h.load event eventId at' row hc (hrt.trans ht.symm)

/-- **What is recorded** of events of the tenant. -/
theorem alone_recordEvents (events : List DomainEvent) :
    ∀ {s₀ s : σ} {done : List DomainEvent} {recording : Recording},
      Fit G d (n + events.length) s ws → (∀ id, G.used s₀ id → G.used s id) → (∀ event ∈ events, event.tenantId = t) →
      Noted G t (postgres.view d ws) s₀ s recording →
      Recorded done recording →
      ∃ s' recording',
        (recordEvents t events recording).alone postgres E s d ws =
          ⟨d, ws, s', .ok recording'⟩ ∧
        Noted G t (postgres.view d ws) s₀ s' recording' ∧ Fit G d n s' ws ∧
        Recorded (done ++ events) recording' := by
  induction events with
  | nil =>
      intro s₀ s done recording hfit _ _ hnoted hrec
      exact ⟨s, recording, rfl, hnoted, hfit, by simpa using hrec⟩
  | cons event events ih =>
      intro s₀ s done recording hfit hkept htenants hnoted hrec
      have ht := htenants event List.mem_cons_self
      have hfit' := Fit.ask .now (Fit.ask .newId (n := n + events.length) hfit)
      have hnoted' := hnoted.add (Fit.new (n := n + events.length) hfit) hkept ht
        (timeOf E (E s .newId).2) (G.kept _ .now)
      obtain ⟨s', recording', hrun, hend, hfit'', hrec'⟩ := ih hfit'
        (fun id hid => G.kept _ _ _ (G.kept _ _ _ (hkept id hid)))
        (fun e he => htenants e (List.mem_cons_of_mem _ he)) hnoted'
        (hrec.add ht (idOf E s).value (timeOf E (E s .newId).2) (postgres.view d ws))
      refine ⟨s', recording', ?_, hend, hfit'', by simpa using hrec'⟩
      rw [recordEvents, Prog.alone_bind_ok (alone_recordEvent recording ht)]
      exact hrun

/-- The keys taken after rows were inserted. -/
theorem has_inserts {rows : List Row} {d : Database} {k : Key} :
    (postgres.view d (inserts t rows)).has k = true ↔
      d.has k = true ∨ ∃ row ∈ rows, k ∈ row.keys := by
  rw [occupied_view_iff]
  refine or_congr_right ⟨?_, ?_⟩
  · rintro ⟨w, hw, row, hrow, hk⟩
    obtain ⟨row', hrow', rfl⟩ := List.mem_map.1 hw
    cases hrow
    exact ⟨row, hrow', hk⟩
  · rintro ⟨row, hrow, hk⟩
    exact ⟨_, List.mem_map_of_mem hrow, row, rfl, hk⟩

theorem has_auditHash_of_some {d : Database} {row : AuditHashRow} (h : d.auditHash? t = some row) :
    d.has (.auditHash t) = true ∧ row.tenantId = t := by
  have ht : row.tenantId = t := by simpa using List.find?_some h
  obtain ⟨r, hr, hproj⟩ := List.mem_filterMap.1 (List.mem_of_find?_eq_some h)
  cases r <;> simp only [Row.auditHash?, Option.some.injEq, reduceCtorEq] at hproj
  exact ⟨Database.has_iff.2 ⟨_, hr, by simp [Row.keys, hproj, ht]⟩, ht⟩

theorem has_auditHash_false {d : Database} (h : d.auditHash? t = none) :
    d.has (.auditHash t) = false := by
  by_contra hyes
  rw [Bool.not_eq_false] at hyes
  obtain ⟨row, hrow, hk⟩ := Database.has_iff.1 hyes
  cases row with
  | auditHash r =>
      have hno := List.find?_eq_none.1 h r (List.mem_filterMap.2 ⟨_, hrow, rfl⟩)
      simp only [Row.keys, List.mem_singleton, Key.auditHash.injEq] at hk
      simp [hk] at hno
  | _ => simp [Row.keys] at hk

/-- Rows whose only key is about an id of theirs can be inserted if the ids are new. -/
theorem alone_insertRecords {β : Type} (toRow : β → Row) (key : String → Key) (recordId : β → String)
    (hkeys : ∀ r, (toRow r).keys = [key (recordId r)]) (hkey : ∀ id, (key id).id? = some id)
    (hrefs : ∀ r, (toRow r).references = []) (hcheck : ∀ r, (toRow r).check = none)
    {rows : List β} (hfit : Fit G d n s ws) (hvisible : ∀ r ∈ rows, (toRow r).visibleTo t = true)
    (hnodup : (rows.map recordId).Nodup) (hused : ∀ r ∈ rows, G.used s (recordId r))
    (hfree : ∀ r ∈ rows, (postgres.view d ws).has (key (recordId r)) = false) :
    (insertAll t (rows.map toRow)).alone postgres E s d ws =
        ⟨d, ws ++ inserts t (rows.map toRow), s, .ok ()⟩ ∧
      Fit G d n s (ws ++ inserts t (rows.map toRow)) := by
  have hinj : ∀ id id', key id = key id' → id = id' := fun id id' h => by
    have := congrArg Key.id? h
    rw [hkey, hkey] at this
    exact Option.some.inj this
  refine alone_insertAll (rows.map toRow) hfit ?_ ?_ ?_ ?_
  · intro row hrow
    obtain ⟨r, hr, rfl⟩ := List.mem_map.1 hrow
    exact ⟨hvisible r hr, hcheck r, by simp [hrefs]⟩
  · intro row hrow k hk
    obtain ⟨r, hr, rfl⟩ := List.mem_map.1 hrow
    rw [hkeys, List.mem_singleton] at hk
    exact hk ▸ hfree r hr
  · have heq : (rows.map toRow).flatMap Row.keys = (rows.map recordId).map key := by
      rw [List.flatMap_map, List.map_map]
      simp only [hkeys]
      exact List.map_eq_flatMap.symm
    rw [heq]
    exact hnodup.map fun id id' h => hinj id id' h
  · intro row hrow k hk id hid
    obtain ⟨r, hr, rfl⟩ := List.mem_map.1 hrow
    rw [hkeys, List.mem_singleton] at hk
    rw [hk, hkey] at hid
    exact Option.some.inj hid ▸ hused r hr

/-- The update of the checkpoint that was found, if one was. -/
def updateCheckpoint (t : TenantId) : Option (AuditHashRow × AuditHashRow) → Handler Unit
  | some (loaded, changed) => execute t (.updateAuditHash loaded changed)
  | none => pure ()

/-- Its statement. -/
def checkpointWrites (t : TenantId) (c? : Option (AuditHashRow × AuditHashRow)) : List Write :=
  (c?.map fun c => (⟨t, .updateAuditHash c.1 c.2⟩ : Write)).toList

theorem alone_updateCheckpoint (c? : Option (AuditHashRow × AuditHashRow))
    (hfit : Fit G d n s ws)
    (h : ∀ c, c? = some c →
      (postgres.view d ws).has (.auditHash t) = true ∧ c.1.tenantId = t) :
    (updateCheckpoint t c?).alone postgres E s d ws =
        ⟨d, ws ++ checkpointWrites t c?, s, .ok ()⟩ ∧
      Fit G d n s (ws ++ checkpointWrites t c?) := by
  cases c? with
  | none =>
      rw [checkpointWrites, Option.map_none, Option.toList_none, List.append_nil]
      exact ⟨rfl, hfit⟩
  | some c =>
      obtain ⟨hhas, hct⟩ := h c rfl
      have hfault : postgres.fault (postgres.view d ws) ⟨t, .updateAuditHash c.1 c.2⟩ = none := by
        refine fault_eq_none_iff.2 ⟨by simp [Statement.staticFault, hct],
          by simp [Statement.absent], fun k hk => ?_⟩
        rw [List.mem_singleton.1 hk]
        exact hhas
      exact ⟨alone_execute hfault, hfit.exec hfault (by simp [Statement.inserted?])⟩

theorem flushRecording_eq (recording : Recording) :
    flushRecording t recording =
      (insertAll t (recording.audits.map .auditEvent) >>= fun _ =>
        updateCheckpoint t recording.checkpoint >>= fun _ =>
          insertAll t (recording.newHashes.map .auditHash) >>= fun _ =>
            insertAll t (recording.outbox.map .outboxEvent)) := by
  rw [flushRecording, updateCheckpoint.eq_def]
  cases recording.checkpoint <;> rfl

/-- What a recording takes for its checkpoint is taken by no audit row, and by no outbox row. -/
theorem has_checkpointWrites {c? : Option (AuditHashRow × AuditHashRow)} {k : Key} :
    (postgres.view d (checkpointWrites t c?)).has k = true ↔ d.has k = true := by
  rw [occupied_view_iff]
  refine ⟨?_, Or.inl⟩
  rintro (h | ⟨w, hw, row, hrow, -⟩)
  · exact h
  · obtain ⟨c, -, rfl⟩ := Option.mem_map.1 (Option.mem_toList.1 hw)
    cases hrow

/-- **Events are recorded**, if the tenant has a checkpoint or there is only one event. -/
theorem alone_recordDomainEvents {events : List DomainEvent}
    (hfit : Fit G d (n + events.length) s ws) (htenants : ∀ event ∈ events, event.tenantId = t)
    (hone : (postgres.view d ws).has (.auditHash t) = true ∨ events.length ≤ 1) :
    ∃ s' recording,
      (recordDomainEvents t events).alone postgres E s d ws =
        ⟨d, ws ++ recordingWrites t recording, s', .ok ()⟩ ∧
      Recorded events recording ∧ Fit G d n s' (ws ++ recordingWrites t recording) := by
  have hstart : Noted G t (postgres.view d ws) s s Recording.empty :=
    ⟨rfl, List.nodup_nil, by simp [Recording.empty], by simp [Recording.empty],
      by simp [Recording.empty], by simp [Recording.empty], by simp [Recording.empty],
      by simp [Recording.empty], Nat.le_refl _⟩
  obtain ⟨s', recording, hrun, hnoted, hfit₁, hrec⟩ := alone_recordEvents (t := t) events hfit
    (fun _ h => h) htenants hstart .empty
  rw [List.nil_append] at hrec
  have hlength : recording.audits.length = events.length := by
    simpa using congrArg List.length hrec.audits
  -- an id of the recording was in use nowhere when the recording began
  have hunused : ∀ r ∈ recording.audits, ¬ G.used s r.eventId := fun r hr => (hnoted.new r hr).1
  have hids : ∀ r ∈ recording.outbox, ∃ r' ∈ recording.audits, r'.eventId = r.eventId := by
    intro r hr
    have hmem := hnoted.ids ▸ List.mem_map_of_mem (f := OutboxEventRow.eventId) hr
    exact List.mem_map.1 hmem
  obtain ⟨hruns₂, hfit₂⟩ := alone_insertRecords (E := E) (t := t) Row.auditEvent Key.auditEvent
    AuditEventRow.eventId (fun _ => rfl) (fun _ => rfl) (fun _ => rfl) (fun _ => rfl) hfit₁
    (fun r hr => by simp [Row.visibleTo, Row.tenantId?, hnoted.audits r hr]) hnoted.nodup
    (fun r hr => (hnoted.new r hr).2) fun r hr => hfit.free rfl (hunused r hr)
  obtain ⟨hruns₃, hfit₃⟩ := alone_updateCheckpoint (E := E) (t := t) recording.checkpoint
    hfit₂ fun c hc => by
      obtain ⟨hhas, hct⟩ := has_auditHash_of_some (hnoted.checkpoint c hc)
      rw [postgres.view_append]
      exact ⟨has_view_of_has hhas, hct⟩
  -- a checkpoint is inserted only if there was none
  have hnone : recording.newHashes ≠ [] →
      (postgres.view d ws).has (.auditHash t) = false ∧ recording.newHashes.length = 1 := by
    intro hne
    have hmissing : (postgres.view d ws).auditHash? t = none := by
      by_contra hsome
      exact hne (hnoted.found hsome)
    have hfree : (postgres.view d ws).has (.auditHash t) = false := has_auditHash_false hmissing
    refine ⟨hfree, ?_⟩
    have hle := hnoted.length
    have hpos := List.length_pos_iff.2 hne
    rcases hone with hhas | hle'
    · rw [hfree] at hhas
      cases hhas
    · omega
  obtain ⟨hruns₄, hfit₄⟩ := alone_insertAll (E := E) (t := t) (recording.newHashes.map .auditHash)
    hfit₃ (by
      intro row hrow
      obtain ⟨r, hr, rfl⟩ := List.mem_map.1 hrow
      exact ⟨by simp [Row.visibleTo, Row.tenantId?, hnoted.newHashes r hr], rfl,
        by simp [Row.references]⟩)
    (by
      intro row hrow k hk
      obtain ⟨r, hr, rfl⟩ := List.mem_map.1 hrow
      obtain ⟨hfree, -⟩ := hnone (List.ne_nil_of_mem hr)
      rw [List.mem_singleton.1 hk, hnoted.newHashes r hr]
      by_contra hyes
      rw [Bool.not_eq_false, postgres.view_append, postgres.view_append, has_checkpointWrites]
        at hyes
      rcases has_inserts.1 hyes with hyes | ⟨row, hrow', hk'⟩
      · rw [hfree] at hyes
        cases hyes
      · obtain ⟨r', -, rfl⟩ := List.mem_map.1 hrow'
        simp [Row.keys] at hk')
    (by
      rcases hl : recording.newHashes with _ | ⟨r, _ | ⟨r', rest⟩⟩
      · exact List.nodup_nil
      · exact List.nodup_singleton _
      · have hlen := (hnone (by simp [hl])).2
        simp [hl] at hlen)
    (by
      intro row hrow k hk id hid
      obtain ⟨r, -, rfl⟩ := List.mem_map.1 hrow
      rw [List.mem_singleton.1 hk] at hid
      cases hid)
  obtain ⟨hruns₅, hfit₅⟩ := alone_insertRecords (E := E) (t := t) Row.outboxEvent Key.outboxEvent
    OutboxEventRow.eventId (fun _ => rfl) (fun _ => rfl) (fun _ => rfl) (fun _ => rfl) hfit₄
    (fun r hr => by simp [Row.visibleTo, Row.tenantId?, hnoted.outbox r hr])
    (hnoted.ids ▸ hnoted.nodup)
    (fun r hr => by
      obtain ⟨r', hr', hid⟩ := hids r hr
      exact hid ▸ (hnoted.new r' hr').2)
    (fun r hr => by
      obtain ⟨r', hr', hid⟩ := hids r hr
      have hfree := hfit.free (k := .outboxEvent r.eventId) rfl (hid ▸ hunused r' hr')
      by_contra hyes
      rw [Bool.not_eq_false, postgres.view_append, postgres.view_append, postgres.view_append]
        at hyes
      rcases has_inserts.1 hyes with hyes | ⟨row, hrow', hk'⟩
      · rw [has_checkpointWrites] at hyes
        rcases has_inserts.1 hyes with hyes | ⟨row, hrow', hk'⟩
        · rw [hfree] at hyes
          cases hyes
        · obtain ⟨r'', -, rfl⟩ := List.mem_map.1 hrow'
          simp [Row.keys] at hk'
      · obtain ⟨r'', -, rfl⟩ := List.mem_map.1 hrow'
        simp [Row.keys] at hk')
  have hws : ws ++ inserts t (recording.audits.map .auditEvent) ++
      checkpointWrites t recording.checkpoint ++ inserts t (recording.newHashes.map .auditHash) ++
      inserts t (recording.outbox.map .outboxEvent) = ws ++ recordingWrites t recording := by
    simp [recordingWrites, checkpointWrites, inserts, List.map_map, Function.comp_def]
  rw [hws] at hruns₅ hfit₅
  refine ⟨s', recording, ?_, hrec, hfit₅⟩
  rw [recordDomainEvents, Prog.alone_bind_ok hrun, flushRecording_eq, Prog.alone_bind_ok hruns₂]
  rw [Prog.alone_bind_ok hruns₃, Prog.alone_bind_ok hruns₄]
  exact hruns₅

/-! ### How a command about an application begins -/

/-- The next version of a case is not there yet. -/
theorem InOrder.no_version {d : Database} (h : InOrder d) {a : ApplicationId} {x : CaseFile}
    (hx : d.caseFile? a = some x) {v : ℕ} (hv : x.row.version < v) :
    d.has (.applicationVersion a v) = false := by
  by_contra hyes
  rw [Bool.not_eq_false] at hyes
  obtain ⟨events, htells⟩ := h.tells hx
  obtain ⟨row, hrow, hk⟩ := Database.has_iff.1 hyes
  cases row with
  | applicationVersion r =>
      simp only [Row.keys, List.mem_cons, reduceCtorEq, Key.applicationVersion.injEq,
        List.not_mem_nil, or_false, false_or] at hk
      have hmem : r.version ∈ (d.slice a).versions.map ApplicationVersionRow.version := by
        refine List.mem_map_of_mem (List.mem_filter.2 ⟨List.mem_filterMap.2 ⟨_, hrow, rfl⟩, ?_⟩)
        simp [hk.1]
      rw [htells.numbers, List.mem_range'_1] at hmem
      have hversion := htells.reached.consistent.version
      omega
  | _ => simp [Row.keys] at hk

/-- The transaction that has made its reservation. -/
theorem Fit.begin (hinUse : InUse (G.used s) d) (hleft : n ≤ G.left s) {operationName key : String}
    (hkey : d.has (.idempotencyKey t operationName key) = false) :
    Fit G d n (E s .now).2 [reserveWrite t operationName key (timeOf E s)] := by
  have hstart : Fit G d n s [] := ⟨trivial, hinUse, hleft⟩
  have hfault : postgres.fault (postgres.view d [])
      (reserveWrite t operationName key (timeOf E s)) = none :=
    Insertable.fault (d := d) ⟨by simp [Row.visibleTo, Row.tenantId?], rfl,
      by simp [Row.references]⟩ (by simpa [Row.keys] using hkey)
  exact ((Fit.ask .now hstart).exec hfault (by
    rintro row hrow k hk id hid
    cases hrow
    rw [List.mem_singleton.1 hk] at hid
    cases hid))

/-- **The reservation is made, and the application is read.** -/
theorem alone_begin (hd : InOrder d) {a : ApplicationId} {x : CaseFile}
    (hx : d.caseFile? a = some x) (ht : x.row.tenantId = t) {operationName key : String}
    (hkey : d.has (.idempotencyKey t operationName key) = false) (f : ApplicationRow → Handler α) :
    (requireReservation t key operationName >>= fun _ => requireApplication t a >>= f).alone
        postgres E s d [] =
      (f x.row).alone postgres E (E s .now).2 d
        [reserveWrite t operationName key (timeOf E s)] := by
  have hreserve := alone_requireReservation (E := E) (s := s) (d := d) t key operationName
  rw [hkey] at hreserve
  have hrow : applicationRow? t a
      (postgres.view d [reserveWrite t operationName key (timeOf E s)]) = some x.row := by
    rw [applicationRow?_reserved, applicationRow?,
      (application?_visible hd.wellFormed.keys).2 ⟨caseFile?_row hx, ht⟩]
    simp [Option.filter, ht]
  have hread : (requireApplication t a).alone postgres E (E s .now).2 d
      [reserveWrite t operationName key (timeOf E s)] = _ := alone_requireApplication t a
  rw [hrow] at hread
  rw [Prog.alone_bind_ok hreserve, Prog.alone_bind_ok hread]

/-- A legal transition. -/
theorem alone_transition (application : Application) {newStatus : ApplicationStatus}
    {reason : String} (h : isLegalTransition application.status newStatus = true) :
    (transition application newStatus reason).alone postgres E s d ws =
      ⟨d, ws, (E s .now).2, .ok (application.moved newStatus reason (timeOf E s))⟩ := by
  rw [transition, Prog.alone_bind_ok alone_now, Application.transitionTo, if_pos h]
  rfl

/-- A transition the table does not have. -/
theorem alone_transition_illegal (application : Application) {newStatus : ApplicationStatus}
    {reason : String} (h : isLegalTransition application.status newStatus = false) :
    (transition application newStatus reason).alone postgres E s d ws =
      ⟨d, ws, (E s .now).2,
        .error (.illegalStateTransition application.status newStatus)⟩ := by
  rw [transition, Prog.alone_bind_ok alone_now, Application.transitionTo, if_neg (by simp [h])]
  rfl

end Alone

/-! ### A generator that counts -/

namespace Sample

/-- The answers by number; only an id takes a new one. -/
def counter : Environment Answer ℕ := fun n q => (answers n q, n + q.ids)

theorem digit_inj : ∀ m n : Fin 10, digit m = digit n → m = n := by decide

theorem newId_inj {m n : ℕ} (hm : m < 1000) (hn : n < 1000)
    (h : (newId m).value = (newId n).value) : m = n := by
  have hchars := congrArg String.toList h
  rw [newId, newId, String.toList_ofList, String.toList_ofList] at hchars
  have hdigits := List.append_cancel_left hchars
  simp only [List.cons.injEq, and_true] at hdigits
  obtain ⟨h₁, h₂, h₃⟩ := hdigits
  have h₁ := congrArg Fin.val (digit_inj _ _ h₁)
  have h₂ := congrArg Fin.val (digit_inj _ _ h₂)
  have h₃ := congrArg Fin.val (digit_inj _ _ h₃)
  simp only [Fin.ofNat] at h₁ h₂ h₃
  omega

/-- It has a thousand ids. -/
def source : IdSource counter where
  used n id := ∃ m < n, id = (newId m).value
  left n := 1000 - n
  new := by
    rintro n hleft ⟨m, hm, heq⟩
    have hsame := newId_inj (m := n) (n := m) (by omega) (by omega) heq
    omega
  noted n := ⟨n, Nat.lt_succ_self n, rfl⟩
  kept := by
    rintro n q id ⟨m, hm, rfl⟩
    exact ⟨m, Nat.lt_of_lt_of_le hm (Nat.le_add_right n _), rfl⟩
  spent n q := by
    simp only [counter]
    omega

/-- Programs of these kinds, run one after the other by themselves. -/
def runAll : List Kind → Database → ℕ → Database × ℕ
  | [], d, n => (d, n)
  | κ :: κs, d, n =>
      runAll κs (κ.prog.alone postgres counter n d []).db (κ.prog.alone postgres counter n d []).env

/-- What programs leave behind that run one after the other is committed in some run. -/
theorem reachable_runAll (κs : List Kind) : ∀ {n : ℕ} {w : World anyHost},
    Reachable postgres (installation.start anyHost ()) w → (∀ t ∈ w.tasks, t.writes = []) →
    ∃ w', Reachable postgres (installation.start anyHost ()) w' ∧
      w'.db = (runAll κs w.db n).1 := by
  induction κs with
  | nil => exact fun hw _ => ⟨_, hw, rfl⟩
  | cons κ κs ih =>
      intro n w hw hquiet
      obtain ⟨w₁, hreach, hdb, -, hquiet₁⟩ := reachable_alone (S := postgres) (H := anyHost)
        (E := counter) (s := n) (fun _ _ => True) κ (fun e s d q _ => ⟨e, rfl, trivial⟩)
        trivial rfl hquiet
      obtain ⟨w₂, hreach₂, hdb₂⟩ := ih (n := (κ.prog.alone postgres counter n w.db []).env)
        (hw.trans hreach) hquiet₁
      refine ⟨w₂, hreach₂, ?_⟩
      rw [hdb₂, hdb]
      rfl

def firstId : ApplicationId := ⟨(newId 1).value, (newId 1).isCanonical⟩

def command (idempotencyKey : String) : ApplicationCommand :=
  ⟨tenantId, firstId, idempotencyKey⟩

/-- What these programs leave behind, and how many ids they took. -/
def after (κs : List Kind) : Database × ℕ :=
  runAll κs (installation.start anyHost ()).db 0

/-- The first application is created. -/
def creation : List Kind := [.command (.createApplication create)]

theorem reachable_after (κs : List Kind) :
    ∃ w, Reachable postgres (installation.start anyHost ()) w ∧ w.db = (after κs).1 :=
  reachable_runAll κs Reaches.refl (by simp [Installation.start])

def fault? {α : Type} : Except Error α → Option Fault
  | .error (.database fault) => some fault
  | _ => none

theorem eq_error_of_fault {α : Type} {result : Except Error α} {fault : Fault}
    (h : fault? result = some fault) : result = .error (.database fault) := by
  unfold fault? at h
  split at h
  · cases h
    rfl
  · cases h

theorem found {d : Database} {a : ApplicationId} {t : TenantId} {status : ApplicationStatus}
    (h : (d.application? a).map (fun row => (row.tenantId, row.status)) = some (t, status)) :
    ∃ row, d.application? a = some row ∧ row.tenantId = t ∧ row.status = status := by
  obtain ⟨row, hrow, heq⟩ := Option.map_eq_some_iff.1 h
  exact ⟨row, hrow, congrArg Prod.fst heq, congrArg Prod.snd heq⟩

/-- The ids of these rows were handed out. -/
theorem inUse_of_rows {d : Database} {n : ℕ}
    (h : ∀ r ∈ d.rows, ∀ k ∈ r.keys, ∀ id ∈ k.id?, ∃ m < n, id = (newId m).value) :
    InUse (source.used n) d := by
  intro k id hhas hid
  obtain ⟨r, hr, hk⟩ := List.any_eq_true.1 hhas
  exact h r hr k (by simpa using hk) id hid

end Sample

end FinAssist
