/-
**The audit trail of a tenant: one chain, from the first event to the checkpoint.**

`record_domain_events` hashes every event together with the hash of the event before it, and keeps
the last hash of a tenant in a row of its own, the checkpoint.  When the recordings of a tenant are
made one after the other, each of them goes on where the checkpoint stands.  Then whoever holds the
checkpoint's hash holds the whole trail.

Main definitions:

* `FinAssist.AuditEntry` — what an audit row tells of its event;
* `FinAssist.Linked` — rows of which each is hashed with the hash of the row before it;
* `FinAssist.AuditChain` — **the trail of a tenant is one chain that ends at the checkpoint**;
* `FinAssist.AuditHistory` — databases in which a tenant's recordings were made one after the other.

Main results:

* `FinAssist.AuditChain.record` — a recording that goes on from the checkpoint keeps the chain;
* `FinAssist.AuditHistory.chain` — so does every history;
* `FinAssist.tamper_evident` — **two trails with the same checkpoint are the same**, and recomputing
  the hashes of a trail gives the stored ones.
-/

import FinAssist.CanonicalJson
import FinAssist.HashChain
import FinAssist.Isolated
import FinAssist.CaseIntegrity
import FinAssist.HandlerRuns

set_option relaxedAutoImplicit false
set_option autoImplicit false

namespace FinAssist

open ReadCommitted Discipline

/-! ### What a row tells of its event -/

/-- **What an audit row tells of its event.** -/
structure AuditEntry where
  eventId : String
  eventType : String
  aggregateId : String
  occurredAt : DateTime
  payload : Payload
  deriving DecidableEq

def AuditEventRow.entry (r : AuditEventRow) : AuditEntry :=
  ⟨r.eventId, r.eventType, r.aggregateId, r.occurredAt, r.payload⟩

/-- The line that `compute_audit_hash` hashes. -/
def AuditEntry.line (prevHash : String) (e : AuditEntry) : String :=
  canonicalJson prevHash e.eventId e.eventType e.aggregateId e.occurredAt e.payload

/-- `compute_audit_hash` along entries, from a hash on. -/
abbrev recomputedHashes (prevHash : String) (entries : List AuditEntry) : List String :=
  HashChain.hashes Sha256.hexdigest AuditEntry.line prevHash entries

/-- The last of them. -/
abbrev lastHash (prevHash : String) (entries : List AuditEntry) : String :=
  HashChain.tip Sha256.hexdigest AuditEntry.line prevHash entries

/-- **Rows of which each is hashed with the hash of the row before it.** -/
def Linked : String → List AuditEventRow → Prop
  | _, [] => True
  | prevHash, r :: rows =>
      r.prevHash = prevHash ∧ r.hash = Sha256.hexdigest (r.entry.line prevHash) ∧ Linked r.hash rows

theorem linked_append (rows more : List AuditEventRow) : ∀ prevHash : String,
    Linked prevHash (rows ++ more) ↔
      Linked prevHash rows ∧ Linked (lastHash prevHash (rows.map AuditEventRow.entry)) more := by
  induction rows with
  | nil => intro prevHash; simp [Linked]
  | cons r rows ih =>
      intro prevHash
      simp only [List.cons_append, Linked, ih, List.map_cons]
      constructor
      · rintro ⟨hprev, hhash, hrows, hmore⟩
        rw [hhash] at hmore
        exact ⟨⟨hprev, hhash, hrows⟩, hmore⟩
      · rintro ⟨⟨hprev, hhash, hrows⟩, hmore⟩
        refine ⟨hprev, hhash, hrows, ?_⟩
        rw [hhash]
        exact hmore

/-- The stored hashes are the recomputed ones. -/
theorem Linked.hashes {rows : List AuditEventRow} : ∀ {prevHash : String}, Linked prevHash rows →
    rows.map AuditEventRow.hash = recomputedHashes prevHash (rows.map AuditEventRow.entry) := by
  induction rows with
  | nil => intro prevHash _; rfl
  | cons r rows ih =>
      intro prevHash h
      obtain ⟨-, hhash, hrows⟩ := h
      simp only [List.map_cons, HashChain.hashes, ih hrows, hhash]

/-- What was hashed for the rows. -/
theorem Linked.lines {rows : List AuditEventRow} : ∀ {prevHash : String}, Linked prevHash rows →
    rows.map (fun r => r.entry.line r.prevHash) =
      HashChain.hashed Sha256.hexdigest AuditEntry.line prevHash (rows.map AuditEventRow.entry) := by
  induction rows with
  | nil => intro prevHash _; rfl
  | cons r rows ih =>
      intro prevHash h
      obtain ⟨hprev, hhash, hrows⟩ := h
      simp only [List.map_cons, HashChain.hashed, ih hrows, hhash, hprev]

/-! ### What a recording adds to the chain -/

/-- The row of an event, after a row with the hash `prevHash`. -/
theorem linked_auditEventRow (event : DomainEvent) (eventId prevHash : String) (at' : DateTime) :
    Linked prevHash [auditEventRow event eventId prevHash at'] :=
  ⟨rfl, rfl, trivial⟩

/-- A recording that has found a checkpoint, and only that one, goes on from it. -/
theorem Recorded.goes_on {events : List DomainEvent} {recording : Recording}
    (h : Recorded events recording) (hnew : recording.newHashes = []) :
    match recording.checkpoint with
    | none => events = [] ∧ recording = Recording.empty
    | some (c, c') => c'.tenantId = c.tenantId ∧ Linked c.latestHash recording.audits ∧
        c'.latestHash = lastHash c.latestHash (recording.audits.map AuditEventRow.entry) := by
  induction h with
  | empty => exact ⟨rfl, rfl⟩
  | again h event eventId at' c hc ih =>
      obtain ⟨c, c'⟩ := c
      have hold := ih (by simpa [Recording.add] using hnew)
      rw [hc] at hold
      obtain ⟨ht, hlinked, hlatest⟩ := hold
      refine ⟨ht, (linked_append _ _ _).2 ⟨hlinked, ?_⟩, ?_⟩
      · rw [← hlatest]
        exact linked_auditEventRow event eventId c'.latestHash at'
      · simp only [Recording.add, List.map_append, HashChain.tip_append, ← hlatest]
        rfl
  | load h event eventId at' row hc hrow ih =>
      have hold := ih (by simpa [Recording.add] using hnew)
      rw [hc] at hold
      obtain ⟨rfl, rfl⟩ := hold
      exact ⟨rfl, linked_auditEventRow event eventId row.latestHash at', rfl⟩
  | first h event eventId at' hc ih => simp [Recording.add] at hnew

/-- A recording that has found no checkpoint begins a chain with each of its events. -/
theorem Recorded.begins {events : List DomainEvent} {recording : Recording}
    (h : Recorded events recording) (hc : recording.checkpoint = none) :
    recording.newHashes.length = events.length ∧
    (∀ r ∈ recording.newHashes, ∃ event ∈ events, r.tenantId = event.tenantId) ∧
    (recording.newHashes.length = 1 → ∃ event eventId at',
      recording = Recording.empty.add event eventId at' none) := by
  induction h with
  | empty => exact ⟨rfl, by simp [Recording.empty], by simp [Recording.empty]⟩
  | again h event eventId at' c _ ih => simp [Recording.add] at hc
  | load h event eventId at' row _ _ ih => simp [Recording.add] at hc
  | @first events recording h event eventId at' hnone ih =>
      obtain ⟨hlength, htenants, -⟩ := ih hnone
      refine ⟨by simp [Recording.add, hlength], fun r hr => ?_, fun hone => ?_⟩
      · rcases List.mem_append.1 hr with hr | hr
        · obtain ⟨e, he, hre⟩ := htenants r hr
          exact ⟨e, List.mem_append_left _ he, hre⟩
        · exact ⟨event, by simp, by rw [List.mem_singleton.1 hr]⟩
      · have hzero : events = [] := by simpa [Recording.add, hlength] using hone
        cases h with
        | empty => exact ⟨event, eventId, at', rfl⟩
        | again _ _ _ _ _ _ => simp [Recording.add] at hnone
        | load _ _ _ _ _ _ _ => simp [Recording.add] at hnone
        | first _ _ _ _ _ => simp at hzero

theorem Recorded.payloads {events : List DomainEvent} {recording : Recording}
    (h : Recorded events recording) : ∀ r ∈ recording.audits, IsEventPayload r.payload := by
  intro r hr
  have hmem : r.record ∈ events.map DomainEvent.record :=
    h.audits ▸ List.mem_map_of_mem hr
  obtain ⟨event, -, heq⟩ := List.mem_map.1 hmem
  exact ⟨event, congrArg EventRecord.payload heq⟩

/-! ### Statements that touch the trail -/

namespace Database

/-- **The audit trail** of a tenant, in the order in which it was written. -/
def auditTrail (d : Database) (t : TenantId) : List AuditEventRow :=
  d.auditEvents.filter fun r => r.tenantId = t

/-- What the hashes of a tenant's audit rows were computed from. -/
def auditLines (d : Database) (t : TenantId) : List String :=
  (d.auditTrail t).map fun r => r.entry.line r.prevHash

/-- The hash at the checkpoint of a tenant; before the first event, `GENESIS_HASH`. -/
def checkpointHash (d : Database) (t : TenantId) : String :=
  ((d.auditHash? t).map AuditHashRow.latestHash).getD genesisHash

end Database

/-- Whether a statement writes the checkpoint of a tenant. -/
def Statement.writesCheckpoint (t : TenantId) : Statement → Bool
  | insert (.auditHash r) => r.tenantId = t
  | updateAuditHash loaded _ => loaded.tenantId = t
  | _ => false

/-- Whether a statement writes the trail of a tenant. -/
def Statement.writesTrail (t : TenantId) : Statement → Bool
  | insert (.auditEvent r) => r.tenantId = t
  | _ => false

theorem change_auditEvent? (t : TenantId) (s : Statement) (r : Row) :
    (s.change t r).auditEvent? = r.auditEvent? := by
  cases s <;> cases r <;> rfl

/-- The trail grows by the rows that are inserted for the tenant. -/
theorem auditTrail_view (ws : List Write) (d : Database) (t : TenantId) :
    (postgres.view d ws).auditTrail t = d.auditTrail t ++
      (ws.filterMap fun w => w.statement.inserted?.bind Row.auditEvent?).filter fun r =>
        r.tenantId = t := by
  simp only [Database.auditTrail, Database.auditEvents,
    filterMap_view Row.auditEvent? change_auditEvent? ws d, List.filter_append]

theorem auditTrail_view_of_none {ws : List Write} {d : Database} {t : TenantId}
    (h : ∀ w ∈ ws, w.statement.writesTrail t = false) :
    (postgres.view d ws).auditTrail t = d.auditTrail t := by
  rw [auditTrail_view, List.append_right_eq_self, List.filter_eq_nil_iff]
  intro r hr
  obtain ⟨⟨t', s⟩, hw, hrow⟩ := List.mem_filterMap.1 hr
  have hno := h _ hw
  cases s with
  | insert row =>
      cases row <;> simp only [Statement.inserted?, Option.bind_some, Row.auditEvent?,
        Option.some.injEq, reduceCtorEq] at hrow
      subst hrow
      simpa [Statement.writesTrail] using hno
  | _ => simp [Statement.inserted?] at hrow

theorem auditHash?_apply {d : Database} {w : Write} {t : TenantId}
    (h : w.statement.writesCheckpoint t = false) : (d.apply w).auditHash? t = d.auditHash? t := by
  obtain ⟨t', s⟩ := w
  have hkeep : (∀ r, (s.change t' r).auditHash? = r.auditHash?) →
      (⟨d.rows.map (s.change t')⟩ : Database).auditHash? t = d.auditHash? t := by
    intro hs
    simp only [Database.auditHash?, Database.auditHashes, filterMap_change hs]
  cases s with
  | insert row =>
      rw [Database.apply_insert]
      simp only [Database.auditHash?, Database.auditHashes, List.filterMap_append,
        List.find?_append]
      cases row <;> simp_all [Row.auditHash?, Statement.writesCheckpoint]
  | updateApplication loaded changed =>
      rw [Database.apply_update d rfl]
      exact hkeep (by intro r; cases r <;> rfl)
  | updateAuditHash loaded changed =>
      rw [Database.apply_update d rfl]
      have hfind := find?_update (π := Row.auditHash?) (g := AuditHashRow.tenantId)
        (f := Statement.change t' (.updateAuditHash loaded changed))
        (c := fun r => r.tenantId = t') (u := fun r => r.update loaded changed)
        (k := loaded.tenantId) (by intro r; cases r <;> rfl) (fun _ => rfl) d.rows t
      have hne : loaded.tenantId ≠ t := by simpa [Statement.writesCheckpoint] using h
      rw [if_neg hne] at hfind
      exact hfind
  | updateReviewQueueEntry loaded changed =>
      rw [Database.apply_update d rfl]
      exact hkeep (by intro r; cases r <;> rfl)

theorem auditHash?_view {ws : List Write} {t : TenantId} : ∀ {d : Database},
    (∀ w ∈ ws, w.statement.writesCheckpoint t = false) →
      (postgres.view d ws).auditHash? t = d.auditHash? t := by
  induction ws with
  | nil => intro d _; rfl
  | cons w ws ih =>
      intro d h
      rw [Schema.view_cons, ih fun v hv => h v (List.mem_cons_of_mem _ hv)]
      exact auditHash?_apply (h w List.mem_cons_self)

theorem auditHash?_update {d : Database} {t : TenantId} {loaded changed : AuditHashRow}
    (ht : loaded.tenantId = t) :
    (d.apply ⟨t, .updateAuditHash loaded changed⟩).auditHash? t =
      (d.auditHash? t).map fun r => r.update loaded changed := by
  rw [Database.apply_update d rfl]
  have hfind := find?_update (π := Row.auditHash?) (g := AuditHashRow.tenantId)
    (f := Statement.change t (.updateAuditHash loaded changed))
    (c := fun r => r.tenantId = t) (u := fun r => r.update loaded changed)
    (k := loaded.tenantId) (by intro r; cases r <;> rfl) (fun _ => rfl) d.rows t
  rw [if_pos ht] at hfind
  refine hfind.trans ?_
  rw [show d.auditHash? t = (d.rows.filterMap Row.auditHash?).find? fun r => r.tenantId = t
    from rfl]
  cases hrow : (d.rows.filterMap Row.auditHash?).find? fun r => r.tenantId = t with
  | none => rfl
  | some r =>
      have hr : r.tenantId = t := by simpa using List.find?_some hrow
      simp only [Option.map_some, hr, if_true]

theorem auditHash?_insert {d : Database} {t t' : TenantId} {row : AuditHashRow}
    (hnone : d.auditHash? t = none) (ht : row.tenantId = t) :
    (d.apply ⟨t', .insert (.auditHash row)⟩).auditHash? t = some row := by
  rw [Database.apply_insert]
  simp only [Database.auditHash?, Database.auditHashes] at hnone
  simp [Database.auditHash?, Database.auditHashes, hnone, Row.auditHash?, ht]

/-- A checkpoint whose key is free is not there. -/
theorem auditHash?_none {d : Database} {t : TenantId} (h : d.has (.auditHash t) = false) :
    d.auditHash? t = none := by
  cases hrow : d.auditHash? t with
  | none => rfl
  | some r =>
      have hr : r.tenantId = t := by simpa using List.find?_some hrow
      obtain ⟨row, hmem, hproj⟩ := List.mem_filterMap.1 (List.mem_of_find?_eq_some hrow)
      cases row <;> simp only [Row.auditHash?, Option.some.injEq, reduceCtorEq] at hproj
      subst hproj
      have hyes : d.has (.auditHash t) = true :=
        Database.has_iff.2 ⟨_, hmem, by simp [Row.keys, hr]⟩
      rw [h] at hyes
      cases hyes

/-! ### The trail is one chain -/

/-- **The trail of a tenant is one chain that ends at the checkpoint**; without a checkpoint there
is no trail. -/
structure AuditChain (t : TenantId) (d : Database) : Prop where
  linked : Linked genesisHash (d.auditTrail t)
  payloads : ∀ r ∈ d.auditTrail t, IsEventPayload r.payload
  checkpoint : match d.auditHash? t with
    | none => d.auditTrail t = []
    | some c => c.latestHash = lastHash genesisHash ((d.auditTrail t).map AuditEventRow.entry)

theorem AuditChain.checkpointHash {t : TenantId} {d : Database} (h : AuditChain t d) :
    d.checkpointHash t = lastHash genesisHash ((d.auditTrail t).map AuditEventRow.entry) := by
  have hc := h.checkpoint
  rw [Database.checkpointHash]
  cases hrow : d.auditHash? t with
  | none =>
      simp only [hrow] at hc
      rw [hc]
      rfl
  | some c =>
      simp only [hrow] at hc
      exact hc

/-- What leaves the trail and its checkpoint alone leaves the chain as it is. -/
theorem AuditChain.spared {t : TenantId} {d : Database} (h : AuditChain t d) {ws : List Write}
    (htrail : ∀ w ∈ ws, w.statement.writesTrail t = false)
    (hcheckpoint : ∀ w ∈ ws, w.statement.writesCheckpoint t = false) :
    AuditChain t (postgres.view d ws) := by
  have hrows := auditTrail_view_of_none (d := d) htrail
  have hlast := auditHash?_view (d := d) hcheckpoint
  refine ⟨?_, ?_, ?_⟩
  · rw [hrows]; exact h.linked
  · rw [hrows]; exact h.payloads
  · rw [hlast, hrows]; exact h.checkpoint

theorem staticFault_of_granted {ws : List Write} {d : Database} (h : postgres.Granted d ws)
    {w : Write} (hw : w ∈ ws) : w.statement.staticFault w.tenantId = none := by
  obtain ⟨before, after, rfl⟩ := List.append_of_mem hw
  exact (fault_eq_none_iff.1 ((postgres.granted_append before (w :: after) d).1 h).2.1).1

/-- A row that is inserted is one of the tenant's. -/
theorem visibleTo_of_granted {ws : List Write} {d : Database} (h : postgres.Granted d ws)
    {t : TenantId} (row : Row) (hw : ⟨t, .insert row⟩ ∈ ws) : row.visibleTo t = true := by
  have hstatic := staticFault_of_granted h hw
  by_contra hno
  simp [Statement.staticFault, hno] at hstatic

/-- What one statement takes, a later one cannot take. -/
theorem not_taken_twice (ws : List Write) (w : Write) (vs : List Write) (k : Key) {d : Database}
    (h : postgres.Granted d (ws ++ w :: vs)) (hk : k ∈ w.statement.absent) :
    (postgres.view d ws).has k = false :=
  (fault_eq_none_iff.1 ((postgres.granted_append ws (w :: vs) d).1 h).2.1).2.1 k hk

section Granted

variable {t : TenantId} {d : Database} {recording : Recording}

/-- At most one new checkpoint is inserted. -/
theorem newHashes_length_le (hg : postgres.Granted d (recordingWrites t recording)) :
    recording.newHashes.length ≤ 1 := by
  rcases hnew : recording.newHashes with _ | ⟨r, _ | ⟨r', rest⟩⟩
  · simp
  · simp
  · exfalso
    have htenant : ∀ x ∈ recording.newHashes, x.tenantId = t := fun x hx => by
      have hvis := visibleTo_of_granted hg (t := t) (.auditHash x)
        (by simp [recordingWrites, hx])
      simpa [Row.visibleTo, Row.tenantId?] using hvis
    have hr := htenant r (by simp [hnew])
    have hr' := htenant r' (by simp [hnew])
    have hfree := not_taken_twice (recording.audits.map (fun r => ⟨t, .insert (.auditEvent r)⟩) ++
        (recording.checkpoint.map fun c => ⟨t, .updateAuditHash c.1 c.2⟩).toList ++
        [⟨t, .insert (.auditHash r)⟩]) ⟨t, .insert (.auditHash r')⟩
      (rest.map (fun r => ⟨t, .insert (.auditHash r)⟩) ++
        recording.outbox.map fun r => ⟨t, .insert (.outboxEvent r)⟩) (.auditHash t)
      (by simpa [recordingWrites, hnew] using hg)
      (by simp [Statement.absent, Row.keys, hr'])
    refine Bool.eq_false_iff.1 hfree (occupied_view_iff.2 (Or.inr ?_))
    exact ⟨_, List.mem_append_right _ (List.mem_singleton.2 rfl), .auditHash r, rfl,
      by simp [Row.keys, hr]⟩

theorem audits_tenantId (hg : postgres.Granted d (recordingWrites t recording)) :
    ∀ r ∈ recording.audits, r.tenantId = t := fun r hr => by
  have hvis := visibleTo_of_granted hg (t := t) (.auditEvent r)
    (by simp [recordingWrites, hr])
  simpa [Row.visibleTo, Row.tenantId?] using hvis

theorem newHashes_tenantId (hg : postgres.Granted d (recordingWrites t recording)) :
    ∀ r ∈ recording.newHashes, r.tenantId = t := fun r hr => by
  have hvis := visibleTo_of_granted hg (t := t) (.auditHash r)
    (by simp [recordingWrites, hr])
  simpa [Row.visibleTo, Row.tenantId?] using hvis

/-- A checkpoint that is inserted was not there, and none was found. -/
theorem newHashes_free (hg : postgres.Granted d (recordingWrites t recording))
    (hnew : recording.newHashes ≠ []) :
    d.has (.auditHash t) = false ∧ recording.checkpoint = none := by
  obtain ⟨r, rest, hlist⟩ := List.exists_cons_of_ne_nil hnew
  have hr := newHashes_tenantId hg r (by simp [hlist])
  have hfree := not_taken_twice (recording.audits.map (fun r => ⟨t, .insert (.auditEvent r)⟩) ++
      (recording.checkpoint.map fun c => ⟨t, .updateAuditHash c.1 c.2⟩).toList)
    ⟨t, .insert (.auditHash r)⟩ (rest.map (fun r => ⟨t, .insert (.auditHash r)⟩) ++
      recording.outbox.map fun r => ⟨t, .insert (.outboxEvent r)⟩) (.auditHash t)
    (by simpa [recordingWrites, hlist] using hg)
    (by simp [Statement.absent, Row.keys, hr])
  have hstart : d.has (.auditHash t) = false :=
    Bool.eq_false_iff.2 fun hyes => Bool.eq_false_iff.1 hfree (has_view_of_has hyes)
  refine ⟨hstart, ?_⟩
  by_contra hsome
  obtain ⟨c, hc⟩ := Option.ne_none_iff_exists'.1 hsome
  -- an update needs the row that the insert needs absent
  have hg' := ((postgres.granted_append _ _ d).1
    ((postgres.granted_append _ _ d).1 ((postgres.granted_append _ _ d).1 hg).1).1).2
  rw [hc] at hg' hfree
  have hthere := (fault_eq_none_iff.1 hg'.1).2.2 (.auditHash t)
    (by simp [Statement.present])
  rw [postgres.view_append] at hfree
  exact Bool.eq_false_iff.1 hfree (has_view_of_has hthere)

end Granted

theorem update_latestHash (c c' : AuditHashRow) : (c.update c c').latestHash = c'.latestHash := by
  simp only [AuditHashRow.update, setColumn]
  split
  next h => exact h.symm
  next => rfl

/-- What a recording adds to the trail. -/
theorem auditTrail_recording {t : TenantId} {d : Database} {recording : Recording}
    (hg : postgres.Granted d (recordingWrites t recording)) :
    (postgres.view d (recordingWrites t recording)).auditTrail t =
      d.auditTrail t ++ recording.audits := by
  have hrows : (recordingWrites t recording).filterMap (fun w =>
      w.statement.inserted?.bind Row.auditEvent?) = recording.audits := by
    cases hc : recording.checkpoint <;>
      simp [recordingWrites, hc, List.filterMap_map, Function.comp_def, Statement.inserted?,
        Row.auditEvent?]
  rw [auditTrail_view, hrows, List.filter_eq_self.2]
  exact fun r hr => decide_eq_true (audits_tenantId hg r hr)

theorem audits_checkpoint (t : TenantId) (rows : List AuditEventRow) :
    ∀ w ∈ rows.map (fun r => (⟨t, .insert (.auditEvent r)⟩ : Write)),
      w.statement.writesCheckpoint t = false := by
  intro w hw
  obtain ⟨r, -, rfl⟩ := List.mem_map.1 hw
  rfl

theorem outbox_checkpoint (t : TenantId) (rows : List OutboxEventRow) :
    ∀ w ∈ rows.map (fun r => (⟨t, .insert (.outboxEvent r)⟩ : Write)),
      w.statement.writesCheckpoint t = false := by
  intro w hw
  obtain ⟨r, -, rfl⟩ := List.mem_map.1 hw
  rfl

/-- The checkpoint after a recording that has found one. -/
theorem auditHash?_continued {t : TenantId} {d : Database} {recording : Recording}
    {c c' : AuditHashRow} (hnew : recording.newHashes = [])
    (hc : recording.checkpoint = some (c, c')) (hrow : d.auditHash? t = some c) :
    (postgres.view d (recordingWrites t recording)).auditHash? t = some (c.update c c') := by
  have hct : c.tenantId = t := by simpa using List.find?_some hrow
  rw [recordingWrites, hnew, hc, List.map_nil, List.append_nil, postgres.view_append,
    auditHash?_view (outbox_checkpoint t _), postgres.view_append]
  refine (auditHash?_update hct).trans ?_
  rw [auditHash?_view (audits_checkpoint t _), hrow]
  rfl

/-- The checkpoint after a recording that has found none. -/
theorem auditHash?_begun {t : TenantId} {d : Database} {recording : Recording}
    {row : AuditHashRow} (hnew : recording.newHashes = [row]) (hc : recording.checkpoint = none)
    (hnone : d.auditHash? t = none) (hrow : row.tenantId = t) :
    (postgres.view d (recordingWrites t recording)).auditHash? t = some row := by
  rw [recordingWrites, hnew, hc, postgres.view_append, auditHash?_view (outbox_checkpoint t _),
    postgres.view_append]
  refine auditHash?_insert ?_ hrow
  rw [postgres.view_append]
  exact (auditHash?_view (audits_checkpoint t _)).trans hnone

/-- **A recording that goes on from the checkpoint keeps the chain.** -/
theorem AuditChain.record {t : TenantId} {d : Database} (h : AuditChain t d)
    {events : List DomainEvent} {recording : Recording} (hrec : Recorded events recording)
    (hnow : ∀ c, recording.checkpoint = some c → d.auditHash? t = some c.1)
    (hg : postgres.Granted d (recordingWrites t recording)) :
    AuditChain t (postgres.view d (recordingWrites t recording)) := by
  have hrows := auditTrail_recording hg
  have hcheckpoint := h.checkpoint
  have hpayloads : ∀ r ∈ (postgres.view d (recordingWrites t recording)).auditTrail t,
      IsEventPayload r.payload := by
    intro r hr
    rw [hrows] at hr
    rcases List.mem_append.1 hr with hr | hr
    · exact h.payloads r hr
    · exact hrec.payloads r hr
  by_cases hnew : recording.newHashes = []
  · have hgoes := hrec.goes_on hnew
    cases hc : recording.checkpoint with
    | none =>
        -- nothing was recorded
        rw [hc] at hgoes
        obtain ⟨-, rfl⟩ := hgoes
        exact h
    | some c =>
        obtain ⟨c, c'⟩ := c
        rw [hc] at hgoes
        obtain ⟨-, hmore, hlast⟩ := hgoes
        have hafter := auditHash?_continued hnew hc (hnow _ hc)
        rw [hnow _ hc] at hcheckpoint
        replace hcheckpoint : c.latestHash =
          lastHash genesisHash ((d.auditTrail t).map AuditEventRow.entry) := hcheckpoint
        refine ⟨?_, hpayloads, ?_⟩
        · rw [hrows, linked_append]
          exact ⟨h.linked, hcheckpoint ▸ hmore⟩
        · simp only [hafter, hrows, update_latestHash, hlast, List.map_append,
            HashChain.tip_append]
          rw [hcheckpoint]
  · obtain ⟨hfree, hc⟩ := newHashes_free hg hnew
    have hlength : recording.newHashes.length = 1 := by
      have hpos := List.length_pos_of_ne_nil hnew
      have hle := newHashes_length_le hg
      omega
    obtain ⟨event, eventId, at', rfl⟩ := (hrec.begins hc).2.2 hlength
    have hnone := auditHash?_none hfree
    rw [hnone] at hcheckpoint
    have hafter := auditHash?_begun rfl hc hnone (newHashes_tenantId hg _ (List.mem_singleton.2 rfl))
    refine ⟨?_, hpayloads, ?_⟩
    · rw [hrows, hcheckpoint]
      exact linked_auditEventRow event eventId genesisHash at'
    · simp only [hafter, hrows, hcheckpoint]
      rfl

/-! ### What a recording writes when nothing else runs -/

/-- The tenant finds its own checkpoint, and no other. -/
theorem auditHash?_visible_eq (d : Database) (t t' : TenantId) :
    (d.visible t).auditHash? t' = if t' = t then d.auditHash? t else none := by
  have hfind : ∀ rows : List Row,
      ((rows.filter (Row.visibleTo t)).filterMap Row.auditHash?).find? (fun r => r.tenantId = t') =
        if t' = t then (rows.filterMap Row.auditHash?).find? fun r => r.tenantId = t else none := by
    intro rows
    induction rows with
    | nil => simp
    | cons row rows ih =>
        cases row with
        | auditHash r =>
            by_cases hr : r.tenantId = t
            · by_cases ht : t' = t
              · simp [Row.visibleTo, Row.tenantId?, Row.auditHash?, hr, ht]
              · have hne : t ≠ t' := fun h => ht h.symm
                simpa [Row.visibleTo, Row.tenantId?, Row.auditHash?, hr, ht, hne] using ih
            · simpa [Row.visibleTo, Row.tenantId?, Row.auditHash?, hr] using ih
        | _ =>
            rw [List.filter_cons]
            split <;> simpa [Row.auditHash?] using ih
  exact hfind d.rows

section Steady

variable {I : Database → Prop} {R : Error → Database → Prop} {d : Database}

theorem steady_recordEvents (t : TenantId) (events : List DomainEvent) :
    ∀ {done : List DomainEvent} {recording : Recording} {Q : Recording → List Write → Database → Prop},
      Recorded done recording →
      (∀ c, recording.checkpoint = some c → d.auditHash? t = some c.1) →
      (∀ recording', Recorded (done ++ events) recording' →
        (∀ c, recording'.checkpoint = some c → d.auditHash? t = some c.1) → Q recording' [] d) →
      (steady postgres I).wp (keeping I R) (recordEvents t events recording) Q [] d := by
  induction events with
  | nil => intro done recording Q hrec hnow h; exact h recording (by simpa using hrec) hnow
  | cons event events ih =>
      intro done recording Q hrec hnow h
      have hnext : ∀ recording', Recorded (done ++ [event]) recording' →
          (∀ c, recording'.checkpoint = some c → d.auditHash? t = some c.1) →
          (steady postgres I).wp (keeping I R) (recordEvents t events recording') Q [] d := by
        intro recording' hrec' hnow'
        exact ih hrec' hnow' fun recording'' hrec'' hnow'' =>
          h recording'' (by simpa using hrec'') hnow''
      refine wp_seq _ (wp_seq _ (steady_ask fun eventId => ?_))
      refine wp_seq _ (steady_ask fun at' => ?_)
      cases hc : recording.checkpoint with
      | some c =>
          refine hnext _ (hrec.again event eventId.value at' c hc) fun c' hc' => ?_
          simp only [Recording.add, Option.map_some, Option.some.injEq] at hc'
          rw [← hc']
          exact hnow c hc
      | none =>
          refine wp_seq _ (steady_select ?_)
          rw [postgres.view_nil, auditHash?_visible_eq]
          split
          next ht =>
            cases hrow : d.auditHash? t with
            | none => exact hnext _ (hrec.first event eventId.value at' hc) (by simp [Recording.add])
            | some row =>
                have hrt : row.tenantId = t := by simpa using List.find?_some hrow
                refine hnext _ (hrec.load event eventId.value at' row hc (hrt.trans ht.symm)) ?_
                simp [Recording.add, hrow]
          next => exact hnext _ (hrec.first event eventId.value at' hc) (by simp [Recording.add])

/-- **What a recording writes when nothing else runs**: it goes on from the checkpoint. -/
theorem steady_recordDomainEvents (hR : ∀ e d, e.isOrdinary = true → R e d) {t : TenantId}
    {events : List DomainEvent}
    {Q : Unit → List Write → Database → Prop}
    (h : ∀ recording, Recorded events recording →
      (∀ c, recording.checkpoint = some c → d.auditHash? t = some c.1) →
      Q () (recordingWrites t recording) d) :
    (steady postgres I).wp (keeping I R) (recordDomainEvents t events) Q [] d := by
  refine wp_seq _ (steady_recordEvents t events .empty (by simp [Recording.empty])
    fun recording hrec hnow => ?_)
  rw [List.nil_append] at hrec
  refine wp_seq _ (steady_insertAll hR _ ?_)
  have hrest : ∀ vs, vs = (recording.checkpoint.map fun c =>
        (⟨t, .updateAuditHash c.1 c.2⟩ : Write)).toList →
      (steady postgres I).wp (keeping I R) (do
        insertAll t (recording.newHashes.map .auditHash)
        insertAll t (recording.outbox.map .outboxEvent)) Q
        ([] ++ (recording.audits.map Row.auditEvent).map (fun r => ⟨t, .insert r⟩) ++ vs) d := by
    rintro vs rfl
    refine wp_seq _ (steady_insertAll hR _ (steady_insertAll hR _ ?_))
    have hend := h recording hrec hnow
    simpa [recordingWrites, List.map_map, Function.comp_def] using hend
  cases hc : recording.checkpoint with
  | none =>
      have hend := hrest [] (by simp [hc])
      rw [List.append_nil] at hend
      exact hend
  | some c => exact wp_seq _ (steady_execute hR fun _ => hrest _ (by simp [hc]))

end Steady

/-! ### Recordings one after the other -/

/-- Recording some events and committing, with nothing else running. -/
abbrev recordAlone {σ : Type} (E : Environment Answer σ) (s : σ) (t : TenantId)
    (events : List DomainEvent) (d : Database) : Outcome Database Write σ Error Unit :=
  (do recordDomainEvents t events; Handler.commit : Handler Unit).alone postgres E s d []

/-- **Databases in which the recordings of a tenant were made one after the other**, from a
database without a trail.  In between, anything may happen to the rest of the database. -/
inductive AuditHistory (t : TenantId) : Database → Prop
  | start (d : Database) (htrail : d.auditTrail t = []) (hcheckpoint : d.auditHash? t = none) :
      AuditHistory t d
  | record {d : Database} (h : AuditHistory t d) {σ : Type} (E : Environment Answer σ) (s : σ)
      (events : List DomainEvent) (hok : (recordAlone E s t events d).result = .ok ()) :
      AuditHistory t (recordAlone E s t events d).db
  | other {d : Database} (h : AuditHistory t d) (ws : List Write)
      (htrail : ∀ w ∈ ws, w.statement.writesTrail t = false)
      (hcheckpoint : ∀ w ∈ ws, w.statement.writesCheckpoint t = false) :
      AuditHistory t (postgres.view d ws)

/-- A recording that was made alone went on from the checkpoint. -/
theorem AuditChain.recordAlone {t : TenantId} {d : Database} (h : AuditChain t d) {σ : Type}
    (E : Environment Answer σ) (s : σ) (events : List DomainEvent)
    (hok : (recordAlone E s t events d).result = .ok ()) :
    AuditChain t (recordAlone E s t events d).db := by
  have hwp : (steady postgres (AuditChain t)).wp (keeping (AuditChain t) fun _ _ => True)
      (do recordDomainEvents t events; Handler.commit : Handler Unit)
      (fun _ _ _ => True) [] d := by
    refine wp_seq _ (steady_recordDomainEvents (fun _ _ _ => trivial)
      fun recording hrec hnow d' hi => ?_)
    cases hi.rely
    exact ⟨h.record hrec hnow hi.granted, trivial⟩
  exact ((alone_of_wp (fun _ _ _ _ hc => hc) h (postgres.granted_nil d) hwp).1 () hok).2.1

/-- **Every history is one chain.** -/
theorem AuditHistory.chain {t : TenantId} {d : Database} (h : AuditHistory t d) :
    AuditChain t d := by
  induction h with
  | start d htrail hcheckpoint =>
      refine ⟨by rw [htrail]; trivial, by simp [htrail], ?_⟩
      rw [hcheckpoint]
      exact htrail
  | record _ E s events hok ih => exact ih.recordAlone E s events hok
  | other _ ws htrail hcheckpoint ih => exact ih.spared htrail hcheckpoint

/-- **Tamper evidence.**  Recomputing the hashes of a trail from `GENESIS_HASH` gives the stored ones
and ends at the checkpoint; and two trails with the same hash at their checkpoints tell the same
events, as far as SHA-256 does not collide on what was hashed for them. -/
theorem tamper_evident {t t' : TenantId} {d d' : Database} (h : AuditHistory t d)
    (h' : AuditHistory t' d') :
    ((d.auditTrail t).map AuditEventRow.hash =
        recomputedHashes genesisHash ((d.auditTrail t).map AuditEventRow.entry) ∧
      d.checkpointHash t = lastHash genesisHash ((d.auditTrail t).map AuditEventRow.entry)) ∧
    (Set.InjOn Sha256.hexdigest {x | x ∈ d.auditLines t ∨ x ∈ d'.auditLines t'} →
      (∀ x, x ∈ d.auditLines t ∨ x ∈ d'.auditLines t' → Sha256.hexdigest x ≠ genesisHash) →
      d.checkpointHash t = d'.checkpointHash t' →
      (d.auditTrail t).map AuditEventRow.entry = (d'.auditTrail t').map AuditEventRow.entry) := by
  have hchain := h.chain
  have hchain' := h'.chain
  refine ⟨⟨hchain.linked.hashes, hchain.checkpointHash⟩, fun hinj hgenesis hsame => ?_⟩
  rw [Database.auditLines, Database.auditLines, hchain.linked.lines, hchain'.linked.lines]
    at hinj hgenesis
  rw [hchain.checkpointHash, hchain'.checkpointHash] at hsame
  have hpayloads : ∀ {t : TenantId} {d : Database}, AuditChain t d →
      ∀ e ∈ (d.auditTrail t).map AuditEventRow.entry, IsEventPayload e.payload := by
    intro t d hc e he
    obtain ⟨r, hr, rfl⟩ := List.mem_map.1 he
    exact hc.payloads r hr
  refine HashChain.eq_of_tip_eq (fun e => IsEventPayload e.payload) ?_ (hpayloads hchain)
    (hpayloads hchain') hinj hgenesis hsame
  intro p p' e e' he he' hline
  obtain ⟨hprev, hid, htype, haggregate, hoccurred, hpayload⟩ := canonicalJson_inj he he' hline
  refine ⟨hprev, ?_⟩
  cases e
  cases e'
  simp_all

namespace Sample

def applicationId : ApplicationId := ⟨"40000000-0000-4000-8000-000000000004", by decide⟩

def creationEvent : DomainEvent :=
  .applicationCreated applicationId tenantId noon productId.value

def submissionEvent : DomainEvent :=
  .applicationStateChanged applicationId tenantId noon .draft .submitted "" 2

/-- An environment that gives the `n`-th answer to the `n`-th question. -/
def environment : Environment Answer ℕ := fun n q => (answers n q, n + 1)

/-- The creation of an application was recorded. -/
def begun : Database := (recordAlone environment 0 tenantId [creationEvent] installation.database).db

/-- And then its submission. -/
def audited : Database := (recordAlone environment 10 tenantId [submissionEvent] begun).db

/-- The key of a command is reserved. -/
def disturbance : List Write := [reserveWrite tenantId "submit_application" "submit-1" noon]

theorem audited_history : AuditHistory tenantId audited :=
  ((AuditHistory.start installation.database rfl rfl).record environment 0 _
    (by decide +kernel)).record environment 10 _ (by decide +kernel)

theorem disturbed_history : AuditHistory tenantId (postgres.view audited disturbance) :=
  audited_history.other disturbance (by decide) (by decide)

def creationEntry : AuditEntry :=
  ⟨(newId 0).value, "ApplicationCreated", applicationId.value, noon, creationEvent.payload⟩

def submissionEntry : AuditEntry :=
  ⟨(newId 10).value, "ApplicationStateChanged", applicationId.value, noon,
    submissionEvent.payload⟩

def creationHash : String := "d2bd925a7ac8151d82f4a1adaf3a48039b8a21e0147931cf938cde2955cb8bcb"

def submissionHash : String := "596fd2a389efff5b1c4b61aeda42799f85fa18800933c65676a984ea4fa8c9f1"

theorem hexdigest_creation :
    Sha256.hexdigest (creationEntry.line genesisHash) = creationHash := by decide +kernel

theorem hexdigest_submission :
    Sha256.hexdigest (submissionEntry.line creationHash) = submissionHash := by decide +kernel

theorem audited_entries :
    (audited.auditTrail tenantId).map AuditEventRow.entry = [creationEntry, submissionEntry] := by
  decide +kernel

theorem audited_lines : audited.auditLines tenantId =
    [creationEntry.line genesisHash, submissionEntry.line creationHash] := by
  rw [Database.auditLines, audited_history.chain.linked.lines, audited_entries]
  simp only [HashChain.hashed, hexdigest_creation]

theorem disturbed_trail :
    (postgres.view audited disturbance).auditTrail tenantId = audited.auditTrail tenantId :=
  auditTrail_view_of_none (by decide)

end Sample

/-- A database with two events, and what has become of it later.  The two lines that were hashed have
two hashes, and neither of them is `GENESIS_HASH`. -/
theorem tamper_evident_audited :
    (Sample.audited.auditTrail Sample.tenantId).length = 2 ∧
    (postgres.view Sample.audited Sample.disturbance).rows.length = Sample.audited.rows.length + 1 ∧
    (Sample.audited.auditTrail Sample.tenantId).map AuditEventRow.entry =
      ((postgres.view Sample.audited Sample.disturbance).auditTrail Sample.tenantId).map
        AuditEventRow.entry := by
  have hnodup : (genesisHash :: (Sample.audited.auditLines Sample.tenantId).map
      Sha256.hexdigest).Nodup := by
    rw [Sample.audited_lines, List.map_cons, List.map_cons, Sample.hexdigest_creation,
      Sample.hexdigest_submission]
    decide +kernel
  obtain ⟨hgenesis, hdistinct⟩ := List.nodup_cons.1 hnodup
  have hinj := List.inj_on_of_nodup_map hdistinct
  have hlines : ∀ x, x ∈ Sample.audited.auditLines Sample.tenantId ∨
      x ∈ (postgres.view Sample.audited Sample.disturbance).auditLines Sample.tenantId →
        x ∈ Sample.audited.auditLines Sample.tenantId := by
    rw [Database.auditLines, Database.auditLines, Sample.disturbed_trail]
    exact fun x hx => or_self_iff.1 hx
  have hsame : Sample.audited.checkpointHash Sample.tenantId =
      (postgres.view Sample.audited Sample.disturbance).checkpointHash Sample.tenantId := by
    rw [Database.checkpointHash, Database.checkpointHash, auditHash?_view (by decide)]
  refine ⟨by decide +kernel, by decide +kernel,
    (tamper_evident Sample.audited_history Sample.disturbed_history).2 ?_ ?_ hsame⟩
  · intro x hx y hy hxy
    exact hinj (hlines x hx) (hlines y hy) hxy
  · intro x hx heq
    exact hgenesis (List.mem_map.2 ⟨x, hlines x hx, heq⟩)

end FinAssist
