/-
**Recording several events at once.**

`record_domain_events` goes through a list of events and asks the session for the tenant's
checkpoint at each of them.  A checkpoint that the session has loaded is found again with what the
last event has made of it.  One that the session has only added is not: the query runs again and
finds nothing, and the next event begins a second chain with a second checkpoint.  So the first
recording of a tenant goes through with one event and fails with two.

Main definitions:

* `FinAssist.RecordedEvent` — an event, with what makes rows of it;
* `FinAssist.Appends` — **what a recording is to append**.

Main results:

* `FinAssist.appends_of_ok` — a recording that succeeds appends what it is to append;
* `FinAssist.recordAlone_ok_iff` — which recordings succeed;
* `FinAssist.events_appended_iff` — **when events are appended**.
-/

import FinAssist.FreshRuns

set_option relaxedAutoImplicit false
set_option autoImplicit false

namespace FinAssist

open ReadCommitted Discipline

/-! ### What is appended -/

/-- **An event, with what makes rows of it.** -/
structure RecordedEvent where
  event : DomainEvent
  eventId : String
  prevHash : String
  recordedAt : DateTime

namespace RecordedEvent

def outboxRow (e : RecordedEvent) : OutboxEventRow :=
  outboxEventRow e.event e.eventId e.recordedAt

def auditRow (e : RecordedEvent) : AuditEventRow :=
  auditEventRow e.event e.eventId e.prevHash e.recordedAt

/-- The checkpoint after the event. -/
def checkpoint (e : RecordedEvent) : AuditHashRow :=
  ⟨e.event.tenantId, some e.eventId, e.auditRow.hash, e.recordedAt⟩

end RecordedEvent

/-- The checkpoints of a tenant. -/
def Database.checkpointsOf (d : Database) (t : TenantId) : List AuditHashRow :=
  d.auditHashes.filter fun r => r.tenantId = t

/-- **What a recording is to append**: for each event a row of either kind, in the order of the
list and under the same id, each audit row hashed with the hash of the one before it, and the last
one at the checkpoint, which is the only one. -/
structure Appends (t : TenantId) (events : List DomainEvent) (d d' : Database) : Prop where
  rows : ∃ entries : List RecordedEvent, entries.map RecordedEvent.event = events ∧
    d'.outboxEvents = d.outboxEvents ++ entries.map RecordedEvent.outboxRow ∧
    d'.auditEvents = d.auditEvents ++ entries.map RecordedEvent.auditRow ∧
    Linked (d.checkpointHash t) (entries.map RecordedEvent.auditRow) ∧
    d'.checkpointsOf t = match entries.getLast? with
      | none => d.checkpointsOf t
      | some e => [e.checkpoint]

/-- **What was recorded**, event by event. -/
theorem Recorded.entries {events : List DomainEvent} {recording : Recording}
    (h : Recorded events recording) : ∃ entries : List RecordedEvent,
    entries.map RecordedEvent.event = events ∧
    recording.outbox = entries.map RecordedEvent.outboxRow ∧
    recording.audits = entries.map RecordedEvent.auditRow ∧
    (∀ c, recording.checkpoint = some c → ∃ e, entries.getLast? = some e ∧
      c.2 = ⟨c.1.tenantId, some e.eventId, e.auditRow.hash, e.recordedAt⟩) ∧
    ∀ row ∈ recording.newHashes, ∃ e ∈ entries, row = e.checkpoint := by
  induction h with
  | empty => exact ⟨[], rfl, rfl, rfl, by simp [Recording.empty], by simp [Recording.empty]⟩
  | again h event eventId at' c hc ih =>
      obtain ⟨entries, hevents, houtbox, haudits, hlast, hnew⟩ := ih
      obtain ⟨e, -, hce⟩ := hlast c hc
      have htenant := congrArg AuditHashRow.tenantId hce
      refine ⟨entries ++ [⟨event, eventId, c.2.latestHash, at'⟩], by simp [hevents],
        by simp [Recording.add, houtbox, RecordedEvent.outboxRow],
        by simp [Recording.add, haudits, RecordedEvent.auditRow], fun c' hc' => ?_, ?_⟩
      · obtain rfl := Option.some.inj hc'
        refine ⟨_, List.getLast?_concat, ?_⟩
        simp only [htenant]
        rfl
      · intro row hrow
        simp only [Recording.add, List.append_nil] at hrow
        obtain ⟨e, he, hrow⟩ := hnew row hrow
        exact ⟨e, List.mem_append_left _ he, hrow⟩
  | load h event eventId at' row hc hrow ih =>
      obtain ⟨entries, hevents, houtbox, haudits, -, hnew⟩ := ih
      refine ⟨entries ++ [⟨event, eventId, row.latestHash, at'⟩], by simp [hevents],
        by simp [Recording.add, houtbox, RecordedEvent.outboxRow],
        by simp [Recording.add, haudits, RecordedEvent.auditRow], fun c' hc' => ?_, ?_⟩
      · obtain rfl := Option.some.inj hc'
        exact ⟨_, List.getLast?_concat, rfl⟩
      · intro row' hrow'
        simp only [Recording.add, List.append_nil] at hrow'
        obtain ⟨e, he, hrow'⟩ := hnew row' hrow'
        exact ⟨e, List.mem_append_left _ he, hrow'⟩
  | first h event eventId at' hc ih =>
      obtain ⟨entries, hevents, houtbox, haudits, -, hnew⟩ := ih
      refine ⟨entries ++ [⟨event, eventId, genesisHash, at'⟩], by simp [hevents],
        by simp [Recording.add, houtbox, RecordedEvent.outboxRow],
        by simp [Recording.add, haudits, RecordedEvent.auditRow], by simp [Recording.add], ?_⟩
      intro row hrow
      rcases List.mem_append.1 hrow with hrow | hrow
      · obtain ⟨e, he, hrow⟩ := hnew row hrow
        exact ⟨e, List.mem_append_left _ he, hrow⟩
      · exact ⟨_, List.mem_append_right _ (List.mem_singleton_self _), List.mem_singleton.1 hrow⟩

/-! ### A recording that succeeds -/

/-- A tenant has at most the checkpoint that is found. -/
theorem WellFormed.checkpointsOf {d : Database} (h : WellFormed d) (t : TenantId) :
    d.checkpointsOf t = (d.auditHash? t).toList := by
  have hnodup := h.nodup_ids Row.auditHash? AuditHashRow.tenantId Key.auditHash fun r row hrow => by
    cases r <;> cases hrow
    exact List.mem_singleton_self _
  cases hfound : d.auditHash? t with
  | none =>
      refine List.filter_eq_nil_iff.2 fun r hr => ?_
      exact List.find?_eq_none.1 hfound r hr
  | some row =>
      have hrow : row.tenantId = t := by simpa using List.find?_some hfound
      rw [Database.checkpointsOf, ← hrow]
      exact filter_eq_singleton hnodup (List.mem_of_find?_eq_some hfound)

theorem AuditHashRow.update_self (c c' : AuditHashRow) (ht : c'.tenantId = c.tenantId) :
    c.update c c' = c' := by
  have hset : ∀ {α : Type} [DecidableEq α] (x y : α), setColumn x y x = y := by
    intro α _ x y
    rw [setColumn]
    split
    next h => exact h.symm
    next => rfl
  cases c'
  simp only [AuditHashRow.update, hset]
  simp_all

section Alone

variable {σ : Type} {E : Environment Answer σ} {s : σ} {d : Database} {t : TenantId}
  {events : List DomainEvent}

/-- **What a recording that succeeds has written.** -/
theorem recorded_of_ok (hok : (recordAlone E s t events d).result = .ok ()) : ∃ recording,
    Recorded events recording ∧
    (∀ c, recording.checkpoint = some c → d.auditHash? t = some c.1) ∧
    postgres.Granted d (recordingWrites t recording) ∧
    (recordAlone E s t events d).db = postgres.view d (recordingWrites t recording) := by
  have hwp : (steady postgres fun _ => True).wp (keeping (fun _ => True) fun _ _ => True)
      (do recordDomainEvents t events; Handler.commit : Handler Unit)
      (fun _ _ d' => ∃ recording, Recorded events recording ∧
        (∀ c, recording.checkpoint = some c → d.auditHash? t = some c.1) ∧
        postgres.Granted d (recordingWrites t recording) ∧
        d' = postgres.view d (recordingWrites t recording)) [] d := by
    refine wp_seq _ (steady_recordDomainEvents (fun _ _ _ => trivial)
      fun recording hrec hnow d' hi => ?_)
    cases hi.rely
    exact ⟨trivial, recording, hrec, hnow, hi.granted, rfl⟩
  exact ((alone_of_wp (fun _ _ _ _ _ => trivial) trivial (postgres.granted_nil d) hwp).1 () hok).1

/-- The rows that a recording adds. -/
theorem events_recording (d : Database) (t : TenantId) (recording : Recording) :
    (postgres.view d (recordingWrites t recording)).outboxEvents =
        d.outboxEvents ++ recording.outbox ∧
      (postgres.view d (recordingWrites t recording)).auditEvents =
        d.auditEvents ++ recording.audits := by
  constructor
  · rw [Database.outboxEvents, filterMap_view Row.outboxEvent? fun _ s r => by
      cases s <;> cases r <;> rfl]
    refine congrArg _ ?_
    cases hc : recording.checkpoint <;>
      simp [recordingWrites, hc, List.filterMap_map, Function.comp_def, Statement.inserted?,
        Row.outboxEvent?]
  · rw [Database.auditEvents, filterMap_view Row.auditEvent? change_auditEvent?]
    refine congrArg _ ?_
    cases hc : recording.checkpoint <;>
      simp [recordingWrites, hc, List.filterMap_map, Function.comp_def, Statement.inserted?,
        Row.auditEvent?]

/-- **A recording that succeeds appends what it is to append.** -/
theorem appends_of_ok (hd : WellFormed d) (htenants : ∀ event ∈ events, event.tenantId = t)
    (hok : (recordAlone E s t events d).result = .ok ()) :
    Appends t events d (recordAlone E s t events d).db := by
  obtain ⟨recording, hrec, hnow, hg, hdb⟩ := recorded_of_ok hok
  obtain ⟨entries, hevents, houtbox, haudits, hlast, hnew⟩ := hrec.entries
  obtain ⟨houtboxes, htrail⟩ := events_recording d t recording
  have hd' := hd.view hg
  rw [hdb]
  refine ⟨entries, hevents, houtbox ▸ houtboxes, haudits ▸ htrail, ?_⟩
  rw [hd'.checkpointsOf, hd.checkpointsOf, Database.checkpointHash]
  have htenant : ∀ e ∈ entries, e.event.tenantId = t := fun e he =>
    htenants _ (hevents ▸ List.mem_map_of_mem he)
  by_cases hfound : recording.newHashes = []
  · have hgoes := hrec.goes_on hfound
    cases hc : recording.checkpoint with
    | none =>
        rw [hc] at hgoes
        obtain ⟨hnil, rfl⟩ := hgoes
        obtain rfl : entries = [] := List.map_eq_nil_iff.1 (hevents.trans hnil)
        exact ⟨trivial, rfl⟩
    | some c =>
        obtain ⟨c, c'⟩ := c
        rw [hc] at hgoes
        obtain ⟨hct, hlinked, -⟩ := hgoes
        obtain ⟨e, he, hce⟩ := hlast _ hc
        have hrow := hnow _ hc
        have hct' : c.tenantId = t := by simpa using List.find?_some hrow
        rw [auditHash?_continued hfound hc hrow, AuditHashRow.update_self c c' hct, hrow, he,
          ← haudits]
        refine ⟨hlinked, ?_⟩
        replace hce : c' = _ := hce
        simp only [hct'] at hce
        simp only [hce, Option.toList_some, RecordedEvent.checkpoint,
          htenant e (List.mem_of_getLast? he)]
  · -- a tenant without a checkpoint: there is one event
    obtain ⟨hfree, hc⟩ := newHashes_free hg hfound
    have hlength : recording.newHashes.length = 1 := by
      have hpos := List.length_pos_of_ne_nil hfound
      have hle := newHashes_length_le hg
      omega
    have hnone := auditHash?_none hfree
    have hcount : entries.length = 1 := by
      rw [← List.length_map RecordedEvent.event, hevents, ← (hrec.begins hc).1, hlength]
    obtain ⟨e, rfl⟩ := List.length_eq_one_iff.1 hcount
    obtain ⟨row, hrow⟩ := List.length_eq_one_iff.1 hlength
    obtain ⟨e', he', rfl⟩ := hnew row (hrow ▸ List.mem_singleton_self _)
    obtain rfl := List.mem_singleton.1 he'
    rw [auditHash?_begun hrow hc hnone (htenant _ (List.mem_singleton_self _)), hnone]
    refine ⟨?_, rfl⟩
    obtain ⟨event, eventId, at', rfl⟩ := (hrec.begins hc).2.2 hlength
    rw [← haudits]
    exact linked_auditEventRow event eventId genesisHash at'

/-- **Which recordings succeed**: those of a tenant that has a checkpoint, and those of at most one
event. -/
theorem recordAlone_ok_iff {G : IdSource E} (hinUse : InUse (G.used s) d)
    (hleft : events.length ≤ G.left s) (htenants : ∀ event ∈ events, event.tenantId = t) :
    (recordAlone E s t events d).result = .ok () ↔
      d.has (.auditHash t) = true ∨ events.length ≤ 1 := by
  constructor
  · intro hok
    obtain ⟨recording, hrec, hnow, hg, -⟩ := recorded_of_ok hok
    refine or_iff_not_imp_left.2 fun hno => ?_
    have hnone := auditHash?_none (Bool.eq_false_iff.2 hno)
    have hc : recording.checkpoint = none := by
      by_contra hsome
      obtain ⟨c, hc⟩ := Option.ne_none_iff_exists'.1 hsome
      have hfound := hnow c hc
      rw [hnone] at hfound
      cases hfound
    exact (hrec.begins hc).1 ▸ newHashes_length_le hg
  · intro hone
    have hstart : Fit G d (0 + events.length) s [] := ⟨trivial, hinUse, by omega⟩
    obtain ⟨s', recording, hrun, -, -⟩ := alone_recordDomainEvents hstart htenants hone
    rw [recordAlone, Prog.alone_bind_ok hrun]
    rfl

/-- **When events are appended**: from every state of the tenant's rows, recording a list of its
events and committing succeeds and appends them if and only if the tenant has a checkpoint, or the
list has at most one event. -/
theorem events_appended_iff {G : IdSource E} (hd : WellFormed d) (hinUse : InUse (G.used s) d)
    (hleft : events.length ≤ G.left s) (htenants : ∀ event ∈ events, event.tenantId = t) :
    ((recordAlone E s t events d).result = .ok () ∧
      Appends t events d (recordAlone E s t events d).db) ↔
    d.has (.auditHash t) = true ∨ events.length ≤ 1 := by
  rw [← recordAlone_ok_iff (G := G) hinUse hleft htenants]
  exact ⟨And.left, fun hok => ⟨hok, appends_of_ok hd htenants hok⟩⟩

end Alone

namespace Sample

def uploadEvent : DomainEvent :=
  .documentUploaded applicationId tenantId noon (newId 5).value "IDENTITY" "photo.png"

theorem begun_wellFormed : WellFormed begun := by
  have hok : (recordAlone environment 0 tenantId [creationEvent] installation.database).result =
      .ok () := by decide +kernel
  obtain ⟨recording, -, -, hg, hdb⟩ := recorded_of_ok hok
  rw [begun, hdb]
  exact installation.wellFormed.view hg

theorem begun_inUse : InUse (source.used 1) begun :=
  inUse_of_rows (by decide +kernel)

end Sample

/-- Two more events of a tenant with a checkpoint. -/
theorem events_appended_begun :
    (Sample.begun.auditTrail Sample.tenantId).length = 1 ∧
    (recordAlone Sample.counter 1 Sample.tenantId [Sample.submissionEvent, Sample.uploadEvent]
      Sample.begun).result = .ok () ∧
    Appends Sample.tenantId [Sample.submissionEvent, Sample.uploadEvent] Sample.begun
      (recordAlone Sample.counter 1 Sample.tenantId [Sample.submissionEvent, Sample.uploadEvent]
        Sample.begun).db :=
  ⟨by decide +kernel, (events_appended_iff (G := Sample.source) Sample.begun_wellFormed
    Sample.begun_inUse (by decide) (by decide)).2 (Or.inl (by decide +kernel))⟩

/-- **Two events of a tenant without a checkpoint are not recorded.** -/
theorem events_refused :
    Sample.installation.database.auditTrail Sample.tenantId = [] ∧
    Sample.installation.database.auditHash? Sample.tenantId = none ∧
    (recordAlone Sample.counter 0 Sample.tenantId [Sample.creationEvent, Sample.submissionEvent]
      Sample.installation.database).result = .error (.database .integrityError) :=
  ⟨rfl, rfl, Sample.eq_error_of_fault (by decide +kernel)⟩

end FinAssist
