/-
**What stands in the outbox.**

Every row of the outbox is the row of a domain event, made by `record_domain_events` and never
changed but for the mark that it was published.  The rows that are about the versions of one
application tell its history: the first one says that it was created, and the row after it says
version two, and so on.  The relay publishes a row as an envelope, and what the consumer takes from
an envelope is the status and the version it tells.

Main definitions:

* `FinAssist.Envelope`, `FinAssist.buildEnvelope` — a row, as it is published;
* `FinAssist.toldState` — the status and the version an event tells;
* `FinAssist.OutboxEventRow.IsEvent` — a row that records an event.

Main results:

* `FinAssist.Installation.outbox_isEvent` — every row of the outbox records an event;
* `FinAssist.outboxOf_states`, `FinAssist.outboxOf_state` — **the rows about an application tell
  its history in order**.
-/

import FinAssist.CaseIntegrity

set_option relaxedAutoImplicit false
set_option autoImplicit false

namespace FinAssist

open ReadCommitted ApplicationStatus

/-! ### Envelopes -/

/-- What is published of an event. -/
structure Envelope where
  eventId : String
  eventType : String
  schemaVersion : ℕ
  occurredAt : String
  producer : String
  tenantId : TenantId
  applicationId : String
  correlationId : Option String
  causationId : Option String
  traceparent : Option String
  dataClassification : String
  payload : Payload
  deriving DecidableEq

/-- **`_build_envelope`.** -/
def buildEnvelope (row : OutboxEventRow) : Envelope where
  eventId := row.eventId
  eventType := row.eventType
  schemaVersion := row.schemaVersion
  occurredAt := row.occurredAt.isoformat
  producer := "finassist-api"
  tenantId := row.tenantId
  applicationId := row.aggregateId
  correlationId := row.correlationId
  causationId := row.causationId
  traceparent := none
  dataClassification := "internal"
  payload := row.payload

/-! ### What an event tells -/

/-- `_PROJECTED_EVENT_TYPES`. -/
def projectedEventTypes : List String := ["ApplicationCreated", "ApplicationStateChanged"]

/-- `payload[name]`, where it is written to a column of texts. -/
def Payload.text (payload : Payload) (name : String) : Except Error String :=
  match payload.lookup name with
  | some (.text s) => .ok s
  | some (.integer _) => .error (.database .dataError)
  | none => .error (.lookupError (pyRepr name))

/-- `payload[name]`, where it is written to a column of integers. -/
def Payload.integer (payload : Payload) (name : String) : Except Error ℤ :=
  match payload.lookup name with
  | some (.integer n) => .ok n
  | some (.text _) => .error (.database .dataError)
  | none => .error (.lookupError (pyRepr name))

/-- **The status and the version an event tells.** -/
def toldState (eventType : String) (payload : Payload) : Except Error (String × ℤ) :=
  if eventType = "ApplicationCreated" then .ok ("DRAFT", 1)
  else do
    let status ← payload.text "new_status"
    let version ← payload.integer "version"
    .ok (status, version)

/-- What a row of the outbox tells. -/
def OutboxEventRow.toldState (r : OutboxEventRow) : Except Error (String × ℤ) :=
  FinAssist.toldState r.eventType r.payload

def DomainEvent.toldState (e : DomainEvent) : Except Error (String × ℤ) :=
  FinAssist.toldState e.eventType e.payload

/-- What the versions of a history are told as. -/
def toldHistory (history : List ApplicationStatus) : List (Except Error (String × ℤ)) :=
  history.zipIdx.map fun s => .ok (s.1.value, (s.2 + 1 : ℤ))

theorem Narrates.toldStates {a : ApplicationId} {t : TenantId} {history : List ApplicationStatus}
    {events : List DomainEvent} (h : Narrates a t history events) :
    events.map DomainEvent.toldState = toldHistory history := by
  induction h with
  | created => rfl
  | @changed history events previous h hlast s at' reason ih =>
      rw [List.map_append, ih, toldHistory, toldHistory, List.zipIdx_append, List.map_append,
        Nat.zero_add]
      rfl

/-! ### Rows that record events -/

/-- A row that records an event. -/
def OutboxEventRow.IsEvent (r : OutboxEventRow) : Prop :=
  ∃ event eventId createdAt, r = outboxEventRow event eventId createdAt

theorem Recorded.outbox_isEvent {events : List DomainEvent} {recording : Recording}
    (h : Recorded events recording) : ∀ r ∈ recording.outbox, r.IsEvent := by
  have hadd : ∀ {recording : Recording} (event : DomainEvent) (eventId : String) (at' : DateTime)
      (checkpoint : Option (AuditHashRow × AuditHashRow)), (∀ r ∈ recording.outbox, r.IsEvent) →
      ∀ r ∈ (recording.add event eventId at' checkpoint).outbox, r.IsEvent := by
    intro recording event eventId at' checkpoint ih r hr
    rcases List.mem_append.1 hr with hr | hr
    · exact ih r hr
    · exact ⟨event, eventId, at', List.mem_singleton.1 hr⟩
  induction h with
  | empty => exact fun r hr => by cases hr
  | again h event eventId at' c hc ih => exact hadd _ _ _ _ ih
  | load h event eventId at' row hc hrow ih => exact hadd _ _ _ _ ih
  | first h event eventId at' hc ih => exact hadd _ _ _ _ ih

theorem change_outboxEvent? (t : TenantId) (s : Statement) (r : Row) :
    (s.change t r).outboxEvent? = r.outboxEvent? := by
  cases s <;> cases r <;> rfl

/-- What a command's transaction inserts into the outbox are rows that record events. -/
theorem Command.Commits.outbox_isEvent {c : Command} {d₀ d : Database} {ws : List Write}
    (h : c.Commits d₀ d ws) : ∀ w ∈ ws, ∀ r, w.statement.inserted?.bind Row.outboxEvent? = some r →
      r.IsEvent := by
  obtain ⟨reservedAt, body, events, recording, rfl, hrec, hplain⟩ := h.shape
  intro w hw r hr
  have hrow : w.statement = .insert (.outboxEvent r) := by
    cases hs : w.statement with
    | insert row =>
        rw [hs] at hr
        cases row <;> simp only [Statement.inserted?, Option.bind_some, Row.outboxEvent?,
          Option.some.injEq, reduceCtorEq] at hr
        rw [hr]
    | _ => simp [hs, Statement.inserted?] at hr
  rcases List.mem_cons.1 hw with rfl | hw
  · cases hrow
  rcases List.mem_append.1 hw with hw | hw
  · have hno := hplain w hw
    rw [Write.isPlain, hrow] at hno
    cases hno
  · simp only [recordingWrites, List.mem_append, List.mem_map, Option.mem_toList,
      Option.map_eq_some_iff] at hw
    rcases hw with ((⟨x, -, rfl⟩ | ⟨x, -, rfl⟩) | ⟨x, -, rfl⟩) | ⟨x, hx, rfl⟩
    · cases hrow
    · cases hrow
    · cases hrow
    · cases hrow
      exact hrec.outbox_isEvent r hx

/-- **Every row of the outbox records an event.** -/
theorem Installation.outbox_isEvent (I : Installation) {H : Host programs} {ext : H.Ext}
    {ok : World H → Action H → Prop} {w : World H} (h : Reaches postgres ok (I.start H ext) w) :
    ∀ r ∈ w.db.outboxEvents, r.IsEvent := by
  intro r hr
  rw [Database.outboxEvents, table_of_log rfl change_outboxEvent? h] at hr
  rcases List.mem_append.1 hr with hr | hr
  · rw [show (I.start H ext).db = I.database from rfl,
      I.filterMap_rows (fun _ => rfl) (fun _ => rfl)] at hr
    cases hr
  · obtain ⟨e, he, hr⟩ := List.mem_flatMap.1 hr
    obtain ⟨x, hx, hr⟩ := List.mem_filterMap.1 hr
    obtain ⟨c, d₀, d, -, -, -, hc⟩ := I.logged h e he
    exact hc.outbox_isEvent x hx r hr

/-! ### The rows about one application -/

section

variable {d : Database} {a : ApplicationId} {c : CaseFile}

/-- **The rows about an application tell its history in order.** -/
theorem outboxOf_states (hd : InOrder d) (hc : d.caseFile? a = some c) :
    (d.outboxOf a).map OutboxEventRow.toldState = toldHistory c.history := by
  obtain ⟨events, htells⟩ := hd.tells hc
  have hstate : OutboxEventRow.toldState =
      (fun e : EventRecord => FinAssist.toldState e.eventType e.payload) ∘
        OutboxEventRow.record := rfl
  rw [hstate, ← List.map_map, show (d.outboxOf a).map OutboxEventRow.record = _ from htells.outbox,
    List.map_map, ← htells.narrates.toldStates]
  rfl

/-- The row at a place tells the version that has this place in the history. -/
theorem outboxOf_state (hd : InOrder d) (hc : d.caseFile? a = some c) {i : ℕ}
    {r : OutboxEventRow} (hr : (d.outboxOf a)[i]? = some r) :
    ∃ s, c.history[i]? = some s ∧ r.toldState = .ok (s.value, (i + 1 : ℤ)) := by
  have hstate := congrArg (·[i]?) (outboxOf_states hd hc)
  simp only [toldHistory, List.getElem?_map, List.getElem?_zipIdx, hr, Option.map_some,
    Option.map_map, Nat.zero_add] at hstate
  obtain ⟨s, hs, heq⟩ := Option.map_eq_some_iff.1 hstate.symm
  exact ⟨s, hs, heq.symm⟩

theorem outboxOf_length (hd : InOrder d) (hc : d.caseFile? a = some c) :
    (d.outboxOf a).length = c.history.length := by
  have hlen := congrArg List.length (outboxOf_states hd hc)
  simpa [toldHistory] using hlen

/-- They are of its tenant. -/
theorem outboxOf_tenantId (hd : InOrder d) (hc : d.caseFile? a = some c) :
    ∀ r ∈ d.outboxOf a, r.tenantId = c.row.tenantId := by
  obtain ⟨events, htells⟩ := hd.tells hc
  intro r hr
  have hmem : r.record ∈ events.map DomainEvent.record :=
    htells.outbox ▸ List.mem_map_of_mem hr
  obtain ⟨e, he, heq⟩ := List.mem_map.1 hmem
  rw [← (htells.narrates.about e he).1]
  exact (congrArg EventRecord.tenantId heq).symm

theorem outboxOf_aggregateId {r : OutboxEventRow} (hr : r ∈ d.outboxOf a) :
    r.aggregateId = a.value := by
  have h := (List.mem_filter.1 hr).2
  simp only [isVersionEvent, Bool.and_eq_true, decide_eq_true_eq] at h
  exact h.1

/-- A row about the versions of an application is about one that has a case. -/
theorem caseFile_of_outbox (hd : InOrder d) {r : OutboxEventRow} (hr : r ∈ d.outboxEvents)
    (hevent : r.IsEvent) (htype : r.eventType ∈ projectedEventTypes) :
    ∃ a c, d.caseFile? a = some c ∧ r ∈ d.outboxOf a := by
  obtain ⟨event, eventId, createdAt, rfl⟩ := hevent
  have hmem : outboxEventRow event eventId createdAt ∈ d.outboxOf event.applicationId := by
    refine List.mem_filter.2 ⟨hr, ?_⟩
    simp only [projectedEventTypes, List.mem_cons, List.not_mem_nil, or_false] at htype
    simp only [isVersionEvent, Bool.and_eq_true, Bool.or_eq_true, decide_eq_true_eq]
    exact ⟨rfl, htype⟩
  rcases hd.slices event.applicationId with hempty | ⟨c, events, htells⟩
  · have hnil : d.outboxOf event.applicationId = [] := congrArg Slice.outbox hempty
    rw [hnil] at hmem
    cases hmem
  · exact ⟨_, c, htells.caseFile?, hmem⟩

end

end FinAssist
