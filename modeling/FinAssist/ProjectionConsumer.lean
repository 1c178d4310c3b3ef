/-
**The projection of the statuses.**

The consumer keeps one row for each application, with the status and the version of the latest
event it was told of.  Events come in any order and more than once.  An event that the inbox knows
is skipped; another one changes the row of its application unless it is older than the row.  So
the row is a register that keeps the latest event, in the sense of `FinAssist/LatestWins.lean`, and
once every event of an application was delivered it shows the application as it is.

Main definitions:

* `FinAssist.ProjectionStore` — the inbox and the projection;
* `FinAssist.applyEvent`, `FinAssist.applyEvents` — **one delivery, and any number of them**;
* `FinAssist.Projects` — the rows are the registers of the deliveries.

Main results:

* `FinAssist.Projects.applyEvent` — a delivery tells the register of its application;
* `FinAssist.projection_converges` — **in the end the projection shows every application as it
  is, and on the way there no version goes back**.
-/

import FinAssist.LatestWins
import FinAssist.Outbox
import FinAssist.Timestamps

set_option relaxedAutoImplicit false
set_option autoImplicit false

namespace FinAssist

open ReadCommitted ApplicationStatus

/-! ### The consumer -/

structure StatusProjectionRow where
  applicationId : String
  tenantId : TenantId
  status : String
  version : ℤ
  updatedAt : DateTime
  deriving DecidableEq

/-- The tables the consumer writes: the keys of `inbox_messages`, and `status_projection`. -/
structure ProjectionStore where
  inbox : List (String × String)
  rows : List StatusProjectionRow
  deriving DecidableEq

namespace ProjectionStore

def empty : ProjectionStore := ⟨[], []⟩

/-- `session.get`, under row-level security. -/
def get (store : ProjectionStore) (t : TenantId) (applicationId : String) :
    Option StatusProjectionRow :=
  store.rows.find? fun r => r.applicationId = applicationId && r.tenantId = t

/-- An insert; `d` are the tables of the application, with the tenants. -/
def insert (store : ProjectionStore) (d : Database) (row : StatusProjectionRow) :
    Except Error ProjectionStore :=
  if store.rows.any fun r => r.applicationId = row.applicationId then
    .error (.database .integrityError)
  else if !d.has (.tenant row.tenantId) then .error (.database .integrityError)
  else .ok { store with rows := store.rows ++ [row] }

/-- An update of the row with this key. -/
def update (store : ProjectionStore) (row : StatusProjectionRow) : ProjectionStore :=
  { store with rows := store.rows.map fun r =>
      if r.applicationId = row.applicationId ∧ r.tenantId = row.tenantId then row else r }

end ProjectionStore

/-- The insert of the inbox row. -/
def ProjectionStore.receive (store : ProjectionStore) (eventId consumerName : String) :
    ProjectionStore :=
  { store with inbox := store.inbox ++ [(eventId, consumerName)] }

/-- The part of `_apply_event` that changes the projection. -/
def projectEvent (d : Database) (envelope : Envelope) (store : ProjectionStore) :
    Except Error ProjectionStore :=
  let row := store.get envelope.tenantId envelope.applicationId
  match DateTime.fromisoformat? envelope.occurredAt with
  | none => .error (.valueError ("Invalid isoformat string: " ++ pyRepr envelope.occurredAt))
  | some occurredAt =>
      match toldState envelope.eventType envelope.payload with
      | .error e => .error e
      | .ok (status, version) =>
          match row with
          | none =>
              store.insert d
                ⟨envelope.applicationId, envelope.tenantId, status, version, occurredAt⟩
          | some row =>
              if version ≥ row.version then
                .ok (store.update { row with
                  status := status
                  version := version
                  updatedAt := occurredAt })
              else .ok store

/-- **`_apply_event`**: the tables after its transaction, and whether the event was new. -/
def applyEvent (d : Database) (consumerName : String) (envelope : Envelope)
    (store : ProjectionStore) : Except Error (ProjectionStore × Bool) :=
  if (envelope.eventId, consumerName) ∈ store.inbox then .ok (store, false)
  else if envelope.eventType ∈ projectedEventTypes then
    match projectEvent d envelope (store.receive envelope.eventId consumerName) with
    | .error e => .error e
    | .ok store => .ok (store, true)
  else .ok (store.receive envelope.eventId consumerName, true)

/-- Deliveries one after the other, each to a consumer of some name. -/
def applyEvents (d : Database) :
    List (String × Envelope) → ProjectionStore → Except Error ProjectionStore
  | [], store => .ok store
  | (consumerName, envelope) :: deliveries, store => do
      let (store, _) ← applyEvent d consumerName envelope store
      applyEvents d deliveries store

/-! ### The row of an application, as a register -/

/-- The version an event tells; only events about versions have one. -/
def OutboxEventRow.toldVersion (r : OutboxEventRow) : ℤ :=
  match r.toldState with
  | .ok (_, version) => version
  | .error _ => 0

/-- The row of the projection that an event makes. -/
def OutboxEventRow.projection (r : OutboxEventRow) : StatusProjectionRow where
  applicationId := r.aggregateId
  tenantId := r.tenantId
  status := match r.toldState with
    | .ok (status, _) => status
    | .error _ => ""
  version := r.toldVersion
  updatedAt := r.occurredAt

/-- The events about the versions of an application, of some that were delivered. -/
def versionEvents (a : String) (delivered : List OutboxEventRow) : List OutboxEventRow :=
  delivered.filter fun r => r.aggregateId = a ∧ r.eventType ∈ projectedEventTypes

/-- **What the projection shows of an application** after these deliveries. -/
def latestEvent (a : String) (delivered : List OutboxEventRow) : Option OutboxEventRow :=
  LatestWins.latest OutboxEventRow.toldVersion (versionEvents a delivered)

/-- **The rows are the registers of the deliveries.** -/
def ShowsLatest (delivered : List OutboxEventRow) (rows : List StatusProjectionRow) : Prop :=
  ∀ a, rows.filter (fun r => r.applicationId = a) =
    ((latestEvent a delivered).map OutboxEventRow.projection).toList

/-- And what the inbox knows was delivered. -/
structure Projects (delivered : List OutboxEventRow) (store : ProjectionStore) : Prop where
  inbox : ∀ x ∈ store.inbox, ∃ r ∈ delivered, r.eventId = x.1
  rows : ShowsLatest delivered store.rows

theorem projects_empty : Projects [] ProjectionStore.empty :=
  ⟨fun x hx => (by cases hx), fun _ => rfl⟩

/-! ### What may be delivered -/

/-- **Events as the outbox has them**: an id names one event, one about versions tells a status and
a version of an application of a tenant, and no other event tells that version. -/
structure Deliverable (d : Database) (rows : List OutboxEventRow) : Prop where
  ids : ∀ r ∈ rows, ∀ r' ∈ rows, r.eventId = r'.eventId → r = r'
  states : ∀ r ∈ rows, r.eventType ∈ projectedEventTypes → ∃ s v, r.toldState = .ok (s, v)
  tenants : ∀ r ∈ rows, r.eventType ∈ projectedEventTypes → d.has (.tenant r.tenantId) = true
  sameTenant : ∀ r ∈ rows, ∀ r' ∈ rows, r.eventType ∈ projectedEventTypes →
    r'.eventType ∈ projectedEventTypes → r.aggregateId = r'.aggregateId → r.tenantId = r'.tenantId
  versions : ∀ r ∈ rows, ∀ r' ∈ rows, r.eventType ∈ projectedEventTypes →
    r'.eventType ∈ projectedEventTypes → r.aggregateId = r'.aggregateId →
    r.toldVersion = r'.toldVersion → r = r'

section

variable {d : Database} {rows delivered : List OutboxEventRow} {store : ProjectionStore}

theorem mem_versionEvents {a : String} {r : OutboxEventRow} :
    r ∈ versionEvents a delivered ↔
      r ∈ delivered ∧ r.aggregateId = a ∧ r.eventType ∈ projectedEventTypes := by
  simp [versionEvents]

theorem Deliverable.injOn (hd : Deliverable d rows) (hsub : delivered ⊆ rows) (a : String) :
    Set.InjOn OutboxEventRow.toldVersion {r | r ∈ versionEvents a delivered} := by
  intro r hr r' hr' h
  obtain ⟨hr, ha, ht⟩ := mem_versionEvents.1 hr
  obtain ⟨hr', ha', ht'⟩ := mem_versionEvents.1 hr'
  exact hd.versions r (hsub hr) r' (hsub hr') ht ht' (ha.trans ha'.symm) h

theorem versionEvents_concat (a : String) (r : OutboxEventRow) :
    versionEvents a (delivered ++ [r]) = versionEvents a delivered ++
      if r.aggregateId = a ∧ r.eventType ∈ projectedEventTypes then [r] else [] := by
  rw [versionEvents, List.filter_append]
  by_cases h : r.aggregateId = a ∧ r.eventType ∈ projectedEventTypes
  · rw [if_pos h, List.filter_cons_of_pos (by simpa using h), List.filter_nil]
    rfl
  · rw [if_neg h, List.filter_cons_of_neg (by simpa using h), List.filter_nil]
    rfl

/-- Delivered again, an event tells nobody anything new. -/
theorem latestEvent_of_mem (hd : Deliverable d rows) (hsub : delivered ⊆ rows)
    {r : OutboxEventRow} (hr : r ∈ delivered) (a : String) :
    latestEvent a (delivered ++ [r]) = latestEvent a delivered := by
  rw [latestEvent, versionEvents_concat]
  split
  next h =>
    rw [LatestWins.latest_concat]
    exact LatestWins.absorb_latest_of_mem _ (hd.injOn hsub a) (mem_versionEvents.2 ⟨hr, h⟩)
  next => rw [List.append_nil]; rfl

/-- An event about the versions of another application, or about none. -/
theorem latestEvent_of_not {a : String} {r : OutboxEventRow}
    (h : ¬ (r.aggregateId = a ∧ r.eventType ∈ projectedEventTypes)) :
    latestEvent a (delivered ++ [r]) = latestEvent a delivered := by
  rw [latestEvent, versionEvents_concat, if_neg h, List.append_nil]
  rfl

theorem latestEvent_of_about (delivered : List OutboxEventRow) {r : OutboxEventRow}
    (h : r.eventType ∈ projectedEventTypes) :
    latestEvent r.aggregateId (delivered ++ [r]) =
      LatestWins.absorb OutboxEventRow.toldVersion (latestEvent r.aggregateId delivered) r := by
  rw [latestEvent, versionEvents_concat, if_pos ⟨rfl, h⟩, LatestWins.latest_concat]
  rfl

/-! ### A delivery -/

/-- What the consumer finds of an application is what its register holds. -/
theorem ShowsLatest.get (hp : ShowsLatest delivered store.rows) (hd : Deliverable d rows)
    (hsub : delivered ⊆ rows) {r : OutboxEventRow} (hr : r ∈ rows)
    (ht : r.eventType ∈ projectedEventTypes) :
    store.get r.tenantId r.aggregateId =
      (latestEvent r.aggregateId delivered).map OutboxEventRow.projection := by
  have hfind : store.get r.tenantId r.aggregateId =
      (store.rows.filter fun x => x.applicationId = r.aggregateId).find? fun x =>
        x.tenantId = r.tenantId := by
    rw [List.find?_filter, ProjectionStore.get]
    simp only [decide_eq_true_eq, Bool.decide_and]
  rw [hfind, hp]
  cases hl : latestEvent r.aggregateId delivered with
  | none => rfl
  | some x =>
      obtain ⟨hx, ha, hxt⟩ := mem_versionEvents.1 (LatestWins.latest_mem _ hl)
      have htenant := hd.sameTenant x (hsub hx) r hr hxt ht ha
      simp [OutboxEventRow.projection, htenant]

/-- The rows after an insert. -/
theorem rows_insert {row : StatusProjectionRow} {a : String}
    (h : store.rows.filter (fun r => r.applicationId = row.applicationId) = []) :
    (store.rows ++ [row]).filter (fun r => r.applicationId = a) =
      if row.applicationId = a then [row]
      else store.rows.filter fun r => r.applicationId = a := by
  rw [List.filter_append]
  split
  next ha =>
    subst ha
    rw [h, List.filter_cons_of_pos (by simp), List.filter_nil]
    rfl
  next ha => rw [List.filter_cons_of_neg (by simpa using ha), List.filter_nil, List.append_nil]

/-- The rows after an update of the only row of an application. -/
theorem rows_update {row : StatusProjectionRow} (old : StatusProjectionRow) {a : String}
    (hold : old.applicationId = row.applicationId ∧ old.tenantId = row.tenantId)
    (h : store.rows.filter (fun r => r.applicationId = row.applicationId) = [old]) :
    (store.update row).rows.filter (fun r => r.applicationId = a) =
      if row.applicationId = a then [row]
      else store.rows.filter fun r => r.applicationId = a := by
  have hkeep : (fun r : StatusProjectionRow => decide (r.applicationId = a)) ∘ (fun r =>
      if r.applicationId = row.applicationId ∧ r.tenantId = row.tenantId then row else r) =
        fun r => decide (r.applicationId = a) := by
    funext r
    simp only [Function.comp_apply]
    split
    next hr => rw [hr.1]
    next => rfl
  rw [ProjectionStore.update, List.filter_map, hkeep]
  split
  next ha => rw [← ha, h, List.map_singleton, if_pos hold]
  next ha =>
    refine (List.map_congr_left fun x hx => ?_).trans (List.map_id _)
    have hxa : x.applicationId = a := by simpa using (List.mem_filter.1 hx).2
    exact if_neg fun h => ha (h.1.symm.trans hxa)

/-- The rows show every application after a change of the one row that an event is about. -/
theorem ShowsLatest.change (hp : ShowsLatest delivered store.rows) {r : OutboxEventRow}
    {rows' : List StatusProjectionRow} {row : StatusProjectionRow}
    (hrow : row.applicationId = r.aggregateId)
    (hnow : (latestEvent r.aggregateId (delivered ++ [r])).map OutboxEventRow.projection = some row)
    (hrows : ∀ a, rows'.filter (fun x => x.applicationId = a) =
      if row.applicationId = a then [row]
      else store.rows.filter fun x => x.applicationId = a) :
    ShowsLatest (delivered ++ [r]) rows' := by
  intro a
  rw [hrows]
  split
  next ha => rw [← ha, hrow, hnow]; rfl
  next ha => rw [hp, latestEvent_of_not fun h => ha (hrow.trans h.1)]

/-- **The projection absorbs an event.** -/
theorem ShowsLatest.projectEvent (hp : ShowsLatest delivered store.rows) (hd : Deliverable d rows)
    (hsub : delivered ⊆ rows) {r : OutboxEventRow} (hr : r ∈ rows)
    (ht : r.eventType ∈ projectedEventTypes) :
    ∃ store', FinAssist.projectEvent d (buildEnvelope r) store = .ok store' ∧
      store'.inbox = store.inbox ∧ ShowsLatest (delivered ++ [r]) store'.rows := by
  obtain ⟨s, v, hstate⟩ := hd.states r hr ht
  have hversion : r.toldVersion = v := by simp only [OutboxEventRow.toldVersion, hstate]
  have hrow : r.projection = ⟨r.aggregateId, r.tenantId, s, v, r.occurredAt⟩ := by
    simp only [OutboxEventRow.projection, OutboxEventRow.toldVersion, hstate]
  have hlatest := latestEvent_of_about delivered ht
  have hrows := hp r.aggregateId
  have hstep : FinAssist.projectEvent d (buildEnvelope r) store =
      match (latestEvent r.aggregateId delivered).map OutboxEventRow.projection with
      | none => store.insert d r.projection
      | some row =>
          if v ≥ row.version then
            .ok (store.update { row with status := s, version := v, updatedAt := r.occurredAt })
          else .ok store := by
    rw [← hp.get hd hsub hr ht, hrow]
    simp only [FinAssist.projectEvent, buildEnvelope, DateTime.fromisoformat?_isoformat]
    rw [show FinAssist.toldState r.eventType r.payload = .ok (s, v) from hstate]
  rw [hstep]
  cases hl : latestEvent r.aggregateId delivered with
  | none =>
      rw [hl] at hrows hlatest
      have hnil : store.rows.filter (fun x => x.applicationId = r.projection.applicationId) = [] :=
        hrows
      have hfree : ¬ store.rows.any (fun x => x.applicationId = r.projection.applicationId) =
          true := by
        intro hany
        obtain ⟨x, hx, ha⟩ := List.any_eq_true.1 hany
        exact List.filter_eq_nil_iff.1 hnil x hx ha
      have htenant : ¬ (!d.has (.tenant r.projection.tenantId)) = true := by
        simp [OutboxEventRow.projection, hd.tenants r hr ht]
      refine ⟨{ store with rows := store.rows ++ [r.projection] }, ?_, rfl, ?_⟩
      · rw [Option.map_none, ProjectionStore.insert, if_neg hfree, if_neg htenant]
      · exact hp.change rfl (by rw [hlatest]; rfl) fun a => rows_insert hnil
  | some x =>
      obtain ⟨hx, ha, hxt⟩ := mem_versionEvents.1 (LatestWins.latest_mem _ hl)
      have htenant := hd.sameTenant x (hsub hx) r hr hxt ht ha
      rw [hl] at hrows hlatest
      rw [LatestWins.absorb, hversion] at hlatest
      by_cases hle : x.toldVersion ≤ v
      · rw [if_pos hle] at hlatest
        have hnew : { x.projection with status := s, version := v, updatedAt := r.occurredAt } =
            r.projection := by
          rw [hrow]
          simp only [OutboxEventRow.projection, ha, htenant]
        refine ⟨store.update r.projection, (if_pos hle).trans (by rw [hnew]), rfl, ?_⟩
        refine hp.change rfl (by rw [hlatest]; rfl) fun a => ?_
        exact rows_update x.projection ⟨ha, htenant⟩ hrows
      · -- an event that is older than the row
        rw [if_neg hle] at hlatest
        refine ⟨store, if_neg hle, rfl, fun a => ?_⟩
        by_cases haa : r.aggregateId = a
        · subst haa
          rw [hlatest]
          exact hrows
        · rw [latestEvent_of_not fun h => haa h.1]
          exact hp a

/-- **A delivery tells the register of its application**, and never fails. -/
theorem Projects.applyEvent (hp : Projects delivered store) (hd : Deliverable d rows)
    (hsub : delivered ⊆ rows) {r : OutboxEventRow} (hr : r ∈ rows) (consumerName : String) :
    ∃ store' new, FinAssist.applyEvent d consumerName (buildEnvelope r) store = .ok (store', new) ∧
      Projects (delivered ++ [r]) store' := by
  by_cases hseen : (r.eventId, consumerName) ∈ store.inbox
  · obtain ⟨r', hr', hid⟩ := hp.inbox _ hseen
    obtain rfl := hd.ids r' (hsub hr') r hr hid
    refine ⟨store, false, ?_, ?_, fun a => ?_⟩
    · have hseen' : ((buildEnvelope r').eventId, consumerName) ∈ store.inbox := hseen
      rw [FinAssist.applyEvent, if_pos hseen']
    · exact fun x hx => (hp.inbox x hx).imp fun y hy => ⟨List.mem_append_left _ hy.1, hy.2⟩
    · rw [hp.rows, latestEvent_of_mem hd hsub hr']
  · have hinbox : ∀ x ∈ (store.receive r.eventId consumerName).inbox,
        ∃ y ∈ delivered ++ [r], y.eventId = x.1 := by
      intro x hx
      rcases List.mem_append.1 hx with hx | hx
      · exact (hp.inbox x hx).imp fun y hy => ⟨List.mem_append_left _ hy.1, hy.2⟩
      · obtain rfl := List.mem_singleton.1 hx
        exact ⟨r, List.mem_append_right _ (List.mem_singleton.2 rfl), rfl⟩
    have hseen' : ¬ ((buildEnvelope r).eventId, consumerName) ∈ store.inbox := hseen
    by_cases ht : (buildEnvelope r).eventType ∈ projectedEventTypes
    · have hrows : ShowsLatest delivered (store.receive r.eventId consumerName).rows := hp.rows
      obtain ⟨store', happly, hsame, hrows'⟩ := hrows.projectEvent hd hsub hr ht
      refine ⟨store', true, ?_, fun x hx => hinbox x (hsame ▸ hx), hrows'⟩
      rw [FinAssist.applyEvent, if_neg hseen', if_pos ht,
        show FinAssist.projectEvent d (buildEnvelope r)
          (store.receive (buildEnvelope r).eventId consumerName) = .ok store' from happly]
    · refine ⟨_, true, ?_, hinbox, fun a => ?_⟩
      · rw [FinAssist.applyEvent, if_neg hseen', if_neg ht]
        rfl
      · rw [latestEvent_of_not fun h => ht h.2]
        exact hp.rows a

/-- **Any number of deliveries.** -/
theorem Projects.applyEvents (hd : Deliverable d rows) :
    ∀ (deliveries : List (String × OutboxEventRow)) {delivered : List OutboxEventRow}
      {store : ProjectionStore}, delivered ⊆ rows → (∀ x ∈ deliveries, x.2 ∈ rows) →
      Projects delivered store →
      ∃ store', FinAssist.applyEvents d (deliveries.map fun x => (x.1, buildEnvelope x.2)) store =
          .ok store' ∧ Projects (delivered ++ deliveries.map Prod.snd) store' := by
  intro deliveries
  induction deliveries with
  | nil =>
      intro delivered store _ _ hp
      exact ⟨store, rfl, by simpa using hp⟩
  | cons x deliveries ih =>
      intro delivered store hsub hmem hp
      have hx := hmem x List.mem_cons_self
      obtain ⟨store', new, happly, hp'⟩ := hp.applyEvent hd hsub hx x.1
      have hsub' : delivered ++ [x.2] ⊆ rows :=
        List.append_subset.2 ⟨hsub, by simpa using hx⟩
      obtain ⟨store'', hrest, hp''⟩ := ih hsub' (fun y hy => hmem y (List.mem_cons_of_mem _ hy)) hp'
      refine ⟨store'', ?_, by simpa using hp''⟩
      rw [List.map_cons, FinAssist.applyEvents, happly]
      exact hrest

end

/-! ### Deliveries of what stands in the outbox -/

theorem outboxEvent_mem {d : Database} {r : OutboxEventRow} :
    r ∈ d.outboxEvents ↔ .outboxEvent r ∈ d.rows := by
  simp only [Database.outboxEvents, List.mem_filterMap]
  constructor
  · rintro ⟨row, hrow, hr⟩
    cases row <;> simp only [Row.outboxEvent?, Option.some.injEq, reduceCtorEq] at hr
    exact hr ▸ hrow
  · exact fun h => ⟨_, h, rfl⟩

/-- **What stands in the outbox may be delivered.** -/
theorem deliverable {d : Database} (hd : InOrder d)
    (hevents : ∀ r ∈ d.outboxEvents, r.IsEvent) : Deliverable d d.outboxEvents := by
  -- a row about versions is one of the rows about an application
  have hcase : ∀ r ∈ d.outboxEvents, r.eventType ∈ projectedEventTypes →
      ∃ (a : ApplicationId) (c : CaseFile) (i : ℕ) (s : String), d.caseFile? a = some c ∧
        (d.outboxOf a)[i]? = some r ∧ r.aggregateId = a.value ∧
        r.toldState = .ok (s, (i + 1 : ℤ)) := by
    intro r hr ht
    obtain ⟨a, c, hc, hmem⟩ := caseFile_of_outbox hd hr (hevents r hr) ht
    obtain ⟨i, hi⟩ := List.mem_iff_getElem?.1 hmem
    obtain ⟨s, -, hs⟩ := outboxOf_state hd hc hi
    exact ⟨a, c, i, s.value, hc, hi, outboxOf_aggregateId hmem, hs⟩
  refine ⟨?_, ?_, ?_, ?_, ?_⟩
  · intro r hr r' hr' hid
    have hrow := row_unique hd.wellFormed.keys (outboxEvent_mem.1 hr) (outboxEvent_mem.1 hr')
      (List.mem_singleton.2 rfl) (List.mem_singleton.2 (by rw [hid]))
    exact Row.outboxEvent.inj hrow
  · intro r hr ht
    obtain ⟨a, c, i, s, -, -, -, hs⟩ := hcase r hr ht
    exact ⟨s, _, hs⟩
  · intro r hr ht
    obtain ⟨a, c, i, s, hc, hi, -, -⟩ := hcase r hr ht
    have hrow := (application?_iff hd.wellFormed.keys).1 (caseFile?_row hc)
    rw [outboxOf_tenantId hd hc r (List.mem_of_getElem? hi)]
    exact hd.wellFormed.references _ hrow.1 _ List.mem_cons_self
  · intro r hr r' hr' ht ht' ha
    obtain ⟨a, c, i, s, hc, hi, hra, -⟩ := hcase r hr ht
    obtain ⟨a', c', j, s', hc', hj, hra', -⟩ := hcase r' hr' ht'
    obtain rfl : a = a' := ApplicationId.ext_value (by rw [← hra, ← hra', ha])
    obtain rfl := Option.some.inj (hc.symm.trans hc')
    rw [outboxOf_tenantId hd hc r (List.mem_of_getElem? hi),
      outboxOf_tenantId hd hc r' (List.mem_of_getElem? hj)]
  · intro r hr r' hr' ht ht' ha hv
    obtain ⟨a, c, i, s, hc, hi, hra, hs⟩ := hcase r hr ht
    obtain ⟨a', c', j, s', hc', hj, hra', hs'⟩ := hcase r' hr' ht'
    obtain rfl : a = a' := ApplicationId.ext_value (by rw [← hra, ← hra', ha])
    simp only [OutboxEventRow.toldVersion, hs, hs'] at hv
    obtain rfl : i = j := by omega
    exact Option.some.inj (hi.symm.trans hj)

/-- What a register holds that was told of every event of an application. -/
theorem latestEvent_of_all {d : Database} (hd : InOrder d)
    (hdeliver : Deliverable d d.outboxEvents) {a : ApplicationId} {c : CaseFile}
    (hc : d.caseFile? a = some c) {delivered : List OutboxEventRow}
    (hsub : delivered ⊆ d.outboxEvents) (hall : d.outboxOf a ⊆ delivered) :
    ∃ e ∈ d.outboxOf a, (∀ e' ∈ d.outboxOf a, e'.toldVersion ≤ e.toldVersion) ∧
      e.toldState = .ok (c.row.status.value, (c.row.version : ℤ)) ∧
      latestEvent a.value delivered = some e := by
  have hcons := (hd.reached hc).consistent
  have hlen := outboxOf_length hd hc
  have hpos := hcons.version_pos
  have hlast : c.history.length - 1 < (d.outboxOf a).length := by
    rw [hlen, ← hcons.version]
    omega
  obtain ⟨e, he⟩ : ∃ e, (d.outboxOf a)[c.history.length - 1]? = some e :=
    ⟨_, List.getElem?_eq_getElem hlast⟩
  obtain ⟨s, hs, hstate⟩ := outboxOf_state hd hc he
  have hstatus : s = c.row.status := by
    have hend := hcons.last
    rw [List.getLast?_eq_getElem?, hs] at hend
    exact Option.some.inj hend
  have hversion : ((c.history.length - 1 : ℕ) + 1 : ℤ) = c.row.version := by
    rw [hcons.version] at hpos ⊢
    omega
  rw [hstatus, hversion] at hstate
  have htold : e.toldVersion = c.row.version := by simp only [OutboxEventRow.toldVersion, hstate]
  have hmax : ∀ e' ∈ d.outboxOf a, e'.toldVersion ≤ e.toldVersion := by
    intro e' he'
    obtain ⟨i, hi⟩ := List.mem_iff_getElem?.1 he'
    obtain ⟨s', hs', hstate'⟩ := outboxOf_state hd hc hi
    have hi' : i < c.history.length := (List.getElem?_eq_some_iff.1 hs').1
    rw [htold, OutboxEventRow.toldVersion, hstate', hcons.version]
    dsimp only
    omega
  have hmine : ∀ e', e' ∈ versionEvents a.value delivered ↔ e' ∈ d.outboxOf a := by
    intro e'
    rw [mem_versionEvents]
    constructor
    · rintro ⟨hmem, ha, ht⟩
      refine List.mem_filter.2 ⟨hsub hmem, ?_⟩
      simp only [projectedEventTypes, List.mem_cons, List.not_mem_nil, or_false] at ht
      simpa [isVersionEvent, ha] using ht
    · intro hmem
      refine ⟨hall hmem, outboxOf_aggregateId hmem, ?_⟩
      have h := (List.mem_filter.1 hmem).2
      simp only [isVersionEvent, Bool.and_eq_true, Bool.or_eq_true, decide_eq_true_eq] at h
      simpa [projectedEventTypes] using h.2
  refine ⟨e, List.mem_of_getElem? he, hmax, hstate, ?_⟩
  refine LatestWins.latest_eq_of_max _ (hdeliver.injOn hsub a.value)
    ((hmine e).2 (List.mem_of_getElem? he)) fun e' he' => hmax e' ((hmine e').1 he')

/-- **In the end the projection shows every application as it is, and on the way there no version
goes back.**  Envelopes may be delivered in any order and any number of times, to consumers of any
names. -/
theorem projection_converges (I : Installation) {w : World anyHost}
    (h : Reachable postgres (I.start anyHost ()) w) (deliveries : List (String × OutboxEventRow))
    (hrows : ∀ x ∈ deliveries, x.2 ∈ w.db.outboxEvents) :
    ∃ store, applyEvents w.db (deliveries.map fun x => (x.1, buildEnvelope x.2))
        ProjectionStore.empty = .ok store ∧
      (∀ r ∈ w.db.applications,
        (∀ e ∈ w.db.outboxOf r.applicationId, ∃ x ∈ deliveries, x.2 = e) →
        ∃ e ∈ w.db.outboxOf r.applicationId,
          (∀ e' ∈ w.db.outboxOf r.applicationId, e'.toldVersion ≤ e.toldVersion) ∧
          e.toldState = .ok (r.status.value, (r.version : ℤ)) ∧
          store.rows.filter (fun row => row.applicationId = r.applicationId.value) =
            [⟨r.applicationId.value, r.tenantId, r.status.value, r.version, e.occurredAt⟩]) ∧
      ∀ before after, deliveries = before ++ after →
        ∃ earlier, applyEvents w.db (before.map fun x => (x.1, buildEnvelope x.2))
            ProjectionStore.empty = .ok earlier ∧
          ∀ row ∈ earlier.rows, ∃ row' ∈ store.rows,
            row'.applicationId = row.applicationId ∧ row.version ≤ row'.version := by
  have hd := (I.sound h).inv
  have hdeliver := deliverable hd (I.outbox_isEvent h)
  have hall : ∀ deliveries : List (String × OutboxEventRow),
      (∀ x ∈ deliveries, x.2 ∈ w.db.outboxEvents) →
      ∃ store, applyEvents w.db (deliveries.map fun x => (x.1, buildEnvelope x.2))
        ProjectionStore.empty = .ok store ∧ Projects (deliveries.map Prod.snd) store := by
    intro deliveries hmem
    obtain ⟨store, happly, hp⟩ :=
      Projects.applyEvents hdeliver deliveries (List.nil_subset _) hmem projects_empty
    exact ⟨store, happly, by simpa using hp⟩
  obtain ⟨store, happly, hp⟩ := hall deliveries hrows
  refine ⟨store, happly, ?_, ?_⟩
  · intro r hr htold
    have hrow := (application?_iff hd.wellFormed.keys).2 ⟨application_mem.1 hr, rfl⟩
    obtain ⟨c, hc, rfl⟩ := caseFile?_of_row hrow
    have hsub : deliveries.map Prod.snd ⊆ w.db.outboxEvents := by
      intro e he
      obtain ⟨x, hx, rfl⟩ := List.mem_map.1 he
      exact hrows x hx
    obtain ⟨e, he, hmax, hstate, hlatest⟩ := latestEvent_of_all hd hdeliver hc hsub fun e he => by
      obtain ⟨x, hx, rfl⟩ := htold e he
      exact List.mem_map_of_mem hx
    refine ⟨e, he, hmax, hstate, ?_⟩
    rw [hp.rows, hlatest]
    simp only [Option.map_some, Option.toList_some, OutboxEventRow.projection,
      OutboxEventRow.toldVersion, hstate, outboxOf_aggregateId he, outboxOf_tenantId hd hc e he]
  · rintro before after rfl
    obtain ⟨earlier, happly', hp'⟩ := hall before fun x hx => hrows x (List.mem_append_left _ hx)
    refine ⟨earlier, happly', fun row hrow => ?_⟩
    have hmem : row ∈ earlier.rows.filter fun x => x.applicationId = row.applicationId :=
      List.mem_filter.2 ⟨hrow, by simp⟩
    rw [hp'.rows, Option.mem_toList, Option.map_eq_some_iff] at hmem
    obtain ⟨x, hx, rfl⟩ := hmem
    obtain ⟨y, hy, hle⟩ := LatestWins.latest_le_append _ hx
      (versionEvents x.projection.applicationId (after.map Prod.snd))
    have hnow : y.projection ∈ store.rows.filter fun z =>
        z.applicationId = x.projection.applicationId := by
      rw [hp.rows, latestEvent, versionEvents, List.map_append, List.filter_append]
      rw [versionEvents, versionEvents] at hy
      rw [hy]
      exact List.mem_singleton.2 rfl
    obtain ⟨hin, ha⟩ := List.mem_filter.1 hnow
    exact ⟨_, hin, by simpa using ha, hle⟩

/-- Two events of one application, each delivered twice and the later one first. -/
theorem projection_converges_submitted : Sample.submitted.db.outboxEvents.length = 2 ∧
    ∃ store, applyEvents Sample.submitted.db
      ((((Sample.submitted.db.outboxEvents.reverse ++ Sample.submitted.db.outboxEvents).map fun r =>
        ("projection", r))).map fun x => (x.1, buildEnvelope x.2)) ProjectionStore.empty =
          .ok store ∧
      ∀ r ∈ Sample.submitted.db.applications,
        ∃ e ∈ Sample.submitted.db.outboxOf r.applicationId,
          store.rows.filter (fun row => row.applicationId = r.applicationId.value) =
            [⟨r.applicationId.value, r.tenantId, r.status.value, r.version, e.occurredAt⟩] := by
  refine ⟨by decide +kernel, ?_⟩
  obtain ⟨store, happly, hshows, -⟩ := projection_converges Sample.installation
    Sample.reachable_submitted
    ((Sample.submitted.db.outboxEvents.reverse ++ Sample.submitted.db.outboxEvents).map fun r =>
      ("projection", r)) (by simp)
  refine ⟨store, happly, fun r hr => ?_⟩
  obtain ⟨e, he, -, -, hrows⟩ := hshows r hr fun e he =>
    ⟨("projection", e), List.mem_map_of_mem (List.mem_append_right _ (List.mem_filter.1 he).1), rfl⟩
  exact ⟨e, he, hrows⟩

end FinAssist
