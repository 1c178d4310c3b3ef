/-
**The audit trails of handlers that run side by side.**

`record_domain_events` reads the checkpoint of its tenant without a lock, and overwrites it by its
key when the session is flushed.  Two handlers of one tenant that have both read it before one of
them has committed hash two events with one hash before them, and the trail forks.  It does not as
long as each transaction overwrites the checkpoint that it has read.

Main definitions:

* `FinAssist.EndsAtCheckpoint` — the checkpoint names the last event of the trail;
* `FinAssist.OnCheckpoint` — **a step that overwrites no other checkpoint than the one it read**.

Main results:

* `FinAssist.trails_stay_whole` — **then every trail is one chain**, in every world that is reached;
* `FinAssist.trails_fork` — **otherwise a trail may fork**.
-/

import FinAssist.AuditTrail

set_option relaxedAutoImplicit false
set_option autoImplicit false

namespace FinAssist

open ReadCommitted Discipline

/-! ### Hashes before and after -/

/-- The hash before each row is the one after the row before it. -/
theorem Linked.prevHashes {rows : List AuditEventRow} : ∀ {prevHash : String}, Linked prevHash rows →
    rows.map AuditEventRow.prevHash =
      (prevHash :: rows.map AuditEventRow.hash).take rows.length := by
  induction rows with
  | nil => intro prevHash _; rfl
  | cons r rows ih =>
      intro prevHash h
      obtain ⟨hprev, -, hrows⟩ := h
      rw [List.map_cons, ih hrows, hprev]
      rfl

/-- The hash at the end of a trail is that of its last row. -/
theorem Linked.lastHash {rows : List AuditEventRow} : ∀ {prevHash : String}, Linked prevHash rows →
    ∀ r, rows.getLast? = some r → lastHash prevHash (rows.map AuditEventRow.entry) = r.hash := by
  induction rows with
  | nil =>
      intro prevHash _ r hr
      cases hr
  | cons first rows ih =>
      intro prevHash h r hr
      obtain ⟨-, hhash, hrows⟩ := h
      have htip : FinAssist.lastHash prevHash ((first :: rows).map AuditEventRow.entry) =
          FinAssist.lastHash first.hash (rows.map AuditEventRow.entry) := by
        rw [hhash]
        rfl
      rw [htip]
      cases rows with
      | nil =>
          cases hr
          rfl
      | cons second rows =>
          rw [List.getLast?_cons_cons] at hr
          exact ih hrows r hr

/-! ### The event of the checkpoint -/

/-- **The checkpoint names the last event of the trail.** -/
def EndsAtCheckpoint (t : TenantId) (d : Database) : Prop :=
  ∀ c, d.auditHash? t = some c →
    ∃ r, (d.auditTrail t).getLast? = some r ∧ c.latestEventId = some r.eventId

theorem update_latestEventId (c c' : AuditHashRow) :
    (c.update c c').latestEventId = c'.latestEventId := by
  simp only [AuditHashRow.update, setColumn]
  split
  next h => exact h.symm
  next => rfl

/-- A recording that has found a checkpoint moves it to its last event. -/
theorem Recorded.last_event {events : List DomainEvent} {recording : Recording}
    (h : Recorded events recording) {c c' : AuditHashRow}
    (hc : recording.checkpoint = some (c, c')) :
    ∃ r, recording.audits.getLast? = some r ∧ c'.latestEventId = some r.eventId := by
  cases h with
  | empty => cases hc
  | again h event eventId at' c₀ hc₀ =>
      cases hc
      exact ⟨_, List.getLast?_concat, rfl⟩
  | load h event eventId at' row hnone hrow =>
      cases hc
      exact ⟨_, List.getLast?_concat, rfl⟩
  | first h event eventId at' hnone => cases hc

/-- What leaves the trail and its checkpoint alone leaves the one at the end of the other. -/
theorem EndsAtCheckpoint.spared {t : TenantId} {d : Database} (h : EndsAtCheckpoint t d)
    {ws : List Write} (htrail : ∀ w ∈ ws, w.statement.writesTrail t = false)
    (hcheckpoint : ∀ w ∈ ws, w.statement.writesCheckpoint t = false) :
    EndsAtCheckpoint t (postgres.view d ws) := by
  intro c hc
  rw [auditHash?_view hcheckpoint] at hc
  rw [auditTrail_view_of_none htrail]
  exact h c hc

/-- **A recording that goes on from the checkpoint moves it to the end of the trail.** -/
theorem EndsAtCheckpoint.record {t : TenantId} {d : Database} (h : EndsAtCheckpoint t d)
    {events : List DomainEvent} {recording : Recording} (hrec : Recorded events recording)
    (hnow : ∀ c, recording.checkpoint = some c → d.auditHash? t = some c.1)
    (hg : postgres.Granted d (recordingWrites t recording)) :
    EndsAtCheckpoint t (postgres.view d (recordingWrites t recording)) := by
  intro row hrow
  rw [auditTrail_recording hg]
  by_cases hnew : recording.newHashes = []
  · cases hc : recording.checkpoint with
    | none =>
        have hgoes := hrec.goes_on hnew
        rw [hc] at hgoes
        obtain ⟨-, rfl⟩ := hgoes
        rw [show recordingWrites t Recording.empty = [] from rfl] at hrow
        rw [show Recording.empty.audits = [] from rfl, List.append_nil]
        exact h row hrow
    | some c =>
        obtain ⟨c, c'⟩ := c
        obtain ⟨r, hlast, hid⟩ := hrec.last_event hc
        rw [auditHash?_continued hnew hc (hnow _ hc)] at hrow
        obtain rfl := Option.some.inj hrow
        exact ⟨r, by rw [List.getLast?_append, hlast]; rfl, by rw [update_latestEventId, hid]⟩
  · obtain ⟨hfree, hc⟩ := newHashes_free hg hnew
    have hlength : recording.newHashes.length = 1 := by
      have hpos := List.length_pos_of_ne_nil hnew
      have hle := newHashes_length_le hg
      omega
    obtain ⟨event, eventId, at', rfl⟩ := (hrec.begins hc).2.2 hlength
    rw [auditHash?_begun rfl hc (auditHash?_none hfree)
      (newHashes_tenantId hg _ (List.mem_singleton.2 rfl))] at hrow
    obtain rfl := Option.some.inj hrow
    exact ⟨_, List.getLast?_concat, rfl⟩

/-! ### Runs -/

/-- **A step that overwrites no other checkpoint than the one it read.** -/
def OnCheckpoint {H : Host programs} (w : World H) (action : Action H) : Prop :=
  ∀ i answers (t : Task programs) k, action = .advance i answers → w.tasks[i]? = some t →
    t.prog = .commit k → ∀ x ∈ t.writes, ∀ c c', x.statement = .updateAuditHash c c' →
      w.db.auditHash? x.tenantId = some c

theorem writesTrail_plain {w : Write} (h : w.isPlain = true) (t : TenantId) :
    w.statement.writesTrail t = false := by
  obtain ⟨t', s⟩ := w
  cases s with
  | insert row => cases row <;> first | rfl | cases h
  | _ => rfl

theorem writesCheckpoint_plain {w : Write} (h : w.isPlain = true) (t : TenantId) :
    w.statement.writesCheckpoint t = false := by
  obtain ⟨t', s⟩ := w
  cases s with
  | insert row => cases row <;> first | rfl | cases h
  | updateAuditHash c c' => cases h
  | _ => rfl

/-- **The trail of a tenant is whole**: one chain, and the checkpoint at its end. -/
structure Whole (t : TenantId) (d : Database) : Prop where
  chain : AuditChain t d
  ends : EndsAtCheckpoint t d

theorem Whole.spared {t : TenantId} {d : Database} (h : Whole t d) {ws : List Write}
    (htrail : ∀ w ∈ ws, w.statement.writesTrail t = false)
    (hcheckpoint : ∀ w ∈ ws, w.statement.writesCheckpoint t = false) :
    Whole t (postgres.view d ws) :=
  ⟨h.chain.spared htrail hcheckpoint, h.ends.spared htrail hcheckpoint⟩

/-- **A commit keeps the trails whole**, if it overwrites the checkpoint that it has read. -/
theorem Whole.commit {c : Command} {d₀ d : Database} {ws : List Write} (hc : c.Commits d₀ d ws)
    (hg : postgres.Granted d ws)
    (hnow : ∀ x ∈ ws, ∀ r r', x.statement = .updateAuditHash r r' →
      d.auditHash? x.tenantId = some r) {t : TenantId} (h : Whole t d) :
    Whole t (postgres.view d ws) := by
  obtain ⟨reservedAt, body, events, recording, rfl, hrec, hplain⟩ := hc.shape
  -- the recording comes last, and what is before it is about other tables
  rw [← List.cons_append] at hg hnow ⊢
  rw [postgres.view_append]
  obtain ⟨-, hg'⟩ := (postgres.granted_append _ _ d).1 hg
  have htrail : ∀ w ∈ reserveWrite c.tenantId c.operationName c.idempotencyKey reservedAt :: body,
      ∀ t, w.statement.writesTrail t = false := by
    intro w hw t
    rcases List.mem_cons.1 hw with rfl | hw
    · rfl
    · exact writesTrail_plain (hplain w hw) t
  have hcheckpoint : ∀ w ∈ reserveWrite c.tenantId c.operationName c.idempotencyKey reservedAt ::
      body, ∀ t, w.statement.writesCheckpoint t = false := by
    intro w hw t
    rcases List.mem_cons.1 hw with rfl | hw
    · rfl
    · exact writesCheckpoint_plain (hplain w hw) t
  have hbody := h.spared (fun w hw => htrail w hw t) (fun w hw => hcheckpoint w hw t)
  have hread : ∀ r, recording.checkpoint = some r → d.auditHash? c.tenantId = some r.1 := by
    intro r hr
    refine hnow ⟨c.tenantId, .updateAuditHash r.1 r.2⟩ (List.mem_append_right _ ?_) r.1 r.2 rfl
    simp [recordingWrites, hr]
  by_cases ht : t = c.tenantId
  · subst ht
    have hfound : ∀ r, recording.checkpoint = some r →
        (postgres.view d (reserveWrite c.tenantId c.operationName c.idempotencyKey reservedAt ::
          body)).auditHash? c.tenantId = some r.1 := by
      intro r hr
      rw [auditHash?_view fun w hw => hcheckpoint w hw _]
      exact hread r hr
    exact ⟨hbody.chain.record hrec hfound hg', hbody.ends.record hrec hfound hg'⟩
  · -- the trail of another tenant is left alone
    refine hbody.spared (fun w hw => ?_) fun w hw => ?_
    · simp only [recordingWrites, List.mem_append, List.mem_map, Option.mem_toList,
        Option.map_eq_some_iff] at hw
      rcases hw with ((⟨r, hr, rfl⟩ | ⟨r, -, rfl⟩) | ⟨r, -, rfl⟩) | ⟨r, -, rfl⟩
      · have hrt := audits_tenantId hg' r hr
        simp only [Statement.writesTrail, decide_eq_false_iff_not]
        exact fun heq => ht (heq.symm.trans hrt)
      all_goals rfl
    · simp only [recordingWrites, List.mem_append, List.mem_map, Option.mem_toList,
        Option.map_eq_some_iff] at hw
      rcases hw with ((⟨r, -, rfl⟩ | ⟨r, hr, rfl⟩) | ⟨r, hr, rfl⟩) | ⟨r, -, rfl⟩
      · rfl
      · have hrt : r.1.tenantId = c.tenantId := by
          simpa using List.find?_some (hread r hr)
        simp only [Statement.writesCheckpoint, decide_eq_false_iff_not]
        exact fun heq => ht (heq.symm.trans hrt)
      · have hrt := newHashes_tenantId hg' r hr
        simp only [Statement.writesCheckpoint, decide_eq_false_iff_not]
        exact fun heq => ht (heq.symm.trans hrt)
      · rfl

section Runs

variable {H : Host programs} {ext : H.Ext} {w : World H}

/-- **The trails stay whole**, in every run whose transactions overwrite the checkpoint they read. -/
theorem Installation.whole (I : Installation)
    (h : Reaches postgres OnCheckpoint (I.start H ext) w) (t : TenantId) : Whole t w.db := by
  induction h with
  | refl =>
      have hrows : ∀ row ∈ I.database.rows, row.auditEvent? = none ∧ row.auditHash? = none := by
        intro row hrow
        rcases I.mem_rows hrow with ⟨_, -, rfl⟩ | ⟨_, -, rfl⟩ <;> exact ⟨rfl, rfl⟩
      have htrail : I.database.auditTrail t = [] := by
        rw [Database.auditTrail, Database.auditEvents,
          List.filterMap_eq_nil_iff.2 fun row hrow => (hrows row hrow).1]
        rfl
      have hcheckpoint : I.database.auditHash? t = none := by
        rw [Database.auditHash?, Database.auditHashes,
          List.filterMap_eq_nil_iff.2 fun row hrow => (hrows row hrow).2]
        rfl
      change Whole t I.database
      refine ⟨⟨by rw [htrail]; trivial, by simp [htrail], ?_⟩, fun c hc => ?_⟩
      · rw [hcheckpoint]
        exact htrail
      · rw [hcheckpoint] at hc
        cases hc
  | @tail w w' action h hok hs ih =>
      cases World.step_cases hs with
      | advance i answers u w' hu hadv =>
          cases hadv with
          | commit k hp =>
              obtain ⟨c, d₀, -, -, hg, hc⟩ := I.commits h hu hp
              exact Whole.commit hc hg (hok i answers u k rfl hu hp) ih
          | _ => exact ih
      | _ => exact ih

/-- **The trails of a run are whole**, if its transactions overwrite the checkpoint that they have
read: the rows of a tenant are one chain from `GENESIS_HASH`, in which no hash comes before two rows
unless two of the hashes are the same, and the checkpoint is at its end. -/
theorem trails_stay_whole (I : Installation)
    (h : Reaches postgres OnCheckpoint (I.start H ext) w) (t : TenantId) :
    let rows := w.db.auditTrail t
    rows.map AuditEventRow.prevHash =
        (genesisHash :: rows.map AuditEventRow.hash).take rows.length ∧
      ((genesisHash :: rows.map AuditEventRow.hash).Nodup →
        (rows.map AuditEventRow.prevHash).Nodup) ∧
      (w.db.auditHash? t = none → rows = []) ∧
      ∀ c, w.db.auditHash? t = some c → ∃ r, rows.getLast? = some r ∧
        c.latestEventId = some r.eventId ∧ c.latestHash = r.hash := by
  obtain ⟨hchain, hends⟩ := I.whole h t
  have hcheckpoint := hchain.checkpoint
  have hprev := hchain.linked.prevHashes
  refine ⟨hprev, fun hnodup => ?_, fun hnone => ?_, fun c hc => ?_⟩
  · rw [hprev]
    exact hnodup.sublist (List.take_sublist _ _)
  · rw [hnone] at hcheckpoint
    exact hcheckpoint
  · obtain ⟨r, hlast, hid⟩ := hends c hc
    rw [hc] at hcheckpoint
    exact ⟨r, hlast, hid, hcheckpoint.trans (hchain.linked.lastHash r hlast)⟩

/-! ### Runs that can be checked -/

/-- Whether a step overwrites no other checkpoint than the one it read. -/
def overwritesItsOwn (w : World H) : Action H → Bool
  | .advance i _ =>
      match w.tasks[i]? with
      | some ⟨_, ws, .commit _⟩ => ws.all fun x =>
          match x.statement with
          | .updateAuditHash c _ => w.db.auditHash? x.tenantId = some c
          | _ => true
      | _ => true
  | _ => true

theorem onCheckpoint_of_check {action : Action H} (h : overwritesItsOwn w action = true) :
    OnCheckpoint w action := by
  rintro i answers t k rfl ht hp x hx c c' hstatement
  obtain ⟨κ, ws, p⟩ := t
  obtain ⟨k', rfl⟩ : ∃ k' : Handler (Kind.Result κ), p = .commit k' := ⟨k, hp⟩
  simp only [overwritesItsOwn, ht] at h
  have hall := List.all_eq_true.1 h x hx
  rw [hstatement] at hall
  exact of_decide_eq_true hall

/-- Whether all steps of a schedule do. -/
def allOverwriteTheirOwn (w : World H) : List (Action H) → Bool
  | [] => true
  | a :: as => overwritesItsOwn w a &&
      match w.step postgres a with
      | none => false
      | some w' => allOverwriteTheirOwn w' as

theorem reaches_onCheckpoint {as : List (Action H)} (h : allOverwriteTheirOwn w as = true) :
    Reaches postgres OnCheckpoint w (w.follow postgres as) := by
  have hrun : ∀ (as : List (Action H)) {w : World H}, allOverwriteTheirOwn w as = true →
      ∃ w', w.run postgres as = some w' ∧ Reaches postgres OnCheckpoint w w' := by
    intro as
    induction as with
    | nil => exact fun _ => ⟨_, rfl, Reaches.refl⟩
    | cons a as ih =>
        intro w h
        obtain ⟨ha, has⟩ := Bool.and_eq_true_iff.1 h
        cases hs : w.step postgres a with
        | none =>
            rw [hs] at has
            cases has
        | some v =>
            rw [hs] at has
            obtain ⟨w', hrest, hreach⟩ := ih has
            refine ⟨w', ?_, (Reaches.refl.tail (onCheckpoint_of_check ha) hs).trans hreach⟩
            rw [World.run, hs]
            exact hrest
  obtain ⟨w', hw', hreach⟩ := hrun as h
  rw [World.follow, hw']
  exact hreach

end Runs

namespace Sample

/-- Two more creations of one tenant. -/
def secondCreate : CreateApplicationCommand := { create with idempotencyKey := "create-2" }

def thirdCreate : CreateApplicationCommand := { create with idempotencyKey := "create-3" }

/-- They run side by side: both read the checkpoint before one of them has committed. -/
def forked : World anyHost :=
  created.follow postgres
    (.spawn (.command (.createApplication secondCreate)) ::
     .spawn (.command (.createApplication thirdCreate)) ::
      steps 1 20 14 ++ steps 2 40 18 ++ steps 1 60 4)

theorem reachable_forked : Reachable postgres (installation.start anyHost ()) forked :=
  reachable_created.trans (reachable_follow _ _)

/-- The creation and the submission, one after the other. -/
theorem onCheckpoint_submitted :
    Reaches postgres OnCheckpoint (installation.start anyHost ()) submitted := by
  have hcreated : Reaches postgres OnCheckpoint (installation.start anyHost ()) created :=
    reaches_onCheckpoint (by decide +kernel)
  have hsubmitted : Reaches postgres OnCheckpoint created submitted :=
    reaches_onCheckpoint (by decide +kernel)
  exact hcreated.trans hsubmitted

end Sample

/-- **A trail forks**: two transactions have committed events with one hash before them. -/
theorem trails_fork : Reachable postgres (Sample.installation.start anyHost ()) Sample.forked ∧
    (Sample.forked.db.auditTrail Sample.tenantId).length = 3 ∧
    ¬ ((Sample.forked.db.auditTrail Sample.tenantId).map AuditEventRow.prevHash).Nodup := by
  refine ⟨Sample.reachable_forked, ?_⟩
  decide +kernel

/-- A trail of two events. -/
theorem trails_stay_whole_submitted :
    let rows := Sample.submitted.db.auditTrail Sample.tenantId
    rows.length = 2 ∧
    rows.map AuditEventRow.prevHash =
      (genesisHash :: rows.map AuditEventRow.hash).take rows.length ∧
    ∃ c r, Sample.submitted.db.auditHash? Sample.tenantId = some c ∧ rows.getLast? = some r ∧
      c.latestEventId = some r.eventId ∧ c.latestHash = r.hash := by
  have hsome : (Sample.submitted.db.auditHash? Sample.tenantId).isSome = true := by decide +kernel
  obtain ⟨c, hc⟩ := Option.isSome_iff_exists.1 hsome
  obtain ⟨hprev, -, -, hends⟩ :=
    trails_stay_whole Sample.installation Sample.onCheckpoint_submitted Sample.tenantId
  obtain ⟨r, hlast, hid, hhash⟩ := hends c hc
  exact ⟨by decide +kernel, hprev, c, r, hc, hlast, hid, hhash⟩

end FinAssist
