/-
**The relay from the outbox to the broker.**

Any number of relays sweep the outbox.  A relay selects unpublished rows of a tenant that no other
relay has locked, oldest first, and locks them; it publishes them one by one, waiting each time for
the broker's acknowledgement, marks each as published, and commits the marks at the end.  If
anything fails in between, the marks are rolled back and the rows are published again later.  What
a relay has sent may be on its way for any time and arrive more than once.

No event is lost on this way, and nothing is published that was not committed.  The order of the
events of one application is kept only as far as the selections keep it.

Main definitions:

* `FinAssist.Relaying` — the handlers, the relays, the network and the broker;
* `FinAssist.Relaying.step` — **what happens next**;
* `FinAssist.inVersionOrder` — each event comes after the event of the version before;
* `FinAssist.Relaying.SelectsInOrder` — a selection that keeps the order.

Main results:

* `FinAssist.published_at_least_once` — **no event is dropped, and none is made up**;
* `FinAssist.published_in_order_iff` — **events come in version order exactly as long as the
  selections are in order**.
-/

import FinAssist.ProjectionConsumer
import FinAssist.Runs

set_option relaxedAutoImplicit false
set_option autoImplicit false

namespace FinAssist

open ReadCommitted

/-! ### The relays -/

/-- **A relay**: it is between two batches, or in the transaction of one, with the rows it has
published, the time it marked each with, and the rows it has yet to publish. -/
inductive Relay
  | idle
  | sweeping (t : TenantId) (done : List (OutboxEventRow × DateTime)) (todo : List OutboxEventRow)

/-- The rows its transaction has locked. -/
def Relay.locked : Relay → List OutboxEventRow
  | idle => []
  | sweeping _ done todo => done.map Prod.fst ++ todo

/-- The rows it has marked. -/
def Relay.done : Relay → List (OutboxEventRow × DateTime)
  | idle => []
  | sweeping _ done _ => done

/-- The rows it has yet to publish. -/
def Relay.todo : Relay → List OutboxEventRow
  | idle => []
  | sweeping _ _ todo => todo

/-- **Everything that takes part**: the handlers with their database, the marks the relays have
committed, latest first, the relays, what was sent, what the broker has received, and what it has
acknowledged to a relay. -/
structure Relaying where
  handlers : World anyHost
  published : List (String × DateTime)
  relays : List Relay
  network : List Envelope
  broker : List Envelope
  acknowledged : List Envelope

/-- What happens next: a handler does something; relay `i` selects a batch, sends the row it is at,
gets it acknowledged, commits, or fails; or something that was sent arrives at the broker.
`sorted` is the order in which the database has arranged the rows. -/
inductive RelayAction
  | handlers (a : Action anyHost)
  | select (i : ℕ) (t : TenantId) (batchSize : ℕ) (sorted : List OutboxEventRow)
  | send (i : ℕ)
  | arrive (k : ℕ)
  | acknowledge (i : ℕ) (at' : DateTime)
  | commit (i : ℕ)
  | fail (i : ℕ)

namespace Relaying

/-- Nothing has happened yet, and there are this many relays. -/
def start (I : Installation) (relays : ℕ) : Relaying :=
  ⟨I.start anyHost (), [], List.replicate relays .idle, [], [], []⟩

/-- The committed rows of the outbox. -/
def outbox (s : Relaying) : List OutboxEventRow :=
  s.handlers.db.outboxEvents.map fun r => { r with publishedAt := s.published.lookup r.eventId }

/-- Whether a relay has locked the row. -/
def locked (s : Relaying) (r : OutboxEventRow) : Bool :=
  s.relays.any fun x => x.locked.any fun y => y.eventId = r.eventId

/-- The rows that the relay's query matches, locked ones left out. -/
def selectable (s : Relaying) (t : TenantId) : List OutboxEventRow :=
  s.outbox.filter fun r => r.tenantId = t && r.publishedAt.isNone && !s.locked r

/-- The rows by the time at which they were recorded; it does not say which of two comes first
that have the same time. -/
def sortedByCreation (rows : List OutboxEventRow) : Prop :=
  rows.Pairwise fun x y => x.createdAt.ticks ≤ y.createdAt.ticks

instance (rows : List OutboxEventRow) : Decidable (sortedByCreation rows) :=
  inferInstanceAs (Decidable (rows.Pairwise _))

/-- **What happens next**, if it is possible. -/
def step (s : Relaying) : RelayAction → Option Relaying
  | .handlers a => (s.handlers.step postgres a).map fun w => { s with handlers := w }
  | .select i t batchSize sorted =>
      match s.relays[i]? with
      | some .idle =>
          if 1 ≤ batchSize ∧ sorted.Perm (s.selectable t) ∧ sortedByCreation sorted then
            some { s with relays := s.relays.set i (.sweeping t [] (sorted.take batchSize)) }
          else none
      | _ => none
  | .send i =>
      match s.relays[i]? with
      | some (.sweeping _ _ (row :: _)) =>
          some { s with network := s.network ++ [buildEnvelope row] }
      | _ => none
  | .arrive k => (s.network[k]?).map fun e => { s with broker := s.broker ++ [e] }
  | .acknowledge i at' =>
      match s.relays[i]? with
      | some (.sweeping t done (row :: todo)) =>
          if buildEnvelope row ∈ s.broker then
            some { s with
              relays := s.relays.set i (.sweeping t (done ++ [(row, at')]) todo)
              acknowledged := s.acknowledged ++ [buildEnvelope row] }
          else none
      | _ => none
  | .commit i =>
      match s.relays[i]? with
      | some (.sweeping _ done []) =>
          some { s with
            relays := s.relays.set i .idle
            published := done.map (fun x => (x.1.eventId, x.2)) ++ s.published }
      | _ => none
  | .fail i =>
      match s.relays[i]? with
      | some (.sweeping _ _ _) => some { s with relays := s.relays.set i .idle }
      | _ => none

/-! ### What a step does -/

/-- **What a step does**, case by case. -/
inductive Stepped (s : Relaying) : RelayAction → Relaying → Prop
  | handlers (a : Action anyHost) (w : World anyHost) (hw : s.handlers.step postgres a = some w) :
      Stepped s (.handlers a) { s with handlers := w }
  | select (i : ℕ) (t : TenantId) (batchSize : ℕ) (sorted : List OutboxEventRow)
      (hi : s.relays[i]? = some .idle) (hperm : sorted.Perm (s.selectable t)) :
      Stepped s (.select i t batchSize sorted)
        { s with relays := s.relays.set i (.sweeping t [] (sorted.take batchSize)) }
  | send (i : ℕ) (t : TenantId) (done : List (OutboxEventRow × DateTime)) (row : OutboxEventRow)
      (todo : List OutboxEventRow) (hi : s.relays[i]? = some (.sweeping t done (row :: todo))) :
      Stepped s (.send i) { s with network := s.network ++ [buildEnvelope row] }
  | arrive (k : ℕ) (e : Envelope) (he : e ∈ s.network) :
      Stepped s (.arrive k) { s with broker := s.broker ++ [e] }
  | acknowledge (i : ℕ) (at' : DateTime) (t : TenantId)
      (done : List (OutboxEventRow × DateTime)) (row : OutboxEventRow)
      (todo : List OutboxEventRow) (hi : s.relays[i]? = some (.sweeping t done (row :: todo)))
      (hb : buildEnvelope row ∈ s.broker) :
      Stepped s (.acknowledge i at') { s with
        relays := s.relays.set i (.sweeping t (done ++ [(row, at')]) todo)
        acknowledged := s.acknowledged ++ [buildEnvelope row] }
  | commit (i : ℕ) (t : TenantId) (done : List (OutboxEventRow × DateTime))
      (hi : s.relays[i]? = some (.sweeping t done [])) :
      Stepped s (.commit i) { s with
        relays := s.relays.set i .idle
        published := done.map (fun x => (x.1.eventId, x.2)) ++ s.published }
  | fail (i : ℕ) : Stepped s (.fail i) { s with relays := s.relays.set i .idle }

theorem step_cases {s s' : Relaying} {a : RelayAction} (h : s.step a = some s') :
    Stepped s a s' := by
  cases a with
  | handlers a =>
      simp only [step, Option.map_eq_some_iff] at h
      obtain ⟨w, hw, rfl⟩ := h
      exact .handlers a w hw
  | select i t batchSize sorted =>
      simp only [step] at h
      split at h
      next hi =>
        split at h
        next hok =>
          simp only [Option.some.injEq] at h
          exact h ▸ .select i t batchSize sorted hi hok.2.1
        next => cases h
      next => cases h
  | send i =>
      simp only [step] at h
      split at h
      next t done row todo hi =>
        simp only [Option.some.injEq] at h
        exact h ▸ .send i t done row todo hi
      next => cases h
  | arrive k =>
      simp only [step, Option.map_eq_some_iff] at h
      obtain ⟨e, he, rfl⟩ := h
      exact .arrive k e (List.mem_of_getElem? he)
  | acknowledge i at' =>
      simp only [step] at h
      split at h
      next t done row todo hi =>
        split at h
        next hb =>
          simp only [Option.some.injEq] at h
          exact h ▸ .acknowledge i at' t done row todo hi hb
        next => cases h
      next => cases h
  | commit i =>
      simp only [step] at h
      split at h
      next t done hi =>
        simp only [Option.some.injEq] at h
        exact h ▸ .commit i t done hi
      next => cases h
  | fail i =>
      simp only [step] at h
      split at h
      next =>
        simp only [Option.some.injEq] at h
        exact h ▸ .fail i
      next => cases h

/-! ### Nothing is dropped, and nothing is made up -/

/-- The envelope of a committed row. -/
def FromOutbox (s : Relaying) (e : Envelope) : Prop :=
  ∃ r ∈ s.handlers.db.outboxEvents, buildEnvelope r = e

/-- **The invariant**: a row that a relay has marked was acknowledged, and whatever was selected,
sent or received are committed rows. -/
structure Inv (I : Installation) (s : Relaying) : Prop where
  handlers : Reachable postgres (I.start anyHost ()) s.handlers
  published : ∀ x ∈ s.published, ∃ e ∈ s.acknowledged, e.eventId = x.1
  done : ∀ x ∈ s.relays, ∀ y ∈ x.done, buildEnvelope y.1 ∈ s.acknowledged
  selected : ∀ x ∈ s.relays, ∀ r ∈ x.locked, s.FromOutbox (buildEnvelope r)
  sent : ∀ e ∈ s.network, s.FromOutbox e
  received : ∀ e ∈ s.broker, s.FromOutbox e
  acknowledged : ∀ e ∈ s.acknowledged, e ∈ s.broker

theorem inv_start (I : Installation) (relays : ℕ) : (start I relays).Inv I := by
  have hidle : ∀ x ∈ (start I relays).relays, x = .idle := fun x hx => List.eq_of_mem_replicate hx
  refine ⟨Reaches.refl, ?_, ?_, ?_, ?_, ?_, ?_⟩
  · exact fun x hx => absurd hx List.not_mem_nil
  · exact fun x hx y hy => by rw [hidle x hx] at hy; cases hy
  · exact fun x hx r hr => by rw [hidle x hx] at hr; cases hr
  · exact fun e he => absurd he List.not_mem_nil
  · exact fun e he => absurd he List.not_mem_nil
  · exact fun e he => absurd he List.not_mem_nil

/-- A relay after one of them was replaced. -/
theorem mem_set_relays {s : Relaying} {i : ℕ} {x y : Relay} (h : y ∈ s.relays.set i x) :
    y = x ∨ y ∈ s.relays := by
  rcases List.mem_or_eq_of_mem_set h with h | h
  · exact Or.inr h
  · exact Or.inl h

theorem mem_selectable {s : Relaying} {t : TenantId} {r : OutboxEventRow} :
    r ∈ s.selectable t ↔
      r ∈ s.outbox ∧ r.tenantId = t ∧ r.publishedAt = none ∧ s.locked r = false := by
  simp [selectable, and_assoc]

theorem fromOutbox_of_mem {s : Relaying} {r : OutboxEventRow} (h : r ∈ s.outbox) :
    s.FromOutbox (buildEnvelope r) := by
  obtain ⟨r', hr', rfl⟩ := List.mem_map.1 h
  exact ⟨r', hr', rfl⟩

/-- **Every step keeps the invariant.** -/
theorem Inv.step {I : Installation} {s s' : Relaying} {a : RelayAction} (hs : s.Inv I)
    (h : s.step a = some s') : s'.Inv I := by
  cases step_cases h with
  | handlers a w hw =>
      -- the handlers never take an event out of the outbox
      have hmono : ∀ e, s.FromOutbox e →
          FromOutbox { s with handlers := w } e := by
        rintro e ⟨r, hr, rfl⟩
        have hnow : Reachable postgres s.handlers s.handlers := Reaches.refl
        have hgrow := filterMap_mono change_outboxEvent? (hnow.tail trivial hw)
        exact ⟨r, hgrow.subset hr, rfl⟩
      exact ⟨hs.handlers.tail trivial hw, hs.published, hs.done,
        fun x hx r hr => hmono _ (hs.selected x hx r hr), fun e he => hmono e (hs.sent e he),
        fun e he => hmono e (hs.received e he), hs.acknowledged⟩
  | select i t batchSize sorted hi hperm =>
      refine ⟨hs.handlers, hs.published, ?_, ?_, hs.sent, hs.received, hs.acknowledged⟩
      · intro x hx y hy
        rcases mem_set_relays hx with rfl | hx
        · cases hy
        · exact hs.done x hx y hy
      · intro x hx r hr
        rcases mem_set_relays hx with rfl | hx
        · have hmem := hperm.subset (List.mem_of_mem_take hr)
          exact fromOutbox_of_mem (mem_selectable.1 hmem).1
        · exact hs.selected x hx r hr
  | send i t done row todo hi =>
      refine ⟨hs.handlers, hs.published, hs.done, hs.selected, ?_, hs.received, hs.acknowledged⟩
      intro e he
      rcases List.mem_append.1 he with he | he
      · exact hs.sent e he
      · obtain rfl := List.mem_singleton.1 he
        exact hs.selected _ (List.mem_of_getElem? hi) row
          (List.mem_append_right _ List.mem_cons_self)
  | arrive k e he =>
      refine ⟨hs.handlers, hs.published, hs.done, hs.selected, hs.sent, ?_,
        fun e' he' => List.mem_append_left _ (hs.acknowledged e' he')⟩
      intro e' he'
      rcases List.mem_append.1 he' with he' | he'
      · exact hs.received e' he'
      · obtain rfl := List.mem_singleton.1 he'
        exact hs.sent _ he
  | acknowledge i at' t done row todo hi hb =>
      have hmem := List.mem_of_getElem? hi
      refine ⟨hs.handlers, ?_, ?_, ?_, hs.sent, hs.received, ?_⟩
      · intro x hx
        obtain ⟨e, he, hid⟩ := hs.published x hx
        exact ⟨e, List.mem_append_left _ he, hid⟩
      · intro x hx y hy
        rcases mem_set_relays hx with rfl | hx
        · rcases List.mem_append.1 hy with hy | hy
          · exact List.mem_append_left _ (hs.done _ hmem y hy)
          · obtain rfl := List.mem_singleton.1 hy
            exact List.mem_append_right _ (List.mem_singleton.2 rfl)
        · exact List.mem_append_left _ (hs.done x hx y hy)
      · intro x hx r hr
        rcases mem_set_relays hx with rfl | hx
        · refine hs.selected _ hmem r ?_
          simpa [Relay.locked, or_assoc] using hr
        · exact hs.selected x hx r hr
      · intro e he
        rcases List.mem_append.1 he with he | he
        · exact hs.acknowledged e he
        · exact List.mem_singleton.1 he ▸ hb
  | commit i t done hi =>
      refine ⟨hs.handlers, ?_, ?_, ?_, hs.sent, hs.received, hs.acknowledged⟩
      · -- each row that is marked now was acknowledged before the commit
        intro x hx
        rcases List.mem_append.1 hx with hx | hx
        · obtain ⟨y, hy, rfl⟩ := List.mem_map.1 hx
          exact ⟨_, hs.done _ (List.mem_of_getElem? hi) y hy, rfl⟩
        · exact hs.published x hx
      · intro x hx y hy
        rcases mem_set_relays hx with rfl | hx
        · cases hy
        · exact hs.done x hx y hy
      · intro x hx r hr
        rcases mem_set_relays hx with rfl | hx
        · cases hr
        · exact hs.selected x hx r hr
  | fail i =>
      -- the marks are rolled back, but what was sent stays sent
      refine ⟨hs.handlers, hs.published, ?_, ?_, hs.sent, hs.received, hs.acknowledged⟩
      · intro x hx y hy
        rcases mem_set_relays hx with rfl | hx
        · cases hy
        · exact hs.done x hx y hy
      · intro x hx r hr
        rcases mem_set_relays hx with rfl | hx
        · cases hr
        · exact hs.selected x hx r hr

/-- A row that is marked was acknowledged. -/
theorem Inv.acknowledged_of_published {I : Installation} {s : Relaying} (hs : s.Inv I)
    {r : OutboxEventRow} (hr : r ∈ s.outbox) (hp : r.publishedAt ≠ none) :
    buildEnvelope r ∈ s.acknowledged := by
  obtain ⟨r₀, hr₀, rfl⟩ := List.mem_map.1 hr
  obtain ⟨at', hat⟩ := Option.ne_none_iff_exists'.1 hp
  obtain ⟨before, after, hlist, -⟩ := List.lookup_eq_some_iff.1 hat
  obtain ⟨e, he, hid⟩ := hs.published (r₀.eventId, at') (by rw [hlist]; simp)
  obtain ⟨r₁, hr₁, rfl⟩ := hs.received e (hs.acknowledged e he)
  have hdeliver := deliverable (I.sound hs.handlers).inv (I.outbox_isEvent hs.handlers)
  rw [hdeliver.ids r₁ hr₁ r₀ hr₀ hid] at he
  exact he

end Relaying

/-- **What an envelope carries of a row**: its id, its tenant, its aggregate and its payload. -/
structure Envelope.Carries (e : Envelope) (r : OutboxEventRow) : Prop where
  eventId : e.eventId = r.eventId
  tenantId : e.tenantId = r.tenantId
  aggregateId : e.applicationId = r.aggregateId
  payload : e.payload = r.payload

theorem carries_buildEnvelope (r : OutboxEventRow) : (buildEnvelope r).Carries r :=
  ⟨rfl, rfl, rfl, rfl⟩

namespace Relaying

/-- Whatever was sent, received or acknowledged is the envelope of a committed row. -/
theorem Inv.fromOutbox {I : Installation} {s : Relaying} (hs : s.Inv I) {e : Envelope}
    (he : e ∈ s.network ++ s.broker ++ s.acknowledged) : s.FromOutbox e := by
  rcases List.mem_append.1 he with he | he
  · rcases List.mem_append.1 he with he | he
    · exact hs.sent e he
    · exact hs.received e he
  · exact hs.received e (hs.acknowledged e he)

end Relaying

/-- **No event is dropped, and none is made up**, whatever the relays and the handlers do and
wherever they fail: for a row that is marked, an envelope that carries it was acknowledged by the
broker; a row whose envelope was not acknowledged is not marked, and is selected again as soon as
nobody has locked it; and whatever was sent, received or acknowledged is the envelope of a committed
row, and carries it. -/
theorem published_at_least_once (I : Installation) (relays : ℕ) {s : Relaying}
    (h : Runs.Reachable Relaying.step (Relaying.start I relays) s) :
    (∀ r ∈ s.outbox, r.publishedAt ≠ none →
      ∃ e ∈ s.acknowledged, buildEnvelope r = e ∧ e.Carries r) ∧
    (∀ r ∈ s.outbox, buildEnvelope r ∉ s.acknowledged →
      r.publishedAt = none ∧ (s.locked r = false → r ∈ s.selectable r.tenantId)) ∧
    ∀ e ∈ s.network ++ s.broker ++ s.acknowledged,
      ∃ r ∈ s.outbox, buildEnvelope r = e ∧ e.Carries r := by
  have hinv : s.Inv I := h.invariant (Relaying.Inv I) (Relaying.inv_start I relays)
    fun _ _ _ hs _ hstep => hs.step hstep
  refine ⟨fun r hr hp => ?_, fun r hr hno => ?_, fun e he => ?_⟩
  · exact ⟨_, hinv.acknowledged_of_published hr hp, rfl, carries_buildEnvelope r⟩
  · have hnone : r.publishedAt = none := by
      by_contra hp
      exact hno (hinv.acknowledged_of_published hr hp)
    exact ⟨hnone, fun hfree => Relaying.mem_selectable.2 ⟨hr, rfl, hnone, hfree⟩⟩
  · -- the mark of a row is no part of its envelope
    obtain ⟨r, hr, rfl⟩ := hinv.fromOutbox he
    exact ⟨_, List.mem_map_of_mem hr, rfl, rfl, rfl, rfl, rfl⟩

/-! ### The order of the events of one application -/

/-- The version an envelope tells, if it is about one. -/
def Envelope.version? (e : Envelope) : Option ℤ :=
  if e.eventType ∈ projectedEventTypes then
    match toldState e.eventType e.payload with
    | .ok (_, version) => some version
    | .error _ => none
  else none

/-- Whether the version before that of `e`, if there is one, is told by one of these. -/
def precededIn (earlier : List Envelope) (e : Envelope) : Bool :=
  match e.version? with
  | none => true
  | some version => version < 2 ||
      earlier.any fun e' => e'.applicationId = e.applicationId && e'.version? = some (version - 1)

/-- **In version order**: each event comes after the event of the version before, counting those
that came earlier. -/
def inVersionOrder (earlier : List Envelope) : List Envelope → Bool
  | [] => true
  | e :: es => precededIn earlier e && inVersionOrder (earlier ++ [e]) es

theorem precededIn_mono {earlier later : List Envelope} {e : Envelope} (h : earlier ⊆ later)
    (he : precededIn earlier e = true) : precededIn later e = true := by
  unfold precededIn at he ⊢
  split at he
  next => rfl
  next version hversion =>
    rcases Bool.or_eq_true_iff.1 he with hlow | hany
    · exact Bool.or_eq_true_iff.2 (Or.inl hlow)
    · obtain ⟨e', hmem, hp⟩ := List.any_eq_true.1 hany
      exact Bool.or_eq_true_iff.2 (Or.inr (List.any_eq_true.2 ⟨e', h hmem, hp⟩))

theorem inVersionOrder_mono {es : List Envelope} : ∀ {earlier later : List Envelope},
    earlier ⊆ later → inVersionOrder earlier es = true → inVersionOrder later es = true := by
  induction es with
  | nil => exact fun _ _ => rfl
  | cons e es ih =>
      intro earlier later h he
      rw [inVersionOrder, Bool.and_eq_true] at he ⊢
      refine ⟨precededIn_mono h he.1, ih ?_ he.2⟩
      exact List.append_subset.2 ⟨List.subset_append_of_subset_left _ h,
        List.subset_append_right _ _⟩

theorem inVersionOrder_append (xs : List Envelope) : ∀ (earlier ys : List Envelope),
    inVersionOrder earlier (xs ++ ys) =
      (inVersionOrder earlier xs && inVersionOrder (earlier ++ xs) ys) := by
  induction xs with
  | nil => intro earlier ys; simp [inVersionOrder]
  | cons x xs ih => intro earlier ys; simp [inVersionOrder, ih, Bool.and_assoc]

/-- Where the order is broken, there is a first event that comes too early. -/
theorem exists_not_preceded {es : List Envelope} : ∀ {earlier : List Envelope},
    inVersionOrder earlier es = false → ∃ before e after, es = before ++ e :: after ∧
      precededIn (earlier ++ before) e = false := by
  induction es with
  | nil => intro earlier h; cases h
  | cons e es ih =>
      intro earlier h
      rw [inVersionOrder, Bool.and_eq_false_iff] at h
      rcases h with h | h
      · exact ⟨[], e, es, rfl, by simpa using h⟩
      · obtain ⟨before, e', after, rfl, hno⟩ := ih h
        exact ⟨e :: before, e', after, rfl, by simpa using hno⟩

/-- **In version order, said of the events one by one**: an event of a version after the first
stands after an event of the version before. -/
theorem inVersionOrder_iff {es : List Envelope} :
    inVersionOrder [] es = true ↔ ∀ before e after, es = before ++ e :: after →
      ∀ version, 1 ≤ version → e.version? = some (version + 1) →
        ∃ e' ∈ before, e'.applicationId = e.applicationId ∧ e'.version? = some version := by
  have hpreceded : ∀ before e, precededIn before e = true ↔ ∀ version, 1 ≤ version →
      e.version? = some (version + 1) →
        ∃ e' ∈ before, e'.applicationId = e.applicationId ∧ e'.version? = some version := by
    intro before e
    unfold precededIn
    cases he : e.version? with
    | none => simp
    | some v =>
        simp only [Bool.or_eq_true, decide_eq_true_eq, List.any_eq_true, Bool.and_eq_true,
          Option.some.injEq]
        constructor
        · rintro (hlow | ⟨e', hmem, ha, hv⟩) version hpos rfl
          · omega
          · exact ⟨e', hmem, ha, by rw [hv, add_sub_cancel_right]⟩
        · intro h
          by_cases hlow : v < 2
          · exact Or.inl hlow
          · obtain ⟨e', hmem, ha, hv⟩ := h (v - 1) (by omega) (by omega)
            exact Or.inr ⟨e', hmem, ha, hv⟩
  constructor
  · rintro h before e after rfl
    rw [inVersionOrder_append, Bool.and_eq_true, inVersionOrder, Bool.and_eq_true] at h
    exact (hpreceded before e).1 (by simpa using h.2.1)
  · intro h
    by_contra hno
    obtain ⟨before, e, after, rfl, hfirst⟩ := exists_not_preceded (Bool.not_eq_true _ ▸ hno)
    rw [(hpreceded _ e).2] at hfirst
    · cases hfirst
    · exact h before e after rfl

namespace Relaying

/-- **A selection that keeps the order**: the version before that of each event it returns was
received by the broker, or is told by an event that it returns before. -/
def SelectsInOrder (s : Relaying) : RelayAction → Prop
  | .select _ _ batchSize sorted =>
      inVersionOrder s.broker ((sorted.take batchSize).map buildEnvelope) = true
  | _ => True

instance (s : Relaying) : (a : RelayAction) → Decidable (s.SelectsInOrder a)
  | .select _ _ _ _ => inferInstanceAs (Decidable (_ = true))
  | .handlers _ => isTrue trivial
  | .send _ => isTrue trivial
  | .arrive _ => isTrue trivial
  | .acknowledge _ _ => isTrue trivial
  | .commit _ => isTrue trivial
  | .fail _ => isTrue trivial

/-- **What keeps the order**: it is kept so far, what is on its way to the broker may arrive, and
each relay has its rows in order. -/
structure Ordered (s : Relaying) : Prop where
  received : inVersionOrder [] s.broker = true
  sent : ∀ e ∈ s.network, precededIn s.broker e = true
  selected : ∀ x ∈ s.relays, inVersionOrder s.broker (x.todo.map buildEnvelope) = true

theorem ordered_start (I : Installation) (relays : ℕ) : (start I relays).Ordered := by
  refine ⟨rfl, fun e he => absurd he List.not_mem_nil, fun x hx => ?_⟩
  obtain rfl : x = .idle := List.eq_of_mem_replicate hx
  rfl

/-- A step keeps the order, if a selection does. -/
theorem Ordered.step {s s' : Relaying} {a : RelayAction} (hs : s.Ordered)
    (hok : s.SelectsInOrder a) (h : s.step a = some s') : s'.Ordered := by
  have hidle : ∀ i, ∀ x ∈ s.relays.set i Relay.idle,
      inVersionOrder s.broker (x.todo.map buildEnvelope) = true := by
    intro i x hx
    rcases mem_set_relays hx with rfl | hx
    · rfl
    · exact hs.selected x hx
  cases step_cases h with
  | handlers a w hw => exact ⟨hs.received, hs.sent, hs.selected⟩
  | select i t batchSize sorted hi hperm =>
      refine ⟨hs.received, hs.sent, fun x hx => ?_⟩
      rcases mem_set_relays hx with rfl | hx
      · exact hok
      · exact hs.selected x hx
  | send i t done row todo hi =>
      refine ⟨hs.received, fun e he => ?_, hs.selected⟩
      rcases List.mem_append.1 he with he | he
      · exact hs.sent e he
      · obtain rfl := List.mem_singleton.1 he
        have hrows := hs.selected _ (List.mem_of_getElem? hi)
        rw [Relay.todo, List.map_cons, inVersionOrder, Bool.and_eq_true] at hrows
        exact hrows.1
  | arrive k e he =>
      have hsub : s.broker ⊆ s.broker ++ [e] := List.subset_append_left _ _
      refine ⟨?_, fun e' he' => precededIn_mono hsub (hs.sent e' he'),
        fun x hx => inVersionOrder_mono hsub (hs.selected x hx)⟩
      rw [inVersionOrder_append, hs.received]
      simp [inVersionOrder, hs.sent e he]
  | acknowledge i at' t done row todo hi hb =>
      refine ⟨hs.received, hs.sent, fun x hx => ?_⟩
      rcases mem_set_relays hx with rfl | hx
      · have hrows := hs.selected _ (List.mem_of_getElem? hi)
        rw [Relay.todo, List.map_cons, inVersionOrder, Bool.and_eq_true] at hrows
        refine inVersionOrder_mono ?_ hrows.2
        exact List.append_subset.2 ⟨List.Subset.refl _, by simpa using hb⟩
      · exact hs.selected x hx
  | commit i t done hi => exact ⟨hs.received, hs.sent, hidle i⟩
  | fail i => exact ⟨hs.received, hs.sent, hidle i⟩

/-- A relay can publish the rows of its batch one by one, with nothing in between. -/
theorem reaches_published {t : TenantId} {i : ℕ} (rows : List OutboxEventRow) :
    ∀ (s : Relaying) (done : List (OutboxEventRow × DateTime)) (rest : List OutboxEventRow),
      s.relays[i]? = some (.sweeping t done (rows ++ rest)) →
      ∃ s' done', Runs.Reaches step SelectsInOrder s s' ∧
        s'.relays[i]? = some (.sweeping t done' rest) ∧
        s'.broker = s.broker ++ rows.map buildEnvelope := by
  induction rows with
  | nil => intro s done rest hi; exact ⟨s, done, .refl, hi, by simp⟩
  | cons row rows ih =>
      intro s done rest hi
      rw [List.cons_append] at hi
      let s₁ : Relaying := { s with network := s.network ++ [buildEnvelope row] }
      let s₂ : Relaying := { s₁ with broker := s.broker ++ [buildEnvelope row] }
      let s₃ : Relaying := { s₂ with
        relays := s.relays.set i (.sweeping t (done ++ [(row, row.createdAt)]) (rows ++ rest))
        acknowledged := s.acknowledged ++ [buildEnvelope row] }
      have hsend : s.step (.send i) = some s₁ := by simp only [step, hi, s₁]
      have harrive : s₁.step (.arrive s.network.length) = some s₂ := by simp [step, s₁, s₂]
      have hack : s₂.step (.acknowledge i row.createdAt) = some s₃ := by
        have hi₂ : s₂.relays[i]? = some (.sweeping t done (row :: (rows ++ rest))) := hi
        simp only [step, hi₂]
        rw [if_pos (List.mem_append_right _ (List.mem_singleton.2 rfl))]
      have hlt : i < s.relays.length := (List.getElem?_eq_some_iff.1 hi).1
      obtain ⟨s', done', hreach, hi', hbroker⟩ := ih s₃
        (done ++ [(row, row.createdAt)]) rest (by simp [s₃, List.getElem?_set_self hlt])
      refine ⟨s', done', ?_, hi', ?_⟩
      · exact (((Runs.Reaches.refl.tail trivial hsend).tail trivial harrive).tail trivial
          hack).trans hreach
      · rw [hbroker]
        simp [s₃, s₂]

end Relaying

/-- **Events come in version order exactly as long as the selections are in order.**  In a run whose
selections all keep the order, the broker has received the events of each application in version
order; and a selection that does not keep it can lead to a state in which it has not. -/
theorem published_in_order_iff (I : Installation) (relays : ℕ) {s : Relaying}
    (h : Runs.Reaches Relaying.step Relaying.SelectsInOrder (Relaying.start I relays) s) :
    inVersionOrder [] s.broker = true ∧
    ∀ i t batchSize sorted s', s.step (.select i t batchSize sorted) = some s' →
      ((∀ s'', Runs.Reaches Relaying.step Relaying.SelectsInOrder s' s'' →
          inVersionOrder [] s''.broker = true) ↔
        s.SelectsInOrder (.select i t batchSize sorted)) := by
  have hordered : s.Ordered := h.invariant Relaying.Ordered (Relaying.ordered_start I relays)
    fun _ _ _ hs hok hstep => hs.step hok hstep
  refine ⟨hordered.received, fun i t batchSize sorted s' hstep =>
    ⟨fun hall => ?_, fun hok s'' h' => ?_⟩⟩
  · cases Relaying.step_cases hstep with
    | select i t batchSize sorted hi hperm =>
        have hlt : i < s.relays.length := (List.getElem?_eq_some_iff.1 hi).1
        obtain ⟨s'', done', hreach, -, hbroker⟩ := Relaying.reaches_published
          (sorted.take batchSize) (i := i) (t := t)
          { s with relays := s.relays.set i (.sweeping t [] (sorted.take batchSize)) } [] []
          (by simp [List.getElem?_set_self hlt])
        have hall' := hall s'' hreach
        rw [hbroker, inVersionOrder_append, Bool.and_eq_true] at hall'
        exact hall'.2
  · exact (h'.invariant Relaying.Ordered (hordered.step hok hstep)
      fun _ _ _ hs hok hstep => hs.step hok hstep).received

/-! ### Two relays, and two events of one application -/

namespace Sample

/-- An application is created and submitted. -/
def twoEvents : List RelayAction :=
  (.handlers (.spawn (.command (.createApplication create))) ::
    (steps 0 0 18).map .handlers) ++
  match created.db.applications with
  | r :: _ => .handlers (.spawn (.command (.submitApplication
      ⟨tenantId, r.applicationId, "submit-1"⟩))) :: (steps 1 18 17).map .handlers
  | [] => []

def recorded : Relaying := Runs.follow Relaying.step (Relaying.start installation 2) twoEvents

/-- One relay publishes both events. -/
def inOrder : List RelayAction :=
  [.select 0 tenantId 10 recorded.outbox, .send 0, .arrive 0, .acknowledge 0 noon, .send 0,
   .arrive 1, .acknowledge 0 noon, .commit 0]

/-- The first relay takes a batch of one and has not sent it yet; the second skips the row that is
locked, and publishes the next. -/
def overtaking : List RelayAction :=
  [.select 0 tenantId 1 recorded.outbox, .select 1 tenantId 1 (recorded.outbox.drop 1), .send 1,
   .arrive 0]

/-- Both events are published, in order. -/
def relayed : Relaying := Runs.follow Relaying.step recorded inOrder

theorem reaches_relayed : Runs.Reaches Relaying.step Relaying.SelectsInOrder
    (Relaying.start installation 2) relayed :=
  (Runs.reaches_follow (by decide +kernel)).trans (Runs.reaches_follow (by decide +kernel))

end Sample

/-- Both events were acknowledged and are marked; what was sent carries one of them. -/
theorem published_at_least_once_relayed :
    (Sample.relayed.outbox.map OutboxEventRow.publishedAt = [some Sample.noon, some Sample.noon]) ∧
    (∀ r ∈ Sample.relayed.outbox, r.publishedAt ≠ none →
      ∃ e ∈ Sample.relayed.acknowledged, buildEnvelope r = e ∧ e.Carries r) ∧
    Sample.relayed.acknowledged.length = 2 ∧
    ∀ e ∈ Sample.relayed.network ++ Sample.relayed.broker ++ Sample.relayed.acknowledged,
      ∃ r ∈ Sample.relayed.outbox, buildEnvelope r = e ∧ e.Carries r := by
  obtain ⟨hmarked, -, hcarried⟩ := published_at_least_once Sample.installation 2
    (Sample.reaches_relayed.mono fun _ _ _ => trivial)
  exact ⟨by decide +kernel, hmarked, by decide +kernel, hcarried⟩

/-- Both events were received, in version order. -/
theorem published_in_order_relayed : Sample.relayed.broker.length = 2 ∧
    inVersionOrder [] Sample.relayed.broker = true :=
  ⟨by decide +kernel, (published_in_order_iff Sample.installation 2 Sample.reaches_relayed).1⟩

/-- The broker receives version two of an application before version one. -/
theorem published_out_of_order : ¬ ∀ s, Runs.Reachable Relaying.step
    (Relaying.start Sample.installation 2) s → inVersionOrder [] s.broker = true := by
  intro h
  have hbroken := h (Runs.follow Relaying.step Sample.recorded Sample.overtaking)
    ((Runs.reachable_follow _ _).trans (Runs.reachable_follow _ _))
  have hno : inVersionOrder []
      (Runs.follow Relaying.step Sample.recorded Sample.overtaking).broker = false := by
    decide +kernel
  rw [hno] at hbroken
  cases hbroken

end FinAssist
