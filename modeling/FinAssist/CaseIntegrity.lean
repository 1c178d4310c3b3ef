/-
**No transition is lost.**

Any number of handlers run side by side on a database that at first has nothing but tenants and
products.  Nothing is assumed of what surrounds them: any program may start at any time, any
question may get any answer, and a process may be killed at any statement.  Whatever they do, the
history of every application is intact in every committed state, and what a transaction has
committed of it stays.

Main definitions:

* `FinAssist.Installation` — a database before the first request;
* `FinAssist.anyHost` — surroundings of which nothing is assumed;
* `FinAssist.HistoryIntact` — **the history of an application is intact**.

Main results:

* `FinAssist.Installation.sound` — every reachable world is sound;
* `FinAssist.Installation.invariant` — what every commit keeps holds of all committed rows;
* `FinAssist.kept_of_logged` — rows of a table that is only inserted into stay;
* `FinAssist.history_intact` — **every history is intact, whatever runs side by side**.
-/

import FinAssist.ActivitySpecs

set_option relaxedAutoImplicit false
set_option autoImplicit false

namespace FinAssist

open ReadCommitted ApplicationStatus

/-! ### Where everything starts -/

/-- **A database before the first request**: the tenants and their products. -/
structure Installation where
  tenants : List TenantRow
  products : List ProductRow
  keys : ((tenants.map Row.tenant ++ products.map Row.product).flatMap Row.keys).Nodup
  tenant_mem : ∀ p ∈ products, ⟨p.tenantId⟩ ∈ tenants

namespace Installation

def database (I : Installation) : Database := ⟨I.tenants.map .tenant ++ I.products.map .product⟩

/-- A world in which nothing has happened yet. -/
def start (I : Installation) (H : Host programs) (ext : H.Ext) : World H :=
  ⟨I.database, [], ext, []⟩

theorem mem_rows {I : Installation} {row : Row} (h : row ∈ I.database.rows) :
    (∃ t ∈ I.tenants, row = .tenant t) ∨ ∃ p ∈ I.products, row = .product p := by
  rcases List.mem_append.1 h with h | h
  · obtain ⟨t, ht, rfl⟩ := List.mem_map.1 h
    exact Or.inl ⟨t, ht, rfl⟩
  · obtain ⟨p, hp, rfl⟩ := List.mem_map.1 h
    exact Or.inr ⟨p, hp, rfl⟩

/-- The keys that are taken before the first request. -/
theorem has_cases {I : Installation} {k : Key} (h : I.database.has k = true) :
    (∃ t, k = .tenant t) ∨ (∃ p, k = .product p) ∨ ∃ code, k = .productCode code := by
  obtain ⟨row, hrow, hk⟩ := Database.has_iff.1 h
  rcases mem_rows hrow with ⟨t, -, rfl⟩ | ⟨p, -, rfl⟩
  · exact Or.inl ⟨_, List.mem_singleton.1 hk⟩
  · rcases List.mem_pair.1 hk with rfl | rfl
    · exact Or.inr (Or.inl ⟨_, rfl⟩)
    · exact Or.inr (Or.inr ⟨_, rfl⟩)

/-- A table that is neither the tenants nor the products is empty. -/
theorem filterMap_rows (I : Installation) {β : Type} {π : Row → Option β}
    (ht : ∀ t, π (.tenant t) = none) (hp : ∀ p, π (.product p) = none) :
    I.database.rows.filterMap π = [] := by
  rw [List.filterMap_eq_nil_iff]
  intro row hrow
  rcases mem_rows hrow with ⟨t, -, rfl⟩ | ⟨p, -, rfl⟩
  · exact ht t
  · exact hp p

theorem wellFormed (I : Installation) : WellFormed I.database := by
  refine ⟨I.keys, ?_, ?_⟩
  · intro row hrow k hk
    rcases mem_rows hrow with ⟨t, -, rfl⟩ | ⟨p, hp, rfl⟩
    · cases hk
    · obtain rfl := List.mem_singleton.1 hk
      refine Database.has_iff.2 ⟨.tenant ⟨p.tenantId⟩, ?_, List.mem_singleton.2 rfl⟩
      exact List.mem_append_left _ (List.mem_map_of_mem (I.tenant_mem p hp))
  · intro row hrow
    rcases mem_rows hrow with ⟨t, -, rfl⟩ | ⟨p, -, rfl⟩
    · rfl
    · rfl

theorem slice (I : Installation) (a : ApplicationId) : I.database.slice a = Slice.empty := by
  have happlications : I.database.applications = [] :=
    I.filterMap_rows (fun _ => rfl) (fun _ => rfl)
  have hversions : I.database.applicationVersions = [] :=
    I.filterMap_rows (fun _ => rfl) (fun _ => rfl)
  have hreview : I.database.reviewQueueEntries = [] :=
    I.filterMap_rows (fun _ => rfl) (fun _ => rfl)
  have houtbox : I.database.outboxEvents = [] := I.filterMap_rows (fun _ => rfl) (fun _ => rfl)
  have haudits : I.database.auditEvents = [] := I.filterMap_rows (fun _ => rfl) (fun _ => rfl)
  simp [Database.slice, Database.application?, Database.versionsOf, Database.reviewQueueEntry?,
    Database.outboxOf, Database.auditOf, happlications, hversions, hreview, houtbox, haudits,
    Slice.empty]

theorem inOrder (I : Installation) : InOrder I.database :=
  ⟨I.wellFormed, fun a => Or.inl (I.slice a)⟩

/-- **Every reachable world is sound**, whatever surrounds the programs. -/
theorem sound (I : Installation) {H : Host programs} {ext : H.Ext}
    {ok : World H → Action H → Prop} {w : World H} (h : Reaches postgres ok (I.start H ext) w) :
    outline.Sound (fun _ _ => True) w := by
  have h₀ : casework.Inv (I.start H ext).db := I.inOrder
  exact Outline.sound (fun _ _ => trivial) h₀ rfl h

end Installation

/-- The commands that a program of this kind runs. -/
def Kind.Runs : Kind → Command → Prop
  | .command c, c' => c' = c
  | .activity info call, c' => call.Runs info c'
  | _, _ => False

/-- A task that is about to commit has run a command, on rows that are in order. -/
theorem Installation.commits (I : Installation) {H : Host programs} {ext : H.Ext}
    {ok : World H → Action H → Prop} {w : World H} (h : Reaches postgres ok (I.start H ext) w)
    {i : ℕ} {t : Task programs} (ht : w.tasks[i]? = some t)
    {k : Prog Database Write Fault Answer Error (programs.Result t.kind)}
    (hp : t.prog = .commit k) :
    ∃ c d₀, Kind.Runs t.kind c ∧ InOrder w.db ∧ postgres.Granted w.db t.writes ∧
      c.Commits d₀ w.db t.writes := by
  have hsound := I.sound h
  obtain ⟨d₀, -, -, hc⟩ := hsound.commits ht hp
  have hg := hsound.granted i t ht
  generalize t.kind = κ at hc
  cases κ with
  | command c => exact ⟨c, d₀, rfl, hsound.inv, hg, hc⟩
  | applicationStatus query => exact hc.elim
  | reviewDecision request => exact hc.elim
  | activity info call =>
      obtain ⟨c, hruns, hc⟩ := hc
      exact ⟨c, d₀, hruns, hsound.inv, hg, hc⟩

/-- **Every transaction in the log is that of a command**, committed on rows that were in order. -/
theorem Installation.logged (I : Installation) {H : Host programs} {ext : H.Ext}
    {ok : World H → Action H → Prop} {w : World H} (h : Reaches postgres ok (I.start H ext) w) :
    ∀ e ∈ w.log, ∃ c d₀ d, Kind.Runs e.kind c ∧ InOrder d ∧ postgres.Granted d e.writes ∧
      c.Commits d₀ d e.writes := by
  induction h with
  | refl => exact fun e he => by cases he
  | @tail w w' a h _ hs ih =>
      cases World.step_cases hs with
      | advance i answers t w' ht hadv =>
          cases hadv with
          | commit k hp =>
              intro e he
              rcases List.mem_append.1 he with he | he
              · exact ih e he
              · obtain rfl := List.mem_singleton.1 he
                obtain ⟨c, d₀, hruns, hd, hg, hc⟩ := I.commits h ht hp
                exact ⟨c, d₀, w.db, hruns, hd, hg, hc⟩
          | _ => exact ih
      | _ => exact ih

/-- **What every command's commit keeps holds of all committed rows**, if it holds of those at the
start. -/
theorem Installation.invariant (I : Installation) {H : Host programs} {ext : H.Ext}
    {ok : World H → Action H → Prop} {Inv : Database → Prop} (h₀ : Inv I.database)
    (hcommit : ∀ (c : Command) (d₀ d : Database) (ws : List Write), InOrder d →
      postgres.Granted d ws → c.Commits d₀ d ws → Inv d → Inv (postgres.view d ws))
    {w : World H} (h : Reaches postgres ok (I.start H ext) w) : Inv w.db := by
  induction h with
  | refl => exact h₀
  | @tail w w' a h _ hs ih =>
      cases World.step_cases hs with
      | advance i answers t w' ht hadv =>
          cases hadv with
          | commit k hp =>
              obtain ⟨c, d₀, -, hd, hg, hc⟩ := I.commits h ht hp
              exact hcommit c d₀ w.db t.writes hd hg hc ih
          | _ => exact ih
      | _ => exact ih

/-- **The rows only go on**, from any world of a run to any later one. -/
theorem Installation.onward (I : Installation) {H : Host programs} {ext : H.Ext}
    {ok : World H → Action H → Prop} {w w' : World H}
    (h : Reaches postgres ok (I.start H ext) w) (h' : Reaches postgres ok w w') :
    Onward w.db w'.db := by
  induction h' with
  | refl => exact .refl _
  | @tail w₁ w₂ a h₁ _ hs ih =>
      cases World.step_cases hs with
      | advance i answers t w' ht hadv =>
          cases hadv with
          | commit k hp =>
              obtain ⟨c, d₀, -, hd, hg, hc⟩ := I.commits (h.trans h₁) ht hp
              exact ih.trans (hc.keeps hd hg).2
          | _ => exact ih
      | _ => exact ih

/-- **Surroundings of which nothing is assumed.** -/
def anyHost : Host programs where
  Ext := Unit
  Tick := Empty
  spawn _ _ _ := true
  answer _ _ _ _ _ := some ()
  tick _ _ _ τ := nomatch τ

/-! ### What stays -/

/-- **A table that is only inserted into is told by the log**: it has what it had at first, and
then what the committed transactions have inserted, one after the other. -/
theorem table_of_log {H : Host programs} {ok : World H → Action H → Prop} {w₀ w : World H}
    (h₀ : w₀.log = []) {β : Type} {π : Row → Option β}
    (hπ : ∀ t s r, π (Statement.change t s r) = π r) (h : Reaches postgres ok w₀ w) :
    w.db.rows.filterMap π = w₀.db.rows.filterMap π ++
      w.log.flatMap fun e => e.writes.filterMap fun x => x.statement.inserted?.bind π := by
  induction h with
  | refl => simp [h₀]
  | @tail w w' a _ _ hs ih =>
      cases World.step_cases hs with
      | advance i answers t w' ht h =>
          cases h with
          | commit k hp =>
              change (postgres.view w.db t.writes).rows.filterMap π = _
              rw [filterMap_view π hπ, ih, List.flatMap_append, List.append_assoc,
                List.flatMap_singleton]
          | _ => exact ih
      | _ => exact ih

/-- Whatever a committed transaction has inserted into such a table is there. -/
theorem kept_of_logged {H : Host programs} {ok : World H → Action H → Prop} {w₀ w : World H}
    (h₀ : w₀.log = []) {β : Type} {π : Row → Option β}
    (hπ : ∀ t s r, π (Statement.change t s r) = π r) (h : Reaches postgres ok w₀ w) :
    ∀ e ∈ w.log, ∀ x ∈ e.writes, ∀ v, x.statement.inserted?.bind π = some v →
      v ∈ w.db.rows.filterMap π := by
  intro e he x hx v hv
  rw [table_of_log h₀ hπ h]
  exact List.mem_append_right _ (List.mem_flatMap.2 ⟨e, he, List.mem_filterMap.2 ⟨x, hx, hv⟩⟩)

/-- The rows of such a table are never fewer. -/
theorem filterMap_mono {H : Host programs} {ok : World H → Action H → Prop} {w w' : World H}
    {β : Type} {π : Row → Option β} (hπ : ∀ t s r, π (Statement.change t s r) = π r)
    (h : Reaches postgres ok w w') :
    w.db.rows.filterMap π <+: w'.db.rows.filterMap π := by
  induction h with
  | refl => exact List.prefix_refl _
  | @tail w₁ w₂ a _ _ hs ih =>
      cases World.step_cases hs with
      | advance i answers t w' ht h =>
          cases h with
          | commit k hp =>
              refine ih.trans ?_
              rw [filterMap_view π hπ]
              exact List.prefix_append _ _
          | _ => exact ih
      | _ => exact ih

theorem change_applicationVersion? (t : TenantId) (s : Statement) (r : Row) :
    (s.change t r).applicationVersion? = r.applicationVersion? := by
  cases s <;> cases r <;> rfl

/-! ### Histories -/

/-- **The history of an application is intact**: it has one row, its snapshots are numbered from
one to the version of the row and end with its status, each status may follow the one before, and
the outbox and the audit log each have the events that tell just this history. -/
structure HistoryIntact (d : Database) (r : ApplicationRow) : Prop where
  only : d.applications.filter (fun r' => r'.applicationId = r.applicationId) = [r]
  numbered : (d.versionsOf r.applicationId).map ApplicationVersionRow.version =
    List.range' 1 r.version
  current : (d.versionsOf r.applicationId).getLast?.map ApplicationVersionRow.status =
    some r.status
  legal : ((d.versionsOf r.applicationId).map ApplicationVersionRow.status).IsChain
    fun s s' => isLegalTransition s s' = true
  told : ∃ events, Narrates r.applicationId r.tenantId
      ((d.versionsOf r.applicationId).map ApplicationVersionRow.status) events ∧
    (d.outboxOf r.applicationId).map OutboxEventRow.record = events.map DomainEvent.record ∧
    (d.auditOf r.applicationId).map AuditEventRow.record = events.map DomainEvent.record

/-- A list in which what `f` says determines the element, and which has one that `f` says `a` of,
has just that one. -/
theorem filter_eq_singleton {α β : Type} [DecidableEq β] {f : α → β} {l : List α}
    (hl : (l.map f).Nodup) {x : α} (hx : x ∈ l) : l.filter (fun y => f y = f x) = [x] := by
  induction l with
  | nil => cases hx
  | cons y l ih =>
      rw [List.map_cons, List.nodup_cons] at hl
      have hrest : ∀ z ∈ l, f z ≠ f y := fun z hz h => hl.1 (h ▸ List.mem_map_of_mem hz)
      rcases List.mem_cons.1 hx with rfl | hx
      · rw [List.filter_cons_of_pos (by simp), List.filter_eq_nil_iff.2]
        exact fun z hz => by simpa using hrest z hz
      · rw [List.filter_cons_of_neg (by simpa using fun h => hrest x hx h.symm), ih hl.2 hx]

theorem application_mem {d : Database} {r : ApplicationRow} :
    r ∈ d.applications ↔ .application r ∈ d.rows := by
  simp only [Database.applications, List.mem_filterMap]
  constructor
  · rintro ⟨row, hrow, hr⟩
    cases row <;> simp only [Row.application?, Option.some.injEq, reduceCtorEq] at hr
    exact hr ▸ hrow
  · exact fun h => ⟨_, h, rfl⟩

/-- No two rows of the table are of one application. -/
theorem applications_nodup {d : Database} (h : WellFormed d) :
    (d.applications.map ApplicationRow.applicationId).Nodup :=
  h.nodup_ids Row.application? _ Key.application fun r x hx => by
    cases r <;> cases hx
    exact List.mem_cons_self

/-- **What is in order is intact.** -/
theorem InOrder.historyIntact {d : Database} (h : InOrder d) {r : ApplicationRow}
    (hr : r ∈ d.applications) : HistoryIntact d r := by
  have hrow := (application?_iff h.wellFormed.keys).2 ⟨application_mem.1 hr, rfl⟩
  obtain ⟨x, hx, rfl⟩ := caseFile?_of_row hrow
  obtain ⟨events, htells⟩ := h.tells hx
  have hcons := htells.reached.consistent
  have hstatuses : (d.versionsOf x.row.applicationId).map ApplicationVersionRow.status =
      x.history := htells.statuses
  refine ⟨filter_eq_singleton (applications_nodup h.wellFormed) hr, ?_, ?_, ?_, events, ?_, ?_, ?_⟩
  · rw [hcons.version]
    exact htells.numbers
  · rw [← List.getLast?_map, hstatuses]
    exact hcons.last
  · rw [hstatuses]
    exact hcons.legal
  · rw [hstatuses]
    exact htells.narrates
  · exact htells.outbox
  · exact htells.audits

/-- **Every history is intact, whatever runs side by side**, and every snapshot that a transaction
has committed is among those of its application for good. -/
theorem history_intact (I : Installation) {w : World anyHost}
    (h : Reachable postgres (I.start anyHost ()) w) :
    (∀ r ∈ w.db.applications, HistoryIntact w.db r) ∧
    (∀ e ∈ w.log, ∀ x ∈ e.writes, ∀ v, x.statement = .insert (.applicationVersion v) →
      ∀ w', Reachable postgres w w' → v ∈ w'.db.versionsOf v.applicationId) := by
  refine ⟨fun r hr => (I.sound h).inv.historyIntact hr, ?_⟩
  intro e he x hx v hv w' h'
  have hmem : v ∈ w.db.applicationVersions :=
    kept_of_logged rfl change_applicationVersion? h e he x hx v (by rw [hv]; rfl)
  have hlater := (filterMap_mono change_applicationVersion? h').subset hmem
  exact List.mem_filter.2 ⟨hlater, by simp⟩

/-! ### A small installation -/

namespace Sample

def tenantId : TenantId := ⟨"10000000-0000-4000-8000-000000000001", by decide⟩

def productId : ProductId := ⟨"20000000-0000-4000-8000-000000000002", by decide⟩

def product : ProductRow :=
  ⟨productId, tenantId, "PERSONAL", "Personal loan", "USD", 100000, 5000000, 6, 60, true, by decide,
    by decide⟩

def installation : Installation := ⟨[⟨tenantId⟩], [product], by decide, by simp [product]⟩

def noon : DateTime := ⟨⟨2026, 1, 15, by decide⟩, 12, 0, 0, 0, by decide⟩

def digit (n : Fin 10) : Char := Char.ofNat (48 + n)

theorem digit_isDigit : ∀ n, (digit n).isDigit = true := by decide

/-- An id with the digits of `n` at the end. -/
def newId (n : ℕ) : Uuid4 where
  value := String.ofList
    (['3', '0', '0', '0', '0', '0', '0', '0', '-', '0', '0', '0', '0', '-', '4', '0', '0', '0', '-',
      '8', '0', '0', '0', '-', '0', '0', '0', '0', '0', '0', '0', '0', '0'] ++
      [digit (Fin.ofNat 10 (n / 100)), digit (Fin.ofNat 10 (n / 10)), digit (Fin.ofNat 10 n)])
  isCanonical := by
    rw [Uuid.isCanonical, String.toList_ofList]
    simp [digit_isDigit]

/-- Answers to the `n`-th question: the ids are new, and nothing outside is reached. -/
def answers (n : ℕ) : (q : Ask) → Answer q
  | .now => noon
  | .newId => newId n
  | .identityMapHit => true
  | .scan .. => .error ⟨.external "unreachable", rfl⟩
  | .putObject .. => .error ⟨.external "unreachable", rfl⟩
  | .getObjectMetadata .. => .error ⟨.external "unreachable", rfl⟩
  | .getObject .. => .error ⟨.external "unreachable", rfl⟩
  | .extractText .. => .error ⟨.external "unreachable", rfl⟩
  | .classify .. => .error ⟨.external "unreachable", rfl⟩
  | .extractFacts .. => .error ⟨.external "unreachable", rfl⟩
  | .verifyIdentity .. => .error ⟨.external "unreachable", rfl⟩
  | .verifyEmployment .. => .error ⟨.external "unreachable", rfl⟩
  | .getCreditReport .. => .error ⟨.external "unreachable", rfl⟩
  | .getTransactionHistory .. => .error ⟨.external "unreachable", rfl⟩
  | .startApplicationWorkflow .. => .acknowledged
  | .signalReviewDecision .. => .acknowledged

/-- Task `i` takes `count` steps, the first of them the `n`-th of a schedule. -/
def steps {H : Host programs} (i n count : ℕ) : List (Action H) :=
  (List.range' n count).map fun m => .advance i (answers m)

def create : CreateApplicationCommand :=
  ⟨tenantId, "create-1", "Ada", "Lovelace", noon.date, "ada@example.org", productId,
    ⟨250000, .usd⟩, 24⟩

/-- One application is created. -/
def created : World anyHost :=
  (installation.start anyHost ()).follow postgres
    (.spawn (.command (.createApplication create)) :: steps 0 0 18)

/-- And then it is submitted. -/
def submitted : World anyHost :=
  match created.db.applications with
  | r :: _ => created.follow postgres
      (.spawn (.command (.submitApplication ⟨tenantId, r.applicationId, "submit-1"⟩)) ::
        steps 1 18 17)
  | [] => created

theorem reachable_created : Reachable postgres (installation.start anyHost ()) created :=
  reachable_follow _ _

theorem created_to_submitted : Reachable postgres created submitted := by
  unfold submitted
  split
  · exact reachable_follow _ _
  · exact Reaches.refl

theorem reachable_submitted : Reachable postgres (installation.start anyHost ()) submitted :=
  reachable_created.trans created_to_submitted

end Sample

/-- In a world with an application that was submitted; the snapshot of its creation is still
there. -/
theorem history_intact_submitted :
    Sample.submitted.db.applications.map ApplicationRow.version = [2] ∧
    (∀ r ∈ Sample.submitted.db.applications, HistoryIntact Sample.submitted.db r) ∧
    Sample.created.log.length = 1 ∧
    ∀ e ∈ Sample.created.log, ∀ x ∈ e.writes, ∀ v, x.statement = .insert (.applicationVersion v) →
      v ∈ Sample.submitted.db.versionsOf v.applicationId := by
  have hcreated := (history_intact Sample.installation Sample.reachable_created).2
  exact ⟨by decide +kernel, (history_intact Sample.installation Sample.reachable_submitted).1,
    by decide +kernel, fun e he x hx v hv => hcreated e he x hx v hv _ Sample.created_to_submitted⟩

end FinAssist
