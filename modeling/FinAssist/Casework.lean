/-
**Cases in the database.**

`FinAssist/CaseFile.lean` speaks of one application by itself; here it is found again in the rows.
What the tables say of one application is a slice of the database.  A statement acts on every
slice by itself, and on most not at all, so what a transaction does to an application can be
computed on its slice.  A database is in order when its constraints hold and each slice either is
empty or tells a case that creation and steps lead to, with one event for each version in the
outbox and in the audit log.

Main definitions:

* `FinAssist.WellFormed` — what the constraints say of the rows;
* `FinAssist.Slice`, `FinAssist.Slice.step` — what the tables say of one application;
* `FinAssist.Slice.Tells` — **a slice tells a case**;
* `FinAssist.InOrder`, `FinAssist.Onward` — the invariant of the rows, and what a commit may do;
* `FinAssist.casework` — both as a `ReadCommitted.Discipline`.

Main results:

* `FinAssist.WellFormed.view` — granted statements keep the constraints;
* `FinAssist.slice_view` — **a transaction acts on each slice by itself**;
* `FinAssist.Onward.current` — a row whose next version can be inserted is the current one.
-/

import FinAssist.CaseFile
import FinAssist.RelyGuarantee
import Mathlib.Data.List.Nodup

set_option relaxedAutoImplicit false
set_option autoImplicit false

namespace FinAssist

open ReadCommitted ApplicationStatus

/-! ### Rows that fit the constraints -/

/-- **What the constraints say of the rows**: no key is taken twice, the rows that foreign keys
point at are there, and the check constraints hold. -/
structure WellFormed (d : Database) : Prop where
  keys : (d.rows.flatMap Row.keys).Nodup
  references : ∀ r ∈ d.rows, ∀ k ∈ r.references, d.has k = true
  checks : ∀ r ∈ d.rows, r.check = none

/-- **No two rows have the same key**: of rows that are told apart by a key, each is there once. -/
theorem WellFormed.nodup_ids {d : Database} (h : WellFormed d) {β κ : Type} (π : Row → Option β)
    (id : β → κ) (key : κ → Key) (hkey : ∀ r b, π r = some b → key (id b) ∈ r.keys) :
    ((d.rows.filterMap π).map id).Nodup := by
  have hsub : ∀ rows : List Row,
      ((rows.filterMap π).map (key ∘ id)).Sublist (rows.flatMap Row.keys) := by
    intro rows
    induction rows with
    | nil => exact List.Sublist.refl _
    | cons row rows ih =>
        rw [List.flatMap_cons]
        cases hrow : π row with
        | none =>
            rw [List.filterMap_cons_none hrow]
            exact ih.trans (List.sublist_append_right _ _)
        | some b =>
            rw [List.filterMap_cons_some hrow]
            exact (List.singleton_sublist.2 (hkey row b hrow)).append ih
  refine List.Nodup.of_map key ?_
  rw [List.map_map]
  exact (hsub d.rows).nodup h.keys

theorem Row.keys_nodup (r : Row) : r.keys.Nodup := by
  cases r <;> simp [Row.keys]

@[simp] theorem Statement.change_references (t : TenantId) (s : Statement) (r : Row) :
    (s.change t r).references = r.references := by
  cases s <;> cases r <;> simp only [Statement.change, Row.references]
  all_goals split <;> rfl

theorem setColumn_cases {α : Type} [DecidableEq α] (loaded changed current : α) :
    setColumn loaded changed current = current ∨ setColumn loaded changed current = changed := by
  unfold setColumn
  split
  · exact Or.inl rfl
  · exact Or.inr rfl

theorem check_application_iff {r : ApplicationRow} :
    (Row.application r).check = none ↔
      r.requestedAmount.minorUnits.natAbs < 10 ^ 18 ∧ 0 < r.requestedAmount.minorUnits ∧
        1 ≤ r.requestedTermMonths ∧ 1 ≤ r.version := by
  simp only [Row.check]
  split
  next h => simp only [reduceCtorEq, false_iff]; omega
  next h =>
    split
    next h' => simp only [true_iff]; omega
    next h' => simp only [reduceCtorEq, false_iff]; omega

theorem check_reviewQueueEntry_iff {r : ReviewQueueEntryRow} :
    (Row.reviewQueueEntry r).check = none ↔ r.status = "pending" ∨ r.status = "decided" := by
  simp only [Row.check]
  split <;> simp_all

/-- An update keeps the check constraints, column by column. -/
theorem Statement.change_check {t : TenantId} {s : Statement} {r : Row}
    (hs : s.staticFault t = none) (hr : r.check = none) : (s.change t r).check = none := by
  cases s with
  | insert row => exact hr
  | updateApplication loaded changed =>
      cases r
      case application r =>
        simp only [Statement.change]
        split
        next =>
          have hc := check_application_iff.1 hs
          have hr := check_application_iff.1 hr
          refine check_application_iff.2 ⟨?_, ?_, ?_, ?_⟩ <;> simp only [ApplicationRow.update]
          · rcases setColumn_cases loaded.requestedAmount.minorUnits
              changed.requestedAmount.minorUnits r.requestedAmount.minorUnits with h | h <;>
              rw [h] <;> omega
          · rcases setColumn_cases loaded.requestedAmount.minorUnits
              changed.requestedAmount.minorUnits r.requestedAmount.minorUnits with h | h <;>
              rw [h] <;> omega
          · rcases setColumn_cases loaded.requestedTermMonths changed.requestedTermMonths
              r.requestedTermMonths with h | h <;> rw [h] <;> omega
          · rcases setColumn_cases loaded.version changed.version r.version with h | h <;>
              rw [h] <;> omega
        next => exact hr
      all_goals exact hr
  | updateAuditHash loaded changed => cases r <;> exact hr
  | updateReviewQueueEntry loaded changed =>
      cases r
      case reviewQueueEntry r =>
        simp only [Statement.change]
        split
        next =>
          refine check_reviewQueueEntry_iff.2 ?_
          simp only [ReviewQueueEntryRow.update]
          rcases setColumn_cases loaded.status changed.status r.status with h | h
          · rw [h]
            exact check_reviewQueueEntry_iff.1 hr
          · rw [h]
            exact check_reviewQueueEntry_iff.1 hs
        next => exact hr
      all_goals exact hr

/-- **A granted statement keeps the constraints.** -/
theorem WellFormed.apply {d : Database} (h : WellFormed d) {w : Write}
    (hw : postgres.fault d w = none) : WellFormed (d.apply w) := by
  obtain ⟨hstatic, habsent, hpresent⟩ := fault_eq_none_iff.1 hw
  have hstays : ∀ k, d.has k = true → (d.apply w).has k = true :=
    fun k hk => Database.has_apply.2 (Or.inl hk)
  have hold : ∀ r ∈ d.rows.map (w.statement.change w.tenantId), ∃ r' ∈ d.rows,
      w.statement.change w.tenantId r' = r := fun r hr => List.mem_map.1 hr
  refine ⟨?_, ?_, ?_⟩
  · have hkeys : (d.apply w).rows.flatMap Row.keys =
        d.rows.flatMap Row.keys ++ (w.statement.inserted?.map Row.keys).getD [] := by
      simp only [Database.apply, List.flatMap_append, List.flatMap_map, Statement.change_keys]
      cases w.statement.inserted? <;> simp
    rw [hkeys, List.nodup_append]
    cases hs : w.statement with
    | insert row =>
        rw [hs] at habsent
        refine ⟨h.keys, row.keys_nodup, ?_⟩
        rintro k hk k' hk' rfl
        have hno := habsent k hk'
        obtain ⟨r, hr, hkr⟩ := List.mem_flatMap.1 hk
        exact absurd (Database.has_iff.2 ⟨r, hr, hkr⟩) (by simp [hno])
    | updateApplication loaded changed => exact ⟨h.keys, by simp [Statement.inserted?]⟩
    | updateAuditHash loaded changed => exact ⟨h.keys, by simp [Statement.inserted?]⟩
    | updateReviewQueueEntry loaded changed => exact ⟨h.keys, by simp [Statement.inserted?]⟩
  · intro r hr k hk
    rcases List.mem_append.1 hr with hr | hr
    · obtain ⟨r', hr', rfl⟩ := hold r hr
      rw [Statement.change_references] at hk
      exact hstays k (h.references r' hr' k hk)
    · cases hs : w.statement with
      | insert row =>
          obtain rfl : r = row := by simpa [hs, Statement.inserted?] using hr
          exact hstays k (hpresent k (by rw [hs]; exact hk))
      | updateApplication loaded changed => simp [hs, Statement.inserted?] at hr
      | updateAuditHash loaded changed => simp [hs, Statement.inserted?] at hr
      | updateReviewQueueEntry loaded changed => simp [hs, Statement.inserted?] at hr
  · intro r hr
    rcases List.mem_append.1 hr with hr | hr
    · obtain ⟨r', hr', rfl⟩ := hold r hr
      exact Statement.change_check hstatic (h.checks r' hr')
    · cases hs : w.statement with
      | insert row =>
          obtain rfl : r = row := by simpa [hs, Statement.inserted?] using hr
          rw [hs] at hstatic
          simp only [Statement.staticFault] at hstatic
          split at hstatic
          next => exact hstatic
          next => cases hstatic
      | updateApplication loaded changed => simp [hs, Statement.inserted?] at hr
      | updateAuditHash loaded changed => simp [hs, Statement.inserted?] at hr
      | updateReviewQueueEntry loaded changed => simp [hs, Statement.inserted?] at hr

theorem WellFormed.view {ws : List Write} {d : Database} (h : WellFormed d)
    (hws : postgres.Granted d ws) : WellFormed (postgres.view d ws) := by
  induction ws generalizing d with
  | nil => exact h
  | cons w ws ih => exact ih (h.apply hws.1) hws.2

/-! ### Looking a row up -/

/-- No two rows have a key in common. -/
theorem row_unique {rows : List Row} (h : (rows.flatMap Row.keys).Nodup) {r r' : Row} {k : Key}
    (hr : r ∈ rows) (hr' : r' ∈ rows) (hk : k ∈ r.keys) (hk' : k ∈ r'.keys) : r = r' := by
  by_contra hne
  have hpair := (List.nodup_flatMap.1 h).2
  have : Std.Symm (Function.onFun List.Disjoint Row.keys) := ⟨fun _ _ h _ hk hk' => h hk' hk⟩
  exact List.Pairwise.forall hpair hr hr' hne hk hk'

/-- **A row is looked up by a key**: a table, given by a constructor of the rows, has at most one
row that has the key. -/
theorem lookup_iff {d : Database} (h : (d.rows.flatMap Row.keys).Nodup) {β : Type}
    {π : Row → Option β} {f : β → Row} (hπ : ∀ r x, π r = some x ↔ r = f x)
    {p : β → Bool} {k : Key} (hk : ∀ x, p x = true → k ∈ (f x).keys) (x : β) :
    (d.rows.filterMap π).find? p = some x ↔ f x ∈ d.rows ∧ p x = true := by
  have hmem : ∀ y, y ∈ d.rows.filterMap π ↔ f y ∈ d.rows := by
    intro y
    simp only [List.mem_filterMap, hπ, exists_eq_right]
  constructor
  · intro hx
    exact ⟨(hmem x).1 (List.mem_of_find?_eq_some hx), List.find?_some hx⟩
  · rintro ⟨hx, hp⟩
    cases hf : (d.rows.filterMap π).find? p with
    | none => exact absurd hp (by simpa using List.find?_eq_none.1 hf x ((hmem x).2 hx))
    | some y =>
        have hy := (hmem y).1 (List.mem_of_find?_eq_some hf)
        have hrow := row_unique h hx hy (hk x hp) (hk y (List.find?_some hf))
        have hsome := (hπ (f y) x).2 hrow.symm
        rw [(hπ (f y) y).2 rfl] at hsome
        exact hsome

theorem application?_iff {d : Database} (h : (d.rows.flatMap Row.keys).Nodup) {a : ApplicationId}
    {r : ApplicationRow} :
    d.application? a = some r ↔ .application r ∈ d.rows ∧ r.applicationId = a := by
  have hlookup := lookup_iff h (π := Row.application?) (f := .application)
    (by intro r x; cases r <;> simp [Row.application?])
    (p := fun r => r.applicationId = a) (k := .application a)
    (by intro x hx; simp [Row.keys, ← of_decide_eq_true hx]) r
  rw [decide_eq_true_iff] at hlookup
  exact hlookup

theorem reviewQueueEntry?_iff {d : Database} (h : (d.rows.flatMap Row.keys).Nodup)
    {a : ApplicationId} {r : ReviewQueueEntryRow} :
    d.reviewQueueEntry? a = some r ↔ .reviewQueueEntry r ∈ d.rows ∧ r.applicationId = a := by
  have hlookup := lookup_iff h (π := Row.reviewQueueEntry?) (f := .reviewQueueEntry)
    (by intro r x; cases r <;> simp [Row.reviewQueueEntry?])
    (p := fun r => r.applicationId = a) (k := .reviewQueueEntry a)
    (by intro x hx; simp [Row.keys, ← of_decide_eq_true hx]) r
  rw [decide_eq_true_iff] at hlookup
  exact hlookup

theorem visible_keys {d : Database} (h : (d.rows.flatMap Row.keys).Nodup) (t : TenantId) :
    ((d.visible t).rows.flatMap Row.keys).Nodup :=
  List.nodup_flatMap.2
    ⟨fun r _ => r.keys_nodup, (List.nodup_flatMap.1 h).2.sublist List.filter_sublist⟩

/-- A tenant finds an application exactly when it is its own. -/
theorem application?_visible {d : Database} (h : (d.rows.flatMap Row.keys).Nodup) {t : TenantId}
    {a : ApplicationId} {r : ApplicationRow} :
    (d.visible t).application? a = some r ↔ d.application? a = some r ∧ r.tenantId = t := by
  rw [application?_iff (visible_keys h t), application?_iff h]
  simp only [Database.visible, List.mem_filter, Row.visibleTo, Row.tenantId?, Option.all_some,
    decide_eq_true_eq]
  tauto

theorem reviewQueueEntry?_visible {d : Database} (h : (d.rows.flatMap Row.keys).Nodup)
    {t : TenantId} {a : ApplicationId} {r : ReviewQueueEntryRow} :
    Database.reviewQueueEntry? (d.visible t) a = some r ↔
      d.reviewQueueEntry? a = some r ∧ r.tenantId = t := by
  rw [reviewQueueEntry?_iff (visible_keys h t), reviewQueueEntry?_iff h]
  simp only [Database.visible, List.mem_filter, Row.visibleTo, Row.tenantId?, Option.all_some,
    decide_eq_true_eq]
  tauto

/-! ### What the tables say of one application -/

/-- Whether an event of this type about this aggregate tells of a new version of `a`. -/
def isVersionEvent (a : ApplicationId) (eventType aggregateId : String) : Bool :=
  aggregateId = a.value &&
    (eventType = "ApplicationCreated" || eventType = "ApplicationStateChanged")

namespace Database

/-- The snapshots of an application. -/
def versionsOf (d : Database) (a : ApplicationId) : List ApplicationVersionRow :=
  d.applicationVersions.filter fun r => r.applicationId = a

/-- The outbox events about the versions of an application. -/
def outboxOf (d : Database) (a : ApplicationId) : List OutboxEventRow :=
  d.outboxEvents.filter fun r => isVersionEvent a r.eventType r.aggregateId

/-- The audit events about the versions of an application. -/
def auditOf (d : Database) (a : ApplicationId) : List AuditEventRow :=
  d.auditEvents.filter fun r => isVersionEvent a r.eventType r.aggregateId

end Database

/-- **What the tables say of one application.** -/
@[ext] structure Slice where
  row : Option ApplicationRow
  versions : List ApplicationVersionRow
  review : Option ReviewQueueEntryRow
  outbox : List OutboxEventRow
  audits : List AuditEventRow

def Database.slice (d : Database) (a : ApplicationId) : Slice :=
  ⟨d.application? a, d.versionsOf a, d.reviewQueueEntry? a, d.outboxOf a, d.auditOf a⟩

namespace Slice

def empty : Slice := ⟨none, [], none, [], []⟩

/-- What an insert does to the slice of `a`. -/
def insert (a : ApplicationId) (s : Slice) (row : Row) : Slice where
  row := s.row.or (row.application?.filter fun r => r.applicationId = a)
  versions := s.versions ++ (row.applicationVersion?.filter fun r => r.applicationId = a).toList
  review := s.review.or (row.reviewQueueEntry?.filter fun r => r.applicationId = a)
  outbox := s.outbox ++
    (row.outboxEvent?.filter fun r => isVersionEvent a r.eventType r.aggregateId).toList
  audits := s.audits ++
    (row.auditEvent?.filter fun r => isVersionEvent a r.eventType r.aggregateId).toList

/-- What a statement does to the slice of `a`. -/
def step (a : ApplicationId) (s : Slice) (w : Write) : Slice :=
  match w.statement with
  | .insert row => s.insert a row
  | .updateApplication loaded changed =>
      if loaded.applicationId = a then
        { s with row := s.row.map fun r =>
          if r.tenantId = w.tenantId then r.update loaded changed else r }
      else s
  | .updateAuditHash _ _ => s
  | .updateReviewQueueEntry loaded changed =>
      if loaded.applicationId = a then
        { s with review := s.review.map fun r =>
          if r.tenantId = w.tenantId then r.update loaded changed else r }
      else s

end Slice

theorem Database.apply_insert (d : Database) (t : TenantId) (row : Row) :
    d.apply ⟨t, .insert row⟩ = ⟨d.rows ++ [row]⟩ := by
  have hid : Statement.change t (.insert row) = id := by
    funext r
    cases r <;> rfl
  simp only [Database.apply, hid, List.map_id, Statement.inserted?, Option.toList_some]

/-- Rows are updated where they have a given key and meet a condition: what is found under a key
is the updated row, if it is the key of the update. -/
theorem find?_update {β κ : Type} [DecidableEq κ] {π : Row → Option β} {f : Row → Row}
    {g : β → κ} {c : β → Prop} [DecidablePred c] {u : β → β} {k : κ}
    (hf : ∀ r, π (f r) = (π r).map fun x => if g x = k ∧ c x then u x else x)
    (hg : ∀ x, g (u x) = g x) (rows : List Row) (a : κ) :
    ((rows.map f).filterMap π).find? (fun x => g x = a) =
      if k = a then
        ((rows.filterMap π).find? fun x => g x = a).map fun x => if c x then u x else x
      else (rows.filterMap π).find? fun x => g x = a := by
  have hπ : π ∘ f = fun r => (π r).map fun x => if g x = k ∧ c x then u x else x := funext hf
  have hp : ((fun x => decide (g x = a)) ∘ fun x => if g x = k ∧ c x then u x else x) =
      fun x => decide (g x = a) := by
    funext x
    simp only [Function.comp_apply]
    split
    · rw [hg]
    · rfl
  rw [List.filterMap_map, hπ, ← List.map_filterMap, List.find?_map, hp]
  cases hfind : (rows.filterMap π).find? fun x => g x = a with
  | none => simp
  | some x =>
      have hx : g x = a := by simpa using List.find?_some hfind
      by_cases hk : k = a
      · simp [hx, hk]
      · have : ¬ (a = k ∧ c x) := fun h => hk h.1.symm
        simp [hx, hk, this]

/-- A table that an update leaves alone. -/
theorem filterMap_change {β : Type} {π : Row → Option β} {f : Row → Row}
    (hf : ∀ r, π (f r) = π r) (rows : List Row) :
    (rows.map f).filterMap π = rows.filterMap π := by
  have hπ : π ∘ f = π := funext hf
  rw [List.filterMap_map, hπ]

theorem slice_insert (d : Database) (a : ApplicationId) (row : Row) :
    (⟨d.rows ++ [row]⟩ : Database).slice a = (d.slice a).insert a row := by
  have htable : ∀ {β : Type} (π : Row → Option β) (p : β → Bool),
      ((d.rows ++ [row]).filterMap π).filter p =
        (d.rows.filterMap π).filter p ++ ((π row).filter p).toList := by
    intro β π p
    rw [List.filterMap_append, List.filter_append]
    cases h : π row with
    | none => simp [h]
    | some x => by_cases hx : p x = true <;> simp [h, hx, Option.filter]
  have hlookup : ∀ {β : Type} (π : Row → Option β) (p : β → Bool),
      ((d.rows ++ [row]).filterMap π).find? p =
        ((d.rows.filterMap π).find? p).or ((π row).filter p) := by
    intro β π p
    rw [List.filterMap_append, List.find?_append]
    cases h : π row with
    | none => simp [h]
    | some x => by_cases hx : p x = true <;> simp [h, hx, Option.filter]
  ext1
  · exact hlookup Row.application? _
  · exact htable Row.applicationVersion? _
  · exact hlookup Row.reviewQueueEntry? _
  · exact htable Row.outboxEvent? _
  · exact htable Row.auditEvent? _

theorem Database.apply_update (d : Database) {t : TenantId} {s : Statement}
    (hs : s.inserted? = none) : d.apply ⟨t, s⟩ = ⟨d.rows.map (s.change t)⟩ := by
  simp only [Database.apply, hs, Option.toList_none, List.append_nil]

/-- No update touches a snapshot or an event. -/
theorem slice_change (d : Database) (t : TenantId) (s : Statement) (a : ApplicationId) :
    (⟨d.rows.map (s.change t)⟩ : Database).slice a =
      { d.slice a with
        row := (⟨d.rows.map (s.change t)⟩ : Database).application? a
        review := Database.reviewQueueEntry? ⟨d.rows.map (s.change t)⟩ a } := by
  ext1
  · rfl
  · simp only [Database.slice, Database.versionsOf, Database.applicationVersions]
    rw [filterMap_change (by intro r; cases s <;> cases r <;> rfl)]
  · rfl
  · simp only [Database.slice, Database.outboxOf, Database.outboxEvents]
    rw [filterMap_change (by intro r; cases s <;> cases r <;> rfl)]
  · simp only [Database.slice, Database.auditOf, Database.auditEvents]
    rw [filterMap_change (by intro r; cases s <;> cases r <;> rfl)]

/-- **A statement acts on each slice by itself.** -/
theorem slice_apply (d : Database) (w : Write) (a : ApplicationId) :
    (d.apply w).slice a = (d.slice a).step a w := by
  obtain ⟨t, s⟩ := w
  have hrow : (∀ r, (s.change t r).application? = r.application?) →
      (⟨d.rows.map (s.change t)⟩ : Database).application? a = (d.slice a).row := by
    intro h
    simp only [Database.application?, Database.applications, filterMap_change h, Database.slice]
  have hreview : (∀ r, Row.reviewQueueEntry? (s.change t r) = r.reviewQueueEntry?) →
      Database.reviewQueueEntry? ⟨d.rows.map (s.change t)⟩ a = (d.slice a).review := by
    intro h
    simp only [Database.reviewQueueEntry?, Database.reviewQueueEntries, filterMap_change h,
      Database.slice]
  cases s with
  | insert row =>
      rw [Database.apply_insert, slice_insert]
      rfl
  | updateApplication loaded changed =>
      rw [Database.apply_update d rfl, slice_change, hreview (by intro r; cases r <;> rfl)]
      have hfind := find?_update (π := Row.application?) (g := ApplicationRow.applicationId)
        (f := Statement.change t (.updateApplication loaded changed))
        (c := fun r => r.tenantId = t) (u := fun r => r.update loaded changed)
        (k := loaded.applicationId) (by intro r; cases r <;> rfl) (fun _ => rfl) d.rows a
      by_cases h : loaded.applicationId = a
      · rw [if_pos h] at hfind
        simp only [Slice.step, if_pos h]
        ext1
        · exact hfind
        all_goals rfl
      · rw [if_neg h] at hfind
        simp only [Slice.step, if_neg h]
        ext1
        · exact hfind
        all_goals rfl
  | updateAuditHash loaded changed =>
      rw [Database.apply_update d rfl, slice_change, hrow (by intro r; cases r <;> rfl),
        hreview (by intro r; cases r <;> rfl)]
      rfl
  | updateReviewQueueEntry loaded changed =>
      rw [Database.apply_update d rfl, slice_change, hrow (by intro r; cases r <;> rfl)]
      have hfind := find?_update (π := Row.reviewQueueEntry?)
        (g := ReviewQueueEntryRow.applicationId)
        (f := Statement.change t (.updateReviewQueueEntry loaded changed))
        (c := fun r => r.tenantId = t) (u := fun r => r.update loaded changed)
        (k := loaded.applicationId) (by intro r; cases r <;> rfl) (fun _ => rfl) d.rows a
      by_cases h : loaded.applicationId = a
      · rw [if_pos h] at hfind
        simp only [Slice.step, if_pos h]
        ext1
        case review => exact hfind
        all_goals rfl
      · rw [if_neg h] at hfind
        simp only [Slice.step, if_neg h]
        ext1
        case review => exact hfind
        all_goals rfl

theorem slice_view (ws : List Write) (d : Database) (a : ApplicationId) :
    (postgres.view d ws).slice a = ws.foldl (Slice.step a) (d.slice a) := by
  induction ws generalizing d with
  | nil => rfl
  | cons w ws ih =>
      rw [Schema.view_cons, ih, List.foldl_cons, show postgres.apply d w = d.apply w from rfl,
        slice_apply]

/-! ### Slices that tell a case -/

/-- What the outbox and the audit log both record of an event. -/
structure EventRecord where
  tenantId : TenantId
  eventType : String
  aggregateType : String
  aggregateId : String
  occurredAt : DateTime
  payload : Payload
  deriving DecidableEq

def DomainEvent.record (e : DomainEvent) : EventRecord :=
  ⟨e.tenantId, (eventToRecord e).1, (eventToRecord e).2.1, e.applicationId.value, e.occurredAt,
    (eventToRecord e).2.2⟩

def OutboxEventRow.record (r : OutboxEventRow) : EventRecord :=
  ⟨r.tenantId, r.eventType, r.aggregateType, r.aggregateId, r.occurredAt, r.payload⟩

def AuditEventRow.record (r : AuditEventRow) : EventRecord :=
  ⟨r.tenantId, r.eventType, r.aggregateType, r.aggregateId, r.occurredAt, r.payload⟩

@[simp] theorem outboxEventRow_record (e : DomainEvent) (eventId : String) (at' : DateTime) :
    (outboxEventRow e eventId at').record = e.record := rfl

@[simp] theorem auditEventRow_record (e : DomainEvent) (eventId prevHash : String)
    (at' : DateTime) : (auditEventRow e eventId prevHash at').record = e.record := rfl

namespace Slice

/-- The case a slice tells, if there is a row. -/
def caseFile? (s : Slice) : Option CaseFile :=
  s.row.map fun r => ⟨r, s.versions.map ApplicationVersionRow.status, s.review⟩

/-- **A slice tells a case**, whose story is told by `events`: the snapshots are numbered from one
and have the statuses of the history, the outbox and the audit log have the events, and the case
is one that creation and steps lead to. -/
structure Tells (a : ApplicationId) (s : Slice) (c : CaseFile) (events : List DomainEvent) :
    Prop where
  row : s.row = some c.row
  id : c.row.applicationId = a
  numbers : s.versions.map ApplicationVersionRow.version = List.range' 1 c.history.length
  statuses : s.versions.map ApplicationVersionRow.status = c.history
  review : s.review = c.review
  reached : c.Reached
  narrates : Narrates a c.row.tenantId c.history events
  outbox : s.outbox.map OutboxEventRow.record = events.map DomainEvent.record
  audits : s.audits.map AuditEventRow.record = events.map DomainEvent.record
  colonFree : ColonFree a.value

theorem Tells.caseFile? {a : ApplicationId} {s : Slice} {c : CaseFile}
    {events : List DomainEvent} (h : s.Tells a c events) : s.caseFile? = some c := by
  rw [Slice.caseFile?, h.row, h.statuses, h.review]
  rfl

/-- A slice goes on telling a case after a step of it: the tables have grown by what tells the
step. -/
theorem Tells.step {a : ApplicationId} {s s' : Slice} {c c' : CaseFile}
    {events more : List DomainEvent} (h : s.Tells a c events) (hs : c.Step c')
    {versions : List ApplicationVersionRow} (hrow : s'.row = some c'.row)
    (hversions : s'.versions = s.versions ++ versions) (hreview : s'.review = c'.review)
    (hnumbers : versions.map ApplicationVersionRow.version =
      List.range' (c.history.length + 1) versions.length)
    (hhistory : c'.history = c.history ++ versions.map ApplicationVersionRow.status)
    (hnarrates : Narrates a c.row.tenantId c'.history (events ++ more))
    (houtbox : s'.outbox.map OutboxEventRow.record =
      s.outbox.map OutboxEventRow.record ++ more.map DomainEvent.record)
    (haudits : s'.audits.map AuditEventRow.record =
      s.audits.map AuditEventRow.record ++ more.map DomainEvent.record) :
    s'.Tells a c' (events ++ more) := by
  have hfixed := hs.row_fixed
  refine ⟨hrow, hfixed.1.trans h.id, ?_, ?_, hreview, h.reached.step hs, ?_, ?_, ?_, h.colonFree⟩
  · rw [hversions, List.map_append, h.numbers, hnumbers, hhistory, List.length_append,
      List.length_map, Nat.add_comm _ 1, ← List.range'_append_1]
  · rw [hversions, List.map_append, h.statuses, hhistory]
  · rw [hfixed.2.1]
    exact hnarrates
  · rw [houtbox, h.outbox, List.map_append]
  · rw [haudits, h.audits, List.map_append]

end Slice

/-- The case of an application, if there is one. -/
def Database.caseFile? (d : Database) (a : ApplicationId) : Option CaseFile := (d.slice a).caseFile?

theorem caseFile?_row {d : Database} {a : ApplicationId} {c : CaseFile}
    (h : d.caseFile? a = some c) : d.application? a = some c.row := by
  simp only [Database.caseFile?, Slice.caseFile?, Option.map_eq_some_iff] at h
  obtain ⟨r, hr, rfl⟩ := h
  exact hr

theorem caseFile?_review {d : Database} {a : ApplicationId} {c : CaseFile}
    (h : d.caseFile? a = some c) : d.reviewQueueEntry? a = c.review := by
  simp only [Database.caseFile?, Slice.caseFile?, Option.map_eq_some_iff] at h
  obtain ⟨r, -, rfl⟩ := h
  rfl

theorem caseFile?_of_row {d : Database} {a : ApplicationId} {r : ApplicationRow}
    (h : d.application? a = some r) : ∃ c, d.caseFile? a = some c ∧ c.row = r :=
  ⟨_, by rw [Database.caseFile?, Slice.caseFile?, show (d.slice a).row = some r from h]; rfl, rfl⟩

/-! ### The discipline -/

/-- **The rows are in order**: the constraints hold, and each slice is empty or tells a case. -/
structure InOrder (d : Database) : Prop where
  wellFormed : WellFormed d
  slices : ∀ a, d.slice a = Slice.empty ∨ ∃ c events, (d.slice a).Tells a c events

/-- **What a commit may do**: keys stay taken, and cases go on. -/
structure Onward (d d' : Database) : Prop where
  keys : ∀ k, d.has k = true → d'.has k = true
  cases : ∀ a c, d.caseFile? a = some c → ∃ c', d'.caseFile? a = some c' ∧ c.Steps c'

theorem InOrder.tells {d : Database} (h : InOrder d) {a : ApplicationId} {c : CaseFile}
    (hc : d.caseFile? a = some c) : ∃ events, (d.slice a).Tells a c events := by
  rcases h.slices a with hempty | ⟨c', events, htells⟩
  · rw [Database.caseFile?, hempty] at hc
    cases hc
  · rw [Database.caseFile?, htells.caseFile?] at hc
    cases hc
    exact ⟨events, htells⟩

theorem InOrder.reached {d : Database} (h : InOrder d) {a : ApplicationId} {c : CaseFile}
    (hc : d.caseFile? a = some c) : c.Reached := by
  obtain ⟨events, htells⟩ := h.tells hc
  exact htells.reached

theorem Onward.refl (d : Database) : Onward d d :=
  ⟨fun _ h => h, fun _ c hc => ⟨c, hc, .refl⟩⟩

theorem Onward.trans {d d' d'' : Database} (h : Onward d d') (h' : Onward d' d'') :
    Onward d d'' := by
  refine ⟨fun k hk => h'.keys k (h.keys k hk), ?_⟩
  intro a c hc
  obtain ⟨c', hc', hs⟩ := h.cases a c hc
  obtain ⟨c'', hc'', hs'⟩ := h'.cases a c' hc'
  exact ⟨c'', hc'', hs.trans hs'⟩

theorem Statement.locks_of_absent {s : Statement} {k : Key} (h : k ∈ s.absent) : k ∈ s.locks := by
  cases s with
  | insert row => exact h
  | _ => cases h

/-- **Casework**: the rows stay in order, and cases go on. -/
def casework : Discipline postgres where
  Inv := InOrder
  Rely := Onward
  rely_refl := Onward.refl
  rely_trans := fun _ _ _ => Onward.trans
  fault_stable := by
    intro d d' ws w hr hk hf
    obtain ⟨hstatic, habsent, hpresent⟩ := fault_eq_none_iff.1 hf
    refine fault_eq_none_iff.2 ⟨hstatic, ?_, ?_⟩
    · intro k hka
      have hno := habsent k hka
      rw [← Bool.not_eq_true, occupied_view_iff] at hno ⊢
      rintro (hd | hws)
      · exact hno (Or.inl ((hk k (Statement.locks_of_absent hka)).1 hd))
      · exact hno (Or.inr hws)
    · intro k hkp
      rcases occupied_view_iff.1 (hpresent k hkp) with hd | hws
      · exact occupied_view_iff.2 (Or.inl (hr.keys k hd))
      · exact occupied_view_iff.2 (Or.inr hws)

/-- What a granted list of statements inserts was not there. -/
theorem absent_of_granted {ws : List Write} {d : Database} (h : postgres.Granted d ws)
    {w : Write} (hw : w ∈ ws) {k : Key} (hk : k ∈ w.statement.absent) : d.has k = false := by
  obtain ⟨before, after, rfl⟩ := List.append_of_mem hw
  have hg := ((postgres.granted_append before (w :: after) d).1 h).2
  have hno := (fault_eq_none_iff.1 hg.1).2.1 k hk
  by_contra hyes
  rw [Bool.not_eq_false] at hyes
  rw [has_view_of_has hyes] at hno
  cases hno

/-- The snapshots of a case take the keys of its versions. -/
theorem InOrder.has_version {d : Database} (h : InOrder d) {a : ApplicationId} {c : CaseFile}
    (hc : d.caseFile? a = some c) {v : ℕ} (hv : 1 ≤ v) (hle : v ≤ c.history.length) :
    d.has (.applicationVersion a v) = true := by
  obtain ⟨events, htells⟩ := h.tells hc
  have hmem : v ∈ (d.slice a).versions.map ApplicationVersionRow.version := by
    rw [htells.numbers, List.mem_range'_1]
    omega
  obtain ⟨r, hr, rfl⟩ := List.mem_map.1 hmem
  obtain ⟨hr, hra⟩ := List.mem_filter.1 hr
  obtain ⟨row, hrow, hrr⟩ := List.mem_filterMap.1 hr
  refine Database.has_iff.2 ⟨row, hrow, ?_⟩
  cases row <;> simp [Row.applicationVersion?] at hrr
  simp [Row.keys, hrr, of_decide_eq_true hra]

/-- **A case whose next version can be inserted is the current one**, however long ago it was
read. -/
theorem InOrder.current {d : Database} (h : InOrder d) {a : ApplicationId} {c c' : CaseFile}
    (hc : c.Reached) (hc' : d.caseFile? a = some c') (hs : c.Steps c')
    (hno : d.has (.applicationVersion a (c.row.version + 1)) = false) : c' = c := by
  refine hs.eq_of_length ?_
  by_contra hlt
  have hversion := hc.consistent.version
  have hyes := h.has_version hc' (v := c.row.version + 1) (by omega) (by omega)
  rw [hyes] at hno
  cases hno

end FinAssist
