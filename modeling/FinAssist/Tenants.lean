/-
**Tenants.**

Row-level security splits the rows among the tenants, but not the keys: primary keys, unique
constraints and foreign keys are about all rows, whoever may see them.  What keeps the tenants apart
there is the program.  A statement that it sends names rows that the transaction has seen, rows it
has inserted itself, and ids that were drawn for it.

Main definitions:

* `FinAssist.Separate` — the rows of a tenant refer to rows of that tenant;
* `FinAssist.tenancy` — the tenants as a `ReadCommitted.Partition`;
* `FinAssist.Fits` — what has to be known of a row that is inserted.

Main results:

* `FinAssist.Separate.view` — statements that refer to rows of their own tenant keep the tenants
  separate;
* `FinAssist.owns_of_parent` — a key that hangs on a row of the tenant is the tenant's;
* `FinAssist.Fits.safe` — **a row that fits concerns its own tenant only**.
-/

import FinAssist.Casework
import FinAssist.FreshRuns
import FinAssist.Partitions

set_option relaxedAutoImplicit false
set_option autoImplicit false

namespace FinAssist

open ReadCommitted ApplicationStatus

/-! ### Rows that refer to each other -/

/-- A row that a row belongs to, where no foreign key says so. -/
def Row.anchors : Row → List Key
  | reviewQueueEntry r => [.application r.applicationId]
  | _ => []

@[simp] theorem Statement.change_anchors (t : TenantId) (s : Statement) (r : Row) :
    (s.change t r).anchors = r.anchors := by
  cases s <;> cases r <;> simp only [Statement.change, Row.anchors]
  all_goals split <;> rfl

@[simp] theorem Statement.change_visibleTo (t u : TenantId) (s : Statement) (r : Row) :
    (s.change t r).visibleTo u = r.visibleTo u := by
  rw [Row.visibleTo, Statement.change_tenantId?, Row.visibleTo]

/-- An update leaves the rows of other tenants alone. -/
theorem Statement.change_other {t u : TenantId} (h : t ≠ u) (s : Statement) {r : Row}
    (hr : r.visibleTo u = true) : s.change t r = r := by
  have hne : ∀ {v : TenantId}, decide (v = u) = true → ¬ v = t := fun hv hvt =>
    h (hvt.symm.trans (of_decide_eq_true hv))
  cases s <;> cases r <;> simp only [Statement.change] <;>
    rw [if_neg fun hc => hne hr hc.2]

theorem visible_has {d : Database} {t : TenantId} {k : Key} :
    (d.visible t).has k = true ↔ ∃ r ∈ d.rows, r.visibleTo t = true ∧ k ∈ r.keys := by
  simp only [Database.has_iff, Database.visible, List.mem_filter, and_assoc]

theorem has_of_visible {d : Database} {t : TenantId} {k : Key}
    (h : (d.visible t).has k = true) : d.has k = true := by
  obtain ⟨r, hr, -, hk⟩ := visible_has.1 h
  exact Database.has_iff.2 ⟨r, hr, hk⟩

/-- **The tenants are separate**: what a row of a tenant refers to and belongs to are rows that the
tenant can see. -/
structure Separate (d : Database) : Prop where
  wellFormed : WellFormed d
  apart : ∀ row ∈ d.rows, ∀ t, row.tenantId? = some t → ∀ k ∈ row.references ++ row.anchors,
    (d.visible t).has k = true

/-- Where a row after a transaction comes from. -/
theorem mem_view {ws : List Write} {d : Database} {row : Row}
    (h : row ∈ (postgres.view d ws).rows) : ∃ row', (row' ∈ d.rows ∨
      ∃ w ∈ ws, w.statement.inserted? = some row') ∧ row.tenantId? = row'.tenantId? ∧
        row.references = row'.references ∧ row.anchors = row'.anchors := by
  induction ws generalizing d with
  | nil => exact ⟨row, Or.inl h, rfl, rfl, rfl⟩
  | cons w ws ih =>
      rw [Schema.view_cons] at h
      obtain ⟨row', hfrom, htenant, hrefs, hanchors⟩ := ih h
      rcases hfrom with hmem | ⟨v, hv, hins⟩
      · rcases List.mem_append.1 hmem with hmem | hmem
        · obtain ⟨row₀, hrow₀, rfl⟩ := List.mem_map.1 hmem
          exact ⟨row₀, Or.inl hrow₀, by simpa using htenant, by simpa using hrefs,
            by simpa using hanchors⟩
        · exact ⟨row', Or.inr ⟨w, List.mem_cons_self, Option.mem_toList.1 hmem⟩, htenant, hrefs,
            hanchors⟩
      · exact ⟨row', Or.inr ⟨v, List.mem_cons_of_mem _ hv, hins⟩, htenant, hrefs, hanchors⟩

/-- What a tenant sees stays there. -/
theorem visible_has_view {ws : List Write} {d : Database} {t : TenantId} {k : Key}
    (h : (d.visible t).has k = true) : ((postgres.view d ws).visible t).has k = true := by
  induction ws generalizing d with
  | nil => exact h
  | cons w ws ih =>
      obtain ⟨r, hr, ht, hk⟩ := visible_has.1 h
      refine ih (visible_has.2 ⟨w.statement.change w.tenantId r, ?_, by simpa using ht,
        by simpa using hk⟩)
      exact List.mem_append_left _ (List.mem_map.2 ⟨r, hr, rfl⟩)

theorem inserted?_iff {s : Statement} {row : Row} :
    s.inserted? = some row ↔ s = .insert row := by
  cases s <;> simp [Statement.inserted?]

/-- **Statements that refer to rows of their own tenant** keep the tenants separate. -/
theorem Separate.view {d : Database} {ws : List Write} (h : Separate d)
    (hg : postgres.Granted d ws)
    (hws : ∀ w ∈ ws, ∀ row, w.statement = .insert row → ∀ k ∈ row.references ++ row.anchors,
      ((postgres.view d ws).visible w.tenantId).has k = true) :
    Separate (postgres.view d ws) := by
  refine ⟨h.wellFormed.view hg, fun row hrow t ht k hk => ?_⟩
  obtain ⟨row', hfrom, htenant, hrefs, hanchors⟩ := mem_view hrow
  rw [htenant] at ht
  rw [hrefs, hanchors] at hk
  rcases hfrom with hmem | ⟨w, hw, hins⟩
  · exact visible_has_view (h.apart row' hmem t ht k hk)
  · have hstatement := inserted?_iff.1 hins
    have hvisible : row'.visibleTo w.tenantId = true := by
      refine visibleTo_of_granted hg row' ?_
      rw [← hstatement]
      exact hw
    rw [Row.visibleTo, ht] at hvisible
    obtain rfl : t = w.tenantId := of_decide_eq_true hvisible
    exact hws w hw row' hstatement k hk

/-! ### The partition -/

/-- A row that belongs to a tenant. -/
def Write.IsProper (w : Write) : Prop := ∀ row, w.statement = .insert row → row.tenantId? ≠ none

theorem visibleTo_of_fault {d : Database} {w : Write} (h : postgres.fault d w = none) {row : Row}
    (hrow : w.statement = .insert row) : row.visibleTo w.tenantId = true := by
  have hg : postgres.Granted d [w] := ⟨h, trivial⟩
  refine visibleTo_of_granted hg row ?_
  rw [← hrow]
  exact List.mem_singleton.2 rfl

theorem apply_visible_own {d : Database} {w : Write} (h : postgres.fault d w = none) :
    (d.apply w).visible w.tenantId = (d.visible w.tenantId).apply w := by
  have hinserted : w.statement.inserted?.toList.filter (Row.visibleTo w.tenantId) =
      w.statement.inserted?.toList := by
    refine List.filter_eq_self.2 fun row hrow => ?_
    have hstatement := inserted?_iff.1 (Option.mem_toList.1 hrow)
    exact visibleTo_of_fault h hstatement
  have hchange : Row.visibleTo w.tenantId ∘ w.statement.change w.tenantId =
      Row.visibleTo w.tenantId := funext fun r => Statement.change_visibleTo _ _ _ r
  simp only [Database.apply, Database.visible, List.filter_append, List.filter_map, hinserted,
    hchange]

theorem apply_visible_other {d : Database} {w : Write} {t : TenantId} (ht : w.tenantId ≠ t)
    (hproper : w.IsProper) (h : postgres.fault d w = none) :
    (d.apply w).visible t = d.visible t := by
  have hinserted : w.statement.inserted?.toList.filter (Row.visibleTo t) = [] := by
    refine List.filter_eq_nil_iff.2 fun row hrow hvisible => ?_
    have hstatement := inserted?_iff.1 (Option.mem_toList.1 hrow)
    have hown := visibleTo_of_fault h hstatement
    have hsome := hproper row hstatement
    rw [Row.visibleTo] at hvisible hown
    cases htenant : row.tenantId? with
    | none => exact hsome htenant
    | some u =>
        rw [htenant] at hvisible hown
        exact ht ((of_decide_eq_true hown).symm.trans (of_decide_eq_true hvisible))
  have hkept : (d.rows.map (w.statement.change w.tenantId)).filter (Row.visibleTo t) =
      d.rows.filter (Row.visibleTo t) := by
    induction d.rows with
    | nil => rfl
    | cons r rows ih =>
        rw [List.map_cons, List.filter_cons, List.filter_cons, Statement.change_visibleTo, ih]
        split
        next hr => rw [Statement.change_other ht _ hr]
        next => rfl
  simp only [Database.apply, Database.visible, List.filter_append, hinserted, hkept,
    List.append_nil]

theorem has_visible_eq {d : Database} {t : TenantId} {ks : List Key}
    (h : ∀ k ∈ ks, d.has k = true → (d.visible t).has k = true) :
    ∀ k ∈ ks, (d.visible t).has k = d.has k := by
  intro k hk
  cases hd : d.has k with
  | true => exact h k hk hd
  | false =>
      rw [← Bool.not_eq_true]
      intro hyes
      rw [has_of_visible hyes] at hd
      cases hd

/-- **Whether a statement goes through** is seen in the rows of its tenant, when the keys it names
are there if anywhere. -/
theorem fault_visible {d : Database} {w : Write}
    (h : w.statement.staticFault w.tenantId = none →
      ∀ k ∈ w.statement.absent ++ w.statement.present w.tenantId,
        d.has k = true → (d.visible w.tenantId).has k = true) :
    (d.visible w.tenantId).fault w = d.fault w := by
  rw [Database.fault, Database.fault]
  cases hstatic : w.statement.staticFault w.tenantId with
  | some f => rfl
  | none =>
      have hhas := has_visible_eq (h hstatic)
      have hany : w.statement.absent.any (d.visible w.tenantId).has =
          w.statement.absent.any d.has := by
        rw [Bool.eq_iff_iff, List.any_eq_true, List.any_eq_true]
        exact exists_congr fun k => and_congr_right fun hk => by
          rw [hhas k (List.mem_append_left _ hk)]
      have hall : (w.statement.present w.tenantId).all (d.visible w.tenantId).has =
          (w.statement.present w.tenantId).all d.has := by
        rw [Bool.eq_iff_iff, List.all_eq_true, List.all_eq_true]
        exact forall_congr' fun k => forall_congr' fun hk => by
          rw [hhas k (List.mem_append_right _ hk)]
      simp only [hany, hall]

/-- The keys that an answer brings. -/
def mintedBy : (q : Ask) → Answer q → Key → Prop
  | .newId, id, k => k.id? = some id.value
  | _, _, _ => False

/-- **The tenants**, as parties that share the database. -/
def tenancy : Partition postgres Answer TenantId where
  part t d := d.visible t
  party := Write.tenantId
  proper := Write.IsProper
  admitted w := w.statement.staticFault w.tenantId = none
  takes w := w.statement.absent
  needs w := w.statement.present w.tenantId
  anchors w := (w.statement.inserted?.map Row.anchors).getD []
  minted k := k.id? ≠ none
  mints := mintedBy
  Inv := Separate
  part_part t d := by simp [Database.visible, List.filter_filter]
  part_own _ _ := apply_visible_own
  part_other _ _ _ := apply_visible_other
  occupied_part _ _ _ := has_of_visible
  occupied_apply d w k := by
    change (d.apply w).has k = true ↔ d.has k = true ∨ k ∈ w.statement.absent
    rw [Database.has_apply]
    cases w.statement <;> simp [Statement.inserted?, Statement.absent]
  admitted_of_fault _ _ h := (fault_eq_none_iff.1 h).1
  needs_of_fault _ _ h := (fault_eq_none_iff.1 h).2.2
  fault_part _ _ := fault_visible
  inv_view d ws hd hg _ hws := by
    refine hd.view hg fun w hw row hrow k hk => hws w hw k ?_
    simpa [hrow, Statement.present, Statement.inserted?] using hk

/-! ### Keys that are the tenant's -/

section Keys

variable {t : TenantId} {K : Known Key}

/-- A key that is known to be taken by a row of the tenant. -/
theorem owns_of_seen {k : Key} (h : K.seen k) : tenancy.Owns t K k := fun _ _ hK _ => hK k h

/-- A key that only rows have that the tenant can see. -/
theorem owns_of_visible {k : Key} (h : ∀ row : Row, k ∈ row.keys → row.visibleTo t = true) :
    tenancy.Owns t K k := by
  intro d _ _ hk
  obtain ⟨row, hrow, hkrow⟩ := Database.has_iff.1 hk
  exact visible_has.2 ⟨row, hrow, h row hkrow, hkrow⟩

/-- **A key that hangs on a row of the tenant**: rows that have it refer to one row, which no two
tenants can see. -/
theorem owns_of_parent {k k₀ : Key} (hseen : K.seen k₀)
    (hchild : ∀ row : Row, k ∈ row.keys → row.tenantId? ≠ none ∧ k₀ ∈ row.references ++ row.anchors)
    (hparent : ∀ row : Row, k₀ ∈ row.keys → row.tenantId? ≠ none) : tenancy.Owns t K k := by
  intro d hd hK hk
  obtain ⟨row, hrow, hkrow⟩ := Database.has_iff.1 hk
  obtain ⟨hsome, hrefers⟩ := hchild row hkrow
  obtain ⟨u, hu⟩ := Option.ne_none_iff_exists'.1 hsome
  -- the row it refers to is seen by its tenant, and by `t`
  obtain ⟨p, hp, hpu, hkp⟩ := visible_has.1 (hd.apart row hrow u hu k₀ hrefers)
  obtain ⟨p', hp', hpt, hkp'⟩ := visible_has.1 (hK k₀ hseen)
  obtain rfl := row_unique hd.wellFormed.keys hp hp' hkp hkp'
  obtain ⟨v, hv⟩ := Option.ne_none_iff_exists'.1 (hparent p hkp)
  rw [Row.visibleTo, hv] at hpu hpt
  have hut : u = t := (of_decide_eq_true hpu).symm.trans (of_decide_eq_true hpt)
  refine visible_has.2 ⟨row, hrow, ?_, hkrow⟩
  rw [Row.visibleTo, hu, hut]
  exact decide_eq_true rfl

theorem owns_tenant (u : TenantId) : tenancy.Owns t K (.tenant u) :=
  owns_of_visible fun row h => by cases row <;> simp_all [Row.keys, Row.visibleTo, Row.tenantId?]

theorem owns_idempotencyKey (operationName key : String) :
    tenancy.Owns t K (.idempotencyKey t operationName key) :=
  owns_of_visible fun row h => by cases row <;> simp_all [Row.keys, Row.visibleTo, Row.tenantId?]

theorem owns_auditHash : tenancy.Owns t K (.auditHash t) :=
  owns_of_visible fun row h => by cases row <;> simp_all [Row.keys, Row.visibleTo, Row.tenantId?]

theorem owns_applicationOf (a : ApplicationId) : tenancy.Owns t K (.applicationOf t a) :=
  owns_of_visible fun row h => by cases row <;> simp_all [Row.keys, Row.visibleTo, Row.tenantId?]

theorem owns_reviewQueueEntryOf (a : ApplicationId) :
    tenancy.Owns t K (.reviewQueueEntryOf t a) :=
  owns_of_visible fun row h => by cases row <;> simp_all [Row.keys, Row.visibleTo, Row.tenantId?]

theorem tenantId?_of_application {a : ApplicationId} {row : Row} (h : .application a ∈ row.keys) :
    row.tenantId? ≠ none := by
  cases row <;> simp_all [Row.keys, Row.tenantId?]

theorem owns_applicationVersion {a : ApplicationId} (h : K.seen (.application a)) (version : ℕ) :
    tenancy.Owns t K (.applicationVersion a version) :=
  owns_of_parent h
    (fun row hk => by cases row <;> simp_all [Row.keys, Row.tenantId?, Row.references])
    fun _ => tenantId?_of_application

theorem owns_reviewQueueEntry {a : ApplicationId} (h : K.seen (.application a)) :
    tenancy.Owns t K (.reviewQueueEntry a) :=
  owns_of_parent h (fun row hk => by cases row <;> simp_all [Row.keys, Row.tenantId?, Row.anchors])
    fun _ => tenantId?_of_application

theorem owns_contradictionOfCheck {id : String} (h : K.seen (.verificationCheck id)) :
    tenancy.Owns t K (.contradictionOfCheck id) :=
  owns_of_parent h
    (fun row hk => by cases row <;> simp_all [Row.keys, Row.tenantId?, Row.references])
    fun row hk => by cases row <;> simp_all [Row.keys, Row.tenantId?]

end Keys

/-! ### Rows that fit -/

/-- **A row that fits** the tenant: it refers to rows of the tenant, and its ids were drawn for
it. -/
structure Fits (t : TenantId) (K : Known Key) (row : Row) : Prop where
  proper : row.tenantId? ≠ none
  product : row.product? = none
  refers : ∀ k ∈ row.references, K.seen k ∨ ∃ u, k = .tenant u
  anchors : ∀ k ∈ row.anchors, K.seen k
  new : ∀ k ∈ row.keys, k.id? ≠ none → K.new k

theorem Fits.mono {t : TenantId} {K K' : Known Key} {row : Row} (h : Fits t K row) (hK : K.Le K') :
    Fits t K' row :=
  ⟨h.proper, h.product, fun k hk => (h.refers k hk).imp (hK.seen k) id,
    fun k hk => hK.seen k (h.anchors k hk), fun k hk hid => hK.new k (h.new k hk hid)⟩

/-- **A row that fits concerns its own tenant only.** -/
theorem Fits.safe {t : TenantId} {K : Known Key} {row : Row} (h : Fits t K row) :
    tenancy.Safe t K ⟨t, .insert row⟩ := by
  have hvisible : (Statement.insert row).staticFault t = none → row.visibleTo t = true := by
    intro hstatic
    by_contra hno
    simp [Statement.staticFault, hno] at hstatic
  refine ⟨rfl, fun row' hrow => ?_, fun _ k hk => ?_, fun _ => h.anchors, fun _ => h.new, ?_⟩
  · cases hrow
    exact h.proper
  · rcases h.refers k hk with hseen | ⟨u, rfl⟩
    · exact owns_of_seen hseen
    · exact owns_tenant u
  · intro hadmitted k hk hold
    have ht := hvisible hadmitted
    have hid : k.id? = none := not_not.1 hold
    change k ∈ row.keys at hk
    -- what is left are keys of the tenant by name, and keys that hang on a row of it
    have hrefers := h.refers
    have hanchors := h.anchors
    cases row with
    | tenant r => exact (h.proper rfl).elim
    | product r => exact absurd h.product (by simp [Row.product?])
    | application r =>
        obtain rfl : r.tenantId = t := of_decide_eq_true ht
        rcases List.mem_pair.1 hk with rfl | rfl
        · cases hid
        · exact owns_applicationOf _
    | applicationVersion r =>
        rcases List.mem_pair.1 hk with rfl | rfl
        · cases hid
        · refine owns_applicationVersion ?_ _
          exact (hrefers _ List.mem_cons_self).resolve_right (by simp)
    | idempotencyKey r =>
        obtain rfl : r.tenantId = t := of_decide_eq_true ht
        rw [List.mem_singleton.1 hk]
        exact owns_idempotencyKey _ _
    | auditHash r =>
        obtain rfl : r.tenantId = t := of_decide_eq_true ht
        rw [List.mem_singleton.1 hk]
        exact owns_auditHash
    | reviewQueueEntry r =>
        obtain rfl : r.tenantId = t := of_decide_eq_true ht
        rcases List.mem_pair.1 hk with rfl | rfl
        · exact owns_reviewQueueEntry (hanchors _ List.mem_cons_self)
        · exact owns_reviewQueueEntryOf _
    | contradiction r =>
        rcases List.mem_pair.1 hk with rfl | rfl
        · cases hid
        · refine owns_contradictionOfCheck ?_
          exact (hrefers _ List.mem_cons_self).resolve_right (by simp)
    | _ =>
        rw [List.mem_singleton.1 hk] at hid
        cases hid

end FinAssist
