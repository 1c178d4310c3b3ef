/-
**A tenant has what it would have alone.**

All tenants share the tables, their constraints and the id generator.  Row-level security hides the
rows of the others, but a constraint does not ask who may see a row: a statement could fail because
of a row that its tenant cannot see.  As the ids are drawn once, and as every program keeps to its
tenant, none does.

Main definitions:

* `FinAssist.uuidHost` — surroundings in which no id is drawn twice, and nothing else is assumed;
* `FinAssist.isolation` — these surroundings treat the tenants apart;
* `FinAssist.Installation.only` — an installation with the products of one tenant.

Main results:

* `FinAssist.tenants_are_isolated` — **what a tenant sees, what its requests have committed and how
  far they have come** could all be so if no other tenant had made a request;
* `FinAssist.rows_stay_apart` — **a row of a tenant refers to rows of that tenant**.
-/

import Mathlib.Data.List.Flatten
import FinAssist.TenantShapes

set_option relaxedAutoImplicit false
set_option autoImplicit false

namespace FinAssist

open ReadCommitted ApplicationStatus

/-! ### Ids -/

/-- Who has drawn an id. -/
abbrev Ids := String → Option TenantId

def noIds : Ids := fun _ => none

/-- After an id was drawn. -/
def Ids.draw (e : Ids) (t : TenantId) (id : String) : Ids :=
  fun id' => if id' = id then some t else e id'

/-- The ids of one tenant. -/
def Ids.of (t : TenantId) (e : Ids) : Ids := fun id => (e id).filter (· = t)

/-- An answer to a tenant: an id is one that nobody has drawn before. -/
def Ids.answer (e : Ids) (t : TenantId) : (q : Ask) → Answer q → Option Ids
  | .newId, id => if e id.value = none then some (e.draw t id.value) else none
  | _, _ => some e

/-- **Surroundings in which no id is drawn twice.** -/
def uuidHost : Host programs where
  Ext := Ids
  Tick := Empty
  spawn _ _ _ := true
  answer e _ κ := e.answer (Kind.tenantId κ)
  tick _ _ _ τ := τ.elim

variable {e e' : Ids} {t u : TenantId}

/-- An answer changes nothing, unless it is an id. -/
theorem Ids.answer_cases {q : Ask} {a : Answer q} (h : e.answer t q a = some e') :
    (e' = e ∧ ∀ k, ¬ mintedBy q a k) ∨
      ∃ id, e id = none ∧ e' = e.draw t id ∧ ∀ k, mintedBy q a k → k.id? = some id := by
  cases q with
  | newId =>
      rw [Ids.answer] at h
      split at h
      next hnone =>
        obtain rfl := Option.some.inj h
        exact Or.inr ⟨Uuid4.value a, hnone, rfl, fun _ hk => hk⟩
      next => cases h
  | _ =>
      obtain rfl := Option.some.inj h
      exact Or.inl ⟨rfl, fun _ hk => hk⟩

theorem Ids.of_eq_none {id : String} (h : e id = none) : e.of t id = none := by
  rw [Ids.of, h, Option.filter_none]

theorem Ids.of_draw_own (id : String) : (e.draw t id).of t = (e.of t).draw t id := by
  funext id'
  simp only [Ids.of, Ids.draw]
  split <;> simp

theorem Ids.of_draw_other {id : String} (h : e id = none) (htu : u ≠ t) :
    (e.draw u id).of t = e.of t := by
  funext id'
  simp only [Ids.of, Ids.draw]
  split
  next hid => simp [hid, h, htu]
  next => rfl

/-- What a tenant is answered, it would be answered alone. -/
theorem Ids.answer_of {q : Ask} {a : Answer q} (h : e.answer t q a = some e') :
    (e.of t).answer t q a = some (e'.of t) := by
  cases q with
  | newId =>
      rw [Ids.answer] at h ⊢
      split at h
      next hnone =>
        obtain rfl := Option.some.inj h
        rw [if_pos (Ids.of_eq_none hnone), Ids.of_draw_own]
      next => cases h
  | _ =>
      obtain rfl := Option.some.inj h
      rfl

/-- **The ids keep the tenants apart.** -/
def isolation : Splits tenancy Kind.tenantId uuidHost where
  issued (e : Ids) t k := ∃ id, k.id? = some id ∧ e id = some t
  own t (e : Ids) := e.of t
  apart e t t' k := by
    rintro ⟨id, hk, ht⟩ ⟨id', hk', ht'⟩
    obtain rfl := Option.some.inj (hk.symm.trans hk')
    exact Option.some.inj (ht.symm.trans ht')
  kept e d κ q a e' h t k := by
    rintro ⟨id, hk, ht⟩
    refine ⟨id, hk, ?_⟩
    rcases Ids.answer_cases h with ⟨rfl, -⟩ | ⟨id', hnone, rfl, -⟩
    · exact ht
    · refine (if_neg fun hid => ?_).trans ht
      rw [hid, hnone] at ht
      cases ht
  noted e d κ q a e' h k hk := by
    rcases Ids.answer_cases h with ⟨-, hno⟩ | ⟨id, -, rfl, hid⟩
    · exact (hno k hk).elim
    · exact ⟨id, hid k hk, if_pos rfl⟩
  answers_own e d κ q a e' h := Ids.answer_of h
  answers_other e d κ q a e' t h ht := by
    rcases Ids.answer_cases h with ⟨rfl, -⟩ | ⟨id, hnone, rfl, -⟩
    · rfl
    · exact Ids.of_draw_other hnone ht
  spawns _ _ _ _ _ := rfl
  still _ _ _ τ _ _ := τ.elim

/-! ### Installations -/

namespace Installation

variable (I : Installation)

/-- The products of one tenant. -/
def only (t : TenantId) : Installation where
  tenants := I.tenants
  products := I.products.filter (·.tenantId = t)
  keys := I.keys.sublist
    (((List.Sublist.refl _).append (List.filter_sublist.map _)).flatMap _)
  tenant_mem p hp := I.tenant_mem p (List.mem_of_mem_filter hp)

theorem only_database (t : TenantId) : (I.only t).database = I.database.visible t := by
  have htenants : (I.tenants.map Row.tenant).filter (Row.visibleTo t) = I.tenants.map .tenant :=
    List.filter_eq_self.2 fun row hrow => by
      obtain ⟨r, -, rfl⟩ := List.mem_map.1 hrow
      rfl
  have hproducts : (I.products.map Row.product).filter (Row.visibleTo t) =
      (I.products.filter (·.tenantId = t)).map .product := by
    rw [List.filter_map]
    rfl
  simp only [database, only, Database.visible, List.filter_append, htenants, hproducts]

/-- Before the first request the tenants are separate. -/
theorem separate : Separate I.database := by
  refine ⟨I.wellFormed, fun row hrow t ht k hk => ?_⟩
  rcases mem_rows hrow with ⟨r, -, rfl⟩ | ⟨p, hp, rfl⟩
  · cases ht
  · obtain rfl : k = .tenant p.tenantId := by
      simpa [Row.references, Row.anchors] using hk
    refine visible_has.2 ⟨.tenant ⟨p.tenantId⟩, ?_, rfl, List.mem_singleton.2 rfl⟩
    exact List.mem_append_left _ (List.mem_map_of_mem (I.tenant_mem p hp))

/-- No id has been drawn yet. -/
theorem unminted {k : Key} (hk : k.id? ≠ none) : ¬ I.database.has k = true := by
  intro h
  -- tenants and products have ids of their own
  rcases has_cases h with ⟨t, rfl⟩ | ⟨p, rfl⟩ | ⟨code, rfl⟩ <;> exact hk rfl

/-- What a tenant would find. -/
theorem start_alone (t : TenantId) :
    (I.start uuidHost noIds).alone isolation t = (I.only t).start uuidHost noIds := by
  simp only [start, World.alone, only_database]
  rfl

theorem granted {w : World uuidHost} (h : Reachable postgres (I.start uuidHost noIds) w) (i : ℕ)
    (u : Task programs) (hu : w.tasks[i]? = some u) : postgres.Granted w.db u.writes :=
  (I.sound h).granted i u hu

end Installation

/-! ### Isolation -/

/-- **A tenant has what it would have alone**: from any world that is reached the requests of the
other tenants can be taken away, so that they never begin, and what the tenant sees, what it has
committed and how far its own requests have come stays as it is. -/
theorem tenants_are_isolated (I : Installation) {w : World uuidHost}
    (h : Reachable postgres (I.start uuidHost noIds) w) (t : TenantId) :
    ∃ v : World uuidHost, Reachable postgres ((I.only t).start uuidHost noIds) v ∧
      v.db = w.db.visible t ∧
      v.log = w.log.filter (fun e => Kind.tenantId e.kind = t) ∧
      v.tasks.length = w.tasks.length ∧
      ∀ (i : ℕ) u, w.tasks[i]? = some u →
        (Kind.tenantId u.kind = t → v.tasks[i]? = some u) ∧
        (Kind.tenantId u.kind ≠ t → v.tasks[i]? = some ⟨u.kind, [], Kind.prog u.kind⟩) := by
  have halone : Reachable postgres ((I.only t).start uuidHost noIds) (w.alone isolation t) := by
    rw [← I.start_alone]
    have h₀ : tenancy.Inv (I.start uuidHost noIds).db := I.separate
    exact Reaches.alone Kind.confined h₀ (fun _ hk => I.unminted hk) rfl
      (fun _ hw => I.granted hw) t h
  refine ⟨w.alone isolation t, halone, rfl, rfl, List.length_map _, fun i u hu => ?_⟩
  have hget : (w.alone isolation t).tasks[i]? = some (Task.alone Kind.tenantId t u) := by
    change (w.tasks.map (Task.alone Kind.tenantId t))[i]? = _
    rw [List.getElem?_map, hu]
    rfl
  exact ⟨fun ht => hget.trans (congrArg some (Task.alone_own ht)),
    fun ht => hget.trans (congrArg some (Task.alone_other ht))⟩

/-- **A row of a tenant refers to rows of that tenant**, though no foreign key says so. -/
theorem rows_stay_apart (I : Installation) {w : World uuidHost}
    (h : Reachable postgres (I.start uuidHost noIds) w) : ∀ row ∈ w.db.rows, ∀ t,
      row.tenantId? = some t → ∀ k ∈ row.references ++ row.anchors,
        ∃ row' ∈ w.db.rows, row'.visibleTo t = true ∧ k ∈ row'.keys := by
  have h₀ : tenancy.Inv (I.start uuidHost noIds).db := I.separate
  have hkept : w.Kept isolation := Reaches.kept Kind.confined h₀
    (fun _ hk => I.unminted hk) rfl (fun _ hw => I.granted hw) h
  intro row hrow t ht k hk
  exact visible_has.1 (hkept.inv.apart row hrow t ht k hk)

/-! ### Two tenants -/

namespace Sample

def otherTenantId : TenantId := ⟨"10000000-0000-4000-8000-000000000003", by decide⟩

def otherProductId : ProductId := ⟨"20000000-0000-4000-8000-000000000004", by decide⟩

def otherProduct : ProductRow :=
  { product with productId := otherProductId, tenantId := otherTenantId, code := "PERSONAL-2" }

def twoTenants : List TenantRow := [⟨tenantId⟩, ⟨otherTenantId⟩]

theorem twoTenants_keys : ((twoTenants.map Row.tenant ++
    [product, otherProduct].map Row.product).flatMap Row.keys).Nodup := by
  decide

theorem mem_twoTenants : ∀ p ∈ [product, otherProduct], ⟨p.tenantId⟩ ∈ twoTenants := by
  simp [product, otherProduct, twoTenants]

def neighbourhood : Installation :=
  ⟨twoTenants, [product, otherProduct], twoTenants_keys, mem_twoTenants⟩

def otherCreate : CreateApplicationCommand :=
  ⟨otherTenantId, "create-1", "Grace", "Hopper", noon.date, "grace@example.org", otherProductId,
    ⟨250000, .usd⟩, 24⟩

/-- Two tenants create an application each, in turns and under the same idempotency key. -/
def neighbours : World uuidHost :=
  (neighbourhood.start uuidHost noIds).follow postgres
    (.spawn (.command (.createApplication create)) ::
      .spawn (.command (.createApplication otherCreate)) ::
        (steps 0 0 9 ++ steps 1 9 18 ++ steps 0 27 9))

theorem reachable_neighbours :
    Reachable postgres (neighbourhood.start uuidHost noIds) neighbours :=
  reachable_follow _ _

end Sample

/-- Of two applications a tenant sees its own, and it would have it alone. -/
theorem tenants_are_isolated_neighbours : Sample.neighbours.db.applications.length = 2 ∧
    (Sample.neighbours.db.visible Sample.tenantId).applications.length = 1 ∧
    ∃ v : World uuidHost,
      Reachable postgres ((Sample.neighbourhood.only Sample.tenantId).start uuidHost noIds) v ∧
        v.db = Sample.neighbours.db.visible Sample.tenantId :=
  ⟨by decide +kernel, by decide +kernel,
    (tenants_are_isolated Sample.neighbourhood Sample.reachable_neighbours Sample.tenantId).imp
      fun _ hv => ⟨hv.1, hv.2.1⟩⟩

/-- Each of the two applications refers to an applicant of its own tenant. -/
theorem rows_stay_apart_neighbours : Sample.neighbours.db.applications.length = 2 ∧
    ∀ row ∈ Sample.neighbours.db.rows, ∀ t, row.tenantId? = some t →
      ∀ k ∈ row.references ++ row.anchors,
        ∃ row' ∈ Sample.neighbours.db.rows, row'.visibleTo t = true ∧ k ∈ row'.keys :=
  ⟨by decide +kernel, rows_stay_apart Sample.neighbourhood Sample.reachable_neighbours⟩

end FinAssist
