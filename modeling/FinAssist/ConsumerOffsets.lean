/-
**The consumer and its offsets.**

`run_projection_consumer` takes a batch of records from the broker, partition by partition, applies
each record in a transaction of its own, and after the records of a partition commits its offsets.
Taking a batch moves the consumer's position in every partition that has records in it, and
committing without an argument commits the positions in *all* partitions.  So after the first
partition of a batch the records of the others count as consumed, though they have yet to be
applied; if the worker dies then, they are never delivered again.

Nothing is skipped as long as whatever is left of a batch when the offsets are committed has been
applied before, and only as long.

Main definitions:

* `FinAssist.Consumer` — the consumer, its batch and the offsets;
* `FinAssist.Consumer.step` — **what it does**, crashes and restarts included;
* `FinAssist.Consumer.NothingSkipped`.

Main results:

* `FinAssist.nothing_skipped_iff` — **nothing is skipped exactly as long as commits leave nothing
  unapplied behind**.
-/

import FinAssist.ProjectionConsumer
import FinAssist.Runs

set_option relaxedAutoImplicit false
set_option autoImplicit false

namespace FinAssist

/-! ### The loop -/

/-- A stretch of records of one partition, from the offset `next` up to `limit`. -/
structure Stretch (P : Type) where
  partition : P
  next : ℕ
  limit : ℕ
  deriving DecidableEq

/-- The offsets of a stretch. -/
def Stretch.offsets {P : Type} (s : Stretch P) : List ℕ := List.range' s.next (s.limit - s.next)

theorem Stretch.mem_offsets {P : Type} {s : Stretch P} {i : ℕ} :
    i ∈ s.offsets ↔ s.next ≤ i ∧ i < s.limit := by
  rw [Stretch.offsets, List.mem_range'_1]
  omega

/-- **The consumer**: the tables it writes, the committed offsets, its positions, what is left of
the batch in the order in which it goes through it, and the records whose transaction has
committed. -/
structure Consumer (P : Type) where
  store : ProjectionStore
  committed : P → ℕ
  position : P → ℕ
  batch : List (Stretch P)
  applied : List (P × ℕ)

/-- What happens next: a batch is taken, with a number of records from some partitions; the next
record is applied, on some tables of the application; the offsets are committed; or the worker
fails, wherever it is, and starts again. -/
inductive ConsumerAction (P : Type)
  | getmany (counts : List (P × ℕ))
  | applyNext (d : Database)
  | commit
  | restart

namespace Consumer

variable {P : Type} [DecidableEq P]

def start : Consumer P := ⟨ProjectionStore.empty, fun _ => 0, fun _ => 0, [], []⟩

/-- `max_records`. -/
def maxRecords : ℕ := 100

/-- How many records a batch has of a partition. -/
def countOf (counts : List (P × ℕ)) (p : P) : ℕ := (counts.lookup p).getD 0

/-- **What the consumer does.**  `topic` has the records of each partition; one that `json.loads`
makes no envelope of is `none`.  Where applying a record raises, the worker can only fail. -/
def step (topic : P → List (Option Envelope)) (consumerGroup : String) (c : Consumer P) :
    ConsumerAction P → Option (Consumer P)
  | .getmany counts =>
      if c.batch = [] ∧ (counts.map Prod.fst).Nodup ∧ (counts.map Prod.snd).sum ≤ maxRecords ∧
          ∀ x ∈ counts, 1 ≤ x.2 ∧ c.position x.1 + x.2 ≤ (topic x.1).length then
        some { c with
          position := fun p => c.position p + countOf counts p
          batch := counts.map fun x => ⟨x.1, c.position x.1, c.position x.1 + x.2⟩ }
      else none
  | .applyNext d =>
      match c.batch with
      | ⟨p, next, limit⟩ :: rest =>
          if next < limit then
            match (topic p)[next]? with
            | some (some envelope) =>
                match applyEvent d consumerGroup envelope c.store with
                | .ok (store, _) => some { c with
                    store := store
                    batch := ⟨p, next + 1, limit⟩ :: rest
                    applied := c.applied ++ [(p, next)] }
                | .error _ => none
            | _ => none
          else none
      | [] => none
  | .commit =>
      match c.batch with
      | ⟨_, next, limit⟩ :: rest =>
          if next = limit then some { c with committed := c.position, batch := rest } else none
      | [] => none
  | .restart => some { c with position := c.committed, batch := [] }

/-- **No record is skipped**: below the committed offset of a partition everything was applied. -/
def NothingSkipped (c : Consumer P) : Prop := ∀ p i, i < c.committed p → (p, i) ∈ c.applied

/-- The records left of the batch. -/
def pending (batch : List (Stretch P)) (p : P) (i : ℕ) : Prop :=
  ∃ s ∈ batch, s.partition = p ∧ i ∈ s.offsets

/-- **A commit that leaves nothing unapplied behind**: what is left of the batch was applied
before the worker was restarted. -/
def LeavesNothing (c : Consumer P) : ConsumerAction P → Prop
  | .commit => ∀ s ∈ c.batch, ∀ i ∈ s.offsets, (s.partition, i) ∈ c.applied
  | _ => True

instance (c : Consumer P) : (a : ConsumerAction P) → Decidable (c.LeavesNothing a)
  | .commit => inferInstanceAs
      (Decidable (∀ s ∈ c.batch, ∀ i ∈ s.offsets, (s.partition, i) ∈ c.applied))
  | .getmany _ => isTrue trivial
  | .applyNext _ => isTrue trivial
  | .restart => isTrue trivial

/-- **The invariant**: below the position of a partition everything was applied or is still in the
batch. -/
structure Inv (c : Consumer P) : Prop where
  skipped : c.NothingSkipped
  position : ∀ p i, i < c.position p → (p, i) ∈ c.applied ∨ pending c.batch p i
  ahead : ∀ s ∈ c.batch, s.limit ≤ c.position s.partition

omit [DecidableEq P] in
theorem inv_start : (start : Consumer P).Inv :=
  ⟨fun _ i h => absurd h (Nat.not_lt_zero i), fun _ i h => absurd h (Nat.not_lt_zero i),
    fun _ h => absurd h List.not_mem_nil⟩

theorem countOf_of_mem {counts : List (P × ℕ)} (hnodup : (counts.map Prod.fst).Nodup)
    {x : P × ℕ} (hx : x ∈ counts) : countOf counts x.1 = x.2 := by
  have hlookup : counts.lookup x.1 = some x.2 := by
    induction counts with
    | nil => cases hx
    | cons y counts ih =>
        rw [List.map_cons, List.nodup_cons] at hnodup
        rcases List.mem_cons.1 hx with rfl | hx
        · rw [List.lookup_cons_self]
        · have hne : x.1 ≠ y.1 := fun h => hnodup.1 (h ▸ List.mem_map_of_mem hx)
          rw [List.lookup_cons, beq_false_of_ne hne]
          exact ih hnodup.2 hx
  rw [countOf, hlookup]
  rfl

theorem pending_of_counts {position : P → ℕ} {counts : List (P × ℕ)} {p : P} {i : ℕ}
    (hlow : position p ≤ i) (hhigh : i < position p + countOf counts p) :
    pending (counts.map fun x => ⟨x.1, position x.1, position x.1 + x.2⟩) p i := by
  unfold countOf at hhigh
  cases hl : counts.lookup p with
  | none => rw [hl] at hhigh; simp at hhigh; omega
  | some k =>
      rw [hl] at hhigh
      have hmem : (p, k) ∈ counts := by
        obtain ⟨before, after, rfl, -⟩ := List.lookup_eq_some_iff.1 hl
        simp
      exact ⟨_, List.mem_map_of_mem hmem, rfl, Stretch.mem_offsets.2 ⟨hlow, hhigh⟩⟩

variable {topic : P → List (Option Envelope)} {consumerGroup : String}

/-- **A step keeps the invariant**, if a commit leaves nothing unapplied behind. -/
theorem Inv.step {c c' : Consumer P} {a : ConsumerAction P} (hc : c.Inv) (hok : c.LeavesNothing a)
    (hs : c.step topic consumerGroup a = some c') : c'.Inv := by
  cases a with
  | getmany counts =>
      simp only [Consumer.step] at hs
      split at hs
      next hcounts =>
        cases hs
        refine ⟨hc.skipped, fun p i hi => ?_, fun s hs => ?_⟩
        swap
        · obtain ⟨x, hx, rfl⟩ := List.mem_map.1 hs
          have hcount := countOf_of_mem hcounts.2.1 hx
          dsimp only
          omega
        dsimp only at hi ⊢
        by_cases hlow : i < c.position p
        · rcases hc.position p i hlow with happlied | hpending
          · exact Or.inl happlied
          · simp [pending, hcounts.1] at hpending
        · exact Or.inr (pending_of_counts (by omega) hi)
      next => cases hs
  | applyNext d =>
      simp only [Consumer.step] at hs
      split at hs
      next p next limit rest hbatch =>
        split at hs
        next hlt =>
          split at hs
          next envelope hrecord =>
            split at hs
            next store new happly =>
              cases hs
              refine ⟨fun q i hi => List.mem_append_left _ (hc.skipped q i hi), fun q i hi => ?_,
                fun s hmem => ?_⟩
              swap
              · rcases List.mem_cons.1 hmem with rfl | hmem
                · exact hc.ahead ⟨p, next, limit⟩ (hbatch ▸ List.mem_cons_self)
                · exact hc.ahead s (hbatch ▸ List.mem_cons_of_mem _ hmem)
              rcases hc.position q i hi with happlied | ⟨s, hmem, hp, hi⟩
              · exact Or.inl (List.mem_append_left _ happlied)
              · rw [hbatch] at hmem
                rcases List.mem_cons.1 hmem with rfl | hmem
                · obtain ⟨hle, hlt'⟩ := Stretch.mem_offsets.1 hi
                  dsimp only at hp hle hlt'
                  rcases Nat.eq_or_lt_of_le hle with rfl | hle
                  · exact Or.inl (by simp [hp])
                  · exact Or.inr ⟨_, List.mem_cons_self, hp, Stretch.mem_offsets.2 ⟨hle, hlt'⟩⟩
                · exact Or.inr ⟨s, List.mem_cons_of_mem _ hmem, hp, hi⟩
            next => cases hs
          next => cases hs
        next => cases hs
      next => cases hs
  | commit =>
      -- the commit moves the offsets up to the positions
      have hall : ∀ p i, i < c.position p → (p, i) ∈ c.applied := by
        intro p i hi
        rcases hc.position p i hi with happlied | hpending
        · exact happlied
        · obtain ⟨s, hmem, rfl, hoffset⟩ := hpending
          exact hok s hmem i hoffset
      simp only [Consumer.step] at hs
      split at hs
      next p next limit rest hbatch =>
        split at hs
        next =>
          cases hs
          refine ⟨hall, fun p i hi => Or.inl (hall p i hi), fun s hmem => ?_⟩
          exact hc.ahead s (hbatch ▸ List.mem_cons_of_mem _ hmem)
        next => cases hs
      next => cases hs
  | restart =>
      -- the positions fall back to the committed offsets
      cases hs
      exact ⟨hc.skipped, fun p i hi => Or.inl (hc.skipped p i hi),
        fun _ h => absurd h List.not_mem_nil⟩

/-- A commit that leaves something unapplied behind skips it. -/
theorem Inv.skips {c c' : Consumer P} (hc : c.Inv)
    (hs : c.step topic consumerGroup .commit = some c') {s : Stretch P} (hmem : s ∈ c.batch)
    {i : ℕ} (hi : i ∈ s.offsets) (hno : (s.partition, i) ∉ c.applied) : ¬ c'.NothingSkipped := by
  have hposition := hc.ahead s hmem
  have hlt := (Stretch.mem_offsets.1 hi).2
  simp only [Consumer.step] at hs
  split at hs
  next =>
    split at hs
    next =>
      cases hs
      exact fun h => hno (h _ _ (Nat.lt_of_lt_of_le hlt hposition))
    next => cases hs
  next => cases hs

end Consumer

/-- **Nothing is skipped exactly as long as commits leave nothing unapplied behind**, in any run of
the consumer over any topic, with any batches, failures and restarts. -/
theorem nothing_skipped_iff {P : Type} [DecidableEq P] (topic : P → List (Option Envelope))
    (consumerGroup : String) {c : Consumer P}
    (h : Runs.Reaches (Consumer.step topic consumerGroup) Consumer.LeavesNothing Consumer.start c) :
    c.NothingSkipped ∧ ∀ a c', c.step topic consumerGroup a = some c' →
      (c'.NothingSkipped ↔ c.LeavesNothing a) := by
  have hinv : c.Inv := h.invariant Consumer.Inv Consumer.inv_start fun _ _ _ hc hok hs =>
    hc.step hok hs
  refine ⟨hinv.skipped, fun a c' hs => ⟨?_, fun hok => (hinv.step hok hs).skipped⟩⟩
  intro hnothing
  cases a with
  | commit =>
      intro s hmem i hi
      by_contra hno
      exact hinv.skips hs hmem hi hno hnothing
  | _ => trivial

/-! ### Two partitions in one batch -/

namespace Sample

/-- The first event of an application. -/
def createdEnvelope (eventId applicationId : String) : Envelope where
  eventId := eventId
  eventType := "ApplicationCreated"
  schemaVersion := 1
  occurredAt := noon.isoformat
  producer := "finassist-api"
  tenantId := tenantId
  applicationId := applicationId
  correlationId := none
  causationId := none
  traceparent := none
  dataClassification := "internal"
  payload := [("product_id", .text productId.value)]

/-- Two partitions with one event each. -/
def topic : Bool → List (Option Envelope)
  | false => [some (createdEnvelope "event-1" "application-1")]
  | true => [some (createdEnvelope "event-2" "application-2")]

/-- Both records are in one batch; the worker fails right after the first commit. -/
def skipping : Consumer Bool :=
  Runs.follow (Consumer.step topic "projection") Consumer.start
    [.getmany [(false, 1), (true, 1)], .applyNext installation.database, .commit, .restart]

/-- A batch of one partition, and then one of the other. -/
def inTurn : List (ConsumerAction Bool) :=
  [.getmany [(false, 1)], .applyNext installation.database, .commit,
   .getmany [(true, 1)], .applyNext installation.database, .commit]

theorem inTurn_ok : Runs.RunOk (Consumer.step topic "projection") Consumer.LeavesNothing
    Consumer.start inTurn := by
  decide +kernel

end Sample

/-- With a batch of one partition at a time nothing is skipped. -/
theorem nothing_skipped_inTurn :
    (Runs.follow (Consumer.step Sample.topic "projection") Consumer.start
      Sample.inTurn).committed true = 1 ∧
    (Runs.follow (Consumer.step Sample.topic "projection") Consumer.start
      Sample.inTurn).NothingSkipped :=
  ⟨by decide +kernel,
    (nothing_skipped_iff Sample.topic "projection" (Runs.reaches_follow Sample.inTurn_ok)).1⟩

/-- The record of the second partition is below its committed offset, and was never applied; the
worker goes on behind it. -/
theorem record_skipped : ¬ ∀ c, Runs.Reachable (Consumer.step Sample.topic "projection")
    Consumer.start c → c.NothingSkipped := by
  intro h
  have hskipped := h Sample.skipping (Runs.reachable_follow _ _) true 0
  have hcommitted : Sample.skipping.committed true = 1 := by decide +kernel
  have happlied : Sample.skipping.applied = [(false, 0)] := by decide +kernel
  rw [hcommitted, happlied] at hskipped
  simp at hskipped

end FinAssist
