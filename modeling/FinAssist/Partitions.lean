/-
**Parties that share a database.**

The rows are split among parties: what a statement of one party does to its own part it does
whatever the others have, and to the parts of the others it does nothing.  Keys are what the parties
still have in common, since they are unique among all rows.  When a program names no key but those
that its party has in its part, or that were issued to it, it runs as if its party were alone.

Main definitions:

* `ReadCommitted.Partition` — rows that are split among parties;
* `ReadCommitted.Partition.confined` — **what a program may name**, as a weakest precondition on the
  keys its party is known to have;
* `ReadCommitted.Splits` — a host that treats the parties apart;
* `ReadCommitted.World.alone` — **the world of one party**, in which nobody else ever takes a step.

Main results:

* `ReadCommitted.Partition.confined_bind`, `ReadCommitted.Partition.confined_tryCatch` — the rules;
* `ReadCommitted.Reaches.kept` — what confined programs keep;
* `ReadCommitted.Reaches.alone` — **what a party has is what it would have alone**.
-/

import FinAssist.RelyGuarantee

set_option relaxedAutoImplicit false
set_option autoImplicit false

namespace ReadCommitted

variable {Db Write Fault Key Ask T : Type} {Ans : Ask → Type} {Exc : Type} {α β : Type}

/-! ### Partitions -/

/-- **Rows that are split among parties.**  A statement `takes` the keys of the row it inserts,
`needs` the keys of rows that must be there, and has `anchors`: keys of rows that the row it inserts
belongs to.  Of the keys some are `minted`: they are new when they are first used, and an answer
may bring them. -/
structure Partition (S : Schema Db Write Fault Key) (Ans : Ask → Type) (T : Type) where
  part : T → Db → Db
  party : Write → T
  proper : Write → Prop
  admitted : Write → Prop
  takes : Write → List Key
  needs : Write → List Key
  anchors : Write → List Key
  minted : Key → Prop
  mints : (q : Ask) → Ans q → Key → Prop
  Inv : Db → Prop
  part_part : ∀ t d, part t (part t d) = part t d
  part_own : ∀ d w, S.fault d w = none →
    part (party w) (S.apply d w) = S.apply (part (party w) d) w
  part_other : ∀ t d w, party w ≠ t → proper w → S.fault d w = none →
    part t (S.apply d w) = part t d
  occupied_part : ∀ t d k, S.Occupied k (part t d) → S.Occupied k d
  occupied_apply : ∀ d w k, S.Occupied k (S.apply d w) ↔ S.Occupied k d ∨ k ∈ takes w
  admitted_of_fault : ∀ d w, S.fault d w = none → admitted w
  needs_of_fault : ∀ d w, S.fault d w = none → ∀ k ∈ needs w, S.Occupied k d
  fault_part : ∀ d w, (admitted w → ∀ k ∈ takes w ++ needs w,
    S.Occupied k d → S.Occupied k (part (party w) d)) → S.fault (part (party w) d) w = S.fault d w
  inv_view : ∀ d ws, Inv d → S.Granted d ws → (∀ w ∈ ws, proper w) →
    (∀ w ∈ ws, ∀ k ∈ needs w ++ anchors w, S.Occupied k (part (party w) (S.view d ws))) →
    Inv (S.view d ws)

/-- What a party is known to have: keys that are taken in its part, and keys issued to it. -/
@[ext] structure Known (Key : Type) where
  seen : Key → Prop
  new : Key → Prop

namespace Known

/-- At the beginning nothing is known. -/
def nothing : Known Key := ⟨fun _ => False, fun _ => False⟩

/-- After an answer that brings keys. -/
def issue (K : Known Key) (new : Key → Prop) : Known Key := ⟨K.seen, fun k => K.new k ∨ new k⟩

/-- After a look at the keys that are there. -/
def look (K : Known Key) (seen : Key → Prop) : Known Key := ⟨seen, K.new⟩

/-- After a statement that took keys. -/
def take (K : Known Key) (ks : List Key) : Known Key := ⟨fun k => K.seen k ∨ k ∈ ks, K.new⟩

/-- After a rollback: what was issued is not taken back. -/
def forget (K : Known Key) : Known Key := ⟨fun _ => False, K.new⟩

/-- More is known. -/
structure Le (K K' : Known Key) : Prop where
  seen : ∀ k, K.seen k → K'.seen k
  new : ∀ k, K.new k → K'.new k

variable {K K' K'' : Known Key}

theorem Le.refl (K : Known Key) : K.Le K := ⟨fun _ h => h, fun _ h => h⟩

theorem Le.trans (h : K.Le K') (h' : K'.Le K'') : K.Le K'' :=
  ⟨fun k hk => h'.seen k (h.seen k hk), fun k hk => h'.new k (h.new k hk)⟩

theorem le_issue (K : Known Key) (new : Key → Prop) : K.Le (K.issue new) :=
  ⟨fun _ h => h, fun _ h => Or.inl h⟩

theorem le_take (K : Known Key) (ks : List Key) : K.Le (K.take ks) :=
  ⟨fun _ h => Or.inl h, fun _ h => h⟩

theorem le_look {seen : Key → Prop} (h : ∀ k, K.seen k → seen k) : K.Le (K.look seen) :=
  ⟨h, fun _ h => h⟩

end Known

/-- A program that asks, and does nothing else. -/
def Prog.Asking : Prog Db Write Fault Ans Exc α → Prop
  | .ret _ => True
  | .raise _ => True
  | .ask _ k => ∀ a, (k a).Asking
  | .query _ => False
  | .exec _ _ => False
  | .commit _ => False
  | .rollback _ => False

theorem Prog.Asking.bind {p : Prog Db Write Fault Ans Exc α}
    {f : α → Prog Db Write Fault Ans Exc β} (hp : p.Asking) (hf : ∀ a, (f a).Asking) :
    (p >>= f).Asking := by
  rw [Prog.bind_eq]
  induction p with
  | ret a => exact hf a
  | raise e => trivial
  | ask q k ih => exact fun a => ih a (hp a)
  | _ => exact hp.elim

namespace Partition

variable {S : Schema Db Write Fault Key} (N : Partition S Ans T)

/-! ### Programs that keep to their part -/

/-- The keys that are taken in the part of a party. -/
def Taken (t : T) (d : Db) (k : Key) : Prop := S.Occupied k (N.part t d)

/-- What a party knows to be in its part is there. -/
def Has (t : T) (K : Known Key) (d : Db) : Prop := ∀ k, K.seen k → N.Taken t d k

/-- A key that no other party can have, from what is known. -/
def Owns (t : T) (K : Known Key) (k : Key) : Prop :=
  ∀ d, N.Inv d → N.Has t K d → S.Occupied k d → N.Taken t d k

/-- **A statement that concerns its own party only.** -/
structure Safe (t : T) (K : Known Key) (w : Write) : Prop where
  party : N.party w = t
  proper : N.proper w
  needs : N.admitted w → ∀ k ∈ N.needs w, N.Owns t K k
  anchors : N.admitted w → ∀ k ∈ N.anchors w, K.seen k
  minted : N.admitted w → ∀ k ∈ N.takes w, N.minted k → K.new k
  owned : N.admitted w → ∀ k ∈ N.takes w, ¬ N.minted k → N.Owns t K k

/-- **What a program may name**: it reads its own part, and what it writes concerns its party. -/
def confined (t : T) :
    Prog Db Write Fault Ans Exc α → (α → Known Key → Prop) → Known Key → Prop
  | .ret a, Q, K => Q a K
  | .raise _, _, _ => True
  | .ask q k, Q, K => ∀ a, confined t (k a) Q (K.issue (N.mints q a))
  | .query k, Q, K => (∀ d d', N.part t d = N.part t d' → k d = k d') ∧
      ∀ d, N.Inv d → N.Has t K d → confined t (k d) Q (K.look (N.Taken t d))
  | .exec w k, Q, K => N.Safe t K w ∧
      confined t (k none) Q (K.take (N.takes w)) ∧
      ∀ f, confined t (k (some f)) Q K
  | .commit k, Q, K => confined t k Q K
  | .rollback k, Q, K => confined t k Q K.forget

variable {N}

/-- Programs are judged piece by piece. -/
theorem confined_bind {t : T} {p : Prog Db Write Fault Ans Exc α}
    {f : α → Prog Db Write Fault Ans Exc β} {Q : β → Known Key → Prop} :
    ∀ {K : Known Key}, N.confined t p (fun a J => N.confined t (f a) Q J) K →
      N.confined t (p >>= f) Q K := by
  rw [Prog.bind_eq]
  induction p with
  | ret a => exact fun h => h
  | raise e => exact fun _ => trivial
  | ask q k ih => exact fun h a => ih a (h a)
  | query k ih =>
      exact fun h => ⟨fun d d' hd => congrArg (Prog.bind · f) (h.1 d d' hd),
        fun d hd hhas => ih d (h.2 d hd hhas)⟩
  | exec w k ih => exact fun h => ⟨h.1, ih none h.2.1, fun f' => ih (some f') (h.2.2 f')⟩
  | commit k ih => exact fun h => ih h
  | rollback k ih => exact fun h => ih h

/-- A program that only asks. -/
theorem confined_asking {t : T} {p : Prog Db Write Fault Ans Exc α} (hp : p.Asking)
    {Q : α → Known Key → Prop} :
    ∀ {K : Known Key}, (∀ a K', K.Le K' → Q a K') → N.confined t p Q K := by
  induction p with
  | ret a => exact fun h => h a _ (Known.Le.refl _)
  | raise e => exact fun _ => trivial
  | ask q k ih => exact fun h a => ih a (hp a) fun b K' hK => h b K' ((Known.le_issue _ _).trans hK)
  | _ => exact hp.elim

/-- A program whose exceptions are caught: nothing is known where the handler takes over. -/
theorem confined_tryCatch {t : T} {p : Prog Db Write Fault Ans Exc α}
    {h : Exc → Option (Prog Db Write Fault Ans Exc α)} {Q : α → Known Key → Prop}
    (hh : ∀ e p' K, h e = some p' → N.confined t p' Q K) :
    ∀ {K : Known Key}, N.confined t p Q K → N.confined t (p.tryCatch h) Q K := by
  induction p with
  | ret a => exact fun hp => hp
  | raise e =>
      intro K _
      simp only [Prog.tryCatch]
      split
      next p' hp' => exact hh e p' _ hp'
      next => trivial
  | ask q k ih => exact fun hp a => ih a (hp a)
  | query k ih =>
      exact fun hp => ⟨fun d d' hd => congrArg (Prog.tryCatch · h) (hp.1 d d' hd),
        fun d hd hhas => ih d (hp.2 d hd hhas)⟩
  | exec w k ih => exact fun hp => ⟨hp.1, ih none hp.2.1, fun f => ih (some f) (hp.2.2 f)⟩
  | commit k ih => exact fun hp => ih hp
  | rollback k ih => exact fun hp => ih hp

/-! ### Transactions -/

/-- A transaction acts on the part of its party whatever the others have. -/
theorem part_view_own {t : T} : ∀ (ws : List Write) (d : Db), (∀ w ∈ ws, N.party w = t) →
    S.Granted d ws → N.part t (S.view d ws) = S.view (N.part t d) ws := by
  intro ws
  induction ws with
  | nil => exact fun _ _ _ => rfl
  | cons w ws ih =>
      intro d hparty hg
      have hw : N.party w = t := hparty w List.mem_cons_self
      have happly := N.part_own d w hg.1
      rw [hw] at happly
      rw [S.view_cons, S.view_cons, ih _ (fun v hv => hparty v (List.mem_cons_of_mem _ hv)) hg.2,
        happly]

/-- **A transaction leaves the parts of the others as they are.** -/
theorem part_view_other {t : T} : ∀ (ws : List Write) (d : Db),
    (∀ w ∈ ws, N.party w ≠ t ∧ N.proper w) → S.Granted d ws →
      N.part t (S.view d ws) = N.part t d := by
  intro ws
  induction ws with
  | nil => exact fun _ _ _ => rfl
  | cons w ws ih =>
      intro d hws hg
      obtain ⟨hparty, hproper⟩ := hws w List.mem_cons_self
      rw [S.view_cons, ih _ (fun v hv => hws v (List.mem_cons_of_mem _ hv)) hg.2,
        N.part_other t d w hparty hproper hg.1]

/-- The keys that are taken after a transaction. -/
theorem occupied_view_iff (ws : List Write) (d : Db) (k : Key) :
    S.Occupied k (S.view d ws) ↔ S.Occupied k d ∨ ∃ w ∈ ws, k ∈ N.takes w := by
  induction ws generalizing d with
  | nil => simp
  | cons w ws ih =>
      rw [S.view_cons, ih, N.occupied_apply]
      simp only [List.mem_cons, exists_eq_or_imp, or_assoc]

theorem taken_view_own {t : T} {ws : List Write} {d : Db} (hparty : ∀ w ∈ ws, N.party w = t)
    (hg : S.Granted d ws) (k : Key) :
    N.Taken t (S.view d ws) k ↔ N.Taken t d k ∨ ∃ w ∈ ws, k ∈ N.takes w := by
  rw [Taken, part_view_own ws d hparty hg, N.occupied_view_iff]
  exact Iff.rfl

/-- What a party has stays, whoever commits. -/
theorem taken_view {t u : T} {ws : List Write} {d : Db}
    (hws : ∀ w ∈ ws, N.party w = u ∧ N.proper w) (hg : S.Granted d ws) {k : Key}
    (h : N.Taken t d k) : N.Taken t (S.view d ws) k := by
  by_cases hut : u = t
  · exact (taken_view_own (fun w hw => (hws w hw).1.trans hut) hg k).2 (Or.inl h)
  · rw [Taken, part_view_other ws d (fun w hw => ⟨(hws w hw).1 ▸ hut, (hws w hw).2⟩) hg]
    exact h

end Partition

/-! ### Worlds -/

variable {P : Programs Db Write Fault Ans Exc} {S : Schema Db Write Fault Key}

section Steps

variable {H : Host P} [DecidableEq Key]

theorem World.free_of_apart {w : World H} {i : ℕ} {x : Write}
    (h : ∀ j t, j ≠ i → w.tasks[j]? = some t → ∀ y ∈ t.writes, ∀ k ∈ S.locks y, k ∉ S.locks x) :
    w.free S i x = true := by
  refine List.all_eq_true.2 fun tj htj => ?_
  obtain ⟨t, j⟩ := tj
  have ht : w.tasks[j]? = some t := List.mem_zipIdx_iff_getElem?.1 htj
  by_cases hij : j = i
  · simp [hij]
  · refine Bool.or_eq_true_iff.2 (Or.inr (List.all_eq_true.2 fun y hy => ?_))
    refine List.all_eq_true.2 fun k hk => ?_
    simpa using h j t hij ht y hy k hk

open Classical in
/-- What advancing a task does, advancing it can do; `answers` are the answers to the questions that
are not asked. -/
theorem Advanced.step {w w' : World H} {i : ℕ} {t : Task P} (h : Advanced S w i t w')
    (ht : w.tasks[i]? = some t) (answers : (q : Ask) → Ans q) :
    ∃ answers', w.step S (.advance i answers') = some w' := by
  have hstep : ∀ answers', w.step S (.advance i answers') = w.advance S i answers' t t.prog := by
    intro answers'
    simp only [World.step, ht, Option.bind_some]
  cases h with
  | ask q k a e hp he =>
      refine ⟨Function.update answers q a, ?_⟩
      rw [hstep, hp, World.advance, Function.update_self, he]
      rfl
  | refused x k f hp hf =>
      refine ⟨answers, ?_⟩
      rw [hstep, hp, World.advance, hf]
  | exec x k hp hf hfree =>
      refine ⟨answers, ?_⟩
      rw [hstep, hp, World.advance, hf]
      simp only [World.free_of_apart hfree, if_true]
  | _ =>
      refine ⟨answers, ?_⟩
      rename_i hp
      rw [hstep, hp, World.advance]

end Steps

/-- **A host that treats the parties apart**: what it issues to one it never issues to another, and
what it has been asked by one does not matter to another. -/
structure Splits (N : Partition S Ans T) (of : P.Kind → T) (H : Host P) where
  issued : H.Ext → T → Key → Prop
  own : T → H.Ext → H.Ext
  apart : ∀ e t t' k, issued e t k → issued e t' k → t = t'
  kept : ∀ e d κ q a e', H.answer e d κ q a = some e' → ∀ t k, issued e t k → issued e' t k
  noted : ∀ e d κ q a e', H.answer e d κ q a = some e' → ∀ k, N.mints q a k → issued e' (of κ) k
  answers_own : ∀ e d κ q a e', H.answer e d κ q a = some e' →
    H.answer (own (of κ) e) (N.part (of κ) d) κ q a = some (own (of κ) e')
  answers_other : ∀ e d κ q a e' t, H.answer e d κ q a = some e' → of κ ≠ t → own t e' = own t e
  spawns : ∀ e d κ t, H.spawn d e κ = true → H.spawn (N.part t d) (own t e) κ = true
  still : ∀ e d ts τ e', H.tick e d ts τ = some e' → e' = e

section Worlds

variable {N : Partition S Ans T} {of : P.Kind → T} {H : Host P} (X : Splits N of H)

/-- What is known of a task on its way, with the rows `d` and what was issued up to `e`. -/
structure Keeps (e : H.Ext) (d : Db) (κ : P.Kind) (ws : List Write)
    (p : Prog Db Write Fault Ans Exc (P.Result κ)) : Prop where
  own : ∀ x ∈ ws, N.party x = of κ ∧ N.proper x
  there : ∀ x ∈ ws, ∀ k ∈ N.needs x ++ N.anchors x, N.Taken (of κ) (S.view d ws) k
  issued : ∀ x ∈ ws, ∀ k ∈ N.takes x, N.minted k → X.issued e (of κ) k
  knows : ∃ K Q, N.Has (of κ) K (S.view d ws) ∧ (∀ k, K.new k → X.issued e (of κ) k) ∧
    N.confined (of κ) p Q K

/-- **What confined programs keep.** -/
structure World.Kept (w : World H) : Prop where
  inv : N.Inv w.db
  minted : ∀ k, N.minted k → S.Occupied k w.db → ∃ t, X.issued w.ext t k ∧ N.Taken t w.db k
  granted : ∀ (i : ℕ) t, w.tasks[i]? = some t → S.Granted w.db t.writes
  tasks : ∀ (i : ℕ) t, w.tasks[i]? = some t → Keeps X w.ext w.db t.kind t.writes t.prog

variable {X}

/-- The rows a task sees are in order. -/
theorem Keeps.inv {e : H.Ext} {d : Db} {κ : P.Kind} {ws : List Write}
    {p : Prog Db Write Fault Ans Exc (P.Result κ)} (h : Keeps X e d κ ws p) (hd : N.Inv d)
    (hg : S.Granted d ws) : N.Inv (S.view d ws) :=
  N.inv_view d ws hd hg (fun x hx => (h.own x hx).2) fun x hx k hk => by
    rw [(h.own x hx).1]
    exact h.there x hx k hk

/-- What is known of a task stays known while others go on. -/
theorem Keeps.mono {e e' : H.Ext} {d d' : Db} {κ : P.Kind} {ws : List Write}
    {p : Prog Db Write Fault Ans Exc (P.Result κ)} (h : Keeps X e d κ ws p)
    (he : ∀ k, X.issued e (of κ) k → X.issued e' (of κ) k)
    (hd : ∀ k, N.Taken (of κ) d k → N.Taken (of κ) d' k) (hg : S.Granted d ws)
    (hg' : S.Granted d' ws) : Keeps X e' d' κ ws p := by
  have hparty : ∀ x ∈ ws, N.party x = of κ := fun x hx => (h.own x hx).1
  have htaken : ∀ k, N.Taken (of κ) (S.view d ws) k → N.Taken (of κ) (S.view d' ws) k := by
    intro k hk
    rw [Partition.taken_view_own hparty hg] at hk
    rw [Partition.taken_view_own hparty hg']
    exact hk.imp (hd k) id
  obtain ⟨K, Q, hhas, hnew, hp⟩ := h.knows
  exact ⟨h.own, fun x hx k hk => htaken k (h.there x hx k hk),
    fun x hx k hk hm => he k (h.issued x hx k hk hm), K, Q, fun k hk => htaken k (hhas k hk),
    fun k hk => he k (hnew k hk), hp⟩

/-- A task that has ended. -/
theorem Keeps.ended {e : H.Ext} {d : Db} {κ : P.Kind}
    {p : Prog Db Write Fault Ans Exc (P.Result κ)} (hp : p.done = true) :
    Keeps X e d κ [] p := by
  refine ⟨by simp, by simp, by simp, .nothing, fun _ _ => True, fun _ h => h.elim,
    fun _ h => h.elim, ?_⟩
  cases p <;> trivial

theorem Keeps.goto {e : H.Ext} {d : Db} {t : Task P} {ws : List Write}
    {p : Prog Db Write Fault Ans Exc (P.Result t.kind)} (h : Keeps X e d t.kind ws p) :
    Keeps X e d (t.goto ws p).kind (t.goto ws p).writes (t.goto ws p).prog := by
  rw [Task.goto]
  split
  next hdone => exact Keeps.ended hdone
  next => exact h

/-- A statement that concerns its own party only goes through, or does not, for that party. -/
theorem Keeps.fault {w : World H} (hw : w.Kept X) {κ : P.Kind} {ws : List Write}
    {p : Prog Db Write Fault Ans Exc (P.Result κ)} (h : Keeps X w.ext w.db κ ws p)
    (hg : S.Granted w.db ws) {K : Known Key} (hhas : N.Has (of κ) K (S.view w.db ws))
    (hnew : ∀ k, K.new k → X.issued w.ext (of κ) k) {x : Write} (hx : N.Safe (of κ) K x) :
    S.fault (N.part (of κ) (S.view w.db ws)) x = S.fault (S.view w.db ws) x := by
  have hd := h.inv hw.inv hg
  have hfault := N.fault_part (S.view w.db ws) x
  rw [hx.party] at hfault
  refine hfault fun hadmitted k hk hocc => ?_
  rcases List.mem_append.1 hk with hk | hk
  · by_cases hm : N.minted k
    · -- a key that was issued to a party is taken in its part, if at all
      rcases (N.occupied_view_iff ws w.db k).1 hocc with hocc | hmine
      · obtain ⟨t', hissued, htaken⟩ := hw.minted k hm hocc
        rw [X.apart _ _ _ _ (hnew k (hx.minted hadmitted k hk hm)) hissued]
        refine Partition.taken_view (fun y hy => h.own y hy) hg htaken
      · exact (Partition.taken_view_own (fun y hy => (h.own y hy).1) hg k).2 (Or.inr hmine)
    · exact hx.owned hadmitted k hk hm _ hd hhas hocc
  · exact hx.needs hadmitted k hk _ hd hhas hocc

/-- **A step of a task keeps what is known of it.** -/
theorem Keeps.advance {w w' : World H} (hw : w.Kept X) {i : ℕ} {t : Task P}
    (ht : w.tasks[i]? = some t) (hadv : Advanced S w i t w') :
    ∃ ws p, w'.tasks = w.tasks.set i (t.goto ws p) ∧ Keeps X w'.ext w'.db t.kind ws p := by
  have h := hw.tasks i t ht
  have hg := hw.granted i t ht
  have hd := h.inv hw.inv hg
  obtain ⟨K, Q, hhas, hnew, hconf⟩ := h.knows
  cases hadv with
  | ask q k a e hp he =>
      rw [hp] at hconf
      have hkept : ∀ x, X.issued w.ext (of t.kind) x → X.issued e (of t.kind) x :=
        X.kept _ _ _ _ _ _ he _
      refine ⟨_, _, rfl, h.own, h.there, fun x hx y hy hm => hkept y (h.issued x hx y hy hm),
        K.issue (N.mints q a), Q, hhas, fun x hx => ?_, hconf a⟩
      exact Or.elim hx (fun hx => hkept x (hnew x hx)) (X.noted _ _ _ _ _ _ he x)
  | query k hp =>
      rw [hp] at hconf
      exact ⟨_, _, rfl, h.own, h.there, h.issued, K.look _, Q, fun _ hx => hx, hnew,
        hconf.2 _ hd hhas⟩
  | refused x k f hp hf =>
      rw [hp] at hconf
      exact ⟨_, _, rfl, h.own, h.there, h.issued, K, Q, hhas, hnew, hconf.2.2 f⟩
  | exec x k hp hf hfree =>
      rw [hp] at hconf
      obtain ⟨hsafe, hconf, -⟩ := hconf
      have hadmitted := N.admitted_of_fault _ _ hf
      have hone : S.Granted (S.view w.db t.writes) [x] := ⟨hf, trivial⟩
      have hparty : ∀ y ∈ [x], N.party y = of t.kind := by simp [hsafe.party]
      have hlater : ∀ y, N.Taken (of t.kind) (S.view w.db t.writes) y ∨ y ∈ N.takes x →
          N.Taken (of t.kind) (S.view w.db (t.writes ++ [x])) y := by
        intro y hy
        rw [S.view_append, Partition.taken_view_own hparty hone]
        exact hy.imp id fun hy => ⟨x, List.mem_singleton.2 rfl, hy⟩
      refine ⟨_, _, rfl, ?_, ?_, ?_, K.take (N.takes x), Q,
        fun y hy => hlater y (Or.imp (hhas y) id hy), hnew, hconf⟩
      · exact List.forall_mem_append.2 ⟨h.own, by simp [hsafe.party, hsafe.proper]⟩
      · refine List.forall_mem_append.2 ⟨fun y hy z hz => hlater z (Or.inl (h.there y hy z hz)), ?_⟩
        intro y hy z hz
        obtain rfl := List.mem_singleton.1 hy
        refine hlater z (Or.inl ?_)
        -- what it needs was there, since it went through; what it belongs to was seen
        rcases List.mem_append.1 hz with hz | hz
        · exact hsafe.needs hadmitted z hz _ hd hhas (N.needs_of_fault _ _ hf z hz)
        · exact hhas z (hsafe.anchors hadmitted z hz)
      · refine List.forall_mem_append.2 ⟨h.issued, ?_⟩
        intro y hy z hz hm
        obtain rfl := List.mem_singleton.1 hy
        exact hnew z (hsafe.minted hadmitted z hz hm)
  | commit k hp =>
      rw [hp] at hconf
      exact ⟨_, _, rfl, by simp, by simp, by simp, K, Q, hhas, hnew, hconf⟩
  | rollback k hp =>
      rw [hp] at hconf
      exact ⟨_, _, rfl, by simp, by simp, by simp, K.forget, Q, fun _ hx => False.elim hx, hnew,
        hconf⟩

variable [DecidableEq Key]

/-- What was issued stays issued, and what a party has stays there. -/
theorem World.Kept.onward {w w' : World H} {a : Action H} (hw : w.Kept X)
    (hs : w.step S a = some w') :
    (∀ t k, X.issued w.ext t k → X.issued w'.ext t k) ∧
      ∀ t k, N.Taken t w.db k → N.Taken t w'.db k := by
  cases World.step_cases hs with
  | spawn κ hκ => exact ⟨fun _ _ h => h, fun _ _ h => h⟩
  | kill i t ht => exact ⟨fun _ _ h => h, fun _ _ h => h⟩
  | tick τ e he =>
      obtain rfl := X.still _ _ _ _ _ he
      exact ⟨fun _ _ h => h, fun _ _ h => h⟩
  | advance i answers t w' ht hadv =>
      cases hadv with
      | ask q k a e hp he => exact ⟨X.kept _ _ _ _ _ _ he, fun _ _ h => h⟩
      | commit k hp =>
          exact ⟨fun _ _ h => h, fun _ _ => Partition.taken_view (hw.tasks i t ht).own
            (hw.granted i t ht)⟩
      | _ => exact ⟨fun _ _ h => h, fun _ _ h => h⟩

/-- **A step keeps the rows in order**, and of the keys that were issued to a party no other has
any. -/
theorem World.Kept.rows {w w' : World H} {a : Action H} (hw : w.Kept X)
    (hs : w.step S a = some w') :
    N.Inv w'.db ∧ ∀ k, N.minted k → S.Occupied k w'.db →
      ∃ t, X.issued w'.ext t k ∧ N.Taken t w'.db k := by
  obtain ⟨hissued, htaken⟩ := hw.onward hs
  rcases World.commit_cases hs with ⟨hdb, -⟩ | ⟨i, t, k, ht, -, hdb, -⟩
  · rw [hdb]
    refine ⟨hw.inv, fun k hm hk => ?_⟩
    obtain ⟨t, hi, htk⟩ := hw.minted k hm hk
    exact ⟨t, hissued t k hi, htk⟩
  · have h := hw.tasks i t ht
    have hg := hw.granted i t ht
    refine ⟨hdb ▸ h.inv hw.inv hg, fun k hm hk => ?_⟩
    -- a key that is taken now was taken before, or is one of the transaction's own
    rw [hdb, N.occupied_view_iff] at hk
    rcases hk with hk | ⟨x, hx, hk⟩
    · obtain ⟨t', hi, htk⟩ := hw.minted k hm hk
      exact ⟨t', hissued t' k hi, htaken t' k htk⟩
    · refine ⟨of t.kind, hissued _ k (h.issued x hx k hk hm), ?_⟩
      rw [hdb, Partition.taken_view_own (fun y hy => (h.own y hy).1) hg]
      exact Or.inr ⟨x, hx, hk⟩

variable (hprogs : ∀ κ, N.confined (of κ) (P.prog κ) (fun _ _ => True) .nothing)

include hprogs

/-- **What confined programs keep, a step keeps.** -/
theorem World.Kept.step {w w' : World H} {a : Action H} (hw : w.Kept X)
    (hs : w.step S a = some w')
    (hgranted : ∀ (i : ℕ) t, w'.tasks[i]? = some t → S.Granted w'.db t.writes) : w'.Kept X := by
  obtain ⟨hissued, htaken⟩ := hw.onward hs
  obtain ⟨hinv, hminted⟩ := hw.rows hs
  refine ⟨hinv, hminted, hgranted, ?_⟩
  have hsame : ∀ {j : ℕ} {u : Task P}, w.tasks[j]? = some u → w'.tasks[j]? = some u →
      Keeps X w'.ext w'.db u.kind u.writes u.prog := fun {j u} hu hu' =>
    (hw.tasks j u hu).mono (hissued _) (htaken _) (hw.granted j u hu) (hgranted j u hu')
  intro j u hu
  cases World.step_cases hs with
  | spawn κ hκ =>
      have hu' := hu
      rw [List.getElem?_append] at hu
      split at hu
      next => exact hsame hu hu'
      next =>
        obtain rfl : u = ⟨κ, [], P.prog κ⟩ := by simpa using List.mem_of_getElem? hu
        exact ⟨by simp, by simp, by simp, .nothing, fun _ _ => True, fun _ h => h.elim,
          fun _ h => h.elim, hprogs κ⟩
  | kill i t ht =>
      rcases getElem?_set_cases hu with ⟨-, rfl⟩ | ⟨-, hu'⟩
      · exact Keeps.ended rfl
      · exact hsame hu' hu
  | tick τ e he => exact hsame hu hu
  | advance i answers t w' ht hadv =>
      obtain ⟨ws, p, hset, hkeeps⟩ := Keeps.advance hw ht hadv
      rw [hset] at hu
      rcases getElem?_set_cases hu with ⟨-, rfl⟩ | ⟨-, hu'⟩
      · exact hkeeps.goto
      · exact hsame hu' (hset ▸ hu)

/-- **What confined programs keep is kept in every world that is reached.** -/
theorem Reaches.kept {ok : World H → Action H → Prop} {w₀ w : World H} (h₀ : N.Inv w₀.db)
    (hnew : ∀ k, N.minted k → ¬ S.Occupied k w₀.db) (htasks : w₀.tasks = [])
    (hgranted : ∀ w, Reaches S ok w₀ w → ∀ (i : ℕ) t, w.tasks[i]? = some t →
      S.Granted w.db t.writes) (h : Reaches S ok w₀ w) : w.Kept X := by
  induction h with
  | refl =>
      exact ⟨h₀, fun k hm hk => (hnew k hm hk).elim, by simp [htasks], by simp [htasks]⟩
  | tail h hok hs ih => exact ih.step hprogs hs (hgranted _ (h.tail hok hs))

omit hprogs

variable [DecidableEq T]

/-- A task as a party knows it: those of others have not begun. -/
def Task.alone (of : P.Kind → T) (t : T) (u : Task P) : Task P :=
  if of u.kind = t then u else ⟨u.kind, [], P.prog u.kind⟩

variable (X) in
/-- **The world of one party**: its part of the rows, what it has committed, and its tasks.  The
tasks of the others stay where they began. -/
def World.alone (t : T) (w : World H) : World H where
  db := N.part t w.db
  log := w.log.filter fun e => of e.kind = t
  ext := X.own t w.ext
  tasks := w.tasks.map (Task.alone of t)

theorem Task.alone_own {t : T} {u : Task P} (h : of u.kind = t) : u.alone of t = u := if_pos h

theorem Task.alone_other {t : T} {u : Task P} (h : of u.kind ≠ t) :
    u.alone of t = ⟨u.kind, [], P.prog u.kind⟩ := if_neg h

omit [DecidableEq Key] in
/-- A task of the party alone, which is about to go on. -/
theorem World.alone_task {t : T} {w : World H} {i : ℕ} {u : Task P} (hu : w.tasks[i]? = some u)
    (hof : of u.kind = t) : (w.alone X t).tasks[i]? = some u := by
  rw [World.alone, List.getElem?_map, hu, Option.map_some, Task.alone_own hof]

omit [DecidableEq Key] in
/-- **A step of a task of the party** is one it can take alone. -/
theorem World.Kept.alone_own {w w' : World H} (hw : w.Kept X) {i : ℕ} {u : Task P}
    (hu : w.tasks[i]? = some u) (hadv : Advanced S w i u w') :
    Advanced S (w.alone X (of u.kind)) i u (w'.alone X (of u.kind)) := by
  have h := hw.tasks i u hu
  have hg := hw.granted i u hu
  have hd := h.inv hw.inv hg
  have hview : N.part (of u.kind) (S.view w.db u.writes) =
      S.view (N.part (of u.kind) w.db) u.writes :=
    Partition.part_view_own _ _ (fun x hx => (h.own x hx).1) hg
  have hset : ∀ {ws : List Write} {p : Prog Db Write Fault Ans Exc (P.Result u.kind)},
      (w.tasks.set i (u.goto ws p)).map (Task.alone of (of u.kind)) =
        (w.tasks.map (Task.alone of (of u.kind))).set i (u.goto ws p) := by
    intro ws p
    rw [List.map_set, Task.alone_own (u.goto_kind ws p ▸ rfl)]
  obtain ⟨K, Q, hhas, hnew, hconf⟩ := h.knows
  cases hadv with
  | ask q k a e hp he =>
      simp only [World.alone, hset]
      exact .ask q k a _ hp (X.answers_own _ _ _ _ _ _ he)
  | query k hp =>
      -- the program reads its own part, which is the same alone
      rw [hp] at hconf
      have hk : k (S.view (N.part (of u.kind) w.db) u.writes) = k (S.view w.db u.writes) :=
        hconf.1 _ _ (by rw [← hview, N.part_part])
      simp only [World.alone, hset, ← hk]
      exact .query k hp
  | refused x k f hp hf =>
      -- it is refused alone, too: no row of another party is in its way
      rw [hp] at hconf
      simp only [World.alone, hset]
      refine .refused x k f hp ?_
      rw [← hf, ← Keeps.fault hw h hg hhas hnew hconf.1, hview]
  | exec x k hp hf hfree =>
      rw [hp] at hconf
      simp only [World.alone, hset]
      refine .exec x k hp ?_ fun j u' hj hu' => ?_
      · rw [← hf, ← Keeps.fault hw h hg hhas hnew hconf.1, hview]
      · -- the others hold no lock
        rw [List.getElem?_map, Option.map_eq_some_iff] at hu'
        obtain ⟨v, hv, rfl⟩ := hu'
        rw [Task.alone]
        split
        next => exact hfree j v hj hv
        next => simp
  | commit k hp =>
      have hlog : (w.log ++ [(⟨i, u.kind, u.writes⟩ : Entry P)]).filter
          (fun e => of e.kind = of u.kind) =
          (w.log.filter fun e => of e.kind = of u.kind) ++ [⟨i, u.kind, u.writes⟩] := by
        simp
      simp only [World.alone, hset, hview, hlog]
      exact .commit k hp
  | rollback k hp =>
      simp only [World.alone, hset]
      exact .rollback k hp

omit [DecidableEq Key] in
/-- A step of a task of another party. -/
theorem World.Kept.alone_other {t : T} {w w' : World H} (hw : w.Kept X) {i : ℕ} {u : Task P}
    (hu : w.tasks[i]? = some u) (hof : of u.kind ≠ t) (hadv : Advanced S w i u w') :
    w'.alone X t = w.alone X t := by
  have hset : ∀ {ws : List Write} {p : Prog Db Write Fault Ans Exc (P.Result u.kind)},
      (w.tasks.set i (u.goto ws p)).map (Task.alone of t) = w.tasks.map (Task.alone of t) := by
    intro ws p
    have hi : (w.tasks.map (Task.alone of t))[i]? = some (Task.alone of t (u.goto ws p)) := by
      rw [List.getElem?_map, hu, Option.map_some, Task.alone_other hof,
        Task.alone_other (u := u.goto ws p) hof]
      rfl
    obtain ⟨hlt, hi⟩ := List.getElem?_eq_some_iff.1 hi
    rw [List.map_set, ← hi, List.set_getElem_self]
  cases hadv with
  | ask q k a e hp he =>
      simp only [World.alone, hset, X.answers_other _ _ _ _ _ _ t he hof]
  | commit k hp =>
      have hown : ∀ x ∈ u.writes, N.party x ≠ t ∧ N.proper x := fun x hx =>
        ⟨((hw.tasks i u hu).own x hx).1 ▸ hof, ((hw.tasks i u hu).own x hx).2⟩
      have hlog : (w.log ++ [(⟨i, u.kind, u.writes⟩ : Entry P)]).filter
          (fun e => of e.kind = t) = w.log.filter fun e => of e.kind = t := by
        simp [hof]
      simp only [World.alone, hset, hlog,
        Partition.part_view_other _ _ hown (hw.granted i u hu)]
  | _ => simp only [World.alone, hset]

/-- **A step of the world is a step of the party alone, or none.** -/
theorem World.Kept.alone_step {t : T} {w w' : World H} {a : Action H} (hw : w.Kept X)
    (hs : w.step S a = some w') :
    w'.alone X t = w.alone X t ∨ ∃ a', (w.alone X t).step S a' = some (w'.alone X t) := by
  have hadvance := World.step_cases hs
  cases a with
  | spawn κ =>
      cases hadvance with
      | spawn _ hκ =>
      have hspawn : H.spawn (w.alone X t).db (w.alone X t).ext κ = true := X.spawns _ _ _ t hκ
      have hnew : (⟨κ, [], P.prog κ⟩ : Task P).alone of t = ⟨κ, [], P.prog κ⟩ := by
        rw [Task.alone, ite_self]
      refine Or.inr ⟨.spawn κ, ?_⟩
      rw [World.step, if_pos hspawn]
      simp only [World.alone, List.map_append, List.map_cons, List.map_nil, hnew]
  | tick τ =>
      cases hadvance with
      | tick _ e he =>
      obtain rfl := X.still _ _ _ _ _ he
      exact Or.inl rfl
  | kill i =>
      cases hadvance with
      | kill _ u hu =>
      by_cases hof : of u.kind = t
      · refine Or.inr ⟨.kill i, ?_⟩
        rw [World.step, World.alone_task hu hof]
        simp only [World.alone, List.map_set, Option.map_some]
        rw [Task.alone_own (u := ⟨u.kind, [], .raise P.crash⟩) hof]
      · refine Or.inl ?_
        have hi : (w.tasks.map (Task.alone of t))[i]? =
            some (Task.alone of t ⟨u.kind, [], .raise P.crash⟩) := by
          rw [List.getElem?_map, hu, Option.map_some, Task.alone_other hof,
            Task.alone_other (u := ⟨u.kind, [], .raise P.crash⟩) hof]
        obtain ⟨hlt, hi⟩ := List.getElem?_eq_some_iff.1 hi
        simp only [World.alone, List.map_set]
        rw [← hi, List.set_getElem_self]
  | advance i answers =>
      cases hadvance with
      | advance _ _ u _ hu hadv =>
      by_cases hof : of u.kind = t
      · subst hof
        obtain ⟨answers', hstep⟩ := (hw.alone_own hu hadv).step (World.alone_task hu rfl) answers
        exact Or.inr ⟨_, hstep⟩
      · exact Or.inl (hw.alone_other hu hof hadv)

include hprogs in
/-- **What a party has is what it would have alone**: the world of a party is one that is reached
when nobody else takes a step. -/
theorem Reaches.alone {w₀ w : World H} (h₀ : N.Inv w₀.db)
    (hnew : ∀ k, N.minted k → ¬ S.Occupied k w₀.db) (htasks : w₀.tasks = [])
    (hgranted : ∀ w, Reachable S w₀ w → ∀ (i : ℕ) t, w.tasks[i]? = some t →
      S.Granted w.db t.writes) (t : T) (h : Reachable S w₀ w) :
    Reachable S (w₀.alone X t) (w.alone X t) := by
  induction h with
  | refl => exact Reaches.refl
  | tail h _ hs ih =>
      have hw : World.Kept X _ := Reaches.kept hprogs h₀ hnew htasks hgranted h
      rcases hw.alone_step hs with hsame | ⟨a', hs'⟩
      · rw [hsame]
        exact ih
      · exact ih.tail trivial hs'

end Worlds

end ReadCommitted
