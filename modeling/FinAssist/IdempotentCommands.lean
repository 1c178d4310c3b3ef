/-
**A command is carried out at most once.**

Clients repeat their requests, Temporal repeats attempts, processes are killed between two
statements, and all of it at the same time.  What makes a command idempotent is that its key is
reserved in the transaction of its effects: a key stands for one committed transaction, what comes
after that is refused, and what has failed has left nothing.

Main definitions:

* `FinAssist.Write.reservedKey?` — the idempotency key a statement reserves;
* `FinAssist.reservedKeys` — the keys of a transaction in the log;
* `FinAssist.OneForEachKey` — what the log says of the keys;
* `FinAssist.Refused` — what is left of a handler that comes too late.

Main results:

* `FinAssist.commands_run_once` — **of the commands with one key one transaction is committed**;
* `FinAssist.commands_are_atomic` — **a handler that has returned has committed its transaction, one
  that has failed has not**;
* `FinAssist.taken_keys_are_refused` — **a handler that starts when its key is taken is refused**;
* `FinAssist.keys_are_used_once` — **one transaction for a key, and nothing of what has failed**.
-/

import FinAssist.CaseIntegrity
import FinAssist.HandlerShapes

set_option relaxedAutoImplicit false
set_option autoImplicit false

namespace FinAssist

open ReadCommitted ApplicationStatus

/-! ### The keys of a transaction -/

/-- The idempotency key that a statement reserves. -/
def Write.reservedKey? (w : Write) : Option Key :=
  match w.statement with
  | .insert (.idempotencyKey r) =>
      some (.idempotencyKey r.tenantId r.operationName r.idempotencyKey)
  | _ => none

/-- The keys of a transaction in the log. -/
def reservedKeys (e : Entry programs) : List Key := e.writes.filterMap Write.reservedKey?

theorem reservedKey?_plain {w : Write} (h : w.isPlain = true) : w.reservedKey? = none := by
  obtain ⟨t, s⟩ := w
  cases s with
  | insert row => cases row <;> first | rfl | cases h
  | _ => rfl

theorem reservedKey?_recording {t : TenantId} {recording : Recording} {w : Write}
    (hw : w ∈ recordingWrites t recording) : w.reservedKey? = none := by
  simp only [recordingWrites, List.mem_append, List.mem_map, Option.mem_toList,
    Option.map_eq_some_iff] at hw
  rcases hw with ((⟨r, -, rfl⟩ | ⟨r, -, rfl⟩) | ⟨r, -, rfl⟩) | ⟨r, -, rfl⟩ <;> rfl

/-- **A transaction reserves the key of its command and no other one.** -/
theorem Command.Commits.reservedKeys {c : Command} {d₀ d : Database} {ws : List Write}
    (h : c.Commits d₀ d ws) : ws.filterMap Write.reservedKey? = [c.key] := by
  obtain ⟨reservedAt, body, events, recording, rfl, -, hplain⟩ := h.shape
  have hrest :
      (body ++ recordingWrites c.tenantId recording).filterMap Write.reservedKey? = [] := by
    refine List.filterMap_eq_nil_iff.2 fun w hw => ?_
    rcases List.mem_append.1 hw with hw | hw
    · exact reservedKey?_plain (hplain w hw)
    · exact reservedKey?_recording hw
  rw [List.filterMap_cons, hrest]
  rfl

/-- The idempotency keys taken after a list of statements. -/
theorem has_idempotencyKey_view (ws : List Write) (d : Database) (t : TenantId)
    (operationName key : String) :
    (postgres.view d ws).has (.idempotencyKey t operationName key) = true ↔
      d.has (.idempotencyKey t operationName key) = true ∨
        Key.idempotencyKey t operationName key ∈ ws.filterMap Write.reservedKey? := by
  rw [occupied_view_iff]
  refine or_congr Iff.rfl ?_
  simp only [List.mem_filterMap]
  constructor
  · rintro ⟨⟨t', s⟩, hw, row, hrow, hk⟩
    refine ⟨_, hw, ?_⟩
    cases s <;> cases hrow
    cases row <;> simp [Row.keys] at hk
    obtain ⟨rfl, rfl, rfl⟩ := hk
    rfl
  · rintro ⟨⟨t', s⟩, hw, hk⟩
    refine ⟨_, hw, ?_⟩
    cases s with
    | insert row =>
        cases row <;> cases hk
        exact ⟨_, rfl, List.mem_singleton.2 rfl⟩
    | _ => cases hk

/-- **A commit takes the key of its command and no other one.** -/
theorem Command.Commits.has_idempotencyKey {c : Command} {d₀ d : Database} {ws : List Write}
    (h : c.Commits d₀ d ws) (t : TenantId) (operationName key : String) :
    (postgres.view d ws).has (.idempotencyKey t operationName key) = true ↔
      d.has (.idempotencyKey t operationName key) = true ∨
        Key.idempotencyKey t operationName key = c.key := by
  rw [has_idempotencyKey_view, h.reservedKeys, List.mem_singleton]

/-- The key of a command that commits was free. -/
theorem Command.Commits.free {c : Command} {d₀ d : Database} {ws : List Write}
    (h : c.Commits d₀ d ws) (hg : postgres.Granted d ws) : d.has c.key = false := by
  obtain ⟨reservedAt, body, events, recording, rfl, -, -⟩ := h.shape
  exact (c.reserved reservedAt _).free hg

/-! ### One transaction for each key -/

section Runs

variable {H : Host programs} {ext : H.Ext} {w : World H}

theorem Installation.has_idempotencyKey (I : Installation) (t : TenantId)
    (operationName key : String) :
    I.database.has (.idempotencyKey t operationName key) = false := by
  rw [← Bool.not_eq_true]
  intro htaken
  rcases has_cases htaken with ⟨_, hk⟩ | ⟨_, hk⟩ | ⟨_, hk⟩ <;> cases hk

/-- **What the log says of the keys**: each transaction is that of one command and reserves its key,
no key is reserved twice, and the keys that are taken are those. -/
structure OneForEachKey (w : World H) : Prop where
  runs : ∀ e ∈ w.log, ∃ c, Kind.Runs e.kind c ∧ reservedKeys e = [c.key]
  nodup : (w.log.flatMap reservedKeys).Nodup
  taken : ∀ t operationName key, w.db.has (.idempotencyKey t operationName key) = true ↔
    Key.idempotencyKey t operationName key ∈ w.log.flatMap reservedKeys

/-- A commit adds the key of its command, which was free. -/
theorem OneForEachKey.commit {w' : World H} (h : OneForEachKey w) {e : Entry programs} {c : Command}
    {d₀ : Database} (hruns : Kind.Runs e.kind c) (hg : postgres.Granted w.db e.writes)
    (hc : c.Commits d₀ w.db e.writes) (hview : w'.db = postgres.view w.db e.writes)
    (hlog : w'.log = w.log ++ [e]) : OneForEachKey w' := by
  have hnew : reservedKeys e = [c.key] := hc.reservedKeys
  refine ⟨fun f hf => ?_, ?_, fun t operationName key => ?_⟩
  · rw [hlog] at hf
    rcases List.mem_append.1 hf with hf | hf
    · exact h.runs f hf
    · rw [List.mem_singleton.1 hf]
      exact ⟨c, hruns, hnew⟩
  · rw [hlog, List.flatMap_append, List.flatMap_singleton, hnew]
    refine List.nodup_append.2 ⟨h.nodup, List.nodup_singleton _, ?_⟩
    rintro k' hk' _ hmem rfl
    obtain rfl := List.mem_singleton.1 hmem
    have hyes := (h.taken c.tenantId c.operationName c.idempotencyKey).2 hk'
    have hno : w.db.has (.idempotencyKey c.tenantId c.operationName c.idempotencyKey) = false :=
      hc.free hg
    rw [hno] at hyes
    cases hyes
  · rw [hlog, hview, List.flatMap_append, List.flatMap_singleton, hnew, hc.has_idempotencyKey,
      h.taken, List.mem_append, List.mem_singleton]

theorem Installation.oneForEachKey (I : Installation) (h : Reachable postgres (I.start H ext) w) :
    OneForEachKey w := by
  induction h with
  | refl =>
      refine ⟨by simp [Installation.start], List.nodup_nil, fun t operationName key => ?_⟩
      refine iff_of_false ?_ List.not_mem_nil
      rw [Bool.not_eq_true]
      exact I.has_idempotencyKey t operationName key
  | @tail w w' a h _ hs ih =>
      rcases World.commit_cases hs with ⟨hdb, hlog⟩ | ⟨i, t, k, ht, hp, hview, hlog⟩
      · obtain ⟨hruns, hnodup, htaken⟩ := ih
        rw [← hlog] at hruns hnodup htaken
        rw [← hdb] at htaken
        exact ⟨hruns, hnodup, htaken⟩
      · obtain ⟨c, d₀, hruns, -, hg, hc⟩ := I.commits h ht hp
        exact ih.commit hruns hg hc hview hlog

/-- **Of the commands with one key one transaction is committed**, whatever runs side by side: each
transaction in the log is that of one command and reserves its key, no key is reserved twice, and
the keys that are taken are those. -/
theorem commands_run_once (I : Installation) (h : Reachable postgres (I.start H ext) w) :
    (∀ e ∈ w.log, ∃ c, Kind.Runs e.kind c ∧ reservedKeys e = [c.key]) ∧
    (w.log.flatMap reservedKeys).Nodup ∧
    ∀ t operationName key, w.db.has (.idempotencyKey t operationName key) = true ↔
      Key.idempotencyKey t operationName key ∈ w.log.flatMap reservedKeys := by
  obtain ⟨hruns, hnodup, htaken⟩ := I.oneForEachKey h
  exact ⟨hruns, hnodup, htaken⟩

namespace Sample

/-- The creation is asked for once more. -/
def repeated : World anyHost :=
  created.follow postgres (.spawn (.command (.createApplication create)) :: steps 1 18 2)

theorem reachable_repeated : Reachable postgres (installation.start anyHost ()) repeated :=
  reachable_created.trans (reachable_follow _ _)

end Sample

/-- Two handlers of one creation have committed one transaction, and those of a creation and a
submission two. -/
theorem commands_run_once_repeated :
    Sample.repeated.tasks.length = 2 ∧ Sample.repeated.log.length = 1 ∧
    (Sample.repeated.log.flatMap reservedKeys).Nodup ∧
    Sample.submitted.log.length = 2 ∧ (Sample.submitted.log.flatMap reservedKeys).Nodup :=
  ⟨by decide +kernel, by decide +kernel,
    (commands_run_once Sample.installation Sample.reachable_repeated).2.1, by decide +kernel,
    (commands_run_once Sample.installation Sample.reachable_submitted).2.1⟩

/-! ### All or nothing -/

/-- What a handler has committed has the key of its command. -/
theorem Installation.entries_key (I : Installation) (h : Reachable postgres (I.start H ext) w)
    {i : ℕ} {c : Command} {ws : List Write} {p : Handler c.Result}
    (ht : w.tasks[i]? = some ⟨.command c, ws, p⟩) {e : Entry programs} (he : e ∈ w.entriesOf i) :
    reservedKeys e = [c.key] := by
  obtain ⟨hlog, htask⟩ := List.mem_filter.1 he
  obtain ⟨c', hruns, hkeys⟩ := (I.oneForEachKey h).runs e hlog
  have hkind := (h.once (by rfl) (by rfl)).logged e hlog
  rw [of_decide_eq_true htask, List.getElem?_map, ht] at hkind
  rw [← Option.some.inj hkind] at hruns
  obtain rfl : c' = c := hruns
  exact hkeys

/-- A handler that has returned has committed one transaction, with the key of its command. -/
theorem Installation.returned (I : Installation) (h : Reachable postgres (I.start H ext) w)
    {i : ℕ} {c : Command} {ws : List Write} {r : c.Result}
    (ht : w.tasks[i]? = some ⟨.command c, ws, .ret r⟩) :
    ∃ e, w.entriesOf i = [e] ∧ reservedKeys e = [c.key] := by
  obtain ⟨hret, -, -⟩ := entries_of_once (by rfl) (by rfl) h ht c.commitsOnce
  obtain ⟨e, he⟩ := List.length_eq_one_iff.1 (hret r rfl)
  exact ⟨e, he, I.entries_key h ht (he ▸ List.mem_singleton.2 rfl)⟩

/-- **A handler is all or nothing**: one that has returned has committed one transaction, with the
key of its command, one that has failed has committed nothing, and one whose process was killed has
committed at most the one transaction. -/
theorem commands_are_atomic (I : Installation) (h : Reachable postgres (I.start H ext) w) {i : ℕ}
    {c : Command} {ws : List Write} {p : Handler c.Result}
    (ht : w.tasks[i]? = some ⟨.command c, ws, p⟩) :
    (∀ r, p = .ret r → ∃ e, w.entriesOf i = [e] ∧ reservedKeys e = [c.key]) ∧
      (∀ e, p = .raise e → e ≠ .crashed → w.entriesOf i = []) ∧
      (w.entriesOf i).length ≤ 1 := by
  obtain ⟨-, hraise, hle⟩ := entries_of_once (by rfl) (by rfl) h ht c.commitsOnce
  refine ⟨fun r hr => ?_, hraise, hle⟩
  subst hr
  exact I.returned h ht

namespace Sample

/-- Whether a task is a handler that has returned. -/
def hasReturned : Task programs → Bool
  | ⟨.command _, _, .ret _⟩ => true
  | _ => false

theorem command_of_hasReturned {t : Task programs} (h : hasReturned t = true) :
    ∃ c ws r, t = ⟨.command c, ws, .ret r⟩ := by
  obtain ⟨κ, ws, p⟩ := t
  cases κ <;> cases p <;> first | exact ⟨_, _, _, rfl⟩ | cases h

end Sample

/-- The creation has returned. -/
theorem commands_are_atomic_created : ∃ c ws r,
    Sample.created.tasks[0]? = some ⟨.command c, ws, .ret r⟩ ∧
    ∃ e, Sample.created.entriesOf 0 = [e] ∧ reservedKeys e = [c.key] := by
  have hreturned : Sample.created.tasks[0]?.map Sample.hasReturned = some true := by decide +kernel
  obtain ⟨t, ht, hret⟩ := Option.map_eq_some_iff.1 hreturned
  obtain ⟨c, ws, r, rfl⟩ := Sample.command_of_hasReturned hret
  exact ⟨c, ws, r, ht,
    (commands_are_atomic Sample.installation Sample.reachable_created ht).1 r rfl⟩

/-! ### Commands that come too late -/

/-- What a handler commits that has started later has a key that was free before. -/
theorem Installation.late_keys (I : Installation) (h : Reachable postgres (I.start H ext) w)
    {w' : World H} (h' : Reachable postgres w w') : ∀ e ∈ w'.log, w.tasks.length ≤ e.task →
      ∀ {c : Command}, e.kind = .command c → w.db.has c.key = false := by
  induction h' with
  | refl =>
      intro e he hlt
      have := (h.once (by rfl) (by rfl)).task_lt he
      omega
  | @tail w₁ w₂ a h₁ _ hs ih =>
      intro e he hlt c hkind
      rcases World.commit_cases hs with ⟨-, hlog⟩ | ⟨i, t, k, ht, hp, -, hlog⟩ <;> rw [hlog] at he
      · exact ih e he hlt hkind
      · rcases List.mem_append.1 he with he | he
        · exact ih e he hlt hkind
        · obtain ⟨c', d₀, hruns, -, hg, hc⟩ := I.commits (h.trans h₁) ht hp
          rw [List.mem_singleton.1 he] at hkind
          change t.kind = .command c at hkind
          rw [hkind] at hruns
          obtain rfl : c' = c := hruns
          by_contra htaken
          rw [Bool.not_eq_false] at htaken
          have := hc.free hg
          rw [(I.onward h h₁).keys _ htaken] at this
          cases this

/-- What starts when its key is taken commits nothing. -/
theorem Installation.no_late_entries (I : Installation)
    (h : Reachable postgres (I.start H ext) w) {c : Command} (hkey : w.db.has c.key = true)
    {w' : World H} (h' : Reachable postgres w w') {i : ℕ} (hi : w.tasks.length ≤ i)
    {ws : List Write} {p : Handler c.Result} (ht : w'.tasks[i]? = some ⟨.command c, ws, p⟩) :
    w'.entriesOf i = [] := by
  refine List.filter_eq_nil_iff.2 fun e he htask => ?_
  have hkind := ((h.trans h').once (by rfl) (by rfl)).logged e he
  rw [of_decide_eq_true htask, List.getElem?_map, ht] at hkind
  have hfree := I.late_keys h h' e he (of_decide_eq_true htask ▸ hi) (Option.some.inj hkind).symm
  rw [hfree] at hkey
  cases hkey

/-- **What a handler is refused with**: its key was taken, or its decision is none, which is looked
at first; or its process was killed. -/
def RefusedWith (c : Command) (e : Error) : Prop :=
  e = .crashed ∨ e = .duplicateRequest c.operationName c.idempotencyKey ∨
    ∃ x text, c = .applyReviewDecision x ∧ x.decision ∉ reviewOutcomes ∧
      e = .invalidApplicationData text

/-- **What is left of a handler that comes too late**: it asks, sends the statement that reserves its
key, and raises when it is refused, all in at most so many steps. -/
def Refused (c : Command) : ℕ → Handler c.Result → Prop
  | _, Prog.raise e => RefusedWith c e
  | n + 1, Prog.ask _ k => ∀ a, Refused c n (k a)
  | n + 1, Prog.exec x k => (∃ reservedAt, x = c.reservation reservedAt) ∧
      Refused c n (k (some .integrityError))
  | _, _ => False

/-- The reservation is how a handler begins. -/
theorem refused_requireReservation {c : Command} (f : Unit → Handler c.Result) :
    Refused c 2 (requireReservation c.tenantId c.idempotencyKey c.operationName >>= f) :=
  fun reservedAt => ⟨⟨reservedAt, rfl⟩, Or.inr (Or.inl rfl)⟩

/-- **Every handler begins with its reservation**, or with a look at its decision. -/
theorem Command.refused (c : Command) : Refused c 2 c.handle := by
  cases c with
  | applyReviewDecision x =>
      change Refused (.applyReviewDecision x) 2 (FinAssist.applyReviewDecision x)
      rw [FinAssist.applyReviewDecision]
      split
      next hno => exact Or.inr (Or.inr ⟨x, _, rfl, hno, rfl⟩)
      next => exact refused_requireReservation (c := .applyReviewDecision x) _
  | _ => exact refused_requireReservation _

/-- The reservation of a key that is taken is refused. -/
theorem fault_reservation {d : Database} {c : Command} (hkey : d.has c.key = true)
    (reservedAt : DateTime) : postgres.fault d (c.reservation reservedAt) = some .integrityError := by
  rw [Command.key] at hkey
  simp [postgres, Database.fault, Command.reservation, reserveWrite, Statement.staticFault,
    Row.visibleTo, Row.tenantId?, Row.check, Statement.absent, Row.keys, hkey]

/-- **A handler that comes too late goes on to its end**: once it is answered, nothing keeps it
waiting, and it is nearer to its exception than before. -/
theorem Refused.goes_on {i n : ℕ} {c : Command} {p : Handler c.Result} (h : Refused c n p)
    (hkey : w.db.has c.key = true) (ht : w.tasks[i]? = some ⟨.command c, [], p⟩)
    (hdone : p.done = false) (answers : (q : Ask) → Answer q)
    (hanswered : ∀ q k, p = Prog.ask q k →
      (H.answer w.ext w.db (.command c) q (answers q)).isSome = true) :
    ∃ w' m p', w.step postgres (.advance i answers) = some w' ∧ m < n ∧
      w'.tasks[i]? = some ⟨.command c, [], p'⟩ ∧ Refused c m p' := by
  have hlt := (List.getElem?_eq_some_iff.1 ht).1
  have hgoto : ∀ p' : Handler c.Result,
      (w.tasks.set i (Task.goto (P := programs) ⟨.command c, [], p⟩ [] p'))[i]? =
        some ⟨.command c, [], p'⟩ := by
    intro p'
    rw [List.getElem?_set_self hlt]
    exact congrArg (fun ws => some (⟨.command c, ws, p'⟩ : Task programs)) (ite_self [])
  have hstep : w.step postgres (.advance i answers) =
      w.advance postgres i answers ⟨.command c, [], p⟩ p := by
    rw [World.step, ht]
    rfl
  cases n with
  | zero => cases p <;> first | exact h.elim | cases hdone
  | succ n =>
      cases p with
      | ret r => cases hdone
      | raise e => cases hdone
      | ask q k =>
          obtain ⟨e, he⟩ := Option.isSome_iff_exists.1 (hanswered q k rfl)
          have hnext : w.step postgres (.advance i answers) = some { w with
              ext := e
              tasks := w.tasks.set i
                (Task.goto (P := programs) ⟨.command c, [], .ask q k⟩ [] (k (answers q))) } := by
            simp only [hstep, World.advance, he, Option.map_some]
            rfl
          exact ⟨_, n, k (answers q), hnext, Nat.lt_succ_self n, hgoto _, h _⟩
      | exec x k =>
          obtain ⟨⟨reservedAt, rfl⟩, hk⟩ := h
          have hnext : w.step postgres (.advance i answers) = some { w with
              tasks := w.tasks.set i (Task.goto (P := programs)
                ⟨.command c, [], .exec (c.reservation reservedAt) k⟩ [] (k (some .integrityError))) } := by
            simp only [hstep, World.advance, Schema.view_nil, fault_reservation hkey]
            rfl
          exact ⟨_, n, k (some .integrityError), hnext, Nat.lt_succ_self n, hgoto _, hk⟩
      | query k => exact h.elim
      | commit k => exact h.elim
      | rollback k => exact h.elim

/-- **A handler that starts when its key is taken is on its way to be refused**, and holds nothing. -/
theorem Installation.too_late (I : Installation) (h : Reachable postgres (I.start H ext) w)
    {c : Command} (hkey : w.db.has c.key = true) {w' : World H} (h' : Reachable postgres w w') :
    ∀ (i : ℕ) ws p, w.tasks.length ≤ i → w'.tasks[i]? = some ⟨.command c, ws, p⟩ →
      ws = [] ∧ ∃ n ≤ 2, Refused c n p := by
  induction h' with
  | refl =>
      intro i ws p hi ht
      have := (List.getElem?_eq_some_iff.1 ht).1
      omega
  | @tail w₁ w₂ a h₁ _ hs ih =>
      intro i ws p hi ht
      cases World.step_cases hs with
      | tick τ e he => exact ih i ws p hi ht
      | spawn κ hκ =>
          change (w₁.tasks ++ [_])[i]? = _ at ht
          rw [List.getElem?_append] at ht
          split at ht
          next => exact ih i ws p hi ht
          next =>
            have hmem := List.mem_singleton.1 (List.mem_of_getElem? ht)
            cases hmem
            exact ⟨rfl, 2, le_refl 2, c.refused⟩
      | kill j t htj =>
          change (w₁.tasks.set j _)[i]? = _ at ht
          rcases eq_or_ne j i with rfl | hji
          · obtain ⟨κ, vs, q⟩ := t
            rw [List.getElem?_set_self (List.getElem?_eq_some_iff.1 htj).1] at ht
            cases ht
            exact ⟨rfl, 0, Nat.zero_le 2, Or.inl rfl⟩
          · rw [List.getElem?_set_ne hji] at ht
            exact ih i ws p hi ht
      | advance j answers t w₂ htj hadv =>
          obtain ⟨u, hset, hkind, -⟩ := hadv.shape
          rw [hset] at ht
          rcases eq_or_ne j i with rfl | hji
          · -- it was on its way before, and a step brings it nearer
            rw [List.getElem?_set_self (List.getElem?_eq_some_iff.1 htj).1] at ht
            cases ht
            obtain ⟨κ, vs, q⟩ := t
            obtain rfl : Kind.command c = κ := hkind
            obtain ⟨rfl, n, hn, hrefused⟩ := ih j vs q hi htj
            have hdone : q.done = false := by
              cases q <;> first | rfl | (rw [World.step, htj] at hs; cases hs)
            have hanswered : ∀ x k, q = Prog.ask x k →
                (H.answer w₁.ext w₁.db (.command c) x (answers x)).isSome = true := by
              rintro x k rfl
              rw [World.step, htj] at hs
              obtain ⟨e, he, -⟩ := Option.map_eq_some_iff.1 hs
              exact Option.isSome_iff_exists.2 ⟨e, he⟩
            obtain ⟨w₃, m, p', hs', hlt, ht', hp'⟩ := hrefused.goes_on
              ((I.onward h h₁).keys _ hkey) htj hdone answers hanswered
            rw [hs] at hs'
            obtain rfl := Option.some.inj hs'
            rw [hset, List.getElem?_set_self (List.getElem?_eq_some_iff.1 htj).1] at ht'
            cases ht'
            exact ⟨rfl, m, by omega, hp'⟩
          · rw [List.getElem?_set_ne hji] at ht
            exact ih i ws p hi ht

/-- **A handler that starts when its key is taken is refused**: it commits nothing, does not return,
and all it raises is that the request is a duplicate, or that its decision is none. -/
theorem taken_keys_are_refused (I : Installation) (h : Reachable postgres (I.start H ext) w)
    {c : Command} (hkey : w.db.has c.key = true) {w' : World H} (h' : Reachable postgres w w')
    {i : ℕ} (hi : w.tasks.length ≤ i) {ws : List Write} {p : Handler c.Result}
    (ht : w'.tasks[i]? = some ⟨.command c, ws, p⟩) :
    w'.entriesOf i = [] ∧ (∀ r, p ≠ .ret r) ∧
      ∀ e, p = .raise e → e = .crashed ∨ e = .duplicateRequest c.operationName c.idempotencyKey ∨
        ∃ x text, c = .applyReviewDecision x ∧ x.decision ∉ reviewOutcomes ∧
          e = .invalidApplicationData text := by
  obtain ⟨-, n, -, hrefused⟩ := I.too_late h hkey h' i ws p hi ht
  refine ⟨I.no_late_entries h hkey h' hi ht, ?_, ?_⟩
  · rintro r rfl
    cases n <;> exact hrefused
  · rintro e rfl
    cases n <;> exact hrefused

end Runs

namespace Sample

/-- Whether a task is a handler that has failed, with a key that was taken. -/
def hasFailed : Task programs → Bool
  | ⟨.command c, _, .raise e⟩ => created.db.has c.key && decide (e ≠ .crashed)
  | _ => false

theorem command_of_hasFailed {t : Task programs} (h : hasFailed t = true) :
    ∃ c ws e, t = ⟨.command c, ws, .raise e⟩ ∧ created.db.has c.key = true ∧ e ≠ .crashed := by
  obtain ⟨κ, ws, p⟩ := t
  cases κ with
  | command c =>
      cases p with
      | raise e =>
          obtain ⟨hkey, he⟩ := Bool.and_eq_true_iff.1 h
          exact ⟨c, ws, e, rfl, hkey, of_decide_eq_true he⟩
      | _ => cases h
  | _ => cases h

end Sample

/-- The creation, asked for once more. -/
theorem taken_keys_are_refused_repeated : ∃ c ws e,
    Sample.repeated.tasks[1]? = some ⟨.command c, ws, .raise e⟩ ∧ e ≠ .crashed ∧
    Sample.repeated.entriesOf 1 = [] ∧
    (e = .duplicateRequest c.operationName c.idempotencyKey ∨ ∃ x text,
      c = .applyReviewDecision x ∧ x.decision ∉ reviewOutcomes ∧
        e = .invalidApplicationData text) := by
  have hfailed : Sample.repeated.tasks[1]?.map Sample.hasFailed = some true := by decide +kernel
  obtain ⟨t, ht, hfail⟩ := Option.map_eq_some_iff.1 hfailed
  obtain ⟨c, ws, e, rfl, hkey, hcrash⟩ := Sample.command_of_hasFailed hfail
  obtain ⟨hnone, -, hraises⟩ := taken_keys_are_refused Sample.installation Sample.reachable_created
    hkey (reachable_follow _ _) (by decide +kernel) ht
  exact ⟨c, ws, e, ht, hcrash, hnone, (hraises e rfl).resolve_left hcrash⟩

/-! ### One transaction for a key -/

/-- **A key is used once.**  Whatever handlers run side by side, are repeated, fail or are killed: of
the commands with one key one transaction is committed.  A handler that starts after that holds
nothing, commits nothing, and is at most two steps from its refusal, each of which it takes without
waiting.  The rows are those that were committed; a handler that has returned has committed its
transaction, one that has failed nothing, so there is no key of it either, and what goes on beside it
goes on as if it had not begun. -/
theorem keys_are_used_once {H : Host programs} {ext : H.Ext} {w : World H} (I : Installation)
    (h : Reachable postgres (I.start H ext) w) :
    OneForEachKey w ∧
    (∀ c : Command, w.db.has c.key = true → ∀ w', Reachable postgres w w' →
      ∀ (i : ℕ) ws p, w.tasks.length ≤ i → w'.tasks[i]? = some ⟨.command c, ws, p⟩ →
        ws = [] ∧ w'.entriesOf i = [] ∧ ∃ n ≤ 2, Refused c n p ∧
          (p.done = false → ∀ answers, (∀ q k, p = Prog.ask q k →
              (H.answer w'.ext w'.db (.command c) q (answers q)).isSome = true) →
            ∃ w'' m p', w'.step postgres (.advance i answers) = some w'' ∧ m < n ∧
              w''.tasks[i]? = some ⟨.command c, [], p'⟩ ∧ Refused c m p')) ∧
    w.db = postgres.view I.database (w.log.flatMap Entry.writes) ∧
    ∀ (i : ℕ) c ws p, w.tasks[i]? = some ⟨.command c, ws, p⟩ →
      (∀ r, p = .ret r → ∃ e, w.entriesOf i = [e] ∧ reservedKeys e = [c.key]) ∧
      (w.entriesOf i).length ≤ 1 ∧
      ∀ e, p = .raise e → (e ≠ .crashed → w.entriesOf i = []) ∧
        ∀ as : List (Action H), (∀ a ∈ as, a.Leaves i) →
          (w.put i ⟨.command c, [], c.handle⟩).run postgres as =
            (w.run postgres as).map fun w' => w'.put i ⟨.command c, [], c.handle⟩ := by
  refine ⟨I.oneForEachKey h, ?_, h.db_eq rfl, ?_⟩
  · intro c hkey w' h' i ws p hi ht
    obtain ⟨rfl, n, hn, hrefused⟩ := I.too_late h hkey h' i ws p hi ht
    refine ⟨rfl, I.no_late_entries h hkey h' hi ht, n, hn, hrefused, ?_⟩
    exact fun hdone answers => hrefused.goes_on ((I.onward h h').keys _ hkey) ht hdone answers
  · intro i c ws p ht
    obtain ⟨-, hraise, hle⟩ := entries_of_once (by rfl) (by rfl) h ht c.commitsOnce
    refine ⟨?_, hle, fun e he => ⟨hraise e he, ?_⟩⟩
    · rintro r rfl
      exact I.returned h ht
    · intro as has
      have hnone := h.ended (by rfl) _ (List.mem_of_getElem? ht) (he ▸ rfl)
      exact World.run_put hnone rfl as has ht

/-- The creation that was carried out, and was asked for once more. -/
theorem keys_are_used_once_repeated :
    OneForEachKey Sample.repeated ∧ Sample.repeated.log.length = 1 ∧
    ∃ c ws e, Sample.repeated.tasks[1]? = some ⟨.command c, ws, .raise e⟩ ∧ e ≠ .crashed ∧
      ws = [] ∧ Sample.repeated.entriesOf 1 = [] ∧ (∃ n ≤ 2, Refused c n (.raise e)) ∧
      ∀ as, (∀ a ∈ as, Action.Leaves 1 a) →
        (Sample.repeated.put 1 ⟨.command c, [], c.handle⟩).run postgres as =
          (Sample.repeated.run postgres as).map fun w' =>
            w'.put 1 ⟨.command c, [], c.handle⟩ := by
  have hfailed : Sample.repeated.tasks[1]?.map Sample.hasFailed = some true := by decide +kernel
  obtain ⟨t, ht, hfail⟩ := Option.map_eq_some_iff.1 hfailed
  obtain ⟨c, ws, e, rfl, hkey, hcrash⟩ := Sample.command_of_hasFailed hfail
  obtain ⟨-, hlate, -, -⟩ := keys_are_used_once Sample.installation Sample.reachable_created
  obtain ⟨hone, -, -, hends⟩ := keys_are_used_once Sample.installation Sample.reachable_repeated
  obtain ⟨hws, hnone, n, hn, hrefused, -⟩ := hlate c hkey Sample.repeated (reachable_follow _ _) 1 ws
    (.raise e) (by decide +kernel) ht
  obtain ⟨-, -, hraised⟩ := hends 1 c ws (.raise e) ht
  exact ⟨hone, by decide +kernel, c, ws, e, ht, hcrash, hws, hnone, ⟨n, hn, hrefused⟩,
    (hraised e rfl).2⟩

end FinAssist
