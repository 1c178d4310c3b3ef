/-
**What PostgreSQL cannot store.**

A schema as the other modules use it takes every text and every number that the constraints allow.
The columns do not: a `TEXT` has no NUL character, and an `INTEGER` is less than `2 ^ 31`.  What a
client has sent reaches some columns as it was sent, and then the statement is refused.  A program
whose statements can all be stored does not notice the difference.

Main definitions:

* `FinAssist.Write.isStorable` — whether what a client has sent of a statement can be stored;
* `FinAssist.postgresTexts` — **the database that refuses what it cannot store**.

Main results:

* `FinAssist.alone_postgresTexts` — **a program whose statements can be stored runs as before**;
* `FinAssist.alone_requireReservation_refused` — a key that cannot be stored ends its command.
-/

import FinAssist.HandlerViews

set_option relaxedAutoImplicit false
set_option autoImplicit false

namespace FinAssist

open ReadCommitted

/-! ### Values that can be stored -/

/-- Whether a text can be stored: PostgreSQL has no NUL character. -/
def isStorable (s : String) : Bool := !s.toList.contains (Char.ofNat 0)

/-- The texts of a row that stand in it as a client has sent them. -/
def Row.clientTexts : Row → List String
  | idempotencyKey r => [r.idempotencyKey]
  | applicant r => [r.givenName, r.familyName, r.email]
  | document r => [r.documentType, r.objectKey]
  | _ => []

/-- The numbers of a row that a client may make as large as it likes, in `INTEGER` columns. -/
def Row.clientSizes : Row → List ℕ
  | document r => [r.sizeBytes]
  | _ => []

/-- Whether what a client has sent of a statement can be stored. -/
def Write.isStorable (w : Write) : Bool :=
  w.statement.inserted?.all fun row =>
    row.clientTexts.all FinAssist.isStorable && row.clientSizes.all fun size => size < 2 ^ 31

/-- **PostgreSQL, which refuses what it cannot store.** -/
def postgresTexts : Schema Database Write Fault Key :=
  { postgres with
    fault := fun d w => if w.isStorable then postgres.fault d w else some .dataError }

theorem view_postgresTexts (d : Database) (ws : List Write) :
    postgresTexts.view d ws = postgres.view d ws := rfl

theorem fault_postgresTexts {w : Write} (h : w.isStorable = true) (d : Database) :
    postgresTexts.fault d w = postgres.fault d w :=
  if_pos h

theorem fault_postgresTexts_refused {w : Write} (h : w.isStorable = false) (d : Database) :
    postgresTexts.fault d w = some .dataError :=
  if_neg (by rw [h]; decide)

theorem Write.IsRecording.isStorable {w : Write} (h : w.IsRecording) : w.isStorable = true := by
  obtain ⟨t, st⟩ := w
  cases st with
  | insert row => cases row <;> first | rfl | exact h.elim
  | _ => rfl

theorem isStorable_append (s t : String) :
    isStorable (s ++ t) = (isStorable s && isStorable t) := by
  simp [isStorable, String.toList_append, Bool.not_or]

/-! ### Programs -/

section Alone

variable {σ α : Type} {E : Environment Answer σ} {s : σ} {d : Database} {t : TenantId}

/-- **A program whose statements can be stored runs as before.** -/
theorem alone_postgresTexts {p : Handler α}
    (hp : p.Inside (fun _ => True) (fun _ => True) fun w => w.isStorable = true) (s : σ)
    (ws : List Write) : p.alone postgresTexts E s d ws = p.alone postgres E s d ws :=
  Prog.alone_congr view_postgresTexts (fun d _ hw => fault_postgresTexts hw d) hp s d ws

theorem inside_requireReservation {key : String} (operationName : String)
    (hkey : isStorable key = true) :
    (requireReservation t key operationName).Inside (fun _ => True) (fun _ => True)
      fun w => w.isStorable = true := by
  refine Prog.Inside.bind (Prog.Inside.bind ⟨trivial, fun _ => trivial⟩ fun reservedAt => ?_)
    fun reserved => ?_
  · refine ⟨by simp [Write.isStorable, Statement.inserted?, Row.clientTexts, Row.clientSizes,
      hkey], fun o => ?_⟩
    rcases o with _ | f
    · trivial
    · cases f <;> trivial
  · cases reserved <;> trivial

/-- **A key that cannot be stored** is not reserved. -/
theorem alone_requireReservation_refused {key : String} (operationName : String)
    (hkey : isStorable key = false) :
    (requireReservation t key operationName).alone postgresTexts E s d [] =
      ⟨d, [], (E s .now).2, .error (.database .dataError)⟩ := by
  have hfault : postgresTexts.fault (postgresTexts.view d [])
      (reserveWrite t operationName key (timeOf E s)) = some .dataError :=
    fault_postgresTexts_refused (by simp [Write.isStorable, reserveWrite, Statement.inserted?,
      Row.clientTexts, hkey]) _
  rw [requireReservation, reserveIdempotencyKey, Prog.alone_bind, Prog.alone_bind]
  simp only [now, Handler.ask, Prog.alone]
  simp only [reserveWrite, timeOf] at hfault
  rw [hfault]
  rfl

end Alone

end FinAssist
