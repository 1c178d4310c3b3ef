/-
**Identifiers, instants, and the keys built from them.**

`finassist.domain.shared.identifiers` wraps strings that `uuid.UUID` can parse, in any of the
spellings it takes; `str` gives the string back as it was.  Identifiers the program generates
itself are UUIDs in canonical form.  Two kinds of strings are put together from identifiers: the
id of a workflow (`_workflow_id.py`) and the idempotency key of an activity (`activities.py`).
Both separate their parts by colons, and a tenant id may contain colons itself, so that they
determine their parts has to be read from the right.

Main definitions:

* `FinAssist.Uuid.accepts` — what `uuid.UUID(s)` does not raise on;
* `FinAssist.TenantId`, `FinAssist.ApplicationId`, … — the typed identifiers;
* `FinAssist.Uuid4` — a generated identifier;
* `FinAssist.DateTime` — an instant in UTC, with `DateTime.isoformat`;
* `FinAssist.applicationWorkflowId`, `FinAssist.idempotencyKey`.

Main results:

* `FinAssist.applicationWorkflowId_version` — the workflow ids of an application determine the
  version;
* `FinAssist.idempotencyKey_inj`, `FinAssist.documentKey_inj` — an activity's key determines the
  workflow, the activity and the document.
-/

import Mathlib.Data.List.Basic

set_option relaxedAutoImplicit false
set_option autoImplicit false

namespace FinAssist

/-! ### What `uuid.UUID` accepts -/

namespace Uuid

/-- `s.replace(pattern, "")`; `skip` characters of an occurrence are still to be dropped. -/
def remove (pattern : List Char) : ℕ → List Char → List Char
  | _, [] => []
  | skip + 1, _ :: s => remove pattern skip s
  | 0, c :: s =>
      if pattern.isPrefixOf (c :: s) then remove pattern (pattern.length - 1) s
      else c :: remove pattern 0 s

/-- `s.strip(chars)`. -/
def strip (chars s : List Char) : List Char :=
  ((s.dropWhile chars.contains).reverse.dropWhile chars.contains).reverse

/-- The code points of the zeros of the decimal digits outside ASCII (Unicode 14). -/
def decimalZeros : List ℕ :=
  [0x660, 0x6f0, 0x7c0, 0x966, 0x9e6, 0xa66, 0xae6, 0xb66, 0xbe6, 0xc66, 0xce6, 0xd66, 0xde6,
   0xe50, 0xed0, 0xf20, 0x1040, 0x1090, 0x17e0, 0x1810, 0x1946, 0x19d0, 0x1a80, 0x1a90, 0x1b50,
   0x1bb0, 0x1c40, 0x1c50, 0xa620, 0xa8d0, 0xa900, 0xa9d0, 0xa9f0, 0xaa50, 0xabf0, 0xff10,
   0x104a0, 0x10d30, 0x11066, 0x110f0, 0x11136, 0x111d0, 0x112f0, 0x11450, 0x114d0, 0x11650,
   0x116c0, 0x11730, 0x118e0, 0x11950, 0x11c50, 0x11d50, 0x11da0, 0x16a60, 0x16ac0, 0x16b50,
   0x1d7ce, 0x1d7d8, 0x1d7e2, 0x1d7ec, 0x1d7f6, 0x1e140, 0x1e2f0, 0x1e950, 0x1fbf0]

/-- The characters outside ASCII that `int` takes for a blank. -/
def wideSpaces : List ℕ :=
  [0x85, 0xa0, 0x1680, 0x2000, 0x2001, 0x2002, 0x2003, 0x2004, 0x2005, 0x2006, 0x2007, 0x2008,
   0x2009, 0x200a, 0x2028, 0x2029, 0x202f, 0x205f, 0x3000]

/-- A character as `int` reads it: decimal digits and blanks of other scripts become ASCII. -/
def toAscii (c : Char) : Char :=
  if c.toNat < 128 then c
  else if wideSpaces.contains c.toNat then ' '
  else match decimalZeros.find? fun z => z ≤ c.toNat && c.toNat < z + 10 with
    | some z => Char.ofNat (48 + (c.toNat - z))
    | none => '?'

def isBlank (c : Char) : Bool := c = ' ' || (9 ≤ c.toNat && c.toNat ≤ 13)

def isHexDigit (c : Char) : Bool :=
  c.isDigit || ('a' ≤ c && c ≤ 'f') || ('A' ≤ c && c ≤ 'F')

/-- Digits, with single underscores between them. -/
def isDigitGroup : List Char → Bool
  | [] => false
  | [c] => isHexDigit c
  | c :: '_' :: s => isHexDigit c && isDigitGroup s
  | c :: s => isHexDigit c && isDigitGroup s

/-- Whether `int(s, 16)` parses `s`: blanks around, a sign, `0x` and one underscore after it. -/
def isHexInt (s : List Char) : Bool :=
  let s := (s.map toAscii).dropWhile isBlank
  let s := (s.reverse.dropWhile isBlank).reverse
  let s := match s with
    | '+' :: s => s
    | '-' :: s => s
    | s => s
  match s with
  | '0' :: 'x' :: '_' :: s => isDigitGroup s
  | '0' :: 'X' :: '_' :: s => isDigitGroup s
  | '0' :: 'x' :: s => isDigitGroup s
  | '0' :: 'X' :: s => isDigitGroup s
  | s => isDigitGroup s

/-- **Whether `uuid.UUID(s)` parses `s`.** -/
def accepts (s : String) : Bool :=
  let hex := remove "uuid:".toList 0 (remove "urn:".toList 0 s.toList)
  let hex := remove ['-'] 0 (strip ['{', '}'] hex)
  hex.length == 32 && isHexInt hex

/-- The canonical spelling: lower-case digits in groups of 8, 4, 4, 4 and 12. -/
def isCanonical (s : String) : Bool :=
  s.toList.length == 36 && s.toList.zipIdx.all fun ci =>
    if ci.2 == 8 || ci.2 == 13 || ci.2 == 18 || ci.2 == 23 then ci.1 == '-'
    else ci.1.isDigit || ('a' ≤ ci.1 && ci.1 ≤ 'f')

end Uuid

/-- Identifies a tenant. -/
structure TenantId where
  value : String
  isUuid : Uuid.accepts value = true
  deriving DecidableEq

/-- Identifies an applicant. -/
structure ApplicantId where
  value : String
  isUuid : Uuid.accepts value = true
  deriving DecidableEq

/-- Identifies an application. -/
structure ApplicationId where
  value : String
  isUuid : Uuid.accepts value = true
  deriving DecidableEq

/-- Identifies a product. -/
structure ProductId where
  value : String
  isUuid : Uuid.accepts value = true
  deriving DecidableEq

theorem ApplicationId.ext_value {a b : ApplicationId} (h : a.value = b.value) : a = b := by
  cases a
  cases b
  simpa using h

theorem TenantId.ext_value {a b : TenantId} (h : a.value = b.value) : a = b := by
  cases a
  cases b
  simpa using h

/-- What `IdGenerator.new_id` returns, the string of a `uuid.uuid4()`. -/
structure Uuid4 where
  value : String
  isCanonical : Uuid.isCanonical value = true
  deriving DecidableEq

/-- `ApplicationId(value)`, or nothing where it raises. -/
def ApplicationId.of? (value : String) : Option ApplicationId :=
  if h : Uuid.accepts value = true then some ⟨value, h⟩ else none

/-- `ApplicantId(value)`, or nothing where it raises. -/
def ApplicantId.of? (value : String) : Option ApplicantId :=
  if h : Uuid.accepts value = true then some ⟨value, h⟩ else none

theorem ApplicationId.of?_value {value : String} {a : ApplicationId}
    (h : ApplicationId.of? value = some a) : a.value = value := by
  unfold ApplicationId.of? at h
  split at h
  · cases h; rfl
  · cases h

/-! ### Instants -/

def isLeapYear (year : ℕ) : Bool := year % 4 == 0 && (year % 100 != 0 || year % 400 == 0)

def daysInMonth (year month : ℕ) : ℕ :=
  if month = 2 then (if isLeapYear year then 29 else 28)
  else if month = 4 ∨ month = 6 ∨ month = 9 ∨ month = 11 then 30 else 31

/-- `datetime.date`. -/
structure Date where
  year : ℕ
  month : ℕ
  day : ℕ
  valid : 1 ≤ year ∧ year ≤ 9999 ∧ 1 ≤ month ∧ month ≤ 12 ∧ 1 ≤ day ∧ day ≤ daysInMonth year month
  deriving DecidableEq

/-- `datetime.datetime`, aware, in UTC. -/
structure DateTime where
  date : Date
  hour : ℕ
  minute : ℕ
  second : ℕ
  microsecond : ℕ
  valid : hour < 24 ∧ minute < 60 ∧ second < 60 ∧ microsecond < 1000000
  deriving DecidableEq

/-- A number padded with zeros to `width` digits. -/
def zeroPad (width n : ℕ) : String :=
  String.ofList (List.replicate (width - (toString n).length) '0') ++ toString n

def Date.isoformat (d : Date) : String :=
  zeroPad 4 d.year ++ "-" ++ zeroPad 2 d.month ++ "-" ++ zeroPad 2 d.day

/-- `datetime.isoformat()`: the microseconds are left out when they are zero. -/
def DateTime.isoformat (t : DateTime) : String :=
  t.date.isoformat ++ "T" ++ zeroPad 2 t.hour ++ ":" ++ zeroPad 2 t.minute ++ ":" ++
    zeroPad 2 t.second ++
    (if t.microsecond = 0 then "" else "." ++ zeroPad 6 t.microsecond) ++ "+00:00"

/-- Microseconds, on a scale on which a later instant has more of them. -/
def DateTime.ticks (t : DateTime) : ℕ :=
  (((((t.date.year * 16 + t.date.month) * 32 + t.date.day) * 24 + t.hour) * 60 + t.minute) * 60 +
    t.second) * 1000000 + t.microsecond

/-! ### Composed keys -/

/-- `application_workflow_id`. -/
def applicationWorkflowId (t : TenantId) (a : ApplicationId) (version : ℕ) : String :=
  "application:" ++ t.value ++ ":" ++ a.value ++ ":v" ++ toString version

/-- What an activity knows of itself, `activity.info()`.  Temporal numbers the activities of an
execution. -/
structure ActivityInfo where
  workflowId : String
  activityId : ℕ
  deriving DecidableEq

/-- `_idempotency_key()`. -/
def idempotencyKey (info : ActivityInfo) : String :=
  info.workflowId ++ ":" ++ toString info.activityId

/-- `_idempotency_key(suffix=document_id)`. -/
def documentKey (info : ActivityInfo) (documentId : String) : String :=
  idempotencyKey info ++ ":" ++ documentId

/-! ### What they are made of -/

theorem toString_nat_inj {m n : ℕ} (h : toString m = toString n) : m = n := by
  have hl : Nat.toDigits 10 m = Nat.toDigits 10 n := by
    rw [← Nat.toList_repr, ← Nat.toList_repr]
    exact congrArg String.toList h
  rw [← @Nat.ofDigitChars_toDigits 10 m (by omega) (by omega), hl,
    Nat.ofDigitChars_toDigits (by omega) (by omega)]

/-- A string without a colon. -/
def ColonFree (s : String) : Prop := ':' ∉ s.toList

theorem colonFree_nat (n : ℕ) : ColonFree (toString n) := by
  intro h
  have hl : (toString n).toList = Nat.toDigits 10 n := Nat.toList_repr
  rw [hl] at h
  exact absurd (Nat.isDigit_of_mem_toDigits (by omega) (by omega) h) (by decide)

/-- What a generated identifier is written with. -/
theorem Uuid4.chars (u : Uuid4) {c : Char} (h : c ∈ u.value.toList) :
    c = '-' ∨ c.isDigit = true ∨ ('a' ≤ c ∧ c ≤ 'f') := by
  obtain ⟨i, hi⟩ := List.mem_iff_getElem?.1 h
  have hall := u.isCanonical
  simp only [Uuid.isCanonical, Bool.and_eq_true] at hall
  have hc := List.all_eq_true.1 hall.2 (c, i) (List.mem_zipIdx_iff_getElem?.2 hi)
  dsimp only at hc
  split at hc
  · exact Or.inl (beq_iff_eq.1 hc)
  · simp only [Bool.or_eq_true, Bool.and_eq_true, decide_eq_true_eq] at hc
    exact Or.inr hc

theorem Uuid4.colonFree (u : Uuid4) : ColonFree u.value := fun h =>
  absurd (u.chars h) (by decide)

/-- What stands after the last colon is determined, and so is what stands before it. -/
theorem lastColon_inj {p q x y : List Char} (hx : ':' ∉ x) (hy : ':' ∉ y)
    (h : p ++ ':' :: x = q ++ ':' :: y) : p = q ∧ x = y := by
  induction p generalizing q with
  | nil =>
      cases q with
      | nil => simpa using h
      | cons c q =>
          simp only [List.nil_append, List.cons_append, List.cons.injEq] at h
          exact absurd (h.2 ▸ by simp) hx
  | cons c p ih =>
      cases q with
      | nil =>
          simp only [List.nil_append, List.cons_append, List.cons.injEq] at h
          exact absurd (h.2 ▸ by simp) hy
      | cons d q =>
          simp only [List.cons_append, List.cons.injEq] at h
          obtain ⟨hp, hxy⟩ := ih h.2
          exact ⟨by rw [h.1, hp], hxy⟩

theorem colon_append_inj {p q x y : String} (hx : ColonFree x) (hy : ColonFree y)
    (h : p ++ ":" ++ x = q ++ ":" ++ y) : p = q ∧ x = y := by
  have hl := congrArg String.toList h
  simp only [String.toList_append] at hl
  have hcolon : ":".toList = [':'] := rfl
  simp only [hcolon, List.append_assoc, List.singleton_append] at hl
  obtain ⟨hp, hxy⟩ := lastColon_inj hx hy hl
  exact ⟨String.toList_inj.1 hp, String.toList_inj.1 hxy⟩

/-- A workflow id, with its last colon by itself. -/
theorem applicationWorkflowId_eq (t : TenantId) (a : ApplicationId) (version : ℕ) :
    applicationWorkflowId t a version =
      "application:" ++ t.value ++ ":" ++ a.value ++ ":" ++ ("v" ++ toString version) := by
  change "application:" ++ t.value ++ ":" ++ a.value ++ (":" ++ "v") ++ toString version = _
  rw [← String.append_assoc, String.append_assoc]

/-- The workflow ids of an application determine the version. -/
theorem applicationWorkflowId_version {t : TenantId} {a : ApplicationId} {v v' : ℕ}
    (h : applicationWorkflowId t a v = applicationWorkflowId t a v') : v = v' := by
  have happend : "application:" ++ t.value ++ ":" ++ a.value ++ ":v" ++ toString v =
      "application:" ++ t.value ++ ":" ++ a.value ++ ":v" ++ toString v' := h
  exact toString_nat_inj ((String.append_right_inj _).1 happend)

theorem idempotencyKey_inj {i j : ActivityInfo} (h : idempotencyKey i = idempotencyKey j) :
    i = j := by
  obtain ⟨hw, ha⟩ := colon_append_inj (colonFree_nat _) (colonFree_nat _) h
  have hid := toString_nat_inj ha
  cases i
  cases j
  simp_all

theorem documentKey_inj {i j : ActivityInfo} {x y : String} (hx : ColonFree x) (hy : ColonFree y)
    (h : documentKey i x = documentKey j y) : i = j ∧ x = y := by
  obtain ⟨hk, hxy⟩ := colon_append_inj hx hy h
  exact ⟨idempotencyKey_inj hk, hxy⟩

end FinAssist
