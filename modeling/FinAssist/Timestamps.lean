/-
**Instants as texts, and back.**

An envelope carries the time of its event as the text that `datetime.isoformat` makes, and the
consumer reads it back with `datetime.fromisoformat`.  The audit hash is taken over the same text.
The text is read here from the left, field by field, in the one form that `isoformat` gives an
instant in UTC.

Main definitions:

* `FinAssist.DateTime.fromisoformat?` — the instant a text stands for.

Main results:

* `FinAssist.DateTime.fromisoformat?_isoformat` — **an instant is read back from its text**;
* `FinAssist.DateTime.isoformat_inj` — different instants have different texts.
-/

import FinAssist.Identifiers
import Mathlib.Algebra.Group.Nat.Defs

set_option relaxedAutoImplicit false
set_option autoImplicit false

namespace FinAssist

/-! ### Reading a field -/

/-- The first `width` characters as a number, and what follows. -/
def takeNumber (width : ℕ) (s : List Char) : Option (ℕ × List Char) :=
  if (s.take width).length = width ∧ (s.take width).all Char.isDigit = true then
    some (Nat.ofDigitChars 10 (s.take width) 0, s.drop width)
  else none

/-- What follows a separator. -/
def takeChar (c : Char) : List Char → Option (List Char)
  | [] => none
  | d :: s => if d = c then some s else none

/-- The microseconds; they may be left out. -/
def takeMicrosecond : List Char → Option (ℕ × List Char)
  | '.' :: s => takeNumber 6 s
  | s => some (0, s)

/-- The instant with these fields, if they are in range. -/
def DateTime.of? (year month day hour minute second microsecond : ℕ) : Option DateTime :=
  if hd : 1 ≤ year ∧ year ≤ 9999 ∧ 1 ≤ month ∧ month ≤ 12 ∧ 1 ≤ day ∧
      day ≤ daysInMonth year month then
    if ht : hour < 24 ∧ minute < 60 ∧ second < 60 ∧ microsecond < 1000000 then
      some ⟨⟨year, month, day, hd⟩, hour, minute, second, microsecond, ht⟩
    else none
  else none

/-- `datetime.fromisoformat`, on texts of the form that `isoformat` gives an instant in UTC. -/
def DateTime.fromisoformat? (text : String) : Option DateTime := do
  let (year, s) ← takeNumber 4 text.toList
  let s ← takeChar '-' s
  let (month, s) ← takeNumber 2 s
  let s ← takeChar '-' s
  let (day, s) ← takeNumber 2 s
  let s ← takeChar 'T' s
  let (hour, s) ← takeNumber 2 s
  let s ← takeChar ':' s
  let (minute, s) ← takeNumber 2 s
  let s ← takeChar ':' s
  let (second, s) ← takeNumber 2 s
  let (microsecond, s) ← takeMicrosecond s
  if s = ['+', '0', '0', ':', '0', '0'] then
    DateTime.of? year month day hour minute second microsecond
  else none

/-! ### What was written is read back -/

theorem zeroPad_toList (width n : ℕ) : (zeroPad width n).toList =
    List.replicate (width - (Nat.toDigits 10 n).length) '0' ++ Nat.toDigits 10 n := by
  have hdigits : (toString n).toList = Nat.toDigits 10 n := Nat.toList_repr
  rw [zeroPad, String.toList_append, String.toList_ofList, ← String.length_toList, hdigits]

theorem zeroPad_length {width n : ℕ} (hw : 0 < width) (h : n < 10 ^ width) :
    (zeroPad width n).toList.length = width := by
  have hlen := (Nat.length_toDigits_le_iff (b := 10) (by omega) hw).2 h
  rw [zeroPad_toList, List.length_append, List.length_replicate]
  omega

/-- **A padded number is read back.** -/
theorem takeNumber_zeroPad (width : ℕ) {n : ℕ} (hw : 0 < width) (h : n < 10 ^ width)
    (rest : List Char) :
    takeNumber width ((zeroPad width n).toList ++ rest) = some (n, rest) := by
  have hlen := zeroPad_length hw h
  have htake : ((zeroPad width n).toList ++ rest).take width = (zeroPad width n).toList :=
    List.take_left' hlen
  have hdrop : ((zeroPad width n).toList ++ rest).drop width = rest := List.drop_left' hlen
  have hdigits : (zeroPad width n).toList.all Char.isDigit = true := by
    rw [List.all_eq_true]
    intro c hc
    rw [zeroPad_toList] at hc
    rcases List.mem_append.1 hc with hc | hc
    · rw [(List.mem_replicate.1 hc).2]
      rfl
    · exact Nat.isDigit_of_mem_toDigits (by omega) (by omega) hc
  rw [takeNumber, htake, hdrop, if_pos ⟨hlen, hdigits⟩, zeroPad_toList, Nat.ofDigitChars_append,
    Nat.ofDigitChars_replicate_zero, Nat.mul_zero, Nat.ofDigitChars_ten_toDigits]

@[simp] theorem takeChar_cons (c : Char) (s : List Char) : takeChar c (c :: s) = some s := by
  simp [takeChar]

theorem DateTime.of?_eq (t : DateTime) :
    DateTime.of? t.date.year t.date.month t.date.day t.hour t.minute t.second t.microsecond =
      some t := by
  rw [DateTime.of?, dif_pos t.date.valid, dif_pos t.valid]

/-- **An instant is read back from its text.** -/
theorem DateTime.fromisoformat?_isoformat (t : DateTime) :
    DateTime.fromisoformat? t.isoformat = some t := by
  obtain ⟨hyear, hyear', hmonth, hmonth', hday, hday'⟩ := t.date.valid
  obtain ⟨hhour, hminute, hsecond, hmicro⟩ := t.valid
  have hdays : t.date.day < 10 ^ 2 := by
    have : daysInMonth t.date.year t.date.month ≤ 31 := by
      unfold daysInMonth
      split
      · split <;> omega
      · split <;> omega
    omega
  have hfraction : takeMicrosecond ((if t.microsecond = 0 then "" else
      "." ++ zeroPad 6 t.microsecond).toList ++ ['+', '0', '0', ':', '0', '0']) =
        some (t.microsecond, ['+', '0', '0', ':', '0', '0']) := by
    split
    next h => rw [h]; rfl
    next =>
      rw [String.toList_append]
      exact takeNumber_zeroPad 6 (by omega) (by omega) _
  have hdash : "-".toList = ['-'] := rfl
  have hcolon : ":".toList = [':'] := rfl
  have hletter : "T".toList = ['T'] := rfl
  have hzone : "+00:00".toList = ['+', '0', '0', ':', '0', '0'] := rfl
  have htext : t.isoformat.toList = (zeroPad 4 t.date.year).toList ++ '-' ::
      ((zeroPad 2 t.date.month).toList ++ '-' :: ((zeroPad 2 t.date.day).toList ++ 'T' ::
        ((zeroPad 2 t.hour).toList ++ ':' :: ((zeroPad 2 t.minute).toList ++ ':' ::
          ((zeroPad 2 t.second).toList ++ ((if t.microsecond = 0 then "" else
            "." ++ zeroPad 6 t.microsecond).toList ++ ['+', '0', '0', ':', '0', '0'])))))) := by
    simp only [DateTime.isoformat, Date.isoformat, String.toList_append, hdash, hcolon, hletter,
      hzone, List.append_assoc, List.cons_append, List.nil_append]
  rw [DateTime.fromisoformat?, htext]
  simp only [takeNumber_zeroPad 4 (by omega) (show t.date.year < 10 ^ 4 by omega),
    takeNumber_zeroPad 2 (by omega) (show t.date.month < 10 ^ 2 by omega),
    takeNumber_zeroPad 2 (by omega) hdays,
    takeNumber_zeroPad 2 (by omega) (show t.hour < 10 ^ 2 by omega),
    takeNumber_zeroPad 2 (by omega) (show t.minute < 10 ^ 2 by omega),
    takeNumber_zeroPad 2 (by omega) (show t.second < 10 ^ 2 by omega),
    takeChar_cons, Option.bind_eq_bind, Option.bind_some, hfraction, if_true]
  exact DateTime.of?_eq t

/-- Different instants have different texts. -/
theorem DateTime.isoformat_inj {t t' : DateTime} (h : t.isoformat = t'.isoformat) : t = t' := by
  have hread := DateTime.fromisoformat?_isoformat t
  rw [h, DateTime.fromisoformat?_isoformat t'] at hread
  exact (Option.some.inj hread).symm

end FinAssist
