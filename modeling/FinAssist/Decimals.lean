/-
**Decimal arithmetic of a given precision.**

A decimal is a sign, a coefficient and an exponent of ten.  Arithmetic is exact at first, and a
context then rounds what has more digits than its precision, half to even.  `quantize` moves a number
to a given exponent and raises where the coefficient would not fit.  So a sum that the context has
rounded cannot be quantized back to the exponent it would have had: where this is done at once, what
comes out is exact.

Main definitions:

* `Decimals.RoundsHalfEven` — the integer nearest to a number, the even one of two;
* `Decimals.Decimal`, `Decimals.Decimal.toRat` — decimals and their values;
* `Decimals.Context`, `Decimals.Context.fix` — what a context makes of an exact result;
* `Decimals.Context.quantize`, `Decimals.Context.add`, `Decimals.Context.sub`.

Main results:

* `Decimals.Context.quantize_spec` — **what is quantized is rounded once**;
* `Decimals.Context.quantize_isOk_iff` — when it is;
* `Decimals.Context.quantize_fix` — **what the context has rounded is not quantized back**.
-/

import Mathlib.Data.Nat.Log
import Mathlib.Data.Rat.Cast.Order
import Mathlib.Tactic.Linarith
import Mathlib.Tactic.Push
import Mathlib.Tactic.FieldSimp
import Mathlib.Tactic.Ring
import Mathlib.Algebra.Order.Field.Power

set_option relaxedAutoImplicit false
set_option autoImplicit false

namespace Decimals

/-! ### Rounding -/

/-- `n / d`, rounded half to even. -/
def halfEven (n d : ℕ) : ℕ :=
  if 2 * (n % d) < d then n / d
  else if d < 2 * (n % d) then n / d + 1
  else if n / d % 2 = 0 then n / d
  else n / d + 1

/-- **The integer nearest to a number**, the even one of two. -/
def RoundsHalfEven (q : ℚ) (n : ℤ) : Prop :=
  2 * |q - n| ≤ 1 ∧ (2 * |q - n| = 1 → n % 2 = 0)

theorem RoundsHalfEven.neg {q : ℚ} {n : ℤ} (h : RoundsHalfEven q n) : RoundsHalfEven (-q) (-n) := by
  have habs : |(-q) - ((-n : ℤ) : ℚ)| = |q - n| := by
    rw [← abs_neg]
    push_cast
    ring_nf
  rw [RoundsHalfEven, habs]
  exact ⟨h.1, fun heq => by have heven := h.2 heq; omega⟩

theorem roundsHalfEven_intCast (n : ℤ) : RoundsHalfEven (n : ℚ) n := by
  rw [RoundsHalfEven, sub_self, abs_zero]
  exact ⟨by norm_num, by norm_num⟩

/-- There is only one. -/
theorem RoundsHalfEven.unique {q : ℚ} {n m : ℤ} (hn : RoundsHalfEven q n) (hm : RoundsHalfEven q m) :
    n = m := by
  have hbounds := abs_le.1 (show |q - n| ≤ 1 / 2 by linarith [hn.1])
  have hbounds' := abs_le.1 (show |q - m| ≤ 1 / 2 by linarith [hm.1])
  have hupper : n ≤ m + 1 := by
    have hle : (n : ℚ) ≤ m + 1 := by linarith
    exact_mod_cast hle
  have hlower : m ≤ n + 1 := by
    have hle : (m : ℚ) ≤ n + 1 := by linarith
    exact_mod_cast hle
  -- two that differ are both at a distance of a half, and so both even
  have hapart : ∀ a b : ℤ, a = b + 1 → RoundsHalfEven q a → RoundsHalfEven q b → False := by
    intro a b hab ha hb
    have habove := abs_le.1 (show |q - a| ≤ 1 / 2 by linarith [ha.1])
    have hbelow := abs_le.1 (show |q - b| ≤ 1 / 2 by linarith [hb.1])
    have hcast : (a : ℚ) = b + 1 := by exact_mod_cast hab
    have hq : q = b + 1 / 2 := by linarith
    have heven := ha.2 (by rw [hq, hcast]; norm_num)
    have heven' := hb.2 (by rw [hq]; norm_num)
    omega
  rcases lt_trichotomy n m with hlt | heq | hgt
  · exact (hapart m n (by omega) hm hn).elim
  · exact heq
  · exact (hapart n m (by omega) hn hm).elim

theorem div_le_halfEven (n d : ℕ) : n / d ≤ halfEven n d := by
  rw [halfEven]
  split_ifs <;> omega

theorem roundsHalfEven_halfEven (n : ℕ) {d : ℕ} (hd : 0 < d) :
    RoundsHalfEven ((n : ℚ) / d) (halfEven n d : ℕ) := by
  have hdpos : (0 : ℚ) < d := by exact_mod_cast hd
  have hdiv := Nat.div_add_mod n d
  have hmod := Nat.mod_lt n hd
  rw [halfEven]
  generalize n / d = a at hdiv ⊢
  generalize n % d = r at hdiv hmod ⊢
  have hq : (n : ℚ) / d = a + r / d := by
    rw [← hdiv]
    push_cast
    field_simp
  have hrest : (0 : ℚ) ≤ r / d := div_nonneg (Nat.cast_nonneg r) hdpos.le
  have hrest' : (r : ℚ) / d < 1 := by
    rw [div_lt_iff₀ hdpos, one_mul]
    exact_mod_cast hmod
  have hbelow : (r : ℚ) / d < 1 / 2 ↔ 2 * r < d := by
    rw [div_lt_iff₀ hdpos, ← @Nat.cast_lt ℚ]
    push_cast
    constructor <;> intro h <;> linarith
  have habove : 1 / 2 < (r : ℚ) / d ↔ d < 2 * r := by
    rw [lt_div_iff₀ hdpos, ← @Nat.cast_lt ℚ]
    push_cast
    constructor <;> intro h <;> linarith
  -- the distance to the quotient, and to the next integer
  have hdistance : |(n : ℚ) / d - (a : ℤ)| = r / d := by
    rw [hq, Int.cast_natCast, add_sub_cancel_left, abs_of_nonneg hrest]
  have hdistance' : |(n : ℚ) / d - ((a + 1 : ℕ) : ℤ)| = 1 - r / d := by
    have hneg : (n : ℚ) / d - ((a + 1 : ℕ) : ℤ) = -(1 - r / d) := by
      rw [hq]
      push_cast
      ring
    rw [hneg, abs_neg, abs_of_nonneg (by linarith)]
  split
  next hlt =>
    have hlt' := hbelow.2 hlt
    rw [RoundsHalfEven, hdistance]
    exact ⟨by linarith, fun heq => absurd heq (by linarith)⟩
  split
  next hle hlt =>
    have hlt' := habove.2 hlt
    rw [RoundsHalfEven, hdistance']
    exact ⟨by linarith, fun heq => absurd heq (by linarith)⟩
  next hle hge =>
    have heq : (r : ℚ) / d = 1 / 2 :=
      le_antisymm (not_lt.1 fun h => hge (habove.1 h)) (not_lt.1 fun h => hle (hbelow.1 h))
    split
    next heven =>
      rw [RoundsHalfEven, hdistance, heq]
      exact ⟨by norm_num, fun _ => by omega⟩
    next hodd =>
      rw [RoundsHalfEven, hdistance', heq]
      exact ⟨by norm_num, fun _ => by omega⟩

/-! ### Decimals -/

/-- A finite decimal. -/
structure Decimal where
  negative : Bool
  coefficient : ℕ
  exponent : ℤ
  deriving DecidableEq

namespace Decimal

/-- The coefficient with its sign. -/
def signed (d : Decimal) : ℤ := if d.negative then -d.coefficient else d.coefficient

/-- **The value of a decimal.** -/
def toRat (d : Decimal) : ℚ := d.signed * 10 ^ d.exponent

/-- How many digits a coefficient is written with. -/
def numDigits (n : ℕ) : ℕ := Nat.log 10 n + 1

/-- The exponent of the first digit. -/
def adjusted (d : Decimal) : ℤ := d.exponent + numDigits d.coefficient - 1

/-- The decimal with a given exponent that is nearest. -/
def rescale (d : Decimal) (e : ℤ) : Decimal where
  negative := d.negative
  coefficient :=
    if e ≤ d.exponent then d.coefficient * 10 ^ (d.exponent - e).toNat
    else halfEven d.coefficient (10 ^ (e - d.exponent).toNat)
  exponent := e

/-- The value, in units of `10 ^ e`, which is no higher than the last digit. -/
def units (d : Decimal) (e : ℤ) : ℤ := d.signed * 10 ^ (d.exponent - e).toNat

/-- A number of units, with the sign that it has if there are none. -/
def ofUnits (negativeZero : Bool) (n : ℤ) (e : ℤ) : Decimal where
  negative := if n = 0 then negativeZero else n < 0
  coefficient := n.natAbs
  exponent := e

/-- The comparison of values. -/
def lt (a b : Decimal) : Bool :=
  a.units (min a.exponent b.exponent) < b.units (min a.exponent b.exponent)

def le (a b : Decimal) : Bool :=
  a.units (min a.exponent b.exponent) ≤ b.units (min a.exponent b.exponent)

def eq (a b : Decimal) : Bool :=
  a.units (min a.exponent b.exponent) = b.units (min a.exponent b.exponent)

end Decimal

/-- What is raised. -/
inductive Signal
  | invalidOperation
  | overflow
  deriving DecidableEq

/-- The precision, and the exponents there are. -/
structure Context where
  prec : ℕ
  emin : ℤ
  emax : ℤ
  prec_pos : 0 < prec

namespace Context

variable (ctx : Context)

def etiny : ℤ := ctx.emin - ctx.prec + 1

def etop : ℤ := ctx.emax - ctx.prec + 1

/-- **An exact result is rounded to the precision.** -/
def fix (d : Decimal) : Except Signal Decimal :=
  if d.coefficient = 0 then
    .ok { d with exponent := min (max d.exponent ctx.etiny) ctx.emax }
  else
    let fits := Decimal.numDigits d.coefficient + d.exponent - ctx.prec
    if ctx.etop < fits then .error .overflow
    else if max fits ctx.etiny ≤ d.exponent then .ok d
    else
      let r := d.rescale (max fits ctx.etiny)
      let r' :=
        if ctx.prec < Decimal.numDigits r.coefficient then
          { r with coefficient := r.coefficient / 10, exponent := r.exponent + 1 }
        else r
      if ctx.etop < r'.exponent then .error .overflow else .ok r'

/-- **A number is moved to an exponent.** -/
def quantize (d : Decimal) (e : ℤ) : Except Signal Decimal :=
  if ¬ (ctx.etiny ≤ e ∧ e ≤ ctx.emax) then .error .invalidOperation
  else if d.coefficient = 0 then ctx.fix { d with exponent := e }
  else if ctx.emax < d.adjusted ∨ ctx.prec < d.adjusted - e + 1 then .error .invalidOperation
  else
    let r := d.rescale e
    if ctx.emax < r.adjusted ∨ ctx.prec < Decimal.numDigits r.coefficient then
      .error .invalidOperation
    else ctx.fix r

/-- The exact sum, which is then rounded; a sum of zero has a sign if both terms have. -/
def add (a b : Decimal) : Except Signal Decimal :=
  let e := min a.exponent b.exponent
  ctx.fix (.ofUnits (a.negative && b.negative) (a.units e + b.units e) e)

def sub (a b : Decimal) : Except Signal Decimal := ctx.add a { b with negative := !b.negative }

end Context

/-! ### Values -/

namespace Decimal

theorem numDigits_le_iff {n p : ℕ} (hn : n ≠ 0) : numDigits n ≤ p ↔ n < 10 ^ p :=
  Nat.log_lt_iff_lt_pow (by norm_num) hn

theorem toRat_eq_units {d : Decimal} {e : ℤ} (h : e ≤ d.exponent) :
    d.toRat = d.units e * 10 ^ e := by
  have hsum : d.exponent = ((d.exponent - e).toNat : ℤ) + e := by omega
  rw [toRat, units]
  nth_rewrite 1 [hsum]
  rw [zpow_add₀ (by norm_num), zpow_natCast]
  push_cast
  ring

/-- Units of a power of ten are compared as the values are. -/
theorem units_lt_iff {a b : Decimal} {e : ℤ} (ha : e ≤ a.exponent) (hb : e ≤ b.exponent) :
    a.units e < b.units e ↔ a.toRat < b.toRat := by
  have hpos : (0 : ℚ) < 10 ^ e := zpow_pos (by norm_num) e
  rw [toRat_eq_units ha, toRat_eq_units hb, mul_lt_mul_iff_left₀ hpos]
  exact_mod_cast Iff.rfl

theorem lt_iff (a b : Decimal) : a.lt b = true ↔ a.toRat < b.toRat := by
  rw [lt, decide_eq_true_iff]
  exact units_lt_iff (min_le_left _ _) (min_le_right _ _)

theorem le_iff (a b : Decimal) : a.le b = true ↔ a.toRat ≤ b.toRat := by
  rw [le, decide_eq_true_iff, ← not_lt, ← not_lt]
  exact not_congr (units_lt_iff (min_le_right _ _) (min_le_left _ _))

theorem eq_iff (a b : Decimal) : a.eq b = true ↔ a.toRat = b.toRat := by
  have hpos : (0 : ℚ) < 10 ^ min a.exponent b.exponent := zpow_pos (by norm_num) _
  rw [eq, decide_eq_true_iff, toRat_eq_units (min_le_left a.exponent b.exponent),
    toRat_eq_units (d := b) (min_le_right a.exponent b.exponent), mul_left_inj' hpos.ne']
  exact_mod_cast Iff.rfl

/-- **Rescaling rounds half to even.** -/
theorem roundsHalfEven_rescale (d : Decimal) (e : ℤ) :
    RoundsHalfEven (d.toRat / 10 ^ e) (d.rescale e).signed := by
  have hunsigned : RoundsHalfEven ((d.coefficient : ℚ) * 10 ^ (d.exponent - e))
      ((d.rescale e).coefficient : ℕ) := by
    simp only [rescale]
    split
    next h =>
      have hcast : (d.coefficient : ℚ) * 10 ^ (d.exponent - e) =
          ((d.coefficient * 10 ^ (d.exponent - e).toNat : ℕ) : ℤ) := by
        have hexp : d.exponent - e = ((d.exponent - e).toNat : ℤ) := by omega
        nth_rewrite 1 [hexp]
        rw [zpow_natCast]
        push_cast
        ring
      rw [hcast]
      exact roundsHalfEven_intCast _
    next h =>
      have hcast : (d.coefficient : ℚ) * 10 ^ (d.exponent - e) =
          (d.coefficient : ℚ) / (10 ^ (e - d.exponent).toNat : ℕ) := by
        have hexp : d.exponent - e = -((e - d.exponent).toNat : ℤ) := by omega
        rw [hexp, zpow_neg, zpow_natCast]
        push_cast
        ring
      rw [hcast]
      exact roundsHalfEven_halfEven _ (Nat.pos_of_ne_zero (by positivity))
  have hvalue : d.toRat / 10 ^ e = d.signed * 10 ^ (d.exponent - e) := by
    rw [toRat, zpow_sub₀ (by norm_num)]
    ring
  rw [hvalue, signed, signed]
  cases hsign : d.negative with
  | false => simpa [rescale, hsign] using hunsigned
  | true => simpa [rescale, hsign] using hunsigned.neg

theorem signed_ofUnits (negativeZero : Bool) (n e : ℤ) : (ofUnits negativeZero n e).signed = n := by
  by_cases hzero : n = 0
  · simp [signed, ofUnits, hzero]
  by_cases hneg : n < 0
  · simp only [signed, ofUnits, if_neg hzero, decide_eq_true hneg, if_true]
    omega
  · simp only [signed, ofUnits, if_neg hzero, decide_eq_false hneg, Bool.false_eq_true, if_false]
    omega

theorem natAbs_signed (d : Decimal) : d.signed.natAbs = d.coefficient := by
  rw [signed]
  split <;> simp

theorem rescale_self (d : Decimal) : d.rescale d.exponent = d := by
  simp [rescale]

theorem units_self (d : Decimal) : d.units d.exponent = d.signed := by
  simp [units]

theorem signed_negated (d : Decimal) :
    ({ d with negative := !d.negative } : Decimal).signed = -d.signed := by
  simp only [signed]
  cases d.negative <;> simp

theorem pow_le_coefficient {d : Decimal} (h : d.coefficient ≠ 0) :
    10 ^ (numDigits d.coefficient - 1) ≤ d.coefficient :=
  Nat.pow_log_le_self 10 h

/-- The first digit stays where it is, or moves up. -/
theorem pow_le_rescale {d : Decimal} (hd : d.coefficient ≠ 0) {e : ℤ} (he : e ≤ d.adjusted) :
    10 ^ (d.adjusted - e).toNat ≤ (d.rescale e).coefficient := by
  have hfirst := pow_le_coefficient hd
  have hdigits : 1 ≤ numDigits d.coefficient := Nat.succ_le_succ (Nat.zero_le _)
  simp only [adjusted] at he ⊢
  simp only [rescale]
  split
  next h =>
    have hexp : (d.exponent + numDigits d.coefficient - 1 - e).toNat =
        (numDigits d.coefficient - 1) + (d.exponent - e).toNat := by omega
    rw [hexp, pow_add]
    exact Nat.mul_le_mul_right _ hfirst
  next h =>
    have hexp : numDigits d.coefficient - 1 =
        (d.exponent + numDigits d.coefficient - 1 - e).toNat + (e - d.exponent).toNat := by omega
    refine le_trans ?_ (div_le_halfEven _ _)
    rw [Nat.le_div_iff_mul_le (Nat.pos_of_ne_zero (by positivity)), ← pow_add, ← hexp]
    exact hfirst

end Decimal

/-! ### What a context does -/

namespace Context

open Decimal

variable {ctx : Context} {d : Decimal} {e : ℤ}

/-- What fits is left as it is. -/
theorem fix_of_lt (hd : d.coefficient < 10 ^ ctx.prec) (hlow : ctx.etiny ≤ d.exponent)
    (hhigh : d.exponent ≤ ctx.etop) : ctx.fix d = .ok d := by
  have hprec := ctx.prec_pos
  have hemax : ctx.etop ≤ ctx.emax := by
    rw [etop]
    omega
  rw [fix]
  split
  · have hexponent : min (max d.exponent ctx.etiny) ctx.emax = d.exponent := by omega
    rw [hexponent]
  next hne =>
    have hdigits := (numDigits_le_iff hne).2 hd
    simp only
    rw [if_neg (by omega), if_pos (by omega)]

/-- **What is quantized is rescaled, if it fits.** -/
theorem quantize_eq (hlow : ctx.etiny ≤ e) (hhigh : e ≤ ctx.etop) : ctx.quantize d e =
    if (d.rescale e).coefficient < 10 ^ ctx.prec then .ok (d.rescale e)
    else .error .invalidOperation := by
  have hprec := ctx.prec_pos
  have hetop : ctx.etop = ctx.emax - ctx.prec + 1 := rfl
  have hfix : (d.rescale e).coefficient < 10 ^ ctx.prec → ctx.fix (d.rescale e) = .ok (d.rescale e) :=
    fun h => fix_of_lt h hlow hhigh
  rw [quantize, if_neg (by omega)]
  split
  next hzero =>
    have hrescale : d.rescale e = { d with exponent := e } := by
      simp [rescale, hzero, halfEven]
    rw [← hrescale, hfix, if_pos]
    all_goals simp [hrescale, hzero]
  next hne =>
    by_cases hlt : (d.rescale e).coefficient < 10 ^ ctx.prec
    · -- neither the number nor what it becomes is too long
      have hlength : d.adjusted - e + 1 ≤ ctx.prec := by
        by_contra hlong
        have hpow := pow_le_rescale hne (e := e) (by omega)
        have hle : 10 ^ ctx.prec ≤ 10 ^ (d.adjusted - e).toNat :=
          Nat.pow_le_pow_right (by norm_num) (by omega)
        omega
      have hdigits : numDigits (d.rescale e).coefficient ≤ ctx.prec := by
        by_cases hzero : (d.rescale e).coefficient = 0
        · simpa [hzero, numDigits] using Nat.succ_le_of_lt hprec
        · exact (numDigits_le_iff hzero).2 hlt
      have hadjusted : (d.rescale e).adjusted ≤ ctx.emax := by
        simp only [adjusted]
        have hexponent : (d.rescale e).exponent = e := rfl
        omega
      rw [if_neg (by omega), if_pos hlt]
      simp only
      rw [if_neg (by omega), hfix hlt]
    · rw [if_neg hlt]
      have hzero : (d.rescale e).coefficient ≠ 0 := by
        intro hzero
        exact hlt (hzero ▸ Nat.pos_of_ne_zero (by positivity))
      have hdigits := mt (numDigits_le_iff hzero).1 hlt
      split
      · rfl
      · simp only
        rw [if_pos (Or.inr (by omega))]

/-- **What is quantized is rounded once**, half to even. -/
theorem quantize_spec (hlow : ctx.etiny ≤ e) (hhigh : e ≤ ctx.etop) {r : Decimal}
    (h : ctx.quantize d e = .ok r) :
    r.exponent = e ∧ r.coefficient < 10 ^ ctx.prec ∧ RoundsHalfEven (d.toRat / 10 ^ e) r.signed := by
  rw [quantize_eq hlow hhigh] at h
  split at h
  next hlt =>
    cases h
    exact ⟨rfl, hlt, roundsHalfEven_rescale d e⟩
  · cases h

theorem quantize_self (hd : d.coefficient < 10 ^ ctx.prec) (hlow : ctx.etiny ≤ d.exponent)
    (hhigh : d.exponent ≤ ctx.etop) : ctx.quantize d d.exponent = .ok d := by
  rw [quantize_eq hlow hhigh, rescale_self, if_pos hd]

/-- What does not fit is rounded to as many digits as there may be, at a higher exponent. -/
theorem fix_of_le (hd : 10 ^ ctx.prec ≤ d.coefficient) (hlow : ctx.etiny ≤ d.exponent) {r : Decimal}
    (h : ctx.fix d = .ok r) : 10 ^ (ctx.prec - 1) ≤ r.coefficient ∧ d.exponent < r.exponent := by
  have hne : d.coefficient ≠ 0 := by
    rintro hzero
    rw [hzero] at hd
    exact absurd hd (by simp)
  have hdigits : ctx.prec < numDigits d.coefficient := by
    by_contra hle
    exact absurd ((numDigits_le_iff hne).1 (not_lt.1 hle)) (not_lt.2 hd)
  have hprec := ctx.prec_pos
  have hexponent : max (numDigits d.coefficient + d.exponent - ctx.prec) ctx.etiny =
      numDigits d.coefficient + d.exponent - ctx.prec := by omega
  simp only [fix, if_neg hne, hexponent] at h
  generalize hfits : (numDigits d.coefficient : ℤ) + d.exponent - ctx.prec = fits at h
  have hpow := pow_le_rescale hne (e := fits) (by simp only [adjusted]; omega)
  have hexp : (d.adjusted - fits).toNat = ctx.prec - 1 := by
    simp only [adjusted]
    omega
  rw [hexp] at hpow
  have hup : (d.rescale fits).exponent = fits := rfl
  split at h
  · cases h
  rw [if_neg (by omega)] at h
  generalize hrounded : (if ctx.prec < numDigits (d.rescale fits).coefficient then
    { d.rescale fits with
      coefficient := (d.rescale fits).coefficient / 10, exponent := (d.rescale fits).exponent + 1 }
    else d.rescale fits) = rounded at h
  split at h
  · cases h
  cases h
  rw [← hrounded]
  split
  next hlong =>
    have hten : 10 ^ ctx.prec ≤ (d.rescale fits).coefficient := by
      by_contra hlt
      have hne' : (d.rescale fits).coefficient ≠ 0 := by
        have hpos : 0 < 10 ^ (ctx.prec - 1) := Nat.pos_of_ne_zero (by positivity)
        omega
      exact absurd ((numDigits_le_iff hne').2 (not_le.1 hlt)) (not_le.2 hlong)
    have hsplit : 10 ^ ctx.prec = 10 ^ (ctx.prec - 1) * 10 := by
      rw [← pow_succ]
      congr 1
      omega
    exact ⟨by simp only; omega, by simp only [hup]; omega⟩
  next hshort => exact ⟨hpow, by rw [hup]; omega⟩

/-- **What the context has rounded is not quantized back.** -/
theorem quantize_fix (hd : 10 ^ ctx.prec ≤ d.coefficient) (hlow : ctx.etiny ≤ d.exponent)
    (hhigh : d.exponent ≤ ctx.etop) {r : Decimal} (h : ctx.fix d = .ok r) :
    ctx.quantize r d.exponent = .error .invalidOperation := by
  obtain ⟨hcoefficient, hexponent⟩ := fix_of_le hd hlow h
  have hprec := ctx.prec_pos
  have hrescale : 10 ^ ctx.prec ≤ (r.rescale d.exponent).coefficient := by
    simp only [rescale]
    rw [if_pos hexponent.le]
    have hten : 10 ^ 1 ≤ 10 ^ (r.exponent - d.exponent).toNat :=
      Nat.pow_le_pow_right (by norm_num) (by omega)
    calc 10 ^ ctx.prec = 10 ^ (ctx.prec - 1) * 10 ^ 1 := by rw [← pow_add]; congr 1; omega
      _ ≤ r.coefficient * 10 ^ (r.exponent - d.exponent).toNat := Nat.mul_le_mul hcoefficient hten
  rw [quantize_eq hlow hhigh, if_neg (not_lt.2 hrescale)]

/-! ### Sums at one exponent -/

variable {a b : Decimal}

theorem add_eq (ha : a.exponent = e) (hb : b.exponent = e) :
    ctx.add a b = ctx.fix (.ofUnits (a.negative && b.negative) (a.signed + b.signed) e) := by
  have hunits : a.units e = a.signed := ha ▸ units_self a
  have hunits' : b.units e = b.signed := hb ▸ units_self b
  rw [add, ha, hb, min_self, hunits, hunits']

/-- A sum that fits is exact, and quantized already. -/
theorem quantize_add (ha : a.exponent = e) (hb : b.exponent = e) (hlow : ctx.etiny ≤ e)
    (hhigh : e ≤ ctx.etop) (hsum : (a.signed + b.signed).natAbs < 10 ^ ctx.prec) :
    (ctx.add a b >>= fun sum => ctx.quantize sum e) =
      .ok (.ofUnits (a.negative && b.negative) (a.signed + b.signed) e) := by
  rw [add_eq ha hb, fix_of_lt hsum hlow hhigh]
  exact quantize_self (d := .ofUnits _ _ e) hsum hlow hhigh

/-- **A sum that does not fit is not quantized.** -/
theorem quantize_add_error (ha : a.exponent = e) (hb : b.exponent = e) (hlow : ctx.etiny ≤ e)
    (hhigh : e ≤ ctx.etop) (hsum : 10 ^ ctx.prec ≤ (a.signed + b.signed).natAbs) :
    ∃ signal, (ctx.add a b >>= fun sum => ctx.quantize sum e) = .error signal := by
  rw [add_eq ha hb]
  cases hfix : ctx.fix (.ofUnits (a.negative && b.negative) (a.signed + b.signed) e) with
  | error signal => exact ⟨signal, rfl⟩
  | ok sum =>
      exact ⟨.invalidOperation, quantize_fix (d := .ofUnits _ _ e) hsum hlow hhigh hfix⟩

end Context

end Decimals
