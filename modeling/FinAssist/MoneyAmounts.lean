/-
**Amounts of money as the decimals that they are.**

`Money` is elsewhere a number of minor units.  In the code it is a `Decimal`, quantized whenever one is
constructed, and added and compared in the default context of twenty-eight digits.  This module has the
amounts as they are in the code, and shows that they are the numbers of minor units: what is
constructed is rounded once, a sum is exact or raises, and the order is that of the minor units.

Main definitions:

* `FinAssist.DecimalMoney` — a quantized amount;
* `FinAssist.DecimalMoney.construct` — `Money.__post_init__`;
* `FinAssist.DecimalMoney.add`, `FinAssist.DecimalMoney.sub`, `FinAssist.DecimalMoney.lt`, … — the
  operators;
* `FinAssist.DecimalMoney.toMoney` — the number of minor units.

Main results:

* `FinAssist.DecimalMoney.construct_isOk_iff` — when an amount can be constructed;
* `FinAssist.DecimalMoney.add_ok_iff`, `FinAssist.DecimalMoney.sub_ok_iff` — sums and differences;
* `FinAssist.money_exact` — **amounts are exact**.
-/

import FinAssist.Decimals
import FinAssist.Application

set_option relaxedAutoImplicit false
set_option autoImplicit false

namespace FinAssist

open Decimals

/-- `decimal.getcontext()`, which nothing in the code changes. -/
def defaultContext : Context := ⟨28, -999999, 999999, by decide⟩

/-- `_MINOR_UNIT_EXPONENTS`. -/
def Currency.minorUnitExponent : Currency → ℤ
  | usd => 2
  | eur => 2

/-- What the operations of `Money` raise. -/
inductive MoneyError
  | unsupportedCurrency (currency : String)
  | currencyMismatch (left right : String)
  | decimal (signal : Signal)
  deriving DecidableEq

theorem Currency.ofCode?_code (c : Currency) : Currency.ofCode? c.code = some c := by
  cases c
  · exact if_pos rfl
  · exact (if_neg (by decide)).trans (if_pos rfl)

theorem Currency.exponent_bounds (c : Currency) :
    defaultContext.etiny ≤ -c.minorUnitExponent ∧ -c.minorUnitExponent ≤ defaultContext.etop := by
  cases c <;> decide

/-- **A quantized amount.** -/
structure DecimalMoney where
  amount : Decimal
  currency : Currency
  quantized : amount.exponent = -currency.minorUnitExponent ∧
    amount.coefficient < 10 ^ defaultContext.prec

namespace DecimalMoney

/-- `Money(amount, currency)`. -/
def construct (amount : Decimal) (currency : String) : Except MoneyError DecimalMoney :=
  match Currency.ofCode? currency with
  | none => .error (.unsupportedCurrency currency)
  | some c =>
      match h : defaultContext.quantize amount (-c.minorUnitExponent) with
      | .error signal => .error (.decimal signal)
      | .ok quantized =>
          .ok ⟨quantized, c,
            have hspec := Context.quantize_spec c.exponent_bounds.1 c.exponent_bounds.2 h
            ⟨hspec.1, hspec.2.1⟩⟩

/-- `_require_same_currency`. -/
def requireSameCurrency (a b : DecimalMoney) : Except MoneyError Unit :=
  if a.currency ≠ b.currency then .error (.currencyMismatch a.currency.code b.currency.code) else .ok ()

def add (a b : DecimalMoney) : Except MoneyError DecimalMoney := do
  requireSameCurrency a b
  let sum ← (defaultContext.add a.amount b.amount).mapError .decimal
  construct sum a.currency.code

def sub (a b : DecimalMoney) : Except MoneyError DecimalMoney := do
  requireSameCurrency a b
  let difference ← (defaultContext.sub a.amount b.amount).mapError .decimal
  construct difference a.currency.code

def lt (a b : DecimalMoney) : Except MoneyError Bool := do
  requireSameCurrency a b
  pure (a.amount.lt b.amount)

def le (a b : DecimalMoney) : Except MoneyError Bool := do
  requireSameCurrency a b
  pure (a.amount.le b.amount)

def gt (a b : DecimalMoney) : Except MoneyError Bool := do
  requireSameCurrency a b
  pure (b.amount.lt a.amount)

def ge (a b : DecimalMoney) : Except MoneyError Bool := do
  requireSameCurrency a b
  pure (b.amount.le a.amount)

/-- `==`, which the data class compares field by field. -/
def eq (a b : DecimalMoney) : Bool := a.amount.eq b.amount && a.currency = b.currency

/-- **The number of minor units.** -/
def toMoney (m : DecimalMoney) : Money := ⟨m.amount.signed, m.currency⟩

/-! ### Construction -/

variable {d : Decimal} {c : Currency} {m : DecimalMoney}

theorem construct_ok_iff : construct d c.code = .ok m ↔
    m.currency = c ∧ defaultContext.quantize d (-c.minorUnitExponent) = .ok m.amount := by
  rw [construct, c.ofCode?_code]
  simp only
  split
  next signal h =>
    rw [h]
    exact ⟨nofun, fun hm => nomatch hm.2⟩
  next q h =>
    constructor
    · rintro ⟨⟩
      exact ⟨rfl, h⟩
    · rintro ⟨rfl, hq⟩
      obtain ⟨amount, currency, quantized⟩ := m
      cases h.symm.trans hq
      rfl

theorem construct_isOk_iff : (∃ m, construct d c.code = .ok m) ↔
    (d.rescale (-c.minorUnitExponent)).coefficient < 10 ^ defaultContext.prec := by
  have hquantize := Context.quantize_eq (d := d) c.exponent_bounds.1 c.exponent_bounds.2
  constructor
  · rintro ⟨m, hm⟩
    have hq := (construct_ok_iff.1 hm).2
    by_contra hlt
    rw [hquantize, if_neg hlt] at hq
    cases hq
  · intro hlt
    rw [if_pos hlt] at hquantize
    exact ⟨⟨_, c, rfl, hlt⟩, construct_ok_iff.2 ⟨rfl, hquantize⟩⟩

/-- **What is constructed is rounded once**, half to even. -/
theorem construct_spec (h : construct d c.code = .ok m) :
    m.currency = c ∧ m.amount.exponent = -2 ∧
      RoundsHalfEven (d.toRat * 100) m.toMoney.minorUnits := by
  obtain ⟨rfl, hq⟩ := construct_ok_iff.1 h
  obtain ⟨hexponent, -, hround⟩ :=
    Context.quantize_spec m.currency.exponent_bounds.1 m.currency.exponent_bounds.2 hq
  have htwo : -m.currency.minorUnitExponent = -2 := by cases m.currency <;> rfl
  have hunit : d.toRat / 10 ^ (-2 : ℤ) = d.toRat * 100 := by
    rw [zpow_neg, div_inv_eq_mul]
    norm_num
  rw [htwo] at hexponent hround
  rw [hunit] at hround
  exact ⟨rfl, hexponent, hround⟩

/-- **Constructing an amount again changes nothing.** -/
theorem construct_again (m : DecimalMoney) : construct m.amount m.currency.code = .ok m := by
  refine construct_ok_iff.2 ⟨rfl, ?_⟩
  have hbounds := m.currency.exponent_bounds
  rw [← m.quantized.1] at hbounds ⊢
  exact Context.quantize_self m.quantized.2 hbounds.1 hbounds.2

theorem toRat_eq (m : DecimalMoney) : m.amount.toRat = m.toMoney.minorUnits / 100 := by
  have htwo : -m.currency.minorUnitExponent = -2 := by cases m.currency <;> rfl
  rw [Decimal.toRat, m.quantized.1, htwo, zpow_neg, div_eq_mul_inv]
  norm_num [toMoney]

/-! ### Sums and differences -/

variable {a b : DecimalMoney}

theorem requireSameCurrency_eq (h : a.currency = b.currency) : requireSameCurrency a b = .ok () :=
  if_neg (not_not.2 h)

/-- The other amount as it is added by a subtraction. -/
def negated (b : DecimalMoney) : DecimalMoney where
  amount := { b.amount with negative := !b.amount.negative }
  currency := b.currency
  quantized := b.quantized

theorem sub_eq_add (a b : DecimalMoney) : sub a b = add a b.negated := rfl

theorem negated_minorUnits (b : DecimalMoney) :
    b.negated.toMoney.minorUnits = -b.toMoney.minorUnits := Decimal.signed_negated b.amount

theorem add_eq_ok_iff {s : DecimalMoney} (h : a.currency = b.currency) : add a b = .ok s ↔
    s.currency = a.currency ∧
      (defaultContext.add a.amount b.amount >>= fun sum =>
        defaultContext.quantize sum (-a.currency.minorUnitExponent)) = .ok s.amount := by
  rw [add, requireSameCurrency_eq h]
  cases hsum : defaultContext.add a.amount b.amount with
  | error signal => exact ⟨nofun, fun hs => nomatch hs.2⟩
  | ok sum => exact construct_ok_iff

theorem currency_of_add {s : DecimalMoney} (hs : add a b = .ok s) : a.currency = b.currency := by
  by_contra hne
  rw [add, requireSameCurrency, if_pos hne] at hs
  cases hs

/-- **A sum is exact where it fits, and raises where it does not.** -/
theorem add_ok_iff (h : a.currency = b.currency) {s : DecimalMoney} : add a b = .ok s ↔
    (a.toMoney.minorUnits + b.toMoney.minorUnits).natAbs < 10 ^ defaultContext.prec ∧
      s.currency = a.currency ∧
      s.amount = .ofUnits (a.amount.negative && b.amount.negative)
        (a.toMoney.minorUnits + b.toMoney.minorUnits) (-a.currency.minorUnitExponent) := by
  have ha := a.quantized.1
  have hb : b.amount.exponent = -a.currency.minorUnitExponent := h ▸ b.quantized.1
  obtain ⟨hlow, hhigh⟩ := a.currency.exponent_bounds
  rw [add_eq_ok_iff h]
  rcases Nat.lt_or_ge (a.toMoney.minorUnits + b.toMoney.minorUnits).natAbs (10 ^ defaultContext.prec)
    with hlt | hge
  · rw [Context.quantize_add ha hb hlow hhigh hlt]
    constructor
    · rintro ⟨hcurrency, hs⟩
      exact ⟨hlt, hcurrency, (Except.ok.inj hs).symm⟩
    · rintro ⟨-, hcurrency, hs⟩
      exact ⟨hcurrency, congrArg Except.ok hs.symm⟩
  · obtain ⟨signal, hsignal⟩ := Context.quantize_add_error ha hb hlow hhigh hge
    rw [hsignal]
    exact ⟨fun hs => (nomatch hs.2), fun hs => absurd hs.1 (not_lt.2 hge)⟩

theorem minorUnits_of_add {s : DecimalMoney} (hs : add a b = .ok s) :
    s.toMoney = ⟨a.toMoney.minorUnits + b.toMoney.minorUnits, a.currency⟩ := by
  obtain ⟨-, hcurrency, hamount⟩ := (add_ok_iff (currency_of_add hs)).1 hs
  rw [toMoney, hamount, Decimal.signed_ofUnits, hcurrency]

theorem minorUnits_of_sub {s : DecimalMoney} (hs : sub a b = .ok s) :
    s.toMoney = ⟨a.toMoney.minorUnits - b.toMoney.minorUnits, a.currency⟩ := by
  have hadd : add a b.negated = .ok s := hs
  rw [minorUnits_of_add hadd, negated_minorUnits, sub_eq_add_neg]

/-! ### Order -/

theorem toRat_lt_iff (a b : DecimalMoney) :
    a.amount.toRat < b.amount.toRat ↔ a.toMoney.minorUnits < b.toMoney.minorUnits := by
  rw [a.toRat_eq, b.toRat_eq, div_lt_div_iff_of_pos_right (by norm_num)]
  exact_mod_cast Iff.rfl

theorem lt_eq (h : a.currency = b.currency) :
    lt a b = .ok (decide (a.toMoney.minorUnits < b.toMoney.minorUnits)) := by
  have hlt : a.amount.lt b.amount = decide (a.toMoney.minorUnits < b.toMoney.minorUnits) := by
    rw [Bool.eq_iff_iff, Decimal.lt_iff, toRat_lt_iff, decide_eq_true_iff]
  rw [lt, requireSameCurrency_eq h, hlt]
  rfl

theorem le_eq (h : a.currency = b.currency) :
    le a b = .ok (decide (a.toMoney.minorUnits ≤ b.toMoney.minorUnits)) := by
  have hle : a.amount.le b.amount = decide (a.toMoney.minorUnits ≤ b.toMoney.minorUnits) := by
    rw [Bool.eq_iff_iff, Decimal.le_iff, ← not_lt, toRat_lt_iff, not_lt, decide_eq_true_iff]
  rw [le, requireSameCurrency_eq h, hle]
  rfl

theorem gt_eq (h : a.currency = b.currency) :
    gt a b = .ok (decide (b.toMoney.minorUnits < a.toMoney.minorUnits)) := by
  have hlt := lt_eq h.symm
  rw [lt, requireSameCurrency_eq h.symm] at hlt
  rw [gt, requireSameCurrency_eq h]
  exact hlt

theorem ge_eq (h : a.currency = b.currency) :
    ge a b = .ok (decide (b.toMoney.minorUnits ≤ a.toMoney.minorUnits)) := by
  have hle := le_eq h.symm
  rw [le, requireSameCurrency_eq h.symm] at hle
  rw [ge, requireSameCurrency_eq h]
  exact hle

/-- Amounts are equal if they are as many minor units of one currency. -/
theorem eq_iff (a b : DecimalMoney) : eq a b = true ↔ a.toMoney = b.toMoney := by
  have hamount : a.amount.toRat = b.amount.toRat ↔
      a.toMoney.minorUnits = b.toMoney.minorUnits := by
    rw [a.toRat_eq, b.toRat_eq, div_left_inj' (by norm_num)]
    exact_mod_cast Iff.rfl
  rw [eq, Bool.and_eq_true, Decimal.eq_iff, hamount, decide_eq_true_iff]
  constructor
  · rintro ⟨hunits, hcurrency⟩
    rw [toMoney, toMoney] at *
    exact congrArg₂ Money.mk hunits hcurrency
  · intro heq
    exact ⟨congrArg Money.minorUnits heq, congrArg Money.currency heq⟩

/-- Amounts in different currencies are not combined, and not compared. -/
theorem mismatch (h : a.currency ≠ b.currency) :
    let raised := MoneyError.currencyMismatch a.currency.code b.currency.code
    add a b = .error raised ∧ sub a b = .error raised ∧ lt a b = .error raised ∧
      le a b = .error raised ∧ gt a b = .error raised ∧ ge a b = .error raised ∧
      eq a b = false := by
  have hraised : requireSameCurrency a b =
      .error (.currencyMismatch a.currency.code b.currency.code) := if_pos h
  have heq : eq a b = false := by
    rw [eq, decide_eq_false h, Bool.and_false]
  refine ⟨?_, ?_, ?_, ?_, ?_, ?_, heq⟩
  · rw [add, hraised]; rfl
  · rw [sub, hraised]; rfl
  · rw [lt, hraised]; rfl
  · rw [le, hraised]; rfl
  · rw [gt, hraised]; rfl
  · rw [ge, hraised]; rfl

/-- **What was added can be taken away again.** -/
theorem sub_of_add {s : DecimalMoney} (hs : add a b = .ok s) :
    ∃ r, sub s b = .ok r ∧ r.toMoney = a.toMoney := by
  have hcurrency := currency_of_add hs
  have hunits := minorUnits_of_add hs
  have hsame : s.currency = b.negated.currency := (congrArg Money.currency hunits).trans hcurrency
  have hdifference : s.toMoney.minorUnits + b.negated.toMoney.minorUnits = a.toMoney.minorUnits := by
    rw [negated_minorUnits, hunits]
    exact add_neg_cancel_right _ _
  have hfits : (s.toMoney.minorUnits + b.negated.toMoney.minorUnits).natAbs <
      10 ^ defaultContext.prec := by
    rw [hdifference]
    exact (Decimal.natAbs_signed a.amount).symm ▸ a.quantized.2
  obtain ⟨r, hr⟩ : ∃ r, sub s b = .ok r :=
    ⟨⟨.ofUnits (s.amount.negative && b.negated.amount.negative)
      (s.toMoney.minorUnits + b.negated.toMoney.minorUnits) (-s.currency.minorUnitExponent),
      s.currency, rfl, hfits⟩, (add_ok_iff hsame).2 ⟨hfits, rfl, rfl⟩⟩
  refine ⟨r, hr, ?_⟩
  have hunits' := minorUnits_of_add (a := s) (b := b.negated) hr
  rw [hunits', hdifference]
  exact congrArg (Money.mk _) (congrArg Money.currency hunits)

end DecimalMoney

/-- **Amounts are exact.**  What is constructed is rounded once, half to even, and constructing it again
changes nothing; a sum or a difference is that of the minor units or raises, never something rounded;
what was added can be taken away again; and the order is that of the minor units.  Amounts in different
currencies are neither combined nor compared. -/
theorem money_exact :
    (∀ (d : Decimal) (c : Currency) (m : DecimalMoney), DecimalMoney.construct d c.code = .ok m →
      m.currency = c ∧ RoundsHalfEven (d.toRat * 100) m.toMoney.minorUnits ∧
        m.amount.exponent = -2 ∧ m.amount.toRat = m.toMoney.minorUnits / 100) ∧
    (∀ m : DecimalMoney, DecimalMoney.construct m.amount m.currency.code = .ok m) ∧
    (∀ a b s : DecimalMoney, a.add b = .ok s →
      s.toMoney = ⟨a.toMoney.minorUnits + b.toMoney.minorUnits, a.currency⟩) ∧
    (∀ a b s : DecimalMoney, a.sub b = .ok s →
      s.toMoney = ⟨a.toMoney.minorUnits - b.toMoney.minorUnits, a.currency⟩) ∧
    (∀ a b s : DecimalMoney, a.add b = .ok s → ∃ r, s.sub b = .ok r ∧ r.eq a = true) ∧
    (∀ a b : DecimalMoney, a.currency = b.currency →
      a.lt b = .ok (decide (a.toMoney.minorUnits < b.toMoney.minorUnits)) ∧
      a.le b = .ok (decide (a.toMoney.minorUnits ≤ b.toMoney.minorUnits)) ∧
      a.gt b = .ok (decide (b.toMoney.minorUnits < a.toMoney.minorUnits)) ∧
      a.ge b = .ok (decide (b.toMoney.minorUnits ≤ a.toMoney.minorUnits)) ∧
      a.eq b = decide (a.toMoney.minorUnits = b.toMoney.minorUnits)) ∧
    (∀ a b : DecimalMoney, a.currency ≠ b.currency →
      let raised := MoneyError.currencyMismatch a.currency.code b.currency.code
      a.add b = .error raised ∧ a.sub b = .error raised ∧ a.lt b = .error raised ∧
        a.le b = .error raised ∧ a.gt b = .error raised ∧ a.ge b = .error raised ∧
        a.eq b = false) := by
  refine ⟨?_, DecimalMoney.construct_again, fun _ _ _ => DecimalMoney.minorUnits_of_add,
    fun _ _ _ => DecimalMoney.minorUnits_of_sub, ?_, ?_, fun _ _ => DecimalMoney.mismatch⟩
  · intro d c m hm
    obtain ⟨hcurrency, hexponent, hround⟩ := DecimalMoney.construct_spec hm
    exact ⟨hcurrency, hround, hexponent, m.toRat_eq⟩
  · intro a b s hs
    obtain ⟨r, hr, hunits⟩ := DecimalMoney.sub_of_add hs
    exact ⟨r, hr, (DecimalMoney.eq_iff r a).2 hunits⟩
  · intro a b h
    refine ⟨DecimalMoney.lt_eq h, DecimalMoney.le_eq h, DecimalMoney.gt_eq h, DecimalMoney.ge_eq h, ?_⟩
    rw [Bool.eq_iff_iff, DecimalMoney.eq_iff, decide_eq_true_iff]
    constructor
    · exact fun heq => congrArg Money.minorUnits heq
    · exact fun heq => congrArg₂ Money.mk heq h

end FinAssist
