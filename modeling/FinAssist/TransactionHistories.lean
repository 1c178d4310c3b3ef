/-
**The synthetic transaction history, and the balance it reports.**

`generate_transaction_history` draws a starting balance and goes through ninety days: a payroll
deposit every fourteen days, and on some days a card purchase.  What it reports as the average daily
balance, and the mock of core banking passes on, is the balance at the end.  Whether this is the mean
of the balances at the ends of the days depends on when the money came and went.

Main definitions:

* `FinAssist.Draws` — what is drawn at random;
* `FinAssist.generateTransactionHistory` — the ninety days;
* `FinAssist.transactionHistory` — the answer of the mock of core banking;
* `FinAssist.endOfDayBalance`, `FinAssist.averageDailyBalance` — **the mean of the balances**, from the
  transactions.

Main results:

* `FinAssist.foldlM_historyDay` — the state after a number of days;
* `FinAssist.sum_endOfDay` — the sum of the balances, from the last one and the days of the movements;
* `FinAssist.average_reported_iff` — **when the balance that is reported is the mean**.
-/

import FinAssist.Evidence
import Mathlib.Algebra.BigOperators.Intervals
import Mathlib.Algebra.BigOperators.Ring.Finset
import Mathlib.Tactic.Ring

set_option relaxedAutoImplicit false
set_option autoImplicit false

namespace FinAssist

/-! ### The ninety days -/

/-- `_DAYS_OF_HISTORY`. -/
def daysOfHistory : ℕ := 90

/-- A transaction, so many days before the time of reference; the amount is in cents. -/
structure Transaction where
  daysAgo : ℕ
  amount : ℤ
  description : String
  deriving DecidableEq

structure SyntheticTransactionHistory where
  applicantSyntheticId : String
  averageDailyBalance : ℤ
  nsfCountLast90Days : ℕ
  transactions : List Transaction
  deriving DecidableEq

/-- What is drawn at random, in the ranges it is drawn from. -/
structure Draws (lowBalance : Bool) where
  startingBalance : ℤ
  nsfCount : ℕ
  /-- What is spent on a day on which `random()` is below `0.3`. -/
  purchase : ℕ → Option ℤ
  startingBalance_range : if lowBalance then 5000 ≤ startingBalance ∧ startingBalance ≤ 20000
    else 150000 ≤ startingBalance ∧ startingBalance ≤ 900000
  nsfCount_range : if lowBalance then 3 ≤ nsfCount ∧ nsfCount ≤ 8 else nsfCount = 0
  purchase_range : ∀ day amount, purchase day = some amount → 500 ≤ amount ∧ amount ≤ 20000

/-- `int(q)`, towards zero. -/
def truncate (q : ℚ) : ℤ := if 0 ≤ q then q.floor else -(-q).floor

/-- `int(declared_annual_income / 26 * 100)`, in doubles. -/
def payrollAmount (declaredAnnualIncome : ℤ) : Except Error ℤ :=
  match Binary64.round (declaredAnnualIncome / 26) with
  | none => .error (.overflowError "integer division result too large for a float")
  | some fortnightly =>
      match Binary64.round (fortnightly * 100) with
      | none => .error (.overflowError "cannot convert float infinity to integer")
      | some cents => .ok (truncate cents)

/-- The running balance and the transactions. -/
structure Account where
  balance : ℤ
  transactions : List Transaction

def Account.apply (account : Account) (t : Transaction) : Account where
  balance := account.balance + t.amount
  transactions := account.transactions ++ [t]

variable {lowBalance : Bool}

/-- The body of the loop over the days. -/
def historyDay (declaredAnnualIncome : ℤ) (draws : Draws lowBalance) (account : Account)
    (dayOffset : ℕ) : Except Error Account := do
  let account ←
    if dayOffset % 14 = 0 then do
      let amount ← payrollAmount declaredAnnualIncome
      pure (account.apply ⟨daysOfHistory - dayOffset, amount, "Payroll deposit"⟩)
    else pure account
  match draws.purchase dayOffset with
  | some amount => pure (account.apply ⟨daysOfHistory - dayOffset, -amount, "Card purchase"⟩)
  | none => pure account

/-- **`generate_transaction_history`**, over what is drawn. -/
def generateTransactionHistory (syntheticId : String) (declaredAnnualIncome : ℤ)
    (draws : Draws lowBalance) : Except Error SyntheticTransactionHistory := do
  let account ← (List.range daysOfHistory).foldlM (historyDay declaredAnnualIncome draws)
    ⟨draws.startingBalance, []⟩
  pure ⟨syntheticId, max account.balance 0, draws.nsfCount, account.transactions⟩

/-- `TransactionHistoryResponse`. -/
structure TransactionHistoryResponse where
  applicantSyntheticId : String
  averageDailyBalanceCents : ℤ
  nsfCountLast90Days : ℕ
  recentTransactions : List Transaction

/-- `_RECENT_TRANSACTION_LIMIT`. -/
def recentTransactionLimit : ℕ := 10

/-- **`transaction_history`** of the mock of core banking, where no fault is injected. -/
def transactionHistory (syntheticId : String) (declaredAnnualIncome : ℤ) (draws : Draws lowBalance) :
    Except Error TransactionHistoryResponse := do
  let history ← generateTransactionHistory syntheticId declaredAnnualIncome draws
  pure ⟨history.applicantSyntheticId, history.averageDailyBalance, history.nsfCountLast90Days,
    history.transactions.drop (history.transactions.length - recentTransactionLimit)⟩

/-! ### The mean of the balances -/

/-- The balance at the end of a day: what was there at first, and the transactions up to this day. -/
def endOfDayBalance (startingBalance : ℤ) (transactions : List Transaction) (day : ℕ) : ℤ :=
  startingBalance +
    ((transactions.filter fun t => daysOfHistory - day ≤ t.daysAgo).map Transaction.amount).sum

/-- **The mean of the balances at the ends of the days**, down to a cent and not below zero. -/
def averageDailyBalance (startingBalance : ℤ) (transactions : List Transaction) : ℤ :=
  max ((∑ day ∈ Finset.range daysOfHistory, endOfDayBalance startingBalance transactions day) /
    daysOfHistory) 0

/-! ### What a number of days does -/

/-- The transactions of a day. -/
def dayTransactions (payroll : ℤ) (draws : Draws lowBalance) (day : ℕ) : List Transaction :=
  (if day % 14 = 0 then [⟨daysOfHistory - day, payroll, "Payroll deposit"⟩] else []) ++
    match draws.purchase day with
    | some amount => [⟨daysOfHistory - day, -amount, "Card purchase"⟩]
    | none => []

/-- What a day changes. -/
def dayChange (payroll : ℤ) (draws : Draws lowBalance) (day : ℕ) : ℤ :=
  (if day % 14 = 0 then payroll else 0) - (draws.purchase day).getD 0

theorem sum_dayTransactions (payroll : ℤ) (draws : Draws lowBalance) (day : ℕ) :
    ((dayTransactions payroll draws day).map Transaction.amount).sum = dayChange payroll draws day := by
  rw [dayTransactions, dayChange]
  cases draws.purchase day <;> split <;> simp [sub_eq_add_neg]

theorem historyDay_eq {declaredAnnualIncome payroll : ℤ} (draws : Draws lowBalance)
    (hpayroll : payrollAmount declaredAnnualIncome = .ok payroll) (account : Account) (day : ℕ) :
    historyDay declaredAnnualIncome draws account day =
      .ok ⟨account.balance + dayChange payroll draws day,
        account.transactions ++ dayTransactions payroll draws day⟩ := by
  rw [historyDay, dayChange, dayTransactions, hpayroll]
  cases draws.purchase day <;> split <;>
    simp [Account.apply, bind, Except.bind, pure, Except.pure, sub_eq_add_neg, add_assoc]

/-- **The state after a number of days.** -/
theorem foldlM_historyDay {declaredAnnualIncome payroll : ℤ} (draws : Draws lowBalance)
    (hpayroll : payrollAmount declaredAnnualIncome = .ok payroll) (start : ℤ) (days : ℕ) :
    (List.range days).foldlM (historyDay declaredAnnualIncome draws) ⟨start, []⟩ =
      .ok ⟨start + ∑ day ∈ Finset.range days, dayChange payroll draws day,
        (List.range days).flatMap (dayTransactions payroll draws)⟩ := by
  induction days with
  | zero => simp [pure, Except.pure]
  | succ days ih =>
      rw [List.range_succ, List.foldlM_append, ih]
      have hday := historyDay_eq draws hpayroll ⟨start + ∑ day ∈ Finset.range days,
        dayChange payroll draws day, (List.range days).flatMap (dayTransactions payroll draws)⟩ days
      simp only [List.foldlM_cons, List.foldlM_nil, bind, Except.bind, hday, pure, Except.pure,
        Finset.sum_range_succ, List.flatMap_append, List.flatMap_singleton, add_assoc]

theorem generateTransactionHistory_eq {declaredAnnualIncome payroll : ℤ} (syntheticId : String)
    (draws : Draws lowBalance) (hpayroll : payrollAmount declaredAnnualIncome = .ok payroll) :
    generateTransactionHistory syntheticId declaredAnnualIncome draws =
      .ok ⟨syntheticId,
        max (draws.startingBalance +
          ∑ day ∈ Finset.range daysOfHistory, dayChange payroll draws day) 0,
        draws.nsfCount, (List.range daysOfHistory).flatMap (dayTransactions payroll draws)⟩ := by
  rw [generateTransactionHistory, foldlM_historyDay draws hpayroll]
  rfl

theorem daysAgo_of_mem {payroll : ℤ} {draws : Draws lowBalance} {day : ℕ} {t : Transaction}
    (h : t ∈ dayTransactions payroll draws day) : t.daysAgo = daysOfHistory - day := by
  rw [dayTransactions] at h
  rcases List.mem_append.1 h with h | h
  · split at h
    · rw [List.mem_singleton.1 h]
    · exact absurd h List.not_mem_nil
  · split at h
    · rw [List.mem_singleton.1 h]
    · exact absurd h List.not_mem_nil

/-- The transactions up to a day. -/
theorem sum_upTo (payroll : ℤ) (draws : Draws lowBalance) {day : ℕ} (hday : day < daysOfHistory)
    (days : ℕ) (hdays : days ≤ daysOfHistory) :
    ((((List.range days).flatMap (dayTransactions payroll draws)).filter fun t =>
        daysOfHistory - day ≤ t.daysAgo).map Transaction.amount).sum =
      ∑ d ∈ Finset.range (min days (day + 1)), dayChange payroll draws d := by
  induction days with
  | zero => simp
  | succ days ih =>
      have hfilter : (dayTransactions payroll draws days).filter
          (fun t => daysOfHistory - day ≤ t.daysAgo) =
          if days ≤ day then dayTransactions payroll draws days else [] := by
        split
        next hle =>
          refine List.filter_eq_self.2 fun t ht => ?_
          rw [daysAgo_of_mem ht]
          exact decide_eq_true (by omega)
        next hlt =>
          refine List.filter_eq_nil_iff.2 fun t ht => ?_
          rw [daysAgo_of_mem ht, decide_eq_true_iff]
          omega
      rw [List.range_succ, List.flatMap_append, List.flatMap_singleton, List.filter_append,
        List.map_append, List.sum_append, ih (by omega), hfilter]
      split
      next hle =>
        have hmin : min days (day + 1) = days := by omega
        have hmin' : min (days + 1) (day + 1) = days + 1 := by omega
        rw [hmin, hmin', Finset.sum_range_succ, sum_dayTransactions]
      next hlt =>
        have hmin : min days (day + 1) = min (days + 1) (day + 1) := by omega
        rw [hmin]
        simp

/-- **The sum of the balances**: what came or went on a day is not yet in the balances before it. -/
theorem sum_endOfDay (start : ℤ) (change : ℕ → ℤ) (days : ℕ) :
    ∑ day ∈ Finset.range days, (start + ∑ d ∈ Finset.range (day + 1), change d) =
      days * (start + ∑ day ∈ Finset.range days, change day) -
        ∑ day ∈ Finset.range days, day * change day := by
  induction days with
  | zero => simp
  | succ days ih =>
      rw [Finset.sum_range_succ, ih, Finset.sum_range_succ, Finset.sum_range_succ]
      push_cast
      ring

/-! ### When it is the mean -/

/-- What is spent, and what is spent weighted by the day. -/
def spent (draws : Draws lowBalance) : ℤ :=
  ∑ day ∈ Finset.range daysOfHistory, (draws.purchase day).getD 0

def spentByDay (draws : Draws lowBalance) : ℤ :=
  ∑ day ∈ Finset.range daysOfHistory, day * (draws.purchase day).getD 0

/-- **The movements weigh as much early as late**: the seven deposits, on the days `0, 14, …, 84`, are
made up for by purchases up to less than a cent a day; or nothing is left, and nothing would be left on
average. -/
def Balanced (payroll : ℤ) (draws : Draws lowBalance) : Prop :=
  if 0 < draws.startingBalance + 7 * payroll - spent draws then
    -90 < 294 * payroll - spentByDay draws ∧ 294 * payroll - spentByDay draws ≤ 0
  else
    90 * (draws.startingBalance + 7 * payroll - spent draws) -
      (294 * payroll - spentByDay draws) < 90

theorem sum_dayChange (payroll : ℤ) (draws : Draws lowBalance) :
    ∑ day ∈ Finset.range daysOfHistory, dayChange payroll draws day = 7 * payroll - spent draws := by
  have hdays : ((Finset.range daysOfHistory).filter (· % 14 = 0)).card = 7 := by decide
  simp only [dayChange, spent]
  rw [Finset.sum_sub_distrib, ← Finset.sum_filter, Finset.sum_const, hdays, nsmul_eq_mul]
  rfl

theorem sum_dayChange_weighted (payroll : ℤ) (draws : Draws lowBalance) :
    ∑ day ∈ Finset.range daysOfHistory, (day : ℤ) * dayChange payroll draws day =
      294 * payroll - spentByDay draws := by
  have hdays : ∑ day ∈ (Finset.range daysOfHistory).filter (· % 14 = 0), (day : ℤ) = 294 := by
    decide
  simp only [dayChange, spentByDay, mul_sub, mul_ite, mul_zero]
  rw [Finset.sum_sub_distrib, ← Finset.sum_filter, ← Finset.sum_mul, hdays]

/-- A mean down to an integer is the last balance if the movements weigh little. -/
theorem max_mean_iff (closing weighted : ℤ) :
    max closing 0 = max ((90 * closing - weighted) / 90) 0 ↔
      if 0 < closing then -90 < weighted ∧ weighted ≤ 0 else 90 * closing - weighted < 90 := by
  split <;> omega

/-- There is a deposit on the first day. -/
theorem payroll_of_history {syntheticId : String} {declaredAnnualIncome : ℤ}
    {draws : Draws lowBalance} {history : SyntheticTransactionHistory}
    (h : generateTransactionHistory syntheticId declaredAnnualIncome draws = .ok history) :
    ∃ payroll, payrollAmount declaredAnnualIncome = .ok payroll := by
  cases hpayroll : payrollAmount declaredAnnualIncome with
  | ok payroll => exact ⟨payroll, rfl⟩
  | error e =>
      have hrange : List.range daysOfHistory = 0 :: List.range' 1 89 := by decide
      have hday : historyDay declaredAnnualIncome draws ⟨draws.startingBalance, []⟩ 0 = .error e := by
        rw [historyDay, if_pos rfl, hpayroll]
        rfl
      rw [generateTransactionHistory, hrange, List.foldlM_cons, hday] at h
      cases h

/-- **When the balance that is reported is the mean.** -/
theorem average_reported_iff (syntheticId : String) (declaredAnnualIncome : ℤ)
    (draws : Draws lowBalance) {history : SyntheticTransactionHistory}
    (h : generateTransactionHistory syntheticId declaredAnnualIncome draws = .ok history) :
    ∃ payroll, payrollAmount declaredAnnualIncome = .ok payroll ∧
      (∃ response, transactionHistory syntheticId declaredAnnualIncome draws = .ok response ∧
        response.averageDailyBalanceCents = history.averageDailyBalance) ∧
      (history.averageDailyBalance =
          averageDailyBalance draws.startingBalance history.transactions ↔
        Balanced payroll draws) := by
  obtain ⟨payroll, hpayroll⟩ := payroll_of_history h
  cases h.symm.trans (generateTransactionHistory_eq syntheticId draws hpayroll)
  refine ⟨payroll, hpayroll, ⟨_, by rw [transactionHistory, h]; rfl, rfl⟩, ?_⟩
  have hbalances : ∀ day ∈ Finset.range daysOfHistory,
      endOfDayBalance draws.startingBalance
        ((List.range daysOfHistory).flatMap (dayTransactions payroll draws)) day =
      draws.startingBalance + ∑ d ∈ Finset.range (day + 1), dayChange payroll draws d := by
    intro day hday
    have hlt := Finset.mem_range.1 hday
    have hmin : min daysOfHistory (day + 1) = day + 1 := by omega
    rw [endOfDayBalance, sum_upTo payroll draws hlt daysOfHistory le_rfl, hmin]
  have hmean := max_mean_iff (draws.startingBalance + 7 * payroll - spent draws)
    (294 * payroll - spentByDay draws)
  simp only [averageDailyBalance, Balanced]
  rw [Finset.sum_congr rfl hbalances, sum_endOfDay, sum_dayChange, sum_dayChange_weighted,
    ← hmean, ← add_sub_assoc]
  rfl

namespace Sample

/-- Nothing is spent, but for `amount` on one day. -/
def drawsOf (amount : ℤ) (day : ℕ) (h : 500 ≤ amount ∧ amount ≤ 20000) : Draws false where
  startingBalance := 150000
  nsfCount := 0
  purchase d := if d = day then some amount else none
  startingBalance_range := by decide
  nsfCount_range := rfl
  purchase_range d a hd := by
    rw [Option.ite_none_right_eq_some] at hd
    cases hd.2
    exact h

end Sample

/-- An income of 26 dollars is a dollar a fortnight, and six dollars on the fiftieth day make up for
it. -/
theorem average_reported_balanced : ∃ history,
    generateTransactionHistory "900-12-3456" 26 (Sample.drawsOf 600 49 (by decide)) = .ok history ∧
      history.averageDailyBalance = averageDailyBalance 150000 history.transactions := by
  have hdollar : payrollAmount 26 = .ok 100 := by decide +kernel
  obtain ⟨history, hhistory⟩ : ∃ history, generateTransactionHistory "900-12-3456" 26
      (Sample.drawsOf 600 49 (by decide)) = .ok history :=
    ⟨_, generateTransactionHistory_eq _ _ hdollar⟩
  obtain ⟨payroll, hpayroll, -, hiff⟩ := average_reported_iff "900-12-3456" 26 _ hhistory
  obtain rfl : payroll = 100 := Except.ok.inj (hpayroll.symm.trans hdollar)
  refine ⟨history, hhistory, hiff.2 ?_⟩
  rw [Balanced]
  decide +kernel

/-- **The balance at the end is reported**: of an income of 26000 dollars, of which five are spent, the
deposits of all ninety days are in it. -/
theorem final_balance_reported : ∃ history,
    generateTransactionHistory "900-12-3456" 26000 (Sample.drawsOf 500 89 (by decide)) = .ok history ∧
      history.averageDailyBalance = 849500 ∧
      averageDailyBalance 150000 history.transactions = 523327 := by
  have hthousand : payrollAmount 26000 = .ok 100000 := by decide +kernel
  refine ⟨_, generateTransactionHistory_eq "900-12-3456" (Sample.drawsOf 500 89 (by decide))
    hthousand, ?_, ?_⟩
  · decide +kernel
  · decide +kernel

end FinAssist
