/-
**Rounding to doubles.**

What the rounding of `FinAssist.Binary64` does to the order of numbers: a number is rounded to a
nearest integer, or to a nearest multiple of the spacing of the doubles around it, so it does not
pass a number that is itself a multiple.  Of a number and a bound it follows on which side of the
bound the rounded number is, and from this where the doubles end.

Main results:

* `FinAssist.Binary64.exponent_spec` — the exponent of a number;
* `FinAssist.Binary64.rounded_le`, `FinAssist.Binary64.le_rounded` — **rounding does not pass a
  multiple of the spacing**;
* `FinAssist.Binary64.round_eq_none_iff` — **where the doubles end**.
-/

import FinAssist.Evidence

set_option relaxedAutoImplicit false
set_option autoImplicit false

namespace FinAssist

namespace Binary64

/-! ### Rounding to an integer -/

section Integer

variable {q : ℚ} {n : ℤ}

theorem roundHalfEven_of_floor (h : q.floor = n) : roundHalfEven q =
    if q - n < 1 / 2 then n
    else if 1 / 2 < q - n then n + 1
    else if n % 2 = 0 then n else n + 1 := by
  simp only [roundHalfEven, h]

theorem roundHalfEven_le (h : q < n + 1 / 2) : roundHalfEven q ≤ n := by
  have hbelow := Rat.floor_le q
  have habove : q - 1 < q.floor := Rat.lt_floor
  have hfloor : q.floor ≤ n := by
    have hlt : (q.floor : ℚ) < n + 1 := by linarith
    exact_mod_cast Int.lt_add_one_iff.1 (by exact_mod_cast hlt)
  rcases hfloor.lt_or_eq with hlt | heq
  · simp only [roundHalfEven]
    split_ifs <;> omega
  · have hrest : q - q.floor < 1 / 2 := by
      rw [heq]
      linarith
    rw [roundHalfEven, if_pos hrest]
    exact hfloor

theorem le_roundHalfEven (h : n - 1 / 2 < q) : n ≤ roundHalfEven q := by
  have hbelow := Rat.floor_le q
  have habove : q - 1 < q.floor := Rat.lt_floor
  by_cases hfloor : n ≤ q.floor
  · simp only [roundHalfEven]
    split_ifs <;> omega
  · have hfloor' : q.floor + 1 ≤ n := by omega
    have hcast : (q.floor : ℚ) + 1 ≤ n := by exact_mod_cast hfloor'
    have heq : q.floor + 1 = n := by
      have hlt : (n : ℚ) < q.floor + 2 := by linarith
      have hlt' : n < q.floor + 2 := by exact_mod_cast hlt
      omega
    have hrest : 1 / 2 < q - q.floor := by
      have hcast' : (q.floor : ℚ) + 1 = n := by exact_mod_cast heq
      linarith
    rw [roundHalfEven, if_neg (by linarith), if_pos hrest]
    omega

/-- A tie goes to an even number from above. -/
theorem roundHalfEven_le_even (heven : n % 2 = 0) (h : q ≤ n + 1 / 2) : roundHalfEven q ≤ n := by
  rcases h.lt_or_eq with hlt | rfl
  · exact roundHalfEven_le hlt
  · have hfloor : ((n : ℚ) + 1 / 2).floor = n := by
      refine le_antisymm ?_ (Rat.le_floor_iff.2 (by linarith))
      have hbelow := Rat.floor_le ((n : ℚ) + 1 / 2)
      have hlt : ((((n : ℚ) + 1 / 2).floor : ℤ) : ℚ) < n + 1 := by linarith
      exact Int.lt_add_one_iff.1 (by exact_mod_cast hlt)
    have hrest : (n : ℚ) + 1 / 2 - n = 1 / 2 := by ring
    rw [roundHalfEven_of_floor hfloor, hrest, if_neg (lt_irrefl _), if_neg (lt_irrefl _),
      if_pos heven]

/-- A tie goes to an even number from below. -/
theorem le_roundHalfEven_even (heven : n % 2 = 0) (h : n - 1 / 2 ≤ q) : n ≤ roundHalfEven q := by
  rcases h.lt_or_eq with hlt | rfl
  · exact le_roundHalfEven hlt
  · have hfloor : ((n : ℚ) - 1 / 2).floor = n - 1 := by
      refine le_antisymm ?_ (Rat.le_floor_iff.2 (by push_cast; linarith))
      have hbelow := Rat.floor_le ((n : ℚ) - 1 / 2)
      have hlt : ((((n : ℚ) - 1 / 2).floor : ℤ) : ℚ) < (n - 1 : ℤ) + 1 := by
        push_cast
        linarith
      exact Int.lt_add_one_iff.1 (by exact_mod_cast hlt)
    have hrest : (n : ℚ) - 1 / 2 - (n - 1 : ℤ) = 1 / 2 := by
      push_cast
      ring
    have hodd : ¬ (n - 1) % 2 = 0 := by omega
    rw [roundHalfEven_of_floor hfloor, hrest, if_neg (lt_irrefl _), if_neg (lt_irrefl _),
      if_neg hodd]
    omega

theorem roundHalfEven_eq (h : |q - n| < 1 / 2) : roundHalfEven q = n := by
  obtain ⟨hbelow, habove⟩ := abs_lt.1 h
  exact le_antisymm (roundHalfEven_le (by linarith)) (le_roundHalfEven (by linarith))

/-- **An integer nearest to the number.** -/
theorem abs_roundHalfEven_sub_le (q : ℚ) : |(roundHalfEven q : ℚ) - q| ≤ 1 / 2 := by
  have hbelow : (roundHalfEven q : ℚ) - 1 / 2 ≤ q := by
    by_contra hlt
    push Not at hlt
    have hle : roundHalfEven q ≤ roundHalfEven q - 1 :=
      roundHalfEven_le (by push_cast; linarith)
    omega
  have habove : q ≤ (roundHalfEven q : ℚ) + 1 / 2 := by
    by_contra hlt
    push Not at hlt
    have hle : roundHalfEven q + 1 ≤ roundHalfEven q :=
      le_roundHalfEven (by push_cast; linarith)
    omega
  exact abs_le.2 ⟨by linarith, by linarith⟩

theorem roundHalfEven_nonneg (hq : 0 ≤ q) : 0 ≤ roundHalfEven q :=
  le_roundHalfEven (by push_cast; linarith)

end Integer

/-! ### The exponent -/

theorem pow2_eq (k : ℤ) : pow2 k = (2 : ℚ) ^ k := by
  unfold pow2
  split
  next h =>
    lift k to ℕ using h
    simp
  next h =>
    obtain ⟨n, rfl⟩ : ∃ n : ℕ, k = -n := ⟨(-k).toNat, by omega⟩
    simp

theorem pow2_pos (k : ℤ) : 0 < pow2 k := by
  rw [pow2_eq]
  exact zpow_pos two_pos k

theorem pow2_le_pow2 {j k : ℤ} (h : j ≤ k) : pow2 j ≤ pow2 k := by
  rw [pow2_eq, pow2_eq]
  exact zpow_le_zpow_right₀ (by norm_num) h

theorem pow2_lt_pow2_iff {j k : ℤ} : pow2 j < pow2 k ↔ j < k := by
  rw [pow2_eq, pow2_eq]
  exact zpow_lt_zpow_iff_right₀ (by norm_num)

theorem pow2_add (j k : ℤ) : pow2 (j + k) = pow2 j * pow2 k := by
  rw [pow2_eq, pow2_eq, pow2_eq, zpow_add₀ (by norm_num)]

theorem pow2_natCast_add (n : ℕ) (k : ℤ) : pow2 (n + k) = 2 ^ n * pow2 k := by
  rw [pow2_add, pow2_eq, zpow_natCast]

/-- **The exponent of a number.** -/
theorem exponent_spec {q : ℚ} (hq : 0 < q) :
    pow2 (exponent q) ≤ q ∧ q < pow2 (exponent q + 1) := by
  have hnum : 0 < q.num := Rat.num_pos.2 hq
  have hnum' : q.num.natAbs ≠ 0 := by omega
  have hden : (0 : ℚ) < q.den := by exact_mod_cast q.den_pos
  have heq : q = (q.num.natAbs : ℚ) / q.den := by
    conv_lhs => rw [← Rat.num_div_den q]
    rw [Nat.cast_natAbs, abs_of_pos hnum]
  have hn : (2 : ℚ) ^ q.num.natAbs.log2 ≤ q.num.natAbs := by
    exact_mod_cast Nat.log2_self_le hnum'
  have hn' : (q.num.natAbs : ℚ) < 2 ^ (q.num.natAbs.log2 + 1) := by
    exact_mod_cast Nat.lt_log2_self
  have hd : (2 : ℚ) ^ q.den.log2 ≤ q.den := by
    exact_mod_cast Nat.log2_self_le q.den_ne_zero
  have hd' : (q.den : ℚ) < 2 ^ (q.den.log2 + 1) := by
    exact_mod_cast Nat.lt_log2_self
  -- the quotient of the powers below numerator and denominator is off by one at most
  have hbelow : pow2 ((q.num.natAbs.log2 : ℤ) - q.den.log2 - 1) ≤ q := by
    have hsplit : (q.num.natAbs.log2 : ℤ) - q.den.log2 - 1 =
        (q.num.natAbs.log2 : ℤ) - ((q.den.log2 + 1 : ℕ) : ℤ) := by
      push_cast
      ring
    rw [hsplit, pow2_eq, zpow_sub₀ (by norm_num), zpow_natCast, zpow_natCast]
    conv_rhs => rw [heq]
    exact div_le_div₀ (by positivity) hn hden hd'.le
  have habove : q < pow2 ((q.num.natAbs.log2 : ℤ) - q.den.log2 + 1) := by
    have hsplit : (q.num.natAbs.log2 : ℤ) - q.den.log2 + 1 =
        ((q.num.natAbs.log2 + 1 : ℕ) : ℤ) - (q.den.log2 : ℤ) := by
      push_cast
      ring
    rw [hsplit, pow2_eq, zpow_sub₀ (by norm_num), zpow_natCast, zpow_natCast]
    conv_lhs => rw [heq]
    exact div_lt_div₀ hn' hd (by positivity) (by positivity)
  simp only [exponent]
  split
  next h => exact ⟨h, habove⟩
  next h =>
    refine ⟨hbelow, ?_⟩
    rw [sub_add_cancel]
    exact not_le.1 h

theorem le_exponent {q : ℚ} {k : ℤ} (hq : 0 < q) (h : pow2 k ≤ q) : k ≤ exponent q := by
  have hlt := pow2_lt_pow2_iff.1 (h.trans_lt (exponent_spec hq).2)
  omega

theorem exponent_lt {q : ℚ} {k : ℤ} (hq : 0 < q) (h : q < pow2 k) : exponent q < k :=
  pow2_lt_pow2_iff.1 ((exponent_spec hq).1.trans_lt h)

/-! ### Rounding to a double -/

/-- The exponent of the spacing of the doubles around a positive number. -/
def spacing (q : ℚ) : ℤ := max (exponent q - 52) (-1074)

/-- The nearest double, if the exponents had no end. -/
def rounded (q : ℚ) : ℚ := roundHalfEven (q / pow2 (spacing q)) * pow2 (spacing q)

section Double

variable {q : ℚ}

theorem rounded_nonneg (hq : 0 < q) : 0 ≤ rounded q := by
  refine mul_nonneg ?_ (pow2_pos _).le
  exact_mod_cast roundHalfEven_nonneg (div_pos hq (pow2_pos _)).le

theorem round_of_pos (hq : 0 < q) :
    round q = if rounded q < pow2 1024 then some (rounded q) else none := by
  have habs := abs_of_nonneg (rounded_nonneg hq)
  simp only [rounded, spacing] at habs ⊢
  rw [round, if_neg hq.ne']
  simp only [abs_of_pos hq, habs]
  exact if_congr Iff.rfl rfl rfl

theorem round_nonneg {r : ℚ} (hq : 0 ≤ q) (h : round q = some r) : 0 ≤ r := by
  rcases hq.eq_or_lt with rfl | hq
  · rw [round, if_pos rfl] at h
    exact (Option.some.inj h) ▸ le_refl _
  · rw [round_of_pos hq] at h
    split at h
    · exact (Option.some.inj h) ▸ rounded_nonneg hq
    · cases h

/-- A multiple of a power of two, in steps of a smaller one. -/
theorem mul_pow2_div (m : ℤ) {j k : ℤ} (h : k ≤ j) :
    ((m * 2 ^ (j - k).toNat : ℤ) : ℚ) = m * pow2 j / pow2 k := by
  have hsplit : pow2 j = pow2 ((j - k).toNat : ℤ) * pow2 k := by
    rw [← pow2_add]
    congr 1
    omega
  rw [hsplit, ← mul_assoc, mul_div_assoc, div_self (pow2_pos k).ne', mul_one, pow2_eq, zpow_natCast]
  push_cast
  ring

theorem rounded_le {m j : ℤ} (hj : spacing q ≤ j) (h : q ≤ m * pow2 j) : rounded q ≤ m * pow2 j := by
  have hu := pow2_pos (spacing q)
  rw [rounded, ← le_div_iff₀ hu, ← mul_pow2_div m hj, Int.cast_le]
  refine roundHalfEven_le ?_
  have hle := div_le_div_of_nonneg_right h hu.le
  rw [← mul_pow2_div m hj] at hle
  linarith

theorem le_rounded {m j : ℤ} (hj : spacing q ≤ j) (h : m * pow2 j ≤ q) : m * pow2 j ≤ rounded q := by
  have hu := pow2_pos (spacing q)
  rw [rounded, ← div_le_iff₀ hu, ← mul_pow2_div m hj, Int.cast_le]
  refine le_roundHalfEven ?_
  have hle := div_le_div_of_nonneg_right h hu.le
  rw [← mul_pow2_div m hj] at hle
  linarith

theorem rounded_le_of_lt {m : ℤ} (h : q < (m + 1 / 2) * pow2 (spacing q)) :
    rounded q ≤ m * pow2 (spacing q) := by
  have hu := pow2_pos (spacing q)
  rw [rounded]
  refine mul_le_mul_of_nonneg_right ?_ hu.le
  exact_mod_cast roundHalfEven_le ((div_lt_iff₀ hu).2 h)

theorem le_rounded_of_lt {m : ℤ} (h : (m - 1 / 2) * pow2 (spacing q) < q) :
    m * pow2 (spacing q) ≤ rounded q := by
  have hu := pow2_pos (spacing q)
  rw [rounded]
  refine mul_le_mul_of_nonneg_right ?_ hu.le
  exact_mod_cast le_roundHalfEven ((lt_div_iff₀ hu).2 h)

/-- A tie below an even multiple of the spacing goes to it. -/
theorem le_rounded_even {m : ℤ} (heven : m % 2 = 0) (h : (m - 1 / 2) * pow2 (spacing q) ≤ q) :
    m * pow2 (spacing q) ≤ rounded q := by
  have hu := pow2_pos (spacing q)
  rw [rounded]
  refine mul_le_mul_of_nonneg_right ?_ hu.le
  exact_mod_cast le_roundHalfEven_even heven ((le_div_iff₀ hu).2 h)

/-- A tie above an even multiple of the spacing goes to it. -/
theorem rounded_le_even {m : ℤ} (heven : m % 2 = 0) (h : q ≤ (m + 1 / 2) * pow2 (spacing q)) :
    rounded q ≤ m * pow2 (spacing q) := by
  have hu := pow2_pos (spacing q)
  rw [rounded]
  refine mul_le_mul_of_nonneg_right ?_ hu.le
  exact_mod_cast roundHalfEven_le_even heven ((div_le_iff₀ hu).2 h)

theorem pow2_le_rounded {e : ℤ} (he : -1022 ≤ e) (h : pow2 e ≤ q) : pow2 e ≤ rounded q := by
  have hq : 0 < q := (pow2_pos e).trans_le h
  have hle := le_exponent hq h
  have hself : pow2 (exponent q) ≤ rounded q := by
    have hrounded := le_rounded (q := q) (m := 1) (j := exponent q)
      (by simp only [spacing]; omega) (by simpa using (exponent_spec hq).1)
    simpa using hrounded
  exact (pow2_le_pow2 hle).trans hself

/-- **Where the doubles end**: half a spacing after the last of them. -/
theorem round_eq_none_iff (hq : 0 < q) : round q = none ↔ (2 ^ 54 - 1) * pow2 970 ≤ q := by
  have hunit971 : pow2 971 = 2 ^ 1 * pow2 970 := pow2_natCast_add 1 970
  have hend : pow2 1024 = 2 ^ 54 * pow2 970 := pow2_natCast_add 54 970
  have hbinade : pow2 1023 = 2 ^ 53 * pow2 970 := pow2_natCast_add 53 970
  have hunit := pow2_pos 970
  rw [round_of_pos hq]
  have hiff : rounded q < pow2 1024 ↔ q < (2 ^ 54 - 1) * pow2 970 := by
    constructor
    · intro hlt
      by_contra hle
      push Not at hle
      have hexp : 1023 ≤ exponent q := le_exponent hq (by rw [hbinade]; linarith)
      rcases hexp.eq_or_lt with heq | hexp
      · -- in the last binade the tie goes to the power of two after it
        have hspacing : spacing q = 971 := by
          simp only [spacing, ← heq]
          norm_num
        have hle' := le_rounded_even (q := q) (m := 2 ^ 53) (by norm_num) (by
          rw [hspacing, hunit971]
          push_cast
          linarith)
        rw [hspacing, hunit971] at hle'
        push_cast at hle'
        linarith
      · have hle' := pow2_le_rounded (q := q) (e := 1024) (by norm_num)
          ((pow2_le_pow2 (by omega)).trans (exponent_spec hq).1)
        exact absurd hlt (not_lt.2 hle')
    · intro hlt
      have hexp : exponent q < 1024 := exponent_lt hq (by rw [hend]; linarith)
      have hle : rounded q ≤ (2 ^ 53 - 1 : ℤ) * pow2 971 := by
        by_cases hspacing : spacing q = 971
        · rw [← hspacing]
          refine rounded_le_of_lt ?_
          rw [hspacing, hunit971]
          push_cast
          linarith
        · have hlast : exponent q + 1 ≤ 1023 := by
            simp only [spacing] at hspacing
            omega
          have hle := rounded_le (q := q) (m := 1) (j := 1023) (by simp only [spacing]; omega)
            (by simpa using ((exponent_spec hq).2.trans_le (pow2_le_pow2 hlast)).le)
          refine hle.trans ?_
          rw [hbinade, hunit971]
          push_cast
          linarith
      rw [hunit971] at hle
      push_cast at hle
      rw [hend]
      linarith
  split
  next h => simpa using not_le.2 (hiff.1 h)
  next h => simpa using not_lt.1 (mt hiff.2 h)

end Double

end Binary64

end FinAssist
