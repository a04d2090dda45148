import BatchRun.Decimal.Shortest
import Mathlib.Algebra.Order.Field.Power
import Mathlib.Data.Nat.Log
import Mathlib.Tactic.FieldSimp
import Mathlib.Tactic.Linarith
import Mathlib.Tactic.NormNum
import Mathlib.Tactic.Positivity
import Mathlib.Tactic.Ring

/-!
# Rounding to the nearest double

A rank stands for a significand `m` and a power of two `2 ^ q`, and a rational number belongs to
the rank if it lies between the midpoints of `m * 2 ^ q` and its neighbours; the midpoints belong
to it if `m` is even.

* `OnGrid`, `gridRank`: the significands and exponents of ranks, `onGrid_partsOfRank`;
* `Nearest`: the numbers that belong to a significand and an exponent;
* **`rankOfRatio_eq`**: a fraction is rounded to the rank it belongs to;
* **`rankOfDecimal_eq`**: so is a decimal.
-/

namespace BatchRun

/-! ## The grid of doubles -/

/-- A significand and an exponent that some rank stands for. -/
structure OnGrid (m : Nat) (q : Int) : Prop where
  lt : m < 2 ^ 53
  least : -1074 ≤ q
  normal : q = -1074 ∨ 2 ^ 52 ≤ m

/-- The rank of a significand and an exponent. -/
def gridRank (m : Nat) (q : Int) : Nat := (q + 1074).toNat * 2 ^ 52 + m

theorem onGrid_partsOfRank (rank : Nat) :
    OnGrid (Binary64.partsOfRank rank).1 (Binary64.partsOfRank rank).2 := by
  rw [Binary64.partsOfRank]
  have hmod : rank % 2 ^ 52 < 2 ^ 52 := Nat.mod_lt _ (by norm_num)
  simp only [Nat.pow_eq]
  split
  · exact ⟨by simp only; omega, le_rfl, .inl rfl⟩
  · exact ⟨by simp only; omega, by simp only; omega, .inr (by simp only; omega)⟩

theorem gridRank_partsOfRank (rank : Nat) :
    gridRank (Binary64.partsOfRank rank).1 (Binary64.partsOfRank rank).2 = rank := by
  rw [Binary64.partsOfRank, gridRank]
  simp only [Nat.pow_eq]
  split <;> simp only <;> omega

theorem partsOfRank_pos {rank : Nat} (h : 0 < rank) : 0 < (Binary64.partsOfRank rank).1 := by
  rw [Binary64.partsOfRank]
  simp only [Nat.pow_eq]
  split <;> simp only <;> omega

theorem partsOfRank_le {rank : Nat} (h : rank < infinityRank) :
    (Binary64.partsOfRank rank).2 ≤ 971 := by
  rw [Binary64.partsOfRank]
  simp only [Nat.pow_eq, infinityRank] at h ⊢
  split <;> simp only <;> omega

/-! ## The numbers that belong to a rank -/

/-- The number lies between the midpoints to both neighbours; below a power of two the neighbour
is only half as far away. -/
structure Nearest (m : Nat) (q : Int) (x : ℚ) : Prop where
  low : (m - (if m = 2 ^ 52 ∧ q ≠ -1074 then 1 / 4 else 1 / 2)) * 2 ^ q ≤ x
  high : x ≤ (m + 1 / 2) * 2 ^ q
  tie : m % 2 = 1 →
    (m - (if m = 2 ^ 52 ∧ q ≠ -1074 then 1 / 4 else 1 / 2)) * 2 ^ q < x ∧ x < (m + 1 / 2) * 2 ^ q

theorem Nearest.half_le {m : Nat} {q : Int} {x : ℚ} (h : Nearest m q x) :
    (m - 1 / 2) * 2 ^ q ≤ x := by
  refine le_trans ?_ h.low
  have : (0 : ℚ) < 2 ^ q := by positivity
  split <;> nlinarith

theorem Nearest.pos {m : Nat} {q : Int} {x : ℚ} (h : Nearest m q x) (hm : 0 < m) : 0 < x := by
  have : (0 : ℚ) < 2 ^ q := by positivity
  have hm : (1 : ℚ) ≤ m := by exact_mod_cast hm
  nlinarith [h.half_le]

/-! ## Quotients -/

theorem roundQuotient_eq {n d m : Nat} (hd : 0 < d) (hlow : 2 * (m * d) ≤ 2 * n + d)
    (hhigh : 2 * n ≤ 2 * (m * d) + d)
    (htie : m % 2 = 1 → 2 * (m * d) < 2 * n + d ∧ 2 * n < 2 * (m * d) + d) :
    roundQuotient n d = m := by
  have hn : d * (n / d) + n % d = n := Nat.div_add_mod n d
  have hr : n % d < d := Nat.mod_lt _ hd
  have hle : n / d ≤ m := by
    by_contra h
    have hmul : (m + 1) * d ≤ n / d * d := Nat.mul_le_mul_right d (by omega)
    linarith [Nat.div_mul_le_self n d]
  have hge : m ≤ n / d + 1 := by
    by_contra h
    have hmul : (n / d + 2) * d ≤ m * d := Nat.mul_le_mul_right d (by omega)
    linarith
  obtain rfl | rfl : m = n / d ∨ m = n / d + 1 := by omega
  · have hcomm : n / d * d = d * (n / d) := Nat.mul_comm ..
    rw [roundQuotient]
    split
    · rfl
    · split
      · omega
      · rw [if_pos (by omega)]
  · have hcomm : (n / d + 1) * d = d * (n / d) + d := by ring
    rw [roundQuotient]
    split
    · omega
    · split
      · rfl
      · rw [if_neg (by omega)]

theorem shiftRatio_div (num : Nat) {den : Nat} (hden : 0 < den) (q : Int) :
    0 < (shiftRatio num den q).2 ∧
      ((shiftRatio num den q).1 : ℚ) / (shiftRatio num den q).2 = num / den / 2 ^ q := by
  have hden' : (den : ℚ) ≠ 0 := by positivity
  rw [shiftRatio]
  simp only [Nat.pow_eq]
  split
  · next hq =>
    obtain ⟨n, rfl⟩ : ∃ n : Nat, q = -n := ⟨q.natAbs, by omega⟩
    refine ⟨hden, ?_⟩
    rw [zpow_neg, zpow_natCast, Int.natAbs_neg, Int.natAbs_natCast]
    push_cast
    field_simp
  · next hq =>
    obtain ⟨n, rfl⟩ : ∃ n : Nat, q = n := ⟨q.natAbs, by omega⟩
    refine ⟨by positivity, ?_⟩
    rw [zpow_natCast, Int.natAbs_natCast]
    push_cast
    field_simp

theorem roundQuotient_of_near {n d m : Nat} (hd : 0 < d) (hlow : (m : ℚ) - 1 / 2 ≤ n / d)
    (hhigh : (n : ℚ) / d ≤ m + 1 / 2)
    (htie : m % 2 = 1 → (m : ℚ) - 1 / 2 < n / d ∧ (n : ℚ) / d < m + 1 / 2) :
    roundQuotient n d = m := by
  have hd' : (0 : ℚ) < d := by exact_mod_cast hd
  rw [le_div_iff₀ hd', sub_mul] at hlow
  rw [div_le_iff₀ hd', add_mul] at hhigh
  refine roundQuotient_eq hd ?_ ?_ fun hm => ?_
  · have : 2 * ((m : ℚ) * d) ≤ 2 * n + d := by linarith
    exact_mod_cast this
  · have : 2 * (n : ℚ) ≤ 2 * (m * d) + d := by linarith
    exact_mod_cast this
  · obtain ⟨hlow, hhigh⟩ := htie hm
    rw [lt_div_iff₀ hd', sub_mul] at hlow
    rw [div_lt_iff₀ hd', add_mul] at hhigh
    constructor
    · have : 2 * ((m : ℚ) * d) < 2 * n + d := by linarith
      exact_mod_cast this
    · have : 2 * (n : ℚ) < 2 * (m * d) + d := by linarith
      exact_mod_cast this

/-! ## Fractions -/

/-- The exponent at which a fraction is rounded. -/
def roundingExponent (num den : Nat) : Int :=
  let q := max ((num.log2 : Int) - (den.log2 : Int) - 53) (-1074)
  if (shiftRatio num den q).1 / (shiftRatio num den q).2 < 2 ^ 53 then q else q + 1

theorem rankOfRatio_eq_round {num : Nat} (hnum : 0 < num) (den : Nat) :
    rankOfRatio num den = (roundingExponent num den + 1074).toNat * 2 ^ 52 +
      roundQuotient (shiftRatio num den (roundingExponent num den)).1
        (shiftRatio num den (roundingExponent num den)).2 := by
  rw [rankOfRatio, if_neg hnum.ne']
  rfl

theorem two_pow_log2_le {n : Nat} (h : 0 < n) : (2 : ℚ) ^ (n.log2 : Int) ≤ n := by
  rw [zpow_natCast]
  exact_mod_cast Nat.log2_self_le h.ne'

theorem lt_two_pow_log2 (n : Nat) : (n : ℚ) < 2 ^ ((n.log2 : Int) + 1) := by
  have : (n : ℚ) < 2 ^ (n.log2 + 1) := by exact_mod_cast Nat.lt_log2_self
  exact_mod_cast this

/-- At its exponent a fraction has no more than `53` digits before the point, and no fewer unless
the exponent is the least one. -/
theorem roundingExponent_spec {num den : Nat} (hnum : 0 < num) (hden : 0 < den) :
    -1074 ≤ roundingExponent num den ∧
      (num : ℚ) / den < 2 ^ (53 : Int) * 2 ^ roundingExponent num den ∧
      (roundingExponent num den = -1074 ∨
        2 ^ (52 : Int) * 2 ^ roundingExponent num den ≤ (num : ℚ) / den) := by
  have hnum' : (0 : ℚ) < num := by exact_mod_cast hnum
  have hden' : (0 : ℚ) < den := by exact_mod_cast hden
  -- the quotient lies between the powers of two given by the lengths
  have hlow : (2 : ℚ) ^ ((num.log2 : Int) - den.log2 - 1) ≤ num / den := by
    rw [le_div_iff₀ hden', show (num.log2 : Int) - den.log2 - 1 = num.log2 - (den.log2 + 1) by ring,
      zpow_sub₀ (by norm_num), div_mul_eq_mul_div, div_le_iff₀ (by positivity)]
    exact mul_le_mul (two_pow_log2_le hnum) (lt_two_pow_log2 den).le hden'.le hnum'.le
  have hhigh : (num : ℚ) / den < 2 ^ ((num.log2 : Int) - den.log2 + 1) := by
    rw [div_lt_iff₀ hden', show (num.log2 : Int) - den.log2 + 1 = num.log2 + 1 - den.log2 by ring,
      zpow_sub₀ (by norm_num), div_mul_eq_mul_div, lt_div_iff₀ (by positivity)]
    exact mul_lt_mul (lt_two_pow_log2 num) (two_pow_log2_le hden) (by positivity) (by positivity)
  rw [roundingExponent]
  set q := max ((num.log2 : Int) - (den.log2 : Int) - 53) (-1074) with hq
  obtain ⟨hd, hval⟩ := shiftRatio_div num hden q
  have hd' : (0 : ℚ) < (shiftRatio num den q).2 := by exact_mod_cast hd
  have h2q : (0 : ℚ) < 2 ^ q := by positivity
  simp only [Nat.div_lt_iff_lt_mul hd]
  have hlt : (shiftRatio num den q).1 < 2 ^ 53 * (shiftRatio num den q).2 ↔
      (num : ℚ) / den < 2 ^ (53 : Int) * 2 ^ q := by
    rw [← div_lt_iff₀ h2q, ← hval, div_lt_iff₀ hd', ← Nat.cast_lt (α := ℚ)]
    norm_num
  split
  · next h =>
    refine ⟨le_max_right _ _, hlt.1 h, ?_⟩
    by_cases hleast : q = -1074
    · exact .inl hleast
    · right
      have : q = (num.log2 : Int) - den.log2 - 53 := by omega
      rw [← zpow_add₀ (by norm_num), this]
      exact le_trans (zpow_le_zpow_right₀ (by norm_num) (by omega)) hlow
  · next h =>
    have h := not_lt.1 fun hx => h (hlt.2 hx)
    refine ⟨by omega, ?_, .inr ?_⟩
    · rw [← zpow_add₀ (by norm_num)]
      exact lt_of_lt_of_le hhigh (zpow_le_zpow_right₀ (by norm_num) (by omega))
    · rw [← zpow_add₀ (by norm_num), show (52 : Int) + (q + 1) = 53 + q by ring,
        zpow_add₀ (by norm_num)]
      exact h

theorem zpow_mul_zpow_le {a b c d : Int} (h : a + b ≤ c + d) :
    (2 : ℚ) ^ a * 2 ^ b ≤ 2 ^ c * 2 ^ d := by
  rw [← zpow_add₀ (by norm_num), ← zpow_add₀ (by norm_num)]
  exact zpow_le_zpow_right₀ (by norm_num) h

/-- A fraction is rounded at the exponent of the number it is nearest to, or, only just below a
power of two, at the exponent before. -/
theorem roundingExponent_of_nearest {num den m : Nat} {q : Int} (hnum : 0 < num) (hden : 0 < den)
    (hgrid : OnGrid m q) (h : Nearest m q ((num : ℚ) / den)) :
    roundingExponent num den = q ∨
      (q = roundingExponent num den + 1 ∧ m = 2 ^ 52 ∧ q ≠ -1074) := by
  obtain ⟨hleast, hlt, hnormal⟩ := roundingExponent_spec hnum hden
  set e := roundingExponent num den
  have h2q : (0 : ℚ) < 2 ^ q := by positivity
  obtain hlow' | heq | hgt := lt_trichotomy e q
  · right
    have hq : q ≠ -1074 := by omega
    have hm52 := hgrid.normal.resolve_left hq
    have hm : m = 2 ^ 52 := by
      by_contra hne
      have hm53 : (2 : ℚ) ^ (52 : Int) + 1 ≤ m := by
        exact_mod_cast (show 2 ^ 52 + 1 ≤ m by omega)
      have hstep := zpow_mul_zpow_le (show (53 : Int) + e ≤ 52 + q by omega)
      nlinarith [h.half_le]
    refine ⟨?_, hm, hq⟩
    by_contra hne
    have hlow := h.low
    have hmeq : (m : ℚ) = 2 ^ (52 : Int) := by exact_mod_cast hm
    rw [if_pos ⟨hm, hq⟩, hmeq] at hlow
    have hstep := zpow_mul_zpow_le (show (53 : Int) + e ≤ 51 + q by omega)
    norm_num at hlow hstep hlt
    nlinarith
  · exact .inl heq
  · -- a greater exponent is for greater numbers
    exfalso
    have hge := hnormal.resolve_left (by have := hgrid.least; omega)
    have hhigh := h.high
    have hm53 : (m : ℚ) + 1 ≤ 2 ^ (53 : Int) := by exact_mod_cast hgrid.lt
    have hstep := zpow_mul_zpow_le (show (53 : Int) + q ≤ 52 + e by omega)
    nlinarith

/-- **A fraction is rounded to the rank it belongs to.** -/
theorem rankOfRatio_eq {num den m : Nat} {q : Int} (hden : 0 < den) (hm : 0 < m)
    (hgrid : OnGrid m q) (h : Nearest m q ((num : ℚ) / den)) :
    rankOfRatio num den = gridRank m q := by
  have hden' : (0 : ℚ) < den := by exact_mod_cast hden
  have hnum : 0 < num := by
    have := (div_pos_iff_of_pos_right hden').1 (h.pos hm)
    exact_mod_cast this
  rw [rankOfRatio_eq_round hnum]
  obtain ⟨hleast, hlt, -⟩ := roundingExponent_spec hnum hden
  have hexponent := roundingExponent_of_nearest hnum hden hgrid h
  set e := roundingExponent num den
  obtain ⟨hd, hval⟩ := shiftRatio_div num hden e
  have h2e : (0 : ℚ) < 2 ^ e := by positivity
  obtain heq | ⟨heq, hmeq, hq⟩ := hexponent
  · have hround : roundQuotient (shiftRatio num den e).1 (shiftRatio num den e).2 = m := by
      apply roundQuotient_of_near hd
      · rw [hval, le_div_iff₀ h2e, heq]
        exact h.half_le
      · rw [hval, div_le_iff₀ h2e, heq]
        exact h.high
      · intro hodd
        have htie := h.tie hodd
        rw [hval, lt_div_iff₀ h2e, div_lt_iff₀ h2e, heq]
        refine ⟨?_, htie.2⟩
        rw [if_neg (by omega)] at htie
        exact htie.1
    rw [hround, gridRank, heq]
  · -- rounding up reaches the next exponent
    have hlow := h.low
    have hmeq' : (m : ℚ) = 2 ^ (52 : Int) := by exact_mod_cast hmeq
    have h2 : (2 : ℚ) ^ q = 2 * 2 ^ e := by rw [heq, zpow_add_one₀ (by norm_num)]; ring
    rw [if_pos ⟨hmeq, hq⟩, h2, hmeq'] at hlow
    have hround : roundQuotient (shiftRatio num den e).1 (shiftRatio num den e).2 = 2 ^ 53 := by
      apply roundQuotient_of_near hd
      · rw [hval, le_div_iff₀ h2e]
        norm_num at hlow ⊢
        linarith
      · rw [hval, div_le_iff₀ h2e]
        norm_num at hlt ⊢
        linarith
      · norm_num
    rw [hround, gridRank, hmeq]
    omega

/-! ## Decimals -/

theorem decimalLength_pos (n : Nat) : 0 < decimalLength n := Nat.length_toDigits_pos

theorem lt_ten_pow_decimalLength (n : Nat) : n < 10 ^ decimalLength n :=
  (Nat.length_toDigits_le_iff (by norm_num) (decimalLength_pos n)).1 le_rfl

theorem ten_pow_le_of_decimalLength {n : Nat} (h : 0 < n) : 10 ^ (decimalLength n - 1) ≤ n := by
  by_contra hlt
  have hlt := not_le.1 hlt
  by_cases hone : decimalLength n - 1 = 0
  · rw [hone] at hlt
    omega
  · have hle : decimalLength n ≤ decimalLength n - 1 :=
      (Nat.length_toDigits_le_iff (by norm_num) (by omega)).2 hlt
    omega

theorem decimal_bounds {digits : Nat} (h : 0 < digits) (exponent : Int) :
    (10 : ℚ) ^ ((decimalLength digits : Int) + exponent - 1) ≤ digits * 10 ^ exponent ∧
      (digits : ℚ) * 10 ^ exponent < 10 ^ ((decimalLength digits : Int) + exponent) := by
  have hpos := decimalLength_pos digits
  have hlow : (10 : ℚ) ^ ((decimalLength digits : Int) - 1) ≤ digits := by
    rw [show (decimalLength digits : Int) - 1 = ((decimalLength digits - 1 : Nat) : Int) by omega,
      zpow_natCast]
    exact_mod_cast ten_pow_le_of_decimalLength h
  have hhigh : (digits : ℚ) < 10 ^ (decimalLength digits : Int) := by
    rw [zpow_natCast]
    exact_mod_cast lt_ten_pow_decimalLength digits
  have h10 : (0 : ℚ) < 10 ^ exponent := by positivity
  constructor
  · rw [show (decimalLength digits : Int) + exponent - 1 = decimalLength digits - 1 + exponent by
      ring, zpow_add₀ (by norm_num)]
    exact mul_le_mul_of_nonneg_right hlow h10.le
  · rw [zpow_add₀ (by norm_num)]
    exact mul_lt_mul_of_pos_right hhigh h10

theorem ten_zpow_le_two_zpow : (10 : ℚ) ^ (-324 : Int) ≤ 1 / 2 * 2 ^ (-1074 : Int) := by
  have h : 2 * 2 ^ 1074 ≤ 10 ^ 324 := by decide +kernel
  have h : (2 : ℚ) * 2 ^ 1074 ≤ 10 ^ 324 := by exact_mod_cast h
  rw [zpow_neg, zpow_neg, one_div, ← mul_inv]
  exact inv_anti₀ (by positivity) h

theorem two_zpow_le_ten_zpow : (2 : ℚ) ^ (53 : Int) * 2 ^ (971 : Int) ≤ 10 ^ (309 : Int) := by
  have h : 2 ^ 53 * 2 ^ 971 ≤ 10 ^ 309 := by decide +kernel
  exact_mod_cast h

theorem Nearest.bounds {m : Nat} {q : Int} {x : ℚ} (h : Nearest m q x) (hm : 0 < m)
    (hgrid : OnGrid m q) (hq : q ≤ 971) : (10 : ℚ) ^ (-324 : Int) ≤ x ∧ x < 10 ^ (309 : Int) := by
  have hm1 : (1 : ℚ) ≤ m := by exact_mod_cast hm
  have hm53 : (m : ℚ) + 1 ≤ 2 ^ (53 : Int) := by exact_mod_cast hgrid.lt
  have h2q : (0 : ℚ) < 2 ^ q := by positivity
  have hlow : (2 : ℚ) ^ (-1074 : Int) ≤ 2 ^ q := zpow_le_zpow_right₀ (by norm_num) hgrid.least
  have hhigh : (2 : ℚ) ^ q ≤ 2 ^ (971 : Int) := zpow_le_zpow_right₀ (by norm_num) hq
  constructor
  · calc (10 : ℚ) ^ (-324 : Int) ≤ 1 / 2 * 2 ^ (-1074 : Int) := ten_zpow_le_two_zpow
      _ ≤ (m - 1 / 2) * 2 ^ q := by nlinarith
      _ ≤ x := h.half_le
  · calc x ≤ (m + 1 / 2) * 2 ^ q := h.high
      _ < 2 ^ (53 : Int) * 2 ^ q := mul_lt_mul_of_pos_right (by linarith) h2q
      _ ≤ 2 ^ (53 : Int) * 2 ^ (971 : Int) := mul_le_mul_of_nonneg_left hhigh (by positivity)
      _ ≤ 10 ^ (309 : Int) := two_zpow_le_ten_zpow

/-- **A decimal is rounded to the rank it belongs to.** -/
theorem rankOfDecimal_eq {digits m : Nat} {exponent q : Int} (hm : 0 < m) (hgrid : OnGrid m q)
    (hq : q ≤ 971) (h : Nearest m q (digits * 10 ^ exponent)) :
    rankOfDecimal digits exponent = gridRank m q := by
  have h10 : (0 : ℚ) < 10 ^ exponent := by positivity
  have hdigits : 0 < digits := by
    have := pos_of_mul_pos_left (h.pos hm) h10.le
    exact_mod_cast this
  obtain ⟨hge, hlt⟩ := h.bounds hm hgrid hq
  obtain ⟨hlow, hhigh⟩ := decimal_bounds hdigits exponent
  have hsmall : (decimalLength digits : Int) + exponent - 1 < 309 :=
    (zpow_lt_zpow_iff_right₀ (by norm_num)).1 (lt_of_le_of_lt hlow hlt)
  have hlarge : -324 < (decimalLength digits : Int) + exponent :=
    (zpow_lt_zpow_iff_right₀ (by norm_num)).1 (lt_of_le_of_lt hge hhigh)
  rw [rankOfDecimal]
  simp only [Nat.pow_eq]
  rw [if_neg hdigits.ne', if_neg (by omega), if_neg (by omega)]
  split
  · next hexp =>
    apply rankOfRatio_eq one_pos hm hgrid
    obtain ⟨n, rfl⟩ : ∃ n : Nat, exponent = n := ⟨exponent.natAbs, by omega⟩
    rw [zpow_natCast] at h
    rw [Int.natAbs_natCast]
    push_cast
    rwa [div_one]
  · next hexp =>
    apply rankOfRatio_eq (by positivity) hm hgrid
    obtain ⟨n, rfl⟩ : ∃ n : Nat, exponent = -n := ⟨exponent.natAbs, by omega⟩
    rw [zpow_neg, zpow_natCast, ← div_eq_mul_inv] at h
    rw [Int.natAbs_neg, Int.natAbs_natCast]
    exact_mod_cast h

end BatchRun
