import BatchRun.Proofs.Decimal.Rounding

/-!
# The double that a decimal is read as

Every fraction belongs to the rank it is rounded to, so that the double of this rank is nearest to
it. A decimal is not read at all just if it lies at or above the midpoint between the greatest
double and the power of two that would come next.

* `Rounds`: what is rounded to a multiple of a power of two, `Rounds.nearest`;
* `nearest_rankOfRatio`, `nearest_rankOfDecimal`: what is rounded belongs to the rank it gets;
* `Nearest.abs_sub_le`: **no double is nearer to a number than the one it belongs to**;
* `overflowPoint`, `Nearest.lt_overflowPoint_iff`: where the finite ranks end;
* `Binary64.nearest_of_ofDecimal`, `Binary64.ofDecimal_eq_none_iff`: reading a decimal.
-/

namespace BatchRun

/-! ## Ranks of the grid -/

theorem partsOfRank_gridRank {m : Nat} {q : Int} (h : OnGrid m q) :
    Binary64.partsOfRank (gridRank m q) = (m, q) := by
  have hlt := h.lt
  have hleast := h.least
  have hnormal := h.normal
  rw [gridRank, Binary64.partsOfRank]
  simp only [Nat.pow_eq]
  split <;> refine Prod.ext ?_ ?_ <;> dsimp only <;> omega

theorem le_partsOfRank {rank : Nat} (h : infinityRank ≤ rank) :
    972 ≤ (Binary64.partsOfRank rank).2 := by
  rw [Binary64.partsOfRank]
  simp only [Nat.pow_eq, infinityRank] at h ⊢
  split <;> simp only <;> omega

/-! ## Fractions -/

/-- The quotient lies within half of what it is rounded to, and only at an even integer as far. -/
theorem near_roundQuotient (n : Nat) {d : Nat} (hd : 0 < d) :
    (roundQuotient n d : ℚ) - 1 / 2 ≤ n / d ∧ (n : ℚ) / d ≤ roundQuotient n d + 1 / 2 ∧
      (roundQuotient n d % 2 = 1 →
        (roundQuotient n d : ℚ) - 1 / 2 < n / d ∧ (n : ℚ) / d < roundQuotient n d + 1 / 2) := by
  have hd' : (0 : ℚ) < d := by exact_mod_cast hd
  have hn : (n : ℚ) = d * (n / d : Nat) + (n % d : Nat) := by
    exact_mod_cast (Nat.div_add_mod n d).symm
  have hr : ((n % d : Nat) : ℚ) < d := by exact_mod_cast Nat.mod_lt n hd
  have hr0 : (0 : ℚ) ≤ (n % d : Nat) := Nat.cast_nonneg _
  rw [le_div_iff₀ hd', div_le_iff₀ hd', lt_div_iff₀ hd', div_lt_iff₀ hd', hn, roundQuotient]
  split_ifs with hlow hhigh heven
  · have hlow : 2 * ((n % d : Nat) : ℚ) < d := by exact_mod_cast hlow
    exact ⟨by linarith, by linarith, fun _ => ⟨by linarith, by linarith⟩⟩
  · have hhigh : (d : ℚ) < 2 * ((n % d : Nat) : ℚ) := by exact_mod_cast hhigh
    push_cast
    exact ⟨by linarith, by linarith, fun _ => ⟨by linarith, by linarith⟩⟩
  -- halfway the even neighbour is taken
  · have hhalf : 2 * ((n % d : Nat) : ℚ) = d := by
      exact_mod_cast (show 2 * (n % d) = d by omega)
    exact ⟨by linarith, by linarith, fun hodd => by omega⟩
  · have hhalf : 2 * ((n % d : Nat) : ℚ) = d := by
      exact_mod_cast (show 2 * (n % d) = d by omega)
    push_cast
    exact ⟨by linarith, by linarith, fun hodd => by omega⟩

/-- The number lies within half a power of two of a multiple of it, and only of an even multiple as
far away. -/
structure Rounds (r : Nat) (e : Int) (x : ℚ) : Prop where
  low : (r - 1 / 2) * 2 ^ e ≤ x
  high : x ≤ (r + 1 / 2) * 2 ^ e
  tie : r % 2 = 1 → (r - 1 / 2) * 2 ^ e < x ∧ x < (r + 1 / 2) * 2 ^ e

theorem rounds_shiftRatio (num : Nat) {den : Nat} (hden : 0 < den) (e : Int) :
    Rounds (roundQuotient (shiftRatio num den e).1 (shiftRatio num den e).2) e (num / den) := by
  obtain ⟨hd, hval⟩ := shiftRatio_div num hden e
  obtain ⟨hlow, hhigh, htie⟩ := near_roundQuotient (shiftRatio num den e).1 hd
  have h2e : (0 : ℚ) < 2 ^ e := by positivity
  rw [hval, le_div_iff₀ h2e] at hlow
  rw [hval, div_le_iff₀ h2e] at hhigh
  rw [hval, lt_div_iff₀ h2e, div_lt_iff₀ h2e] at htie
  exact ⟨hlow, hhigh, htie⟩

namespace Rounds

variable {r : Nat} {e : Int} {x : ℚ}

theorem le (h : Rounds r e x) (hlt : x < 2 ^ (53 : Int) * 2 ^ e) : r ≤ 2 ^ 53 := by
  by_contra hgt
  have hcast : (2 : ℚ) ^ (53 : Int) + 1 ≤ r := by
    exact_mod_cast (show 2 ^ 53 + 1 ≤ r by omega)
  have hmul : (r : ℚ) - 1 / 2 < 2 ^ (53 : Int) :=
    lt_of_mul_lt_mul_right (lt_of_le_of_lt h.low hlt) (by positivity)
  linarith

theorem ge (h : Rounds r e x) (hge : 2 ^ (52 : Int) * 2 ^ e ≤ x) : 2 ^ 52 ≤ r := by
  by_contra hless
  have hcast : (r : ℚ) + 1 ≤ 2 ^ (52 : Int) := by
    exact_mod_cast (show r + 1 ≤ 2 ^ 52 by omega)
  have hmul : (2 : ℚ) ^ (52 : Int) ≤ r + 1 / 2 :=
    le_of_mul_le_mul_right (le_trans hge h.high) (by positivity)
  linarith

theorem nearest (h : Rounds r e x) (hnormal : e = -1074 ∨ 2 ^ (52 : Int) * 2 ^ e ≤ x) :
    Nearest r e x where
  low := by
    split_ifs with hpower
    · have hr : (r : ℚ) = 2 ^ (52 : Int) := by exact_mod_cast hpower.1
      have h2e : (0 : ℚ) < 2 ^ e := by positivity
      rw [hr]
      linarith [hnormal.resolve_left hpower.2]
    · exact h.low
  high := h.high
  tie hodd := by
    rw [if_neg (by omega)]
    exact h.tie hodd

theorem nearest_succ (h : Rounds (2 ^ 53) e x) (hleast : -1074 ≤ e)
    (hlt : x < 2 ^ (53 : Int) * 2 ^ e) : Nearest (2 ^ 52) (e + 1) x := by
  have h2 : (2 : ℚ) ^ (e + 1) = 2 * 2 ^ e := by rw [zpow_add_one₀ (by norm_num)]; ring
  have hlow := h.low
  refine ⟨?_, ?_, by norm_num⟩
  · rw [if_pos ⟨rfl, by omega⟩, h2]
    norm_num at hlow ⊢
    linarith
  · rw [h2]
    norm_num at hlt ⊢
    linarith

end Rounds

/-- **A fraction belongs to the rank it is rounded to.** -/
theorem nearest_rankOfRatio {num den : Nat} (hnum : 0 < num) (hden : 0 < den) :
    Nearest (Binary64.partsOfRank (rankOfRatio num den)).1
      (Binary64.partsOfRank (rankOfRatio num den)).2 (num / den) := by
  obtain ⟨hleast, hlt, hnormal⟩ := roundingExponent_spec hnum hden
  have hrounds := rounds_shiftRatio num hden (roundingExponent num den)
  rw [rankOfRatio_eq_round hnum, ← gridRank]
  generalize roundingExponent num den = e at *
  generalize roundQuotient (shiftRatio num den e).1 (shiftRatio num den e).2 = r at *
  obtain hlt53 | rfl := lt_or_eq_of_le (hrounds.le hlt)
  · rw [partsOfRank_gridRank ⟨hlt53, hleast, hnormal.imp_right hrounds.ge⟩]
    exact hrounds.nearest hnormal
  · -- rounding up has reached the next power of two
    have hrank : gridRank (2 ^ 53) e = gridRank (2 ^ 52) (e + 1) := by
      rw [gridRank, gridRank]
      omega
    rw [hrank, partsOfRank_gridRank ⟨by norm_num, by omega, .inr le_rfl⟩]
    exact hrounds.nearest_succ hleast hlt

theorem OnGrid.gap {m m' : Nat} {q q' : Int} (h : OnGrid m q) (h' : OnGrid m' q') :
    (m' : ℚ) * 2 ^ q' = m * 2 ^ q ∨ ((m : ℚ) + 1) * 2 ^ q ≤ m' * 2 ^ q' ∨
      (m' : ℚ) * 2 ^ q' ≤ (m - (if m = 2 ^ 52 ∧ q ≠ -1074 then 1 / 2 else 1)) * 2 ^ q := by
  have h2q : (0 : ℚ) < 2 ^ q := by positivity
  have hm' : (m' : ℚ) + 1 ≤ 2 ^ (53 : Int) := by exact_mod_cast h'.lt
  obtain hlt | rfl | hgt := lt_trichotomy q' q
  · -- the greatest significand with the exponent before
    right; right
    have hq : q ≠ -1074 := by have := h'.least; omega
    have hm52 := h.normal.resolve_left hq
    have hstep : (2 : ℚ) * 2 ^ q' ≤ 2 ^ q := by
      rw [← zpow_one_add₀ (by norm_num)]
      exact zpow_le_zpow_right₀ (by norm_num) (by omega)
    have h2q' : (0 : ℚ) < 2 ^ q' := by positivity
    norm_num at hm'
    split_ifs with hm
    · have hmeq : (m : ℚ) = 2 ^ 52 := by exact_mod_cast hm.1
      rw [hmeq]
      nlinarith
    · have hge : (2 : ℚ) ^ 52 + 1 ≤ m := by
        exact_mod_cast (show 2 ^ 52 + 1 ≤ m by omega)
      nlinarith
  · obtain hlt | rfl | hgt := lt_trichotomy m' m
    · right; right
      have hle : (m' : ℚ) + 1 ≤ m := by exact_mod_cast hlt
      refine mul_le_mul_of_nonneg_right ?_ h2q.le
      split_ifs <;> linarith
    · exact .inl rfl
    · right; left
      exact mul_le_mul_of_nonneg_right (by exact_mod_cast hgt) h2q.le
  · right; left
    have hm'52 := h'.normal.resolve_left (by have := h.least; omega)
    have hge : (2 : ℚ) ^ (52 : Int) ≤ m' := by exact_mod_cast hm'52
    have hm : (m : ℚ) + 1 ≤ 2 ^ (53 : Int) := by exact_mod_cast h.lt
    calc ((m : ℚ) + 1) * 2 ^ q ≤ 2 ^ (53 : Int) * 2 ^ q := mul_le_mul_of_nonneg_right hm h2q.le
      _ ≤ 2 ^ (52 : Int) * 2 ^ q' := zpow_mul_zpow_le (by omega)
      _ ≤ m' * 2 ^ q' := mul_le_mul_of_nonneg_right hge (by positivity)

/-- **No double is nearer to a number than the one it belongs to.** -/
theorem Nearest.abs_sub_le {m m' : Nat} {q q' : Int} {x : ℚ} (h : Nearest m q x)
    (hgrid : OnGrid m q) (hgrid' : OnGrid m' q') : |m * 2 ^ q - x| ≤ |m' * 2 ^ q' - x| := by
  have h2q : (0 : ℚ) < 2 ^ q := by positivity
  have hlow := h.low
  have hhigh := h.high
  obtain heq | hge | hle := hgrid.gap hgrid'
  · rw [heq]
  · refine le_trans ?_ (le_abs_self _)
    rw [abs_le]
    split_ifs at hlow <;> constructor <;> linarith
  · refine le_trans ?_ (neg_le_abs _)
    rw [abs_le]
    split_ifs at hlow hle <;> constructor <;> linarith

/-! ## Decimals -/

theorem nearest_zero {x : ℚ} (hx : 0 ≤ x) (hsmall : x ≤ 10 ^ (-324 : Int)) :
    Nearest (Binary64.partsOfRank 0).1 (Binary64.partsOfRank 0).2 x := by
  have hparts : Binary64.partsOfRank 0 = (0, -1074) := rfl
  have h2 : (0 : ℚ) < 2 ^ (-1074 : Int) := by positivity
  rw [hparts]
  refine ⟨?_, ?_, by norm_num⟩
  · rw [if_neg (by norm_num), Nat.cast_zero]
    linarith
  · rw [Nat.cast_zero, zero_add]
    exact le_trans hsmall ten_zpow_le_two_zpow

/-- **A decimal belongs to the rank it is rounded to**, unless it is far above all doubles. -/
theorem nearest_rankOfDecimal {digits : Nat} {exponent : Int}
    (hsize : digits ≠ 0 → (decimalLength digits : Int) + exponent ≤ 310) :
    Nearest (Binary64.partsOfRank (rankOfDecimal digits exponent)).1
      (Binary64.partsOfRank (rankOfDecimal digits exponent)).2 (digits * 10 ^ exponent) := by
  have h10 : (0 : ℚ) < 10 ^ exponent := by positivity
  rw [rankOfDecimal]
  simp only [Nat.pow_eq]
  by_cases hzero : digits = 0
  · rw [if_pos hzero, hzero, Nat.cast_zero, zero_mul]
    exact nearest_zero le_rfl (by positivity)
  have hdigits : 0 < digits := Nat.pos_of_ne_zero hzero
  rw [if_neg hzero, if_neg (not_lt.2 (hsize hzero))]
  split_ifs with hsmall hexp
  · have hhigh := (decimal_bounds hdigits exponent).2
    refine nearest_zero (by positivity) (le_trans hhigh.le ?_)
    exact zpow_le_zpow_right₀ (by norm_num) (by omega)
  · have h := nearest_rankOfRatio (Nat.mul_pos hdigits (Nat.pow_pos (n := exponent.natAbs)
      (show 0 < 10 by norm_num))) one_pos
    obtain ⟨n, rfl⟩ : ∃ n : Nat, exponent = n := ⟨exponent.natAbs, by omega⟩
    rw [zpow_natCast]
    push_cast at h
    rwa [div_one] at h
  · have h := nearest_rankOfRatio hdigits (Nat.pow_pos (n := exponent.natAbs)
      (show 0 < 10 by norm_num))
    obtain ⟨n, rfl⟩ : ∃ n : Nat, exponent = -n := ⟨exponent.natAbs, by omega⟩
    rw [Int.natAbs_neg, Int.natAbs_natCast] at h ⊢
    rw [zpow_neg, zpow_natCast, ← div_eq_mul_inv]
    exact_mod_cast h

/-- The midpoint between the greatest double and the power of two that comes next. -/
def overflowPoint : ℚ := (2 ^ 53 - 1 / 2) * 2 ^ (971 : Int)

theorem Nearest.lt_overflowPoint {m : Nat} {q : Int} {x : ℚ} (h : Nearest m q x)
    (hgrid : OnGrid m q) (hq : q ≤ 971) : x < overflowPoint := by
  have h2q : (0 : ℚ) < 2 ^ q := by positivity
  have hstep : (2 ^ 53 - 1 / 2 : ℚ) * 2 ^ q ≤ overflowPoint :=
    mul_le_mul_of_nonneg_left (zpow_le_zpow_right₀ (by norm_num) hq) (by norm_num)
  refine lt_of_lt_of_le ?_ hstep
  obtain hless | hlast := Nat.lt_or_ge m (2 ^ 53 - 1)
  · have hm : (m : ℚ) + 2 ≤ 2 ^ 53 := by
      exact_mod_cast (show m + 2 ≤ 2 ^ 53 by omega)
    exact lt_of_le_of_lt h.high (mul_lt_mul_of_pos_right (by linarith) h2q)
  · -- the greatest significand is odd, so that the midpoint itself does not belong to it
    have hm : m = 2 ^ 53 - 1 := by have := hgrid.lt; omega
    have hcast : (m : ℚ) + 1 / 2 = 2 ^ 53 - 1 / 2 := by rw [hm]; norm_num
    rw [← hcast]
    exact (h.tie (by omega)).2

theorem Nearest.overflowPoint_le {m : Nat} {q : Int} {x : ℚ} (h : Nearest m q x)
    (hgrid : OnGrid m q) (hq : 972 ≤ q) : overflowPoint ≤ x := by
  have hm52 := hgrid.normal.resolve_left (by omega)
  have hstep : (2 : ℚ) * 2 ^ (971 : Int) ≤ 2 ^ q := by
    rw [← zpow_one_add₀ (by norm_num)]
    exact zpow_le_zpow_right₀ (by norm_num) (by omega)
  have hge : (2 : ℚ) ^ 52 - 1 / 4 ≤ m - (if m = 2 ^ 52 ∧ q ≠ -1074 then 1 / 4 else 1 / 2) := by
    split_ifs with hm
    · have hcast : (m : ℚ) = 2 ^ 52 := by exact_mod_cast hm.1
      linarith
    · have hcast : (2 : ℚ) ^ 52 + 1 ≤ m := by
        exact_mod_cast (show 2 ^ 52 + 1 ≤ m by omega)
      linarith
  calc overflowPoint = (2 ^ 52 - 1 / 4) * (2 * 2 ^ (971 : Int)) := by rw [overflowPoint]; ring
    _ ≤ (2 ^ 52 - 1 / 4) * 2 ^ q := mul_le_mul_of_nonneg_left hstep (by norm_num)
    _ ≤ (m - (if m = 2 ^ 52 ∧ q ≠ -1074 then 1 / 4 else 1 / 2)) * 2 ^ q :=
        mul_le_mul_of_nonneg_right hge (by positivity)
    _ ≤ x := h.low

theorem Nearest.lt_overflowPoint_iff {rank : Nat} {x : ℚ}
    (h : Nearest (Binary64.partsOfRank rank).1 (Binary64.partsOfRank rank).2 x) :
    x < overflowPoint ↔ rank < infinityRank := by
  constructor
  · intro hx
    by_contra hrank
    have hle := h.overflowPoint_le (onGrid_partsOfRank rank) (le_partsOfRank (not_lt.1 hrank))
    exact absurd hx (not_lt.2 hle)
  · exact fun hrank => h.lt_overflowPoint (onGrid_partsOfRank rank) (partsOfRank_le hrank)

theorem rankOfDecimal_lt_iff (digits : Nat) (exponent : Int) :
    rankOfDecimal digits exponent < infinityRank ↔ digits * 10 ^ exponent < overflowPoint := by
  by_cases hsize : digits ≠ 0 → (decimalLength digits : Int) + exponent ≤ 310
  · exact (nearest_rankOfDecimal hsize).lt_overflowPoint_iff.symm
  obtain ⟨hzero, hsize⟩ := Classical.not_imp.1 hsize
  rw [rankOfDecimal, if_neg hzero, if_pos (not_le.1 hsize)]
  refine iff_of_false (lt_irrefl _) (not_lt.2 ?_)
  calc overflowPoint ≤ 2 ^ (53 : Int) * 2 ^ (971 : Int) :=
        mul_le_mul_of_nonneg_right (by norm_num) (by positivity)
    _ ≤ 10 ^ (309 : Int) := two_zpow_le_ten_zpow
    _ ≤ 10 ^ ((decimalLength digits : Int) + exponent - 1) :=
        zpow_le_zpow_right₀ (by norm_num) (by omega)
    _ ≤ digits * 10 ^ exponent := (decimal_bounds (Nat.pos_of_ne_zero hzero) exponent).1

namespace Binary64

variable {negative : Bool} {digits : Nat} {exponent : Int} {x : Binary64}

/-- **A decimal is read as the double it belongs to**, of its own sign. -/
theorem nearest_of_ofDecimal (h : ofDecimal? negative digits exponent = some x) :
    x.negative = negative ∧ Nearest x.parts.1 x.parts.2 (digits * 10 ^ exponent) := by
  rw [ofDecimal?] at h
  split_ifs at h with hfinite
  cases h
  refine ⟨rfl, nearest_rankOfDecimal fun hzero => ?_⟩
  by_contra hsize
  rw [rankOfDecimal, if_neg hzero, if_pos (not_le.1 hsize)] at hfinite
  exact lt_irrefl _ hfinite

/-- **A decimal is not read as a double just if it is too great.** -/
theorem ofDecimal_eq_none_iff :
    ofDecimal? negative digits exponent = none ↔ overflowPoint ≤ digits * 10 ^ exponent := by
  rw [← not_lt, ← rankOfDecimal_lt_iff, ofDecimal?]
  split_ifs with hfinite
  · exact iff_of_false nofun (not_not_intro hfinite)
  · exact iff_of_true rfl hfinite

end Binary64

end BatchRun
