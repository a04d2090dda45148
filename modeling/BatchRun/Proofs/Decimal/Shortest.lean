import BatchRun.Proofs.Decimal.Rounding

/-!
# The shortest decimal belongs to its double

A candidate is accepted if it lies in the interval of the double, and `17` digits are always
enough: the grid of that many digits is finer than the interval is wide.

* `Ratio.value`: the rational number of a fraction;
* `reads_iff`: the test for the interval;
* `exists_onGrid`: a grid of `17` digits has a hit;
* **`nearest_shortestOfRank`**: the digits found belong to the double.
-/

namespace BatchRun

/-! ## Fractions -/

namespace Ratio

/-- The number that a fraction stands for. -/
def value (x : Ratio) : ℚ := x.num / x.den

theorem ofBinary_den_pos (m : Nat) (q : Int) : 0 < (ofBinary m q).den := by
  rw [ofBinary]
  split <;> simp

theorem ofBinary_value (m : Nat) (q : Int) : (ofBinary m q).value = m * 2 ^ q := by
  rw [ofBinary]
  simp only [Nat.pow_eq]
  split
  · obtain ⟨n, rfl⟩ : ∃ n : Nat, q = -n := ⟨q.natAbs, by omega⟩
    rw [value, Int.natAbs_neg, Int.natAbs_natCast, zpow_neg, zpow_natCast, ← div_eq_mul_inv]
    push_cast
    rfl
  · obtain ⟨n, rfl⟩ : ∃ n : Nat, q = n := ⟨q.natAbs, by omega⟩
    rw [value, Int.natAbs_natCast, zpow_natCast]
    push_cast
    rw [div_one]

theorem ofDecimal_den_pos (m : Nat) (k : Int) : 0 < (ofDecimal m k).den := by
  rw [ofDecimal]
  split <;> simp

theorem ofDecimal_value (m : Nat) (k : Int) : (ofDecimal m k).value = m * 10 ^ k := by
  rw [ofDecimal]
  simp only [Nat.pow_eq]
  split
  · obtain ⟨n, rfl⟩ : ∃ n : Nat, k = -n := ⟨k.natAbs, by omega⟩
    rw [value, Int.natAbs_neg, Int.natAbs_natCast, zpow_neg, zpow_natCast, ← div_eq_mul_inv]
    push_cast
    rfl
  · obtain ⟨n, rfl⟩ : ∃ n : Nat, k = n := ⟨k.natAbs, by omega⟩
    rw [value, Int.natAbs_natCast, zpow_natCast]
    push_cast
    rw [div_one]

variable {x y : Ratio}

theorem le_iff (hx : 0 < x.den) (hy : 0 < y.den) : x.le y = true ↔ x.value ≤ y.value := by
  have hx : (0 : ℚ) < x.den := by exact_mod_cast hx
  have hy : (0 : ℚ) < y.den := by exact_mod_cast hy
  rw [le, decide_eq_true_eq, value, value, div_le_div_iff₀ hx hy]
  exact_mod_cast Iff.rfl

theorem lt_iff (hx : 0 < x.den) (hy : 0 < y.den) : x.lt y = true ↔ x.value < y.value := by
  have hx : (0 : ℚ) < x.den := by exact_mod_cast hx
  have hy : (0 : ℚ) < y.den := by exact_mod_cast hy
  rw [lt, decide_eq_true_eq, value, value, div_lt_div_iff₀ hx hy]
  exact_mod_cast Iff.rfl

theorem ten_zpow_decimalLength_le (hx : 0 < x.den) {e : Nat} {places : Int}
    (hplaces : places = e + 1) (h : (10 : ℚ) ^ (-(e : Int)) ≤ x.value) :
    (10 : ℚ) ^ ((decimalLength (x.num * Nat.pow 10 e / x.den) : Int) - places) ≤ x.value := by
  have hx' : (0 : ℚ) < x.den := by exact_mod_cast hx
  rw [Nat.pow_eq, hplaces]
  set n := x.num * 10 ^ e / x.den
  have hpos : 0 < n := by
    rw [value, zpow_neg, le_div_iff₀ hx', inv_mul_le_iff₀ (by positivity)] at h
    apply Nat.div_pos _ hx
    rw [mul_comm]
    exact_mod_cast h
  have hlow : (10 : ℚ) ^ ((decimalLength n : Int) - 1) ≤ n := by
    have := decimalLength_pos n
    rw [show (decimalLength n : Int) - 1 = ((decimalLength n - 1 : Nat) : Int) by omega,
      zpow_natCast]
    exact_mod_cast ten_pow_le_of_decimalLength hpos
  have hfloor : (n : ℚ) ≤ x.num * 10 ^ e / x.den := by
    rw [le_div_iff₀ hx']
    exact_mod_cast Nat.div_mul_le_self _ _
  calc (10 : ℚ) ^ ((decimalLength n : Int) - (e + 1))
      = 10 ^ ((decimalLength n : Int) - 1) / 10 ^ e := by
        rw [show (decimalLength n : Int) - (e + 1) = decimalLength n - 1 - e by ring,
          zpow_sub₀ (by norm_num), zpow_natCast]
    _ ≤ n / 10 ^ e := by gcongr
    _ ≤ x.num * 10 ^ e / x.den / 10 ^ e := by gcongr
    _ = x.value := by rw [value]; field_simp

theorem ten_zpow_decimalExponent_le (hx : 0 < x.den) (h : (10 : ℚ) ^ (-330 : Int) ≤ x.value) :
    (10 : ℚ) ^ x.decimalExponent ≤ x.value := by
  rw [decimalExponent]
  apply ten_zpow_decimalLength_le hx (by norm_num)
  exact h

end Ratio

namespace Binary64

variable {rank : Nat}

/-! ## The test for the interval -/

/-- The ends of the interval of a rank are those of the numbers that belong to it. -/
theorem interval_value (h : 0 < rank) :
    (interval rank).1.value = ((partsOfRank rank).1 -
      (if (partsOfRank rank).1 = 2 ^ 52 ∧ (partsOfRank rank).2 ≠ -1074 then 1 / 4 else 1 / 2)) *
        2 ^ (partsOfRank rank).2 ∧
    (interval rank).2.1.value = ((partsOfRank rank).1 + 1 / 2) * 2 ^ (partsOfRank rank).2 := by
  have hm := partsOfRank_pos h
  simp only [interval, Nat.pow_eq]
  generalize (partsOfRank rank).1 = m at hm
  generalize (partsOfRank rank).2 = q
  constructor
  · split
    · rw [Ratio.ofBinary_value, zpow_sub₀ (by norm_num), Nat.cast_sub (by omega)]
      push_cast
      ring
    · rw [Ratio.ofBinary_value, zpow_sub₀ (by norm_num), Nat.cast_sub (by omega)]
      push_cast
      ring
  · rw [Ratio.ofBinary_value, zpow_sub₀ (by norm_num)]
    push_cast
    ring

theorem interval_den_pos (rank : Nat) :
    0 < (interval rank).1.den ∧ 0 < (interval rank).2.1.den := by
  rw [interval]
  refine ⟨?_, Ratio.ofBinary_den_pos _ _⟩
  simp only
  split <;> exact Ratio.ofBinary_den_pos _ _

theorem reads_iff (h : 0 < rank) {x : Ratio} (hx : 0 < x.den) :
    reads rank x = true ↔ Nearest (partsOfRank rank).1 (partsOfRank rank).2 x.value := by
  obtain ⟨hlow, hhigh⟩ := interval_value h
  obtain ⟨hd, hd'⟩ := interval_den_pos rank
  have hclosed : (interval rank).2.2 = ((partsOfRank rank).1 % 2 == 0) := rfl
  rw [reads]
  simp only [hclosed, beq_iff_eq]
  split
  · next heven =>
    rw [Bool.and_eq_true, Ratio.le_iff hd hx, Ratio.le_iff hx hd', hlow, hhigh]
    exact ⟨fun h => ⟨h.1, h.2, fun hodd => by omega⟩, fun h => ⟨h.low, h.high⟩⟩
  · next hodd =>
    rw [Bool.and_eq_true, Ratio.lt_iff hd hx, Ratio.lt_iff hx hd', hlow, hhigh]
    exact ⟨fun h => ⟨h.1.le, h.2.le, fun _ => h⟩, fun h => h.tie (by omega)⟩

/-! ## Hits on a grid -/

theorem reads_of_onGrid {k : Int} {d : Nat} (h : onGrid rank k = some d) :
    reads rank (Ratio.ofDecimal d k) = true := by
  rw [onGrid] at h
  simp only at h
  split at h
  · cases h
  · next hlow _ =>
    cases h
    exact (Bool.and_eq_true_iff.1 hlow).1
  · next hhigh =>
    cases h
    exact hhigh
  · next hlow hhigh =>
    have hlow := (Bool.and_eq_true_iff.1 hlow).1
    split at h
    · cases h; exact hlow
    · split at h
      · cases h; exact hhigh
      · split at h <;> cases h
        · exact hlow
        · exact hhigh

/-- The grid point at or below the value of a rank. -/
def gridBelow (rank : Nat) (k : Int) : Nat :=
  let value := Ratio.ofBinary (partsOfRank rank).1 (partsOfRank rank).2
  let unit := Ratio.ofDecimal 1 k
  value.num * unit.den / (value.den * unit.num)

theorem onGrid_ne_none {k : Int} (h : (reads rank (Ratio.ofDecimal (gridBelow rank k) k) = true ∧
    gridBelow rank k ≠ 0) ∨ reads rank (Ratio.ofDecimal (gridBelow rank k + 1) k) = true) :
    onGrid rank k ≠ none := by
  intro hnone
  rw [onGrid] at hnone
  simp only at hnone
  split at hnone
  · next hlow hhigh =>
    obtain ⟨hread, hne⟩ | hread := h
    · have hlow := Bool.and_eq_false_iff.1 hlow
      rw [gridBelow] at hread hne
      simp [hread, hne] at hlow
    · rw [gridBelow] at hread
      rw [hread] at hhigh
      cases hhigh
  · cases hnone
  · cases hnone
  · split at hnone
    · cases hnone
    · split at hnone
      · cases hnone
      · split at hnone <;> cases hnone

theorem gridBelow_bounds (rank : Nat) (k : Int) :
    (gridBelow rank k : ℚ) * 10 ^ k ≤ (partsOfRank rank).1 * 2 ^ (partsOfRank rank).2 ∧
      ((partsOfRank rank).1 : ℚ) * 2 ^ (partsOfRank rank).2 < (gridBelow rank k + 1) * 10 ^ k := by
  set value := Ratio.ofBinary (partsOfRank rank).1 (partsOfRank rank).2 with hvalue
  set unit := Ratio.ofDecimal 1 k with hunit
  have hv : value.value = (partsOfRank rank).1 * 2 ^ (partsOfRank rank).2 :=
    Ratio.ofBinary_value _ _
  have hu : unit.value = 10 ^ k := by rw [hunit, Ratio.ofDecimal_value, Nat.cast_one, one_mul]
  have hvd : (0 : ℚ) < value.den := by exact_mod_cast Ratio.ofBinary_den_pos _ _
  have hud : (0 : ℚ) < unit.den := by exact_mod_cast Ratio.ofDecimal_den_pos _ _
  have hun : (0 : ℚ) < unit.num := by
    have h10 : (0 : ℚ) < unit.value := by rw [hu]; positivity
    exact (div_pos_iff_of_pos_right hud).1 h10
  have hden : 0 < value.den * unit.num := by exact_mod_cast mul_pos hvd hun
  have hbelow : gridBelow rank k = value.num * unit.den / (value.den * unit.num) := rfl
  rw [← hv, ← hu, Ratio.value, Ratio.value, mul_div_assoc', mul_div_assoc']
  rw [div_le_div_iff₀ hud hvd, div_lt_div_iff₀ hvd hud]
  have hle := Nat.div_mul_le_self (value.num * unit.den) (value.den * unit.num)
  have hlt := Nat.lt_div_mul_add (a := value.num * unit.den) hden
  rw [← hbelow] at hle hlt
  have hle' : (gridBelow rank k : ℚ) * (value.den * unit.num) ≤ value.num * unit.den := by
    exact_mod_cast hle
  have hlt' : (value.num : ℚ) * unit.den <
      gridBelow rank k * (value.den * unit.num) + value.den * unit.num := by
    exact_mod_cast hlt
  constructor <;> linarith

/-- **With `17` digits there is a hit.** -/
theorem exists_onGrid (h : 0 < rank) {p : Int}
    (hp : (10 : ℚ) ^ p ≤ (partsOfRank rank).1 * 2 ^ (partsOfRank rank).2) :
    onGrid rank (p - 16) ≠ none := by
  obtain ⟨hlow, hhigh⟩ := gridBelow_bounds rank (p - 16)
  have hm53 : ((partsOfRank rank).1 : ℚ) ≤ 9007199254740992 := by
    exact_mod_cast (onGrid_partsOfRank rank).lt.le
  apply onGrid_ne_none
  rw [reads_iff h (Ratio.ofDecimal_den_pos _ _), reads_iff h (Ratio.ofDecimal_den_pos _ _),
    Ratio.ofDecimal_value, Ratio.ofDecimal_value]
  have hm := partsOfRank_pos h
  have hunit : (10 : ℚ) ^ (16 : Nat) * 10 ^ (p - 16) = 10 ^ p := by
    rw [← zpow_natCast, ← zpow_add₀ (by norm_num)]
    congr 1
    push_cast
    ring
  generalize (partsOfRank rank).1 = m at *
  generalize (partsOfRank rank).2 = q at *
  generalize gridBelow rank (p - 16) = b at *
  have hm1 : (1 : ℚ) ≤ m := by exact_mod_cast hm
  have h2q : (0 : ℚ) < 2 ^ q := by positivity
  have h10 : (0 : ℚ) < 10 ^ (p - 16) := by positivity
  have hb : b ≠ 0 := by
    rintro rfl
    norm_num at hhigh hunit
    linarith
  push_cast
  -- the interval is wider than the grid, so that not both neighbours lie outside
  by_cases hin : ((m : ℚ) - (if m = 2 ^ 52 ∧ q ≠ -1074 then 1 / 4 else 1 / 2)) * 2 ^ q
      < b * 10 ^ (p - 16)
  · left
    have hlt : (b : ℚ) * 10 ^ (p - 16) < (m + 1 / 2) * 2 ^ q := by linarith
    exact ⟨⟨hin.le, hlt.le, fun _ => ⟨hin, hlt⟩⟩, hb⟩
  · right
    have hout := not_lt.1 hin
    have hlt : ((b : ℚ) + 1) * 10 ^ (p - 16) < (m + 1 / 2) * 2 ^ q := by
      split at hout
      · next hm52 =>
        have hm52 : (m : ℚ) = 2 ^ 52 := by exact_mod_cast hm52.1
        rw [hm52] at hout hp ⊢
        norm_num at hout hp hunit ⊢
        linarith
      · have hmul := mul_le_mul_of_nonneg_right hm53 h2q.le
        norm_num at hunit
        linarith
    have hge : ((m : ℚ) - (if m = 2 ^ 52 ∧ q ≠ -1074 then 1 / 4 else 1 / 2)) * 2 ^ q
        < (b + 1) * 10 ^ (p - 16) := by
      refine lt_of_le_of_lt ?_ hhigh
      split <;> linarith
    exact ⟨hge.le, hlt.le, fun _ => ⟨hge, hlt⟩⟩

/-- **The digits found for a rank belong to it.** -/
theorem nearest_shortestOfRank (h : 0 < rank) :
    Nearest (partsOfRank rank).1 (partsOfRank rank).2
      ((shortestOfRank rank).1 * 10 ^ (shortestOfRank rank).2) := by
  have hgrid := onGrid_partsOfRank rank
  have hm1 : (1 : ℚ) ≤ (partsOfRank rank).1 := by exact_mod_cast partsOfRank_pos h
  set value := Ratio.ofBinary (partsOfRank rank).1 (partsOfRank rank).2 with hvalue
  have hv : value.value = (partsOfRank rank).1 * 2 ^ (partsOfRank rank).2 :=
    Ratio.ofBinary_value _ _
  have hlow : (10 : ℚ) ^ (-330 : Int) ≤ value.value := by
    have h2q : (2 : ℚ) ^ (-1074 : Int) ≤ 2 ^ (partsOfRank rank).2 :=
      zpow_le_zpow_right₀ (by norm_num) hgrid.least
    have h10 : (10 : ℚ) ^ (-330 : Int) ≤ 10 ^ (-324 : Int) :=
      zpow_le_zpow_right₀ (by norm_num) (by norm_num)
    have hpos : (0 : ℚ) < 2 ^ (-1074 : Int) := by positivity
    rw [hv]
    nlinarith [ten_zpow_le_two_zpow]
  have hp : (10 : ℚ) ^ value.decimalExponent ≤ value.value :=
    Ratio.ten_zpow_decimalExponent_le (Ratio.ofBinary_den_pos _ _) hlow
  have hfound : shortestOfRank rank = ((List.range 17).findSome? fun (i : Nat) =>
      (onGrid rank (value.decimalExponent - (i : Int))).map
        fun d => (d, value.decimalExponent - (i : Int))).getD (0, 0) := rfl
  cases hhit : (List.range 17).findSome? fun (i : Nat) =>
      (onGrid rank (value.decimalExponent - (i : Int))).map
        fun d => (d, value.decimalExponent - (i : Int)) with
  | none =>
    have hlast := List.findSome?_eq_none_iff.1 hhit 16 (by simp)
    exact absurd (Option.map_eq_none_iff.1 hlast) (exists_onGrid h (hv ▸ hp))
  | some hit =>
    obtain ⟨i, _, hi⟩ := List.exists_of_findSome?_eq_some hhit
    obtain ⟨d, hd, rfl⟩ := Option.map_eq_some_iff.1 hi
    have hread := (reads_iff h (Ratio.ofDecimal_den_pos _ _)).1 (reads_of_onGrid hd)
    rw [hfound, hhit]
    rwa [Ratio.ofDecimal_value] at hread

end Binary64

end BatchRun
