import Mathlib.Tactic.Linarith
import TvEvents.Python.Float

namespace TvEvents

theorem roundHalfEven_intCast (n : ℤ) : roundHalfEven n = n := by
  have hge : n ≤ roundHalfEven n := roundHalfEven_ge le_rfl
  have hle : roundHalfEven n ≤ n := roundHalfEven_le le_rfl
  omega

/-- Ties go to the even neighbour on both sides of zero. -/
theorem roundHalfEven_neg (q : ℚ) : roundHalfEven (-q) = -roundHalfEven q := by
  by_cases hint : (⌊q⌋ : ℚ) = q
  · rw [← hint, ← Int.cast_neg, roundHalfEven_intCast, roundHalfEven_intCast]
  · have hlt : (⌊q⌋ : ℚ) < q := lt_of_le_of_ne (Int.floor_le q) hint
    have hneg : ⌊-q⌋ = -⌊q⌋ - 1 := by
      rw [Int.floor_eq_iff]
      push_cast
      constructor
      · linarith [Int.lt_floor_add_one q]
      · linarith
    have hpart : -q - ((-⌊q⌋ - 1 : ℤ) : ℚ) = 1 - (q - ⌊q⌋) := by
      push_cast
      ring
    simp only [roundHalfEven, hneg, hpart]
    split_ifs <;> first | omega | (exfalso; linarith)

theorem roundHalfEven_mono {q r : ℚ} (h : q ≤ r) : roundHalfEven q ≤ roundHalfEven r := by
  have hfloor : ⌊q⌋ ≤ ⌊r⌋ := Int.floor_le_floor h
  rcases hfloor.lt_or_eq with hlt | heq
  · have hr : ⌊r⌋ ≤ roundHalfEven r := roundHalfEven_ge (Int.floor_le r)
    rcases roundHalfEven_floor q with hq | hq <;> omega
  · unfold roundHalfEven
    simp only [heq]
    split_ifs <;> first | omega | (exfalso; linarith)

theorem roundHalfEven_le_add (q : ℚ) : (roundHalfEven q : ℚ) ≤ q + 1 / 2 := by
  have hfloor := Int.floor_le q
  unfold roundHalfEven
  simp only
  split_ifs <;> push_cast <;> linarith

namespace PyFloat

/-- The exponent of the grid on which `q` is rounded. -/
def gridExp (q : ℚ) : ℤ := max (Int.log 2 |q| - 52) (-1074)

/-- `q` rounded to its grid, before a magnitude is refused. -/
def gridRound (q : ℚ) : ℚ := (roundHalfEven (q / 2 ^ gridExp q) : ℚ) * 2 ^ gridExp q

@[simp] theorem gridRound_zero : gridRound 0 = 0 := by
  have hround : roundHalfEven 0 = 0 := by exact_mod_cast roundHalfEven_intCast 0
  rw [gridRound, zero_div, hround]
  simp

theorem gridRound_neg (q : ℚ) : gridRound (-q) = -gridRound q := by
  have hexp : gridExp (-q) = gridExp q := by rw [gridExp, abs_neg, gridExp]
  rw [gridRound, hexp, neg_div, roundHalfEven_neg, Int.cast_neg, neg_mul, gridRound]

theorem ofRat_cases (q : ℚ) :
    (2 ^ 1024 ≤ |gridRound q| ∧ ∃ neg, ofRat q = .inf neg) ∨
      (|gridRound q| < 2 ^ 1024 ∧ (ofRat q).toRat? = some (gridRound q)) := by
  by_cases hq : q = 0
  · right
    simp [hq, ofRat, toRat?]
  · have hgrid : (roundHalfEven (q / 2 ^ gridExp q) : ℚ) * 2 ^ gridExp q = gridRound q := rfl
    have hunfold : ofRat q = if gridRound q = 0 then (if q < 0 then .negZero else .fin 0)
        else if 2 ^ 1024 ≤ |gridRound q| then .inf (decide (q < 0)) else .fin (gridRound q) := by
      rw [ofRat, if_neg hq]
      rfl
    rw [hunfold]
    split_ifs with hzero hneg hbig
    · right
      simp [hzero, toRat?]
    · right
      simp [hzero, toRat?]
    · left
      exact ⟨hbig, _, rfl⟩
    · right
      exact ⟨lt_of_not_ge hbig, rfl⟩

theorem two_zpow_pos (k : ℤ) : (0 : ℚ) < 2 ^ k := zpow_pos (by norm_num) k

private theorem grid_multiple {m k e : ℤ} (h : e ≤ k) :
    ((m * 2 ^ (k - e).toNat : ℤ) : ℚ) = (m : ℚ) * 2 ^ k / 2 ^ e := by
  have hnat : ((k - e).toNat : ℤ) = k - e := Int.toNat_of_nonneg (by omega)
  have hpow : ((2 : ℚ) ^ (k - e).toNat) = 2 ^ k / 2 ^ e := by
    rw [← zpow_natCast, hnat, zpow_sub₀ two_ne_zero]
  push_cast
  rw [hpow, mul_div_assoc]

/-- A multiple of the grid that is at most `q` stays at most the rounded `q`. -/
private theorem multiple_le_gridRound {m k : ℤ} {q : ℚ} (he : gridExp q ≤ k)
    (h : (m : ℚ) * 2 ^ k ≤ q) : (m : ℚ) * 2 ^ k ≤ gridRound q := by
  have hdiv : ((m * 2 ^ (k - gridExp q).toNat : ℤ) : ℚ) ≤ q / 2 ^ gridExp q := by
    rw [grid_multiple he]
    exact div_le_div_of_nonneg_right h (two_zpow_pos _).le
  have hround := roundHalfEven_ge hdiv
  have hcast : (m : ℚ) * 2 ^ k / 2 ^ gridExp q ≤ roundHalfEven (q / 2 ^ gridExp q) := by
    rw [← grid_multiple he]
    exact_mod_cast hround
  rw [div_le_iff₀ (two_zpow_pos _)] at hcast
  exact hcast

/-- The grid of a number below `2 ^ (53 + k)` is at least as fine as `2 ^ k`. -/
theorem gridExp_le {q : ℚ} {k : ℤ} (hq : q ≠ 0) (hk : -1074 ≤ k)
    (h : |q| < 2 ^ (53 + k)) : gridExp q ≤ k := by
  have hpos : 0 < |q| := abs_pos.mpr hq
  have hlog : Int.log 2 |q| < 53 + k := by
    apply (Int.lt_zpow_iff_log_lt (by norm_num) hpos).mp
    exact_mod_cast h
  exact max_le (by omega) hk

/-- A number of at least `2 ^ j` has a grid no coarser than its leading power of two. -/
private theorem leading_power {q : ℚ} {j : ℤ} (hj : -1022 ≤ j) (h : (2 : ℚ) ^ j ≤ |q|) :
    j ≤ Int.log 2 |q| ∧ gridExp q ≤ Int.log 2 |q| ∧ (2 : ℚ) ^ Int.log 2 |q| ≤ |q| := by
  have hpos : 0 < |q| := lt_of_lt_of_le (two_zpow_pos j) h
  have hlog : j ≤ Int.log 2 |q| := by
    apply (Int.zpow_le_iff_le_log (by norm_num) hpos).mp
    exact_mod_cast h
  refine ⟨hlog, max_le (by omega) (by omega), ?_⟩
  exact_mod_cast Int.zpow_log_le_self (b := 2) (by norm_num) hpos

private theorem mantissa_bound {m k : ℤ} (hm : |m| < 2 ^ 53) :
    |(m : ℚ) * 2 ^ k| < 2 ^ (53 + k) := by
  have hcast : |(m : ℚ)| < 2 ^ (53 : ℤ) := by exact_mod_cast hm
  rw [abs_mul, abs_of_pos (two_zpow_pos k), zpow_add₀ two_ne_zero]
  exact mul_lt_mul_of_pos_right hcast (two_zpow_pos k)

/-- Rounding is monotone at every value of 53 bits, from below. -/
theorem le_gridRound {m k : ℤ} (hk : -1074 ≤ k) (hm : |m| < 2 ^ 53) {q : ℚ}
    (h : (m : ℚ) * 2 ^ k ≤ q) : (m : ℚ) * 2 ^ k ≤ gridRound q := by
  by_cases hq : q = 0
  · rw [hq] at h ⊢
    rwa [gridRound_zero]
  have hbound := abs_lt.mp (mantissa_bound (k := k) hm)
  by_cases hsmall : |q| < 2 ^ (53 + k)
  · exact multiple_le_gridRound (gridExp_le hq hk hsmall) h
  · have hlarge : (2 : ℚ) ^ (53 + k) ≤ |q| := not_lt.mp hsmall
    have hpos : 0 < q := by
      by_contra hneg
      rw [abs_of_nonpos (not_lt.mp hneg)] at hlarge
      linarith [hbound.1]
    obtain ⟨hlog, hgrid, hlead⟩ := leading_power (by omega) hlarge
    have hround : ((1 : ℤ) : ℚ) * 2 ^ Int.log 2 |q| ≤ gridRound q := by
      apply multiple_le_gridRound hgrid
      rw [Int.cast_one, one_mul]
      exact hlead.trans (abs_of_pos hpos).le
    have hpower : (2 : ℚ) ^ (53 + k) ≤ 2 ^ Int.log 2 |q| := zpow_le_zpow_right₀ (by norm_num) hlog
    rw [Int.cast_one, one_mul] at hround
    linarith [hbound.2]

/-- Rounding is monotone at every value of 53 bits, from above. -/
theorem gridRound_le {m k : ℤ} (hk : -1074 ≤ k) (hm : |m| < 2 ^ 53) {q : ℚ}
    (h : q ≤ (m : ℚ) * 2 ^ k) : gridRound q ≤ (m : ℚ) * 2 ^ k := by
  have hneg : ((-m : ℤ) : ℚ) * 2 ^ k ≤ -q := by
    push_cast
    linarith
  have hround := le_gridRound hk (by rwa [abs_neg]) hneg
  rw [gridRound_neg] at hround
  push_cast at hround
  linarith

/-- Rounding moves a number by at most half its grid. -/
theorem gridRound_le_add (q : ℚ) : gridRound q ≤ q + 2 ^ gridExp q / 2 := by
  have hpos := two_zpow_pos (gridExp q)
  have hround := roundHalfEven_le_add (q / 2 ^ gridExp q)
  have hscaled := mul_le_mul_of_nonneg_right hround hpos.le
  rw [add_mul, div_mul_cancel₀ q hpos.ne'] at hscaled
  rw [gridRound]
  linarith

theorem gridRound_mono {q r : ℚ} (hq : 0 < q) (h : q ≤ r) : gridRound q ≤ gridRound r := by
  have hr : 0 < r := hq.trans_le h
  have hlog : Int.log 2 |q| ≤ Int.log 2 |r| := by
    rw [abs_of_pos hq, abs_of_pos hr]
    exact Int.log_mono_right hq h
  by_cases hexp : gridExp q = gridExp r
  · have hdiv : q / 2 ^ gridExp r ≤ r / 2 ^ gridExp r :=
      div_le_div_of_nonneg_right h (two_zpow_pos _).le
    have hround : (roundHalfEven (q / 2 ^ gridExp r) : ℚ) ≤ roundHalfEven (r / 2 ^ gridExp r) := by
      exact_mod_cast roundHalfEven_mono hdiv
    rw [gridRound, gridRound, hexp]
    exact mul_le_mul_of_nonneg_right hround (two_zpow_pos _).le
  · -- a power of two lies between them
    have hlt : Int.log 2 |q| + 1 ≤ Int.log 2 |r| ∧ -1074 ≤ Int.log 2 |r| := by
      unfold gridExp at hexp
      omega
    have hbelow : q ≤ ((1 : ℤ) : ℚ) * 2 ^ Int.log 2 |r| := by
      have hnext : |q| < 2 ^ (Int.log 2 |q| + 1) := by
        exact_mod_cast Int.lt_zpow_succ_log_self (b := 2) (by norm_num) |q|
      have hpower : (2 : ℚ) ^ (Int.log 2 |q| + 1) ≤ 2 ^ Int.log 2 |r| :=
        zpow_le_zpow_right₀ (by norm_num) hlt.1
      rw [Int.cast_one, one_mul]
      linarith [le_abs_self q]
    have habove : ((1 : ℤ) : ℚ) * 2 ^ Int.log 2 |r| ≤ r := by
      have hlead : (2 : ℚ) ^ Int.log 2 |r| ≤ |r| := by
        exact_mod_cast Int.zpow_log_le_self (b := 2) (by norm_num) (abs_pos.mpr hr.ne')
      rw [Int.cast_one, one_mul]
      exact hlead.trans (abs_of_pos hr).le
    exact (gridRound_le hlt.2 (by norm_num) hbelow).trans (le_gridRound hlt.2 (by norm_num) habove)

end PyFloat

end TvEvents
