import Mathlib.Tactic.NormNum
import TvEvents.App.Checks
import TvEvents.Python.FloatRounding

namespace TvEvents

open PyFloat

/-- The whole seconds of `q`, rounded to a float and then to microseconds. -/
def secondsOf (q : ℚ) : ℤ := roundHalfEven (gridRound q * 1000000) / 1000000

/-- The detour through floats keeps a whole second that is reached. -/
theorem le_secondsOf {b : ℤ} (hb : |b| ≤ 2 ^ 40) {q : ℚ} (h : (b : ℚ) ≤ q) : b ≤ secondsOf q := by
  have hmantissa : |b| < 2 ^ 53 := lt_of_le_of_lt hb (by norm_num)
  have hround := le_gridRound (k := 0) (by norm_num) hmantissa (by simpa using h)
  have hmicro : ((b * 1000000 : ℤ) : ℚ) ≤ gridRound q * 1000000 := by
    rw [zpow_zero, mul_one] at hround
    push_cast
    linarith
  have hwhole := roundHalfEven_ge hmicro
  unfold secondsOf
  omega

theorem secondsOf_lt {b : ℤ} (hb : |b| ≤ 2 ^ 40) {q : ℚ} (h : q * 1000 ≤ b * 1000 - 1) :
    secondsOf q < b := by
  -- a float just below `b` lies between, and rounding is monotone at it
  have hrange := abs_le.mp hb
  have hmantissa : |b * 1024 - 1| < 2 ^ 53 := abs_lt.mpr ⟨by omega, by omega⟩
  have hbelow : q ≤ ((b * 1024 - 1 : ℤ) : ℚ) * 2 ^ (-10 : ℤ) := by
    rw [zpow_neg]
    push_cast
    norm_num
    linarith
  have hround := gridRound_le (by norm_num) hmantissa hbelow
  have hmicro : gridRound q * 1000000 ≤ ((b * 1000000 - 976 : ℤ) : ℚ) := by
    rw [zpow_neg] at hround
    push_cast at hround ⊢
    norm_num at hround
    linarith
  have hwhole := roundHalfEven_le hmicro
  unfold secondsOf
  omega

theorem le_secondsOf_millis_iff {b n : ℤ} (hb : |b| ≤ 2 ^ 40) :
    b ≤ secondsOf ((n : ℚ) / 1000) ↔ b * 1000 ≤ n := by
  constructor
  · intro h
    by_contra hlt
    have hn : (n : ℚ) ≤ b * 1000 - 1 := by exact_mod_cast (by omega : n ≤ b * 1000 - 1)
    have hless := secondsOf_lt (q := (n : ℚ) / 1000) hb (by linarith)
    omega
  · intro h
    have hn : (b : ℚ) * 1000 ≤ n := by exact_mod_cast h
    apply le_secondsOf hb
    linarith

section Ranges

variable [Runtime]

/-- `fromtimestamp` accepts the whole milliseconds that `int` reads from the value. -/
def MillisOk (ts : Json) : Prop :=
  ∃ n, toInt ts = .ok n ∧ minTime * 1000 ≤ n ∧ n < (maxTime + 1) * 1000

theorem fromTimestampFloat_finite {f : PyFloat} {q : ℚ} (h : f.toRat? = some q) :
    fromTimestampFloat f = fromTimestampInt (roundHalfEven (q * 1000000) / 1000000) := by
  cases f with
  | nan => cases h
  | inf neg => cases h
  | negZero =>
    obtain rfl := Option.some.inj h
    have hround : roundHalfEven (0 * 1000000) / 1000000 = 0 := by decide +kernel
    rw [hround]
    rfl
  | fin q' =>
    obtain rfl := Option.some.inj h
    rfl

theorem fromTimestampInt_iff (n : ℤ) : fromTimestampInt n = .ok () ↔ minTime ≤ n ∧ n ≤ maxTime := by
  unfold fromTimestampInt
  split_ifs with h
  · exact ⟨fun _ => h, fun _ => rfl⟩
  · constructor
    · intro hok
      cases hok
    · intro hin
      exact absurd hin h

private theorem secondsOf_bounds {q : ℚ} (h : minTime ≤ secondsOf q ∧ secondsOf q ≤ maxTime) :
    |gridRound q| < 2 ^ 1024 := by
  have hyear := Runtime.minTime_year
  have hyear' := Runtime.maxTime_year
  have hgap : (2 : ℚ) ^ 40 < 2 ^ 1024 := pow_lt_pow_right₀ (by norm_num) (by norm_num)
  apply lt_trans _ hgap
  by_contra hbig
  rcases le_abs.mp (not_lt.mp hbig) with hpos | hneg
  · have hmicro : ((2 ^ 40 * 1000000 : ℤ) : ℚ) ≤ gridRound q * 1000000 := by
      push_cast
      linarith
    have hwhole := roundHalfEven_ge hmicro
    unfold secondsOf at h
    omega
  · have hmicro : gridRound q * 1000000 ≤ ((-2 ^ 40 * 1000000 : ℤ) : ℚ) := by
      push_cast
      linarith
    have hwhole := roundHalfEven_le hmicro
    unfold secondsOf at h
    omega

theorem fromTimestampFloat_ofRat_iff (q : ℚ) :
    fromTimestampFloat (.ofRat q) = .ok () ↔ minTime ≤ secondsOf q ∧ secondsOf q ≤ maxTime := by
  rcases ofRat_cases q with ⟨hbig, neg, hinf⟩ | ⟨-, hfin⟩
  · rw [hinf]
    constructor
    · intro h
      cases h
    · intro h
      exact absurd hbig (not_le.mpr (secondsOf_bounds h))
  · rw [fromTimestampFloat_finite hfin, fromTimestampInt_iff]
    exact Iff.rfl

/-- The range in milliseconds is that in seconds, although the division makes a float. -/
theorem fromTimestampFloat_millis_iff (n : ℤ) :
    fromTimestampFloat (.ofRat ((n : ℚ) / 1000)) = .ok () ↔
      minTime * 1000 ≤ n ∧ n < (maxTime + 1) * 1000 := by
  have hyear := Runtime.minTime_year
  have hepoch := Runtime.minTime_epoch
  have hepoch' := Runtime.maxTime_epoch
  have hyear' := Runtime.maxTime_year
  have hmin : minTime ≤ secondsOf ((n : ℚ) / 1000) ↔ minTime * 1000 ≤ n :=
    le_secondsOf_millis_iff (abs_le.mpr ⟨by omega, by omega⟩)
  have hmax : maxTime + 1 ≤ secondsOf ((n : ℚ) / 1000) ↔ (maxTime + 1) * 1000 ≤ n :=
    le_secondsOf_millis_iff (abs_le.mpr ⟨by omega, by omega⟩)
  rw [fromTimestampFloat_ofRat_iff, hmin]
  omega

theorem timestampCheck_millis (ts : Json) (tvid : String) :
    timestampCheck ts tvid true = .ok () ↔ MillisOk ts := by
  unfold timestampCheck MillisOk
  cases hn : toInt ts with
  | error e => simp
  | ok n =>
    have hiff := fromTimestampFloat_millis_iff n
    simp only [if_true, Except.ok.injEq, exists_eq_left']
    rw [← hiff]
    cases fromTimestampFloat (.ofRat ((n : ℚ) / 1000)) with
    | error e => simp
    | ok u => simp

end Ranges

end TvEvents
