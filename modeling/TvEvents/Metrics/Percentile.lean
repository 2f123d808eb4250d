import TvEvents.App.Ops
import TvEvents.Library.Quantile
import TvEvents.Python.FloatRounding

namespace TvEvents

open PyFloat

section Index

/-- The quotient that `_percentile` truncates, before it is rounded to a float. -/
def share (n pct : ℕ) : ℚ := n * pct / 100

theorem share_nonneg (n pct : ℕ) : 0 ≤ share n pct := by
  unfold share
  positivity

theorem share_le {n pct : ℕ} (hpct : pct ≤ 100) : share n pct ≤ n := by
  have hn : (0 : ℚ) ≤ n := Nat.cast_nonneg n
  have hcast : (pct : ℚ) ≤ 100 := by exact_mod_cast hpct
  have hmul := mul_le_mul_of_nonneg_left hcast hn
  unfold share
  linarith

theorem share_mono (n : ℕ) {p q : ℕ} (h : p ≤ q) : share n p ≤ share n q := by
  have hn : (0 : ℚ) ≤ n := Nat.cast_nonneg n
  have hcast : (p : ℚ) ≤ q := by exact_mod_cast h
  have hmul := mul_le_mul_of_nonneg_left hcast hn
  unfold share
  linarith

theorem gridRound_share_nonneg (n pct : ℕ) : 0 ≤ gridRound (share n pct) := by
  have hround := le_gridRound (m := 0) (k := 0) (by norm_num) (by norm_num)
    (q := share n pct) (by simpa using share_nonneg n pct)
  simpa using hround

/-- No list is so long that the quotient overflows. -/
theorem percentileIndex_gridRound {n pct : ℕ} (hn : n < 2 ^ 63) (hpct : pct ≤ 100) :
    percentileIndex n pct = min ⌊gridRound (share n pct)⌋.toNat (n - 1) := by
  have hnonneg := gridRound_share_nonneg n pct
  have hshare : share n pct ≤ ((1 : ℤ) : ℚ) * 2 ^ (63 : ℤ) := by
    have hcast : (n : ℚ) ≤ 2 ^ 63 := by exact_mod_cast hn.le
    have hle := (share_le (n := n) hpct).trans hcast
    norm_num at hle ⊢
    exact hle
  have hbound := gridRound_le (by norm_num) (by norm_num) hshare
  have hsmall : |gridRound (share n pct)| < 2 ^ 1024 := by
    have hpower : ((1 : ℤ) : ℚ) * 2 ^ (63 : ℤ) = 2 ^ 63 := by norm_num
    rw [abs_of_nonneg hnonneg]
    rw [hpower] at hbound
    exact hbound.trans_lt (pow_lt_pow_right₀ (by norm_num) (by norm_num))
  have hfinite : (ofRat (share n pct)).toRat? = some (gridRound (share n pct)) := by
    rcases ofRat_cases (share n pct) with ⟨hbig, -⟩ | ⟨-, hvalue⟩
    · exact absurd hbig (not_le.mpr hsmall)
    · exact hvalue
  show min (truncRat ((ofRat (share n pct)).toRat?.getD 0)).toNat (n - 1) = _
  rw [hfinite, Option.getD_some, truncRat, if_pos hnonneg]

/-- A larger percentage selects no smaller index. -/
theorem percentileIndex_mono {n p q : ℕ} (hn : n < 2 ^ 63) (h : p ≤ q) (hq : q ≤ 100) :
    percentileIndex n p ≤ percentileIndex n q := by
  rw [percentileIndex_gridRound hn (h.trans hq), percentileIndex_gridRound hn hq]
  have hround : gridRound (share n p) ≤ gridRound (share n q) := by
    rcases (share_nonneg n p).lt_or_eq with hpos | hzero
    · exact gridRound_mono hpos (share_mono n h)
    · rw [← hzero, gridRound_zero]
      exact gridRound_share_nonneg n q
  have hfloor := Int.toNat_le_toNat (Int.floor_le_floor hround)
  omega

/-- The quotient is less than a hundredth below an integer only when its grid is finer than that. -/
theorem floor_gridRound_share {n pct : ℕ} (h : n * pct < 100 * 2 ^ 47) :
    ⌊gridRound (share n pct)⌋ = (n * pct / 100 : ℕ) := by
  have hdiv : n * pct = 100 * (n * pct / 100) + n * pct % 100 := (Nat.div_add_mod _ _).symm
  have hmod : n * pct % 100 < 100 := Nat.mod_lt _ (by norm_num)
  have hshare : share n pct = (n * pct / 100 : ℕ) + (n * pct % 100 : ℕ) / 100 := by
    have hcast : ((n * pct : ℕ) : ℚ) = 100 * (n * pct / 100 : ℕ) + (n * pct % 100 : ℕ) := by
      exact_mod_cast hdiv
    have hprod : ((n : ℚ) * pct) = ((n * pct : ℕ) : ℚ) := by push_cast; rfl
    rw [share, hprod, hcast]
    ring
  generalize n * pct / 100 = k at *
  generalize n * pct % 100 = j at *
  have hk : k < 2 ^ 47 := by omega
  have hj : (j : ℚ) ≤ 99 := by exact_mod_cast Nat.le_of_lt_succ hmod
  have hj0 : (0 : ℚ) ≤ j := Nat.cast_nonneg j
  rw [Int.floor_eq_iff]
  constructor
  · have hmantissa : |((k : ℤ))| < 2 ^ 53 := by
      rw [abs_of_nonneg (by positivity)]
      have : (k : ℤ) < 2 ^ 47 := by exact_mod_cast hk
      omega
    have hround := le_gridRound (m := k) (k := 0) (by norm_num) hmantissa (q := share n pct)
      (by rw [hshare]; simp; positivity)
    simpa using hround
  · by_cases hzero : share n pct = 0
    · rw [hzero, gridRound_zero]
      positivity
    · have hexp : gridExp (share n pct) ≤ -6 := by
        apply gridExp_le hzero (by norm_num)
        rw [abs_of_nonneg (share_nonneg n pct), hshare]
        have hkq : (k : ℚ) + 1 ≤ 2 ^ 47 := by exact_mod_cast hk
        norm_num at hkq ⊢
        linarith
      have hgrid : (2 : ℚ) ^ gridExp (share n pct) ≤ 2 ^ (-6 : ℤ) :=
        zpow_le_zpow_right₀ (by norm_num) hexp
      have hround := gridRound_le_add (share n pct)
      norm_num at hgrid
      push_cast
      linarith

end Index

section Selection

theorem sorted_mergeSort (data : List ℚ) : (data.mergeSort (· ≤ ·)).Pairwise (· ≤ ·) := by
  have htrans : ∀ a b c : ℚ, decide (a ≤ b) = true → decide (b ≤ c) = true → decide (a ≤ c) = true := by
    intro a b c hab hbc
    simp only [decide_eq_true_eq] at hab hbc ⊢
    exact hab.trans hbc
  have htotal : ∀ a b : ℚ, (decide (a ≤ b) || decide (b ≤ a)) = true := by
    intro a b
    simpa using le_total a b
  have hsorted := List.pairwise_mergeSort htrans htotal data
  simpa using hsorted

theorem percentileSample_getElem {data : List ℚ} (hne : data ≠ []) (pct : ℕ) :
    ∃ h : percentileIndex data.length pct < (data.mergeSort (· ≤ ·)).length,
      percentileSample data pct = (data.mergeSort (· ≤ ·))[percentileIndex data.length pct] := by
  have hpos : 0 < data.length := List.length_pos_of_ne_nil hne
  have hindex : percentileIndex data.length pct < (data.mergeSort (· ≤ ·)).length := by
    rw [List.length_mergeSort, percentileIndex]
    omega
  refine ⟨hindex, ?_⟩
  rw [percentileSample, List.getD_eq_getElem?_getD, List.getElem?_eq_getElem hindex, Option.getD_some]

theorem percentileSample_mem {data : List ℚ} (hne : data ≠ []) (pct : ℕ) :
    percentileSample data pct ∈ data := by
  obtain ⟨hindex, hsample⟩ := percentileSample_getElem hne pct
  rw [hsample]
  exact (List.mergeSort_perm data (· ≤ ·)).mem_iff.mp (List.getElem_mem hindex)

/-- Up to the size at which the quotient loses its hundredths, a true quantile is selected. -/
theorem percentileSample_isQuantile {data : List ℚ} (hne : data ≠ []) {pct : ℕ} (hpct : pct ≤ 100)
    (hlen : data.length < 2 ^ 63) (hexact : data.length * pct < 100 * 2 ^ 47) :
    IsQuantile data pct (percentileSample data pct) := by
  have hpos : 0 < data.length := List.length_pos_of_ne_nil hne
  have hindex : percentileIndex data.length pct = min (data.length * pct / 100) (data.length - 1) := by
    rw [percentileIndex_gridRound hlen hpct, floor_gridRound_share hexact, Int.toNat_natCast]
  have hshare : pct * data.length ≤ 100 * data.length := Nat.mul_le_mul_right _ hpct
  have hcomm : data.length * pct = pct * data.length := Nat.mul_comm _ _
  obtain ⟨hinside, hsample⟩ := percentileSample_getElem hne pct
  rw [hsample]
  refine IsQuantile.perm ?_ (List.mergeSort_perm data (· ≤ ·))
  apply IsQuantile.of_sorted (sorted_mergeSort data)
  · rw [List.length_mergeSort, hindex]
    omega
  · rw [List.length_mergeSort, hindex]
    omega

theorem percentileSample_mono {data : List ℚ} (hne : data ≠ []) (hlen : data.length < 2 ^ 63)
    {p q : ℕ} (h : p ≤ q) (hq : q ≤ 100) : percentileSample data p ≤ percentileSample data q := by
  obtain ⟨hinside, hsample⟩ := percentileSample_getElem hne p
  obtain ⟨hinside', hsample'⟩ := percentileSample_getElem hne q
  rw [hsample, hsample']
  rcases (percentileIndex_mono hlen h hq).lt_or_eq with hlt | heq
  · exact List.pairwise_iff_getElem.mp (sorted_mergeSort data) _ _ _ _ hlt
  · simp only [heq, le_refl]

end Selection

section Reports

def reported (reply : Reply) (group name : String) : Option Json :=
  match reply.body with
  | .json content => (OrderedMap.find group content).bind fun v => v.member? name
  | .text _ => none

/-- The latencies of a report rise with their percentage. -/
def OrderedLatencies (v : Json) : Prop :=
  ∃ a b c : ℚ, a ≤ b ∧ b ≤ c ∧
    v = .obj [("p50_ms", .float (.fin a)), ("p95_ms", .float (.fin b)), ("p99_ms", .float (.fin c))]

theorem roundTo_mono (digits : ℕ) {a b : ℚ} (h : a ≤ b) :
    (roundHalfEven (a * 10 ^ digits) / 10 ^ digits : ℚ) ≤
      roundHalfEven (b * 10 ^ digits) / 10 ^ digits := by
  have hpow : (0 : ℚ) < 10 ^ digits := by positivity
  have hscaled : a * 10 ^ digits ≤ b * 10 ^ digits := mul_le_mul_of_nonneg_right h hpow.le
  have hround : (roundHalfEven (a * 10 ^ digits) : ℚ) ≤ roundHalfEven (b * 10 ^ digits) := by
    exact_mod_cast roundHalfEven_mono hscaled
  exact div_le_div_of_nonneg_right hround hpow.le

/-- The deque is far below every bound. -/
theorem percentile_ordered (latencies : BoundedDeque ℚ 10000) :
    OrderedLatencies (.obj [("p50_ms", percentile latencies.entries 50),
      ("p95_ms", percentile latencies.entries 95), ("p99_ms", percentile latencies.entries 99)]) := by
  unfold percentile
  by_cases hne : latencies.entries = []
  · simp only [hne, if_true]
    exact ⟨0, 0, 0, le_rfl, le_rfl, rfl⟩
  · have hlen : latencies.entries.length < 2 ^ 63 := latencies.bounded.trans_lt (by norm_num)
    have hmedian := percentileSample_mono hne hlen (show 50 ≤ 95 by omega) (by omega)
    have htail := percentileSample_mono hne hlen (show 95 ≤ 99 by omega) (by omega)
    simp only [if_neg hne]
    exact ⟨_, _, _, roundTo_mono 2 hmedian, roundTo_mono 2 htail, rfl⟩

variable [Framework]

theorem jsonResponse_eq_ok {statusCode : ℕ} {content : List (String × Json)} {reply : Reply}
    (h : jsonResponse statusCode content = .ok reply) : reply = ⟨statusCode, .json content⟩ := by
  rw [jsonResponse] at h
  split_ifs at h
  exact (Except.ok.inj h).symm

theorem opsMetrics_ordered {p : Process} {m : Moment} {s : AppState} {reply : Reply}
    (h : opsMetrics p m s = .ok reply) :
    ∃ v, reported reply "golden_signals" "latency" = some v ∧
      reported reply "red" "duration" = some v ∧ OrderedLatencies v := by
  rw [opsMetrics] at h
  obtain ⟨entries, -, h⟩ := Except.bind_eq_ok.mp h
  rw [jsonResponse_eq_ok h]
  exact ⟨_, rfl, rfl, percentile_ordered s.latencies⟩

/-- What `_percentile` selects is a sample and rises with the percentage, and it is a quantile as long
as the quotient keeps its hundredths; every report shows its latencies in order. -/
theorem percentile_quantiles :
    (∀ data : List ℚ, data ≠ [] → data.length < 2 ^ 63 →
      (∀ pct ≤ 100, percentileSample data pct ∈ data) ∧
      (∀ pct ≤ 100, data.length * pct < 100 * 2 ^ 47 →
        IsQuantile data pct (percentileSample data pct)) ∧
      ∀ p q, p ≤ q → q ≤ 100 → percentileSample data p ≤ percentileSample data q) ∧
    ∀ p m s reply, opsMetrics p m s = .ok reply →
      ∃ v, reported reply "golden_signals" "latency" = some v ∧
        reported reply "red" "duration" = some v ∧ OrderedLatencies v := by
  constructor
  · intro data hne hlen
    refine ⟨?_, ?_, ?_⟩
    · intro pct _
      exact percentileSample_mem hne pct
    · intro pct hpct hexact
      exact percentileSample_isQuantile hne hpct hlen hexact
    · intro p q h hq
      exact percentileSample_mono hne hlen h hq
  · intro p m s reply h
    exact opsMetrics_ordered h

end Reports

section Overshoot

def countUp (n : ℕ) : List ℚ := (List.range n).map fun (i : ℕ) => (i : ℚ)

theorem countUp_sorted (n : ℕ) : (countUp n).mergeSort (· ≤ ·) = countUp n := by
  apply List.mergeSort_of_pairwise
  apply List.pairwise_map.mpr
  apply List.pairwise_lt_range.imp
  intro i j hij
  have hcast : (i : ℚ) ≤ j := by exact_mod_cast hij.le
  simpa using hcast

theorem countUp_above (n k : ℕ) : (countUp n).countP ((k : ℚ) ≤ ·) = n - k := by
  induction n with
  | zero => simp [countUp]
  | succ n ih =>
    have hlast : countUp (n + 1) = countUp n ++ [(n : ℚ)] := by
      simp [countUp, List.range_succ]
    rw [hlast, List.countP_append, ih]
    by_cases hk : k ≤ n
    · have hcast : (k : ℚ) ≤ n := by exact_mod_cast hk
      simp only [List.countP_singleton, hcast, decide_true, if_true]
      omega
    · have hcast : ¬(k : ℚ) ≤ n := by exact_mod_cast hk
      simp only [List.countP_singleton, hcast, decide_false, Bool.false_eq_true, if_false]
      omega

theorem countUp_sample {n pct k : ℕ} (hn : k < n) (hindex : percentileIndex n pct = k) :
    percentileSample (countUp n) pct = k := by
  have hlen : (countUp n).length = n := by simp [countUp]
  rw [percentileSample, countUp_sorted, hlen, hindex, List.getD_eq_getElem?_getD]
  simp [countUp, hn]

/-- An index that leaves less than a hundredth of the samples above selects no quantile. -/
theorem countUp_overshoots {n k : ℕ} (hk : k < n) (hindex : percentileIndex n 99 = k)
    (hless : 100 * (n - k) < n) : ¬IsQuantile (countUp n) 99 (percentileSample (countUp n) 99) := by
  intro h
  have hlen : (countUp n).length = n := by simp [countUp]
  have habove := h.above
  rw [countUp_sample hk hindex, countUp_above, hlen] at habove
  omega

/-- Beyond that size the quotient can round up to the next integer, and one sample too few is left
above. -/
theorem percentile_overshoots :
    ¬IsQuantile (countUp 142159079146801) 99 (percentileSample (countUp 142159079146801) 99) := by
  have hindex : percentileIndex 142159079146801 99 = 140737488355333 := by decide +kernel
  exact countUp_overshoots (by norm_num) hindex (by norm_num)

end Overshoot

section Samples

/-- Half of five samples, and the order of two selections. -/
theorem percentile_quantiles_five :
    IsQuantile [5, 1, 4, 2, 3] 50 (percentileSample [5, 1, 4, 2, 3] 50) ∧
      percentileSample [5, 1, 4, 2, 3] 50 ≤ percentileSample [5, 1, 4, 2, 3] 95 := by
  obtain ⟨-, hquantile, hmono⟩ := (@percentile_quantiles strictFramework).1 [5, 1, 4, 2, 3]
    (by simp) (by simp)
  exact ⟨hquantile 50 (by omega) (by simp), hmono 50 95 (by omega) (by omega)⟩

end Samples

end TvEvents
