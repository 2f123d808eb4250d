import TvEvents.Cache.Outage

namespace TvEvents

open JsonText BlacklistCache Runs

section Source

/-- Where an operation takes the list from that it leaves in memory. -/
inductive Source
  | kept
  | fetched
  | replaced

def Source.Leaves (t : Tick) (s s' : BlacklistCache) : Source → Prop
  | .kept => s'.channelIds = s.channelIds
  | .fetched => s'.channelIds = some (.list (fetchFromRds t.rds))
  | .replaced => ∃ held, s'.channelIds = some held ∧
      (held = .list [] ∨ readCache t s = .ok (some held))

/-- When the list now in memory was fetched, if the database produced it. -/
def Source.fetchedAfter (now : ℚ) (before : Option ℚ) : Source → Option ℚ
  | .kept => before
  | .fetched => some now
  | .replaced => none

variable [Runtime]

/-- The database has ids, and writing them raises nothing. -/
def Installs (t : Tick) : Prop :=
  fetchFromRds t.rds ≠ [] ∧ (t.write = .openFails ∨ (dumpsIds (fetchFromRds t.rds)).isSome)

instance (t : Tick) : Decidable (Installs t) :=
  inferInstanceAs (Decidable (_ ∧ (_ ∨ _)))

def fallbackState (t : Tick) (s : BlacklistCache) : BlacklistCache :=
  if fetchFromRds t.rds = [] then s else (writeCache t (fetchFromRds t.rds) s).2

def readSource (t : Tick) (s : BlacklistCache) : Source :=
  match s.channelIds with
  | some _ => .kept
  | none =>
    match readCache t s with
    | .error _ => .kept
    | .ok (some _) => .replaced
    | .ok none =>
      if Installs t then .fetched else if fetchFromRds t.rds = [] then .replaced else .kept

def source (s : BlacklistCache) : CacheOp → Source
  | .initializeCache t =>
    if Installs t then .fetched
    else
      match readCache t (fallbackState t s) with
      | .error _ => .kept
      | .ok _ => .replaced
  | .refresh t => if Installs t then .fetched else .kept
  | .getChannelIds t => readSource t s
  | .isBlacklisted t c => if c = .null then .kept else readSource t s

theorem installs_iff (t : Tick) (s : BlacklistCache) : Installs t ↔
    fetchFromRds t.rds ≠ [] ∧ (writeCache t (fetchFromRds t.rds) s).1 = .ok () := by
  rw [Installs, writeCache_ok_iff]

theorem initializeCache_source (t : Tick) (s : BlacklistCache) :
    (initializeCache t s).2 =
      if Installs t then { (writeCache t (fetchFromRds t.rds) s).2 with
        channelIds := some (.list (fetchFromRds t.rds)), lastRefresh := t.now }
      else (initializeFallback t (fallbackState t s)).2 := by
  rw [if_congr (installs_iff t s) rfl rfl, fallbackState]
  rcases initializeCache_cases t s with ⟨hids, hstep⟩ | ⟨hids, hok, hstep⟩ | ⟨hids, e, herror, hstep⟩
  · simp [hids, hstep]
  · simp [hids, hok, hstep]
  · simp [hids, herror, hstep]

theorem refresh_source (t : Tick) (s : BlacklistCache) :
    (refresh t s).2.channelIds =
        (if Installs t then some (.list (fetchFromRds t.rds)) else s.channelIds) ∧
      (refresh t s).2.lastRefresh = if Installs t then t.now else s.lastRefresh := by
  obtain ⟨hids', hstamp⟩ := writeCache_memory t (fetchFromRds t.rds) s
  rw [if_congr (installs_iff t s) rfl rfl, if_congr (installs_iff t s) rfl rfl]
  rcases refresh_cases t s with ⟨hids, hstep⟩ | ⟨hids, hok, hstep⟩ | ⟨hids, e, herror, hstep⟩
  · simp [hids, hstep]
  · simp [hids, hok, hstep]
  · simp [hids, herror, hstep, hids', hstamp]

theorem getChannelIds_stamp (t : Tick) (s : BlacklistCache) :
    (getChannelIds t s).2.lastRefresh = s.lastRefresh := by
  have hwrite := (writeCache_memory t (fetchFromRds t.rds) s).2
  unfold getChannelIds
  split
  · rfl
  · split
    · rfl
    · rfl
    · simp only
      split_ifs
      · rfl
      · split <;> simp_all

theorem getChannelIds_source (t : Tick) (s : BlacklistCache) :
    (readSource t s).Leaves t s (getChannelIds t s).2 := by
  unfold readSource getChannelIds
  cases hmemory : s.channelIds with
  | some held => rfl
  | none =>
    cases hread : readCache t s with
    | error e => rfl
    | ok r =>
      cases r with
      | some held => exact ⟨held, rfl, .inr hread⟩
      | none =>
        have hwrite := writeCache_memory t (fetchFromRds t.rds) s
        simp only [if_congr (installs_iff t s) rfl rfl]
        by_cases hids : fetchFromRds t.rds = []
        · simp only [hids, ne_eq, not_true_eq_false, false_and, if_false, if_true]
          exact ⟨.list [], rfl, .inl rfl⟩
        · rcases hresult : writeCache t (fetchFromRds t.rds) s with ⟨result, s'⟩
          rw [hresult] at hwrite
          cases result with
          | ok u => simp [hids, Source.Leaves]
          | error e => simpa [hids, Source.Leaves, hmemory] using hwrite.1

/-- The file that a failed write leaves gives no list. -/
theorem readCache_fallbackState {t : Tick} (hinstalls : ¬Installs t) (s : BlacklistCache) :
    readCache t (fallbackState t s) =
      if fetchFromRds t.rds = [] then readCache t s else .ok none := by
  unfold fallbackState
  by_cases hids : fetchFromRds t.rds = []
  · rw [if_pos hids, if_pos hids]
  · rw [if_neg hids, if_neg hids]
    cases hresult : (writeCache t (fetchFromRds t.rds) s).1 with
    | ok u => exact absurd ((installs_iff t s).mpr ⟨hids, hresult⟩) hinstalls
    | error e => exact readCache_torn (writeCache_raises t _ s hresult).2.2

theorem initializeCache_leaves (t : Tick) (s : BlacklistCache) :
    (source s (.initializeCache t)).Leaves t s (initializeCache t s).2 := by
  rw [initializeCache_source, source]
  by_cases hinstalls : Installs t
  · simp [hinstalls, Source.Leaves]
  · obtain ⟨-, hmemory⟩ := initializeFallback_memory t (fallbackState t s)
    have hread := readCache_fallbackState hinstalls s
    rw [if_neg hinstalls, if_neg hinstalls]
    cases hfile : readCache t (fallbackState t s) with
    | error e =>
      rw [hfile] at hmemory hread
      have hids : fetchFromRds t.rds = [] := by
        by_contra hids
        rw [if_neg hids] at hread
        cases hread
      rw [fallbackState, if_pos hids] at hmemory ⊢
      exact hmemory
    | ok r =>
      rw [hfile] at hmemory hread
      cases r with
      | none => exact ⟨.list [], hmemory, .inl rfl⟩
      | some held =>
        refine ⟨held, hmemory, .inr ?_⟩
        split_ifs at hread
        · exact hread.symm
        · cases hread

theorem source_leaves (s : BlacklistCache) (op : CacheOp) :
    (source s op).Leaves op.tick s (cacheStep s op) := by
  cases op with
  | initializeCache t => exact initializeCache_leaves t s
  | refresh t =>
    have hmemory := (refresh_source t s).1
    rw [source]
    split_ifs with hinstalls
    · rw [if_pos hinstalls] at hmemory
      exact hmemory
    · rw [if_neg hinstalls] at hmemory
      exact hmemory
  | getChannelIds t => exact getChannelIds_source t s
  | isBlacklisted t c =>
    rw [source, cacheStep, isBlacklisted_state]
    split_ifs
    · rfl
    · exact getChannelIds_source t s

end Source

section Tracking

/-- A cache beside the time at which its list was fetched, if it was. -/
structure Tracked where
  cache : BlacklistCache
  fetchedAt : Option ℚ
  held : cache.channelIds = none → fetchedAt = none

def Tracked.fresh (file : CacheFile) : Tracked := ⟨.fresh file, none, fun _ => rfl⟩

variable [Runtime]

def trackedStep (s : Tracked) (op : CacheOp) : Tracked where
  cache := cacheStep s.cache op
  fetchedAt := (source s.cache op).fetchedAfter op.tick.now s.fetchedAt
  held := by
    intro hnone
    have hleaves := source_leaves s.cache op
    cases hsource : source s.cache op with
    | kept =>
      rw [hsource] at hleaves
      exact s.held (hleaves.symm.trans hnone)
    | fetched =>
      rw [hsource] at hleaves
      exact absurd (hleaves.symm.trans hnone) (by simp)
    | replaced => rfl

/-- The reported time is that of the fetch behind the held list, and 0 without one; the reported age
follows it. -/
structure Truthful (s : Tracked) : Prop where
  stamp : s.cache.lastRefresh = s.fetchedAt.getD 0
  age : ∀ now, ageSeconds now s.cache = (s.fetchedAt.map fun fetched => now - fetched).getD 0

omit [Runtime] in
theorem truthful_fetched {s : Tracked} {fetched : ℚ} (hpos : 0 < fetched)
    (h : s.fetchedAt = some fetched) : Truthful s ↔ s.cache.lastRefresh = fetched := by
  constructor
  · intro htrue
    rw [htrue.stamp, h]
    rfl
  · intro hstamp
    refine ⟨by rw [h, hstamp]; rfl, fun now => ?_⟩
    rw [ageSeconds, hstamp, if_neg hpos.ne', h]
    rfl

omit [Runtime] in
theorem truthful_other {s : Tracked} (h : s.fetchedAt = none) :
    Truthful s ↔ s.cache.lastRefresh = 0 := by
  constructor
  · intro htrue
    rw [htrue.stamp, h]
    rfl
  · intro hstamp
    refine ⟨by rw [h, hstamp]; rfl, fun now => ?_⟩
    rw [ageSeconds, if_pos hstamp, h]
    rfl

omit [Runtime] in
theorem truthful_kept {s s' : Tracked} (hs : Truthful s) (hfetched : s'.fetchedAt = s.fetchedAt)
    (hstamp : s'.cache.lastRefresh = s.cache.lastRefresh) : Truthful s' := by
  refine ⟨by rw [hstamp, hfetched, hs.stamp], fun now => ?_⟩
  have hage := hs.age now
  rw [ageSeconds] at hage ⊢
  rw [hstamp, hfetched]
  exact hage

/-- The ids are found in memory or in the file, or cannot be had, or the database installs none. -/
def ReadKeepsStamp (t : Tick) (s : BlacklistCache) : Prop :=
  s.channelIds.isSome ∨ readCache t s ≠ .ok none ∨ ¬Installs t

/-- A start installs fetched ids, or reads a file that ends it, or finds no list and no stamp. -/
def StartKeepsStamp (t : Tick) (s : BlacklistCache) : Prop :=
  Installs t ∨ (fetchFromRds t.rds = [] ∧ ∃ e, readCache t s = .error e) ∨
    ((fetchFromRds t.rds = [] → readCache t s = .ok none) ∧ s.lastRefresh = 0)

def KeepsStamp (s : BlacklistCache) : CacheOp → Prop
  | .initializeCache t => StartKeepsStamp t s
  | .refresh _ => True
  | .getChannelIds t => ReadKeepsStamp t s
  | .isBlacklisted t c => c = .null ∨ ReadKeepsStamp t s

/-- Reading the ids stays truthful unless it installs fetched ones, which get no stamp. -/
theorem read_truthful_iff {t : Tick} (hnow : 0 < t.now) {s s' : Tracked} (hs : Truthful s)
    (hstamp : s'.cache.lastRefresh = s.cache.lastRefresh)
    (hfetched : s'.fetchedAt = (readSource t s.cache).fetchedAfter t.now s.fetchedAt) :
    ReadKeepsStamp t s.cache ↔ Truthful s' := by
  unfold readSource at hfetched
  unfold ReadKeepsStamp
  cases hmemory : s.cache.channelIds with
  | some held =>
    rw [hmemory] at hfetched
    simpa using truthful_kept hs hfetched hstamp
  | none =>
    have hnone : s.fetchedAt = none := s.held hmemory
    have hzero : s.cache.lastRefresh = 0 := (truthful_other hnone).mp hs
    have hother : s'.fetchedAt = none → Truthful s' := fun h =>
      (truthful_other h).mpr (hstamp.trans hzero)
    cases hread : readCache t s.cache with
    | error e =>
      simp only [hmemory, hread, hnone] at hfetched
      simpa using hother hfetched
    | ok r =>
      cases r with
      | some held =>
        simp only [hmemory, hread] at hfetched
        simpa using hother hfetched
      | none =>
        simp only [hmemory, hread] at hfetched
        by_cases hinstalls : Installs t
        · rw [if_pos hinstalls] at hfetched
          have hne : ¬(0 : ℚ) = t.now := hnow.ne
          simpa [hinstalls, truthful_fetched hnow hfetched, hstamp, hzero] using hne
        · rw [if_neg hinstalls] at hfetched
          have htrue : Truthful s' := by
            apply hother
            split_ifs at hfetched
            · exact hfetched
            · exact hfetched.trans hnone
          simpa [hinstalls] using htrue

omit [Runtime] in
/-- The fallback stamps what it reads from the file. -/
theorem initializeFallback_stamp (t : Tick) (s : BlacklistCache) :
    (initializeFallback t s).2.lastRefresh =
      match readCache t s with
      | .ok (some _) => t.now
      | _ => s.lastRefresh := by
  unfold initializeFallback
  split <;> simp_all

theorem fallbackState_stamp (t : Tick) (s : BlacklistCache) :
    (fallbackState t s).lastRefresh = s.lastRefresh := by
  unfold fallbackState
  split_ifs
  · rfl
  · exact (writeCache_memory t _ s).2

theorem start_truthful_iff {t : Tick} (hnow : 0 < t.now) {s s' : Tracked} (hs : Truthful s)
    (hcache : s'.cache = (initializeCache t s.cache).2)
    (hfetched : s'.fetchedAt =
      (source s.cache (.initializeCache t)).fetchedAfter t.now s.fetchedAt) :
    StartKeepsStamp t s.cache ↔ Truthful s' := by
  rw [initializeCache_source] at hcache
  rw [source] at hfetched
  unfold StartKeepsStamp
  by_cases hinstalls : Installs t
  · rw [if_pos hinstalls] at hcache hfetched
    simp [hinstalls, truthful_fetched hnow hfetched, hcache]
  · rw [if_neg hinstalls] at hcache hfetched
    have hstamp := initializeFallback_stamp t (fallbackState t s.cache)
    rw [← hcache, fallbackState_stamp] at hstamp
    have hread := readCache_fallbackState hinstalls s.cache
    cases hfile : readCache t (fallbackState t s.cache) with
    | error e =>
      rw [hfile] at hstamp hfetched hread
      have htrue : Truthful s' := truthful_kept hs hfetched hstamp
      split_ifs at hread with hids
      simpa [htrue, hids] using .inr (.inl ⟨e, hread.symm⟩)
    | ok r =>
      rw [hfile] at hstamp hfetched hread
      rw [truthful_other hfetched, hstamp]
      cases r with
      | none =>
        split_ifs at hread with hids
        · simp [hinstalls, hids, ← hread]
        · simp [hinstalls, hids]
      | some held =>
        split_ifs at hread with hids
        · simp [hinstalls, hids, ← hread, hnow.ne']
        · cases hread

/-- A step stays truthful exactly when it meets its condition. -/
theorem trackedStep_truthful_iff {s : Tracked} (hs : Truthful s) {op : CacheOp}
    (hnow : 0 < op.tick.now) : KeepsStamp s.cache op ↔ Truthful (trackedStep s op) := by
  cases op with
  | initializeCache t => exact start_truthful_iff hnow hs rfl rfl
  | refresh t =>
    obtain ⟨-, hstamp⟩ := refresh_source t s.cache
    have htrue : Truthful (trackedStep s (.refresh t)) := by
      by_cases hinstalls : Installs t
      · rw [if_pos hinstalls] at hstamp
        apply (truthful_fetched hnow _).mpr hstamp
        simp [trackedStep, source, hinstalls, Source.fetchedAfter, CacheOp.tick]
      · rw [if_neg hinstalls] at hstamp
        apply truthful_kept hs _ hstamp
        simp [trackedStep, source, hinstalls, Source.fetchedAfter]
    exact ⟨fun _ => htrue, fun _ => trivial⟩
  | getChannelIds t => exact read_truthful_iff hnow hs (getChannelIds_stamp t s.cache) rfl
  | isBlacklisted t c =>
    have hstate := isBlacklisted_state t c s.cache
    by_cases hc : c = .null
    · have htrue : Truthful (trackedStep s (.isBlacklisted t c)) := by
        apply truthful_kept hs
        · simp [trackedStep, source, hc, Source.fetchedAfter]
        · rw [if_pos hc] at hstate
          exact congrArg BlacklistCache.lastRefresh hstate
      exact ⟨fun _ => htrue, fun _ => .inl hc⟩
    · rw [if_neg hc] at hstate
      have hread : ReadKeepsStamp t s.cache ↔ Truthful (trackedStep s (.isBlacklisted t c)) := by
        apply read_truthful_iff hnow hs
        · exact (congrArg BlacklistCache.lastRefresh hstate).trans (getChannelIds_stamp t s.cache)
        · simp [trackedStep, source, hc, CacheOp.tick]
      rw [← hread, KeepsStamp]
      simp [hc]

/-- Every state of a run on a new cache tells the truth exactly when no step stamps a list from the
file, fetches without stamping, or starts empty over an old stamp. -/
theorem freshness_truthful_iff {file : CacheFile} {ops : List CacheOp}
    (hclock : ∀ op ∈ ops, 0 < op.tick.now) :
    (∀ js, js <+: ops → Truthful (run trackedStep (.fresh file) js)) ↔
      Along trackedStep (fun s op => KeepsStamp s.cache op) (.fresh file) ops := by
  have hfresh : Truthful (Tracked.fresh file) := (truthful_other rfl).mpr rfl
  have hstep : ∀ (s : Tracked) (op : CacheOp), Truthful s → 0 < op.tick.now →
      (KeepsStamp s.cache op ↔ Truthful (trackedStep s op)) :=
    fun _ _ hs hnow => trackedStep_truthful_iff hs hnow
  exact along_iff_invariant hstep hfresh hclock

end Tracking

section Samples

def sampleFetchAt (now : ℚ) : Tick := ⟨.rows [.text "ch1"], false, .completes, now⟩

def sampleOutageAt (now : ℚ) : Tick := ⟨.fails, false, .completes, now⟩

def sampleRefreshes : List CacheOp :=
  [.initializeCache (sampleFetchAt 1), .isBlacklisted (sampleOutageAt 2) (.str "ch1"),
    .refresh (sampleFetchAt 3)]

/-- A start and a refresh from the database, and a query in between. -/
theorem freshness_truthful_fetched :
    Truthful (run (@trackedStep asciiRuntime) (.fresh .absent) sampleRefreshes) := by
  have hclock : ∀ op ∈ sampleRefreshes, 0 < op.tick.now := by decide +kernel
  have hinstalls : ∀ now, @Installs asciiRuntime (sampleFetchAt now) := by
    intro now
    exact ⟨by simp [sampleFetchAt, fetchFromRds, RdsValue.truthy], .inr rfl⟩
  apply (@freshness_truthful_iff asciiRuntime .absent _ hclock).mpr
  · exact ⟨.inl (hinstalls 1), .inr (.inl rfl), trivial, trivial⟩
  · exact List.prefix_refl _

/-- A new process that serves ids which it reads from the file at its start, or fetches on the first
query, reports a wrong time: stale ids look fresh, and fetched ids look as if they never were. -/
theorem freshness_untruthful :
    ¬Truthful (run (@trackedStep asciiRuntime) (.fresh (.text "[\"ch0\"]".toList))
        [.initializeCache (sampleOutageAt 5)]) ∧
      ¬Truthful (run (@trackedStep asciiRuntime) (.fresh .absent)
        [.isBlacklisted (sampleFetchAt 5) (.str "ch1")]) := by
  constructor
  · intro h
    have hstamp := h.stamp
    revert hstamp
    decide +kernel
  · intro h
    have hstamp := h.stamp
    revert hstamp
    decide +kernel

end Samples

end TvEvents
