import TvEvents.Cache.Machine

namespace TvEvents

open JsonText BlacklistCache Runs

section Outage

variable [Runtime]

def Populated (s : BlacklistCache) : Prop := ∃ ids, ids ≠ [] ∧ s.channelIds = some (.list ids)

/-- A start that finds ids finds ones that have a JSON text (or opens no file); a start that finds
none finds a list in the file, or an error that ends it. -/
def StartKeeps (t : Tick) (s : BlacklistCache) : Prop :=
  if fetchFromRds t.rds = [] then
    (∃ e, readCache t s = .error e) ∨ ∃ ids, ids ≠ [] ∧ readCache t s = .ok (some (.list ids))
  else t.write = .openFails ∨ (dumpsIds (fetchFromRds t.rds)).isSome

/-- Only a start on a populated memory needs a condition. -/
def OutageSafe (s : BlacklistCache) : CacheOp → Prop
  | .initializeCache t => Populated s → StartKeeps t s
  | _ => True

/-- A populated memory stays populated, and changes only to the list just fetched or read. -/
def KeepsList (s : BlacklistCache) (op : CacheOp) : Prop :=
  Populated s → Populated (cacheStep s op) ∧
    ((cacheStep s op).channelIds = s.channelIds ∨
      (cacheStep s op).channelIds = some (.list (fetchFromRds op.tick.rds)) ∨
      readCache op.tick s = .ok (cacheStep s op).channelIds)

omit [Runtime] in
private theorem populated_congr {s s' : BlacklistCache} (h : s'.channelIds = s.channelIds)
    (hs : Populated s) : Populated s' := by
  obtain ⟨ids, hne, hids⟩ := hs
  exact ⟨ids, hne, h.trans hids⟩

private theorem keepsList_of_memory {s : BlacklistCache} {op : CacheOp}
    (h : (cacheStep s op).channelIds = s.channelIds) : KeepsList s op :=
  fun hs => ⟨populated_congr h hs, .inl h⟩

theorem writeCache_ok_iff (t : Tick) (ids : List ChannelId) (s : BlacklistCache) :
    (writeCache t ids s).1 = .ok () ↔ t.write = .openFails ∨ (dumpsIds ids).isSome := by
  constructor
  · intro h
    by_contra hbad
    rw [not_or] at hbad
    have hnone := Option.not_isSome_iff_eq_none.mp hbad.2
    cases hwrite : t.write with
    | openFails => exact hbad.1 hwrite
    | failsAfter n => simp [writeCache, hwrite, hnone] at h
    | completes => simp [writeCache, hwrite, hnone] at h
  · intro h
    cases hresult : (writeCache t ids s).1 with
    | ok u => rfl
    | error e =>
      obtain ⟨hopen, hnone, -⟩ := writeCache_raises t ids s hresult
      rw [hnone] at h
      rcases h with h | h
      · exact absurd h hopen
      · cases h

omit [Runtime] in
private theorem fallback_populated_iff {t : Tick} {s : BlacklistCache} (hs : Populated s) :
    Populated (initializeFallback t s).2 ↔
      (∃ e, readCache t s = .error e) ∨
        ∃ ids, ids ≠ [] ∧ readCache t s = .ok (some (.list ids)) := by
  obtain ⟨-, hmemory⟩ := initializeFallback_memory t s
  cases hread : readCache t s with
  | error e =>
    rw [hread] at hmemory
    exact ⟨fun _ => .inl ⟨e, rfl⟩, fun _ => populated_congr hmemory hs⟩
  | ok r =>
    rw [hread] at hmemory
    constructor
    · intro hparts
      obtain ⟨ids, hne, hids⟩ := hparts
      rw [hmemory] at hids
      cases r with
      | none =>
        have hempty : [] = ids := by simpa using hids
        exact absurd hempty.symm hne
      | some held =>
        rw [Option.some.inj hids]
        exact .inr ⟨ids, hne, rfl⟩
    · intro hparts
      rcases hparts with ⟨e, he⟩ | ⟨ids, hne, hids⟩
      · cases he
      · rw [Except.ok.inj hids] at hmemory
        exact ⟨ids, hne, hmemory⟩

omit [Runtime] in
private theorem not_populated_empty {s : BlacklistCache} (h : s.channelIds = some (.list [])) :
    ¬Populated s := by
  intro hs
  obtain ⟨ids, hne, hids⟩ := hs
  have hempty : [] = ids := by simpa using h.symm.trans hids
  exact hne hempty.symm

omit [Runtime] in
/-- The fallback that keeps a populated list holds what it held, or what it has read. -/
private theorem fallback_source {t : Tick} {s : BlacklistCache} (h : (∃ e, readCache t s = .error e) ∨
    ∃ ids, ids ≠ [] ∧ readCache t s = .ok (some (.list ids))) :
    (initializeFallback t s).2.channelIds = s.channelIds ∨
      readCache t s = .ok (initializeFallback t s).2.channelIds := by
  obtain ⟨-, hmemory⟩ := initializeFallback_memory t s
  rcases h with ⟨e, hread⟩ | ⟨ids, -, hread⟩
  · rw [hread] at hmemory
    exact .inl hmemory
  · rw [hread] at hmemory ⊢
    rw [hmemory]
    exact .inr rfl

/-- A start keeps a populated list exactly when it meets its condition. -/
private theorem start_keepsList_iff (t : Tick) (s : BlacklistCache) :
    KeepsList s (.initializeCache t) ↔ (Populated s → StartKeeps t s) := by
  simp only [KeepsList, StartKeeps, cacheStep, CacheOp.tick]
  rcases initializeCache_cases t s with ⟨hnone, hstart⟩ | ⟨hids, hok, hstart⟩ |
    ⟨hids, e, herror, hstart⟩
  · rw [hstart, if_pos hnone]
    constructor
    · intro h hs
      exact (fallback_populated_iff hs).mp (h hs).1
    · intro h hs
      refine ⟨(fallback_populated_iff hs).mpr (h hs), ?_⟩
      rcases fallback_source (h hs) with hsame | hread
      · exact .inl hsame
      · exact .inr (.inr hread)
  · rw [hstart, if_neg hids]
    have hwritten := (writeCache_ok_iff t _ s).mp hok
    exact ⟨fun _ _ => hwritten, fun _ _ => ⟨⟨_, hids, rfl⟩, .inr (.inl rfl)⟩⟩
  · rw [hstart, if_neg hids]
    -- ids without a JSON text have emptied the file, and the fallback finds nothing in it
    obtain ⟨hopen, hnone, htorn⟩ := writeCache_raises t _ s herror
    obtain ⟨-, hmemory⟩ := initializeFallback_memory t (writeCache t (fetchFromRds t.rds) s).2
    rw [readCache_torn htorn] at hmemory
    constructor
    · intro h hs
      exact absurd (h hs).1 (not_populated_empty hmemory)
    · intro h hs
      rcases h hs with h | h
      · exact absurd h hopen
      · rw [hnone] at h
        cases h

private theorem refresh_keepsList (t : Tick) (s : BlacklistCache) : KeepsList s (.refresh t) := by
  rcases refresh_cases t s with ⟨-, hstep⟩ | ⟨hids, -, hstep⟩ | ⟨-, e, -, hstep⟩
  · apply keepsList_of_memory
    simp only [cacheStep, hstep]
  · intro _
    have hmemory : (cacheStep s (.refresh t)).channelIds = some (.list (fetchFromRds t.rds)) := by
      simp only [cacheStep, hstep]
    exact ⟨⟨_, hids, hmemory⟩, .inr (.inl hmemory)⟩
  · apply keepsList_of_memory
    simp only [cacheStep, hstep]
    exact (writeCache_memory t _ s).1

/-- One operation keeps a populated list exactly when it meets its condition. -/
theorem cacheStep_keepsList_iff (s : BlacklistCache) (op : CacheOp) :
    KeepsList s op ↔ OutageSafe s op := by
  cases op with
  | initializeCache t => exact start_keepsList_iff t s
  | refresh t => exact ⟨fun _ => trivial, fun _ => refresh_keepsList t s⟩
  | getChannelIds t =>
    refine ⟨fun _ => trivial, fun _ hs => ?_⟩
    obtain ⟨ids, -, hids⟩ := id hs
    exact keepsList_of_memory (by simp only [cacheStep, getChannelIds_memory hids]) hs
  | isBlacklisted t c =>
    refine ⟨fun _ => trivial, fun _ hs => ?_⟩
    obtain ⟨ids, -, hids⟩ := id hs
    exact keepsList_of_memory (by simp only [cacheStep, isBlacklisted_memory hids]) hs

private theorem populated_run {s : BlacklistCache} {ops : List CacheOp} (hs : Populated s)
    (h : Along cacheStep OutageSafe s ops) : Populated (run cacheStep s ops) := by
  refine invariant_run ?_ hs h
  intro s op hs hsafe
  exact ((cacheStep_keepsList_iff s op).mpr hsafe hs).1

/-- In a run whose starts meet their condition, every operation keeps a populated list, and a list
that is populated once stays so to the end. -/
theorem run_keepsList {file : CacheFile} {ops : List CacheOp}
    (h : Along cacheStep OutageSafe (fresh file) ops) :
    (∀ pre op post, ops = pre ++ op :: post → KeepsList (run cacheStep (fresh file) pre) op) ∧
      ∀ pre post, ops = pre ++ post → Populated (run cacheStep (fresh file) pre) →
        Populated (run cacheStep (fresh file) ops) := by
  constructor
  · intro pre op post hops
    rw [hops, along_append] at h
    exact (cacheStep_keepsList_iff _ op).mpr h.2.1
  · intro pre post hops hpre
    rw [hops, along_append] at h
    rw [hops, run_append]
    exact populated_run hpre h.2

end Outage

section Samples

def sampleFetched : Tick := ⟨.rows [.text "ch1"], false, .openFails, 1⟩

def sampleOutage : Tick := ⟨.fails, false, .completes, 2⟩

theorem run_keepsList_refresh :
    @Populated (@run _ _ (@cacheStep asciiRuntime) (fresh .absent)
      [.initializeCache sampleFetched, .refresh sampleOutage]) := by
  have hpre : Populated (@run _ _ (@cacheStep asciiRuntime) (fresh .absent)
      [.initializeCache sampleFetched]) := ⟨[.json (.str "ch1")], by decide, rfl⟩
  refine (@run_keepsList asciiRuntime .absent [.initializeCache sampleFetched, .refresh sampleOutage]
    ⟨?_, trivial, trivial⟩).2 [.initializeCache sampleFetched] [.refresh sampleOutage] rfl hpre
  intro hparts
  obtain ⟨ids, -, hids⟩ := hparts
  cases hids

/-- A second start during an outage, without a file, empties the list that the first one fetched. -/
theorem second_start_empties :
    Populated (@run _ _ (@cacheStep asciiRuntime) (fresh .absent) [.initializeCache sampleFetched]) ∧
      ¬Populated (@run _ _ (@cacheStep asciiRuntime) (fresh .absent)
        [.initializeCache sampleFetched, .initializeCache sampleOutage]) := by
  refine ⟨⟨[.json (.str "ch1")], by decide, rfl⟩, ?_⟩
  intro hparts
  obtain ⟨ids, hne, hids⟩ := hparts
  have hempty : some (Held.list []) = some (.list ids) := hids
  cases hempty
  exact hne rfl

end Samples

end TvEvents
