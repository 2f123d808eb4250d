import TvEvents.Cache.Machine
import TvEvents.Legacy.Blacklist

namespace TvEvents.Legacy

open JsonText Runs BlacklistCache

structure Lookup where
  channelId : Json
  rds : RdsAnswer
  now : ℚ

/-- Both services meet the same world, in which every write succeeds and the cache file either can be
opened for reading or not. -/
def Lookup.tick (readFails : Bool) (l : Lookup) : Tick := ⟨l.rds, readFails, .completes, l.now⟩

def TextRows : RdsAnswer → Prop
  | .fails => True
  | .rows rs => ∀ r ∈ rs, r = .null ∨ ∃ s, r = .text s

/-- The held documents answer alike for every id but the empty one. -/
def SameAnswers (held held' : Held) : Prop := ∀ c ≠ "", held.has c = held'.has c

section Parity

variable [Runtime]

def legacyStep (readFails : Bool) (s : TvEventsRds) (l : Lookup) : TvEventsRds :=
  (s.isBlacklistedChannel (l.tick readFails) l.channelId).2

def rebuiltStep (readFails : Bool) (s : BlacklistCache) (l : Lookup) : BlacklistCache :=
  (s.isBlacklisted (l.tick readFails) l.channelId).2

/-- How the two caches are related along a run: both memories are empty above one file, or the
legacy one raises on its file for good, or both hold documents that answer alike. -/
inductive Related (readFails : Bool) : TvEventsRds → BlacklistCache → Prop
  | empty {s : TvEventsRds} {s' : BlacklistCache} (hs : s.channelIds = none)
      (hs' : s'.channelIds = none) (hfile : s'.file = s.file) : Related readFails s s'
  | stuck {s : TvEventsRds} {s' : BlacklistCache} (hs : s.channelIds = none)
      (hraise : ∀ t : Tick, t.readFails = readFails → ∃ e, s.readData t = .error e) :
      Related readFails s s'
  | held {s : TvEventsRds} {s' : BlacklistCache} {ids ids' : Held} (hs : s.channelIds = some ids)
      (hs' : s'.channelIds = some ids') (hsame : SameAnswers ids ids') : Related readFails s s'

omit [Runtime] in
theorem sameAnswers_refl (held : Held) : SameAnswers held held := fun _ _ => rfl

omit [Runtime] in
/-- What the legacy cache reads, the rebuilt one reads from the same file. -/
theorem readCache_of_readData {t : Tick} {s : TvEventsRds} {s' : BlacklistCache}
    (hfile : s'.file = s.file) {held : Option Held} (h : s.readData t = .ok held) :
    readCache t s' = .ok held := by
  unfold TvEventsRds.readData at h
  unfold readCache
  rw [hfile]
  by_cases hfails : t.readFails = true
  · rwa [if_pos hfails] at h ⊢
  · rw [if_neg hfails] at h ⊢
    cases hcontent : s.file with
    | absent =>
      rw [hcontent] at h
      exact h
    | undecodable =>
      rw [hcontent] at h
      cases h
    | text cs =>
      rw [hcontent] at h
      simp only at h ⊢
      cases hloads : loads cs with
      | error e =>
        rw [hloads] at h
        cases h
      | ok v =>
        rw [hloads] at h
        cases v <;> exact h

omit [Runtime] in
theorem readData_tick {t t' : Tick} (h : t.readFails = t'.readFails) (s : TvEventsRds) :
    s.readData t = s.readData t' := by
  unfold TvEventsRds.readData
  rw [h]

omit [Runtime] in
theorem textRows_json {answer : RdsAnswer} (h : TextRows answer) :
    ∀ id ∈ TvEventsRds.fetchallChannelIds answer, ∃ v, id = .json v := by
  intro id hid
  cases answer with
  | fails => cases hid
  | rows rs =>
    obtain ⟨r, hr, rfl⟩ := List.mem_map.mp hid
    rcases h r hr with rfl | ⟨s, rfl⟩
    · exact ⟨.null, rfl⟩
    · exact ⟨.str s, rfl⟩

omit [Runtime] in
/-- The rebuilt query drops NULL and empty ids, and nothing else. -/
theorem mem_fetchFromRds_iff {answer : RdsAnswer} (h : TextRows answer) {c : String} (hc : c ≠ "") :
    .json (.str c) ∈ TvEventsRds.fetchallChannelIds answer ↔ .json (.str c) ∈ fetchFromRds answer := by
  cases answer with
  | fails => rfl
  | rows rs =>
    simp only [TvEventsRds.fetchallChannelIds, fetchFromRds, List.mem_map, List.mem_filter]
    constructor
    · intro hmem
      obtain ⟨r, hr, hid⟩ := hmem
      refine ⟨r, ⟨hr, ?_⟩, hid⟩
      rcases h r hr with rfl | ⟨s, rfl⟩
      · cases hid
      · have hsame : s = c := by simpa [RdsValue.channelId] using hid
        simp [RdsValue.truthy, hsame, hc]
    · intro hmem
      obtain ⟨r, ⟨hr, -⟩, hid⟩ := hmem
      exact ⟨r, hr, hid⟩

omit [Runtime] in
theorem sameAnswers_fetched {answer : RdsAnswer} (h : TextRows answer) :
    SameAnswers (.list (TvEventsRds.fetchallChannelIds answer)) (.list (fetchFromRds answer)) := by
  intro c hc
  have hiff := mem_fetchFromRds_iff h hc
  simp only [Held.has, Except.ok.injEq]
  rw [Bool.eq_iff_iff, List.contains_iff_mem, List.contains_iff_mem]
  exact hiff

omit [Runtime] in
theorem fetchFromRds_mem {answer : RdsAnswer} {id : ChannelId} (h : id ∈ fetchFromRds answer) :
    id ∈ TvEventsRds.fetchallChannelIds answer := by
  cases answer with
  | fails => exact h
  | rows rs =>
    obtain ⟨r, hr, rfl⟩ := List.mem_map.mp h
    exact List.mem_map_of_mem (List.mem_filter.mp hr).1

theorem blacklistedChannelIds_fetched {t : Tick} {s : TvEventsRds} (hs : s.channelIds = none)
    (hread : s.readData t = .ok none) (hwrite : t.write = .completes) (hrows : TextRows t.rds) :
    (s.blacklistedChannelIds t).1 = .ok (.list (TvEventsRds.fetchallChannelIds t.rds)) ∧
      (s.blacklistedChannelIds t).2.channelIds =
        some (.list (TvEventsRds.fetchallChannelIds t.rds)) := by
  obtain ⟨l, hl⟩ := jsonValues_total (textRows_json hrows)
  have hdumps : dumpsIds (TvEventsRds.fetchallChannelIds t.rds) = some (dumps (.arr l)) := by
    rw [dumpsIds, hl, Option.map_some]
  unfold TvEventsRds.blacklistedChannelIds
  simp only [hs, hread]
  by_cases hids : TvEventsRds.fetchallChannelIds t.rds = []
  · simp [hids]
  · simp [hids, TvEventsRds.storeData, hwrite, hdumps]

theorem getChannelIds_fetched {t : Tick} {s : BlacklistCache} (hs : s.channelIds = none)
    (hread : readCache t s = .ok none) (hwrite : t.write = .completes) (hrows : TextRows t.rds) :
    (s.getChannelIds t).1 = .ok (.list (fetchFromRds t.rds)) ∧
      (s.getChannelIds t).2.channelIds = some (.list (fetchFromRds t.rds)) := by
  obtain ⟨l, hl⟩ := jsonValues_total fun id hid => textRows_json hrows id (fetchFromRds_mem hid)
  have hdumps : dumpsIds (fetchFromRds t.rds) = some (dumps (.arr l)) := by
    rw [dumpsIds, hl, Option.map_some]
  unfold getChannelIds
  simp only [hs, hread]
  by_cases hids : fetchFromRds t.rds = []
  · simp [hids]
  · simp [hids, writeCache, hwrite, hdumps]

omit [Runtime] in
/-- Two caches that answer what they then hold stay related, if the documents answer alike. -/
private theorem related_answers {readFails : Bool} {r : Except PyExc Held × TvEventsRds}
    {r' : Except PyExc Held × BlacklistCache} {ids ids' : Held} (hanswer : r.1 = .ok ids)
    (hheld : r.2.channelIds = some ids) (hanswer' : r'.1 = .ok ids')
    (hheld' : r'.2.channelIds = some ids') (hsame : SameAnswers ids ids') :
    Related readFails r.2 r'.2 ∧
      ∀ held, r.1 = .ok held → ∃ held', r'.1 = .ok held' ∧ SameAnswers held held' := by
  refine ⟨.held hheld hheld' hsame, ?_⟩
  intro held h
  obtain rfl := Except.ok.inj (hanswer.symm.trans h)
  exact ⟨ids', hanswer', hsame⟩

/-- The legacy answer of the ids, when there is one, is that of the rebuilt cache, and the caches stay
related. -/
theorem channelIds_related {readFails : Bool} {s : TvEventsRds} {s' : BlacklistCache} {t : Tick}
    (h : Related readFails s s') (hread : t.readFails = readFails) (hwrite : t.write = .completes)
    (hrows : TextRows t.rds) :
    Related readFails (s.blacklistedChannelIds t).2 (s'.getChannelIds t).2 ∧
      ∀ ids, (s.blacklistedChannelIds t).1 = .ok ids →
        ∃ ids', (s'.getChannelIds t).1 = .ok ids' ∧ SameAnswers ids ids' := by
  cases h with
  | empty hs hs' hfile =>
    cases hdata : s.readData t with
    | error e =>
      have hraised : s.blacklistedChannelIds t = (.error e, s) := by
        simp only [TvEventsRds.blacklistedChannelIds, hs, hdata]
      rw [hraised]
      refine ⟨.stuck hs ?_, fun ids hids => by cases hids⟩
      intro t' ht'
      rw [readData_tick (ht'.trans hread.symm) s]
      exact ⟨e, hdata⟩
    | ok cached =>
      have hcached := readCache_of_readData hfile hdata
      cases cached with
      | some held =>
        have hlegacy : s.blacklistedChannelIds t = (.ok held, { s with channelIds := some held }) := by
          simp only [TvEventsRds.blacklistedChannelIds, hs, hdata]
        have hrebuilt : s'.getChannelIds t = (.ok held, { s' with channelIds := some held }) := by
          simp only [getChannelIds, hs', hcached]
        rw [hlegacy, hrebuilt]
        exact related_answers rfl rfl rfl rfl (sameAnswers_refl held)
      | none =>
        obtain ⟨hanswer, hheld⟩ := blacklistedChannelIds_fetched hs hdata hwrite hrows
        obtain ⟨hanswer', hheld'⟩ := getChannelIds_fetched hs' hcached hwrite hrows
        exact related_answers hanswer hheld hanswer' hheld' (sameAnswers_fetched hrows)
  | stuck hs hraise =>
    obtain ⟨e, he⟩ := hraise t hread
    have hraised : s.blacklistedChannelIds t = (.error e, s) := by
      simp only [TvEventsRds.blacklistedChannelIds, hs, he]
    rw [hraised]
    exact ⟨.stuck hs hraise, fun ids hids => by cases hids⟩
  | @held ids ids' hs hs' hsame =>
    have hlegacy : s.blacklistedChannelIds t = (.ok ids, s) := by
      simp only [TvEventsRds.blacklistedChannelIds, hs]
    rw [hlegacy, getChannelIds_memory hs']
    exact related_answers rfl hs rfl hs' hsame

theorem isBlacklistedChannel_state (t : Tick) (c : Json) (s : TvEventsRds) :
    (s.isBlacklistedChannel t c).2 = if c = .null then s else (s.blacklistedChannelIds t).2 := by
  unfold TvEventsRds.isBlacklistedChannel
  split_ifs
  · rfl
  · rcases s.blacklistedChannelIds t with ⟨result, s'⟩
    cases result <;> rfl

theorem lookup_related {readFails : Bool} (s : TvEventsRds) (s' : BlacklistCache) (l : Lookup)
    (h : Related readFails s s') (hrows : TextRows l.rds) :
    Related readFails (legacyStep readFails s l) (rebuiltStep readFails s' l) := by
  unfold legacyStep rebuiltStep
  rw [isBlacklistedChannel_state, isBlacklisted_state]
  split_ifs
  · exact h
  · exact (channelIds_related h rfl rfl hrows).1

/-- A lookup of related caches that the legacy one answers is answered alike. -/
theorem lookup_answer {readFails : Bool} {s : TvEventsRds} {s' : BlacklistCache} {l : Lookup} {b : Bool}
    (h : Related readFails s s') (hrows : TextRows l.rds) (hc : str l.channelId ≠ "")
    (hanswer : (s.isBlacklistedChannel (l.tick readFails) l.channelId).1 = .ok b) :
    (s'.isBlacklisted (l.tick readFails) l.channelId).1 = .ok b := by
  have hids := (@channelIds_related _ _ _ _ (l.tick readFails) h rfl rfl hrows).2
  unfold TvEventsRds.isBlacklistedChannel at hanswer
  unfold isBlacklisted
  split_ifs at hanswer ⊢
  · exact hanswer
  · rcases hlegacy : s.blacklistedChannelIds (l.tick readFails) with ⟨result, s₁⟩
    rw [hlegacy] at hids hanswer
    cases result with
    | error e => cases hanswer
    | ok ids =>
      obtain ⟨ids', hrebuilt, hsame⟩ := hids ids rfl
      rcases hpair : s'.getChannelIds (l.tick readFails) with ⟨result', s₂⟩
      rw [hpair] at hrebuilt
      obtain rfl : result' = .ok ids' := hrebuilt
      have hsameAnswer : ids'.has (str l.channelId) = .ok b := by
        rw [← hsame _ hc]
        exact hanswer
      exact hsameAnswer

/-- In every run of lookups, from an empty memory above any file, each answer of the legacy cache for
an id that is not empty is the answer of the rebuilt one. -/
theorem lookup_parity {file : CacheFile} {readFails : Bool} {ls : List Lookup} {l : Lookup} {b : Bool}
    (hrows : ∀ l' ∈ ls ++ [l], TextRows l'.rds) (hc : str l.channelId ≠ "")
    (h : ((run (legacyStep readFails) (.fresh file) ls).isBlacklistedChannel (l.tick readFails)
      l.channelId).1 = .ok b) :
    ((run (rebuiltStep readFails) (.fresh file) ls).isBlacklisted (l.tick readFails)
      l.channelId).1 = .ok b := by
  have hstart : Related readFails (TvEventsRds.fresh file) (BlacklistCache.fresh file) :=
    .empty rfl rfl rfl
  have hrun : Related readFails (run (legacyStep readFails) (.fresh file) ls)
      (run (rebuiltStep readFails) (.fresh file) ls) := by
    apply simulation_run _ hstart fun l' hl' => hrows l' (List.mem_append_left _ hl')
    intro s s' l' hrelated hrow
    exact lookup_related s s' l' hrelated hrow
  have hrow : TextRows l.rds := hrows l (by simp)
  exact lookup_answer hrun hrow hc h

end Parity

section Samples

def sampleLookup : Lookup := ⟨.int 7, .rows [.null, .text "", .text "7"], 1⟩

theorem lookup_parity_second :
    (@isBlacklisted asciiRuntime (sampleLookup.tick false) (.int 7)
      (run (@rebuiltStep asciiRuntime false) (.fresh .absent) [sampleLookup])).1 = .ok true := by
  let _ : Runtime := asciiRuntime
  refine @lookup_parity asciiRuntime .absent false [sampleLookup] sampleLookup true ?_ (by decide)
    (by decide +kernel)
  intro l hl
  have hsample : l = sampleLookup := by simpa using hl
  rw [hsample]
  intro r hr
  have hrows : r = .null ∨ r = .text "" ∨ r = .text "7" := by simpa using hr
  rcases hrows with rfl | rfl | rfl
  · exact .inl rfl
  · exact .inr ⟨_, rfl⟩
  · exact .inr ⟨_, rfl⟩

end Samples

end TvEvents.Legacy
